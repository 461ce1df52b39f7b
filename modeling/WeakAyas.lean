import WeakAyas.Wire.Package
import WeakAyas.Wire.Decimal
import WeakAyas.Wire.Grammar
import WeakAyas.Driver.Atomicity
import WeakAyas.Driver.Escapes
import WeakAyas.Database.Units
import WeakAyas.Database.Isolation
import WeakAyas.Database.Buckets
import WeakAyas.Database.Drilldown
import WeakAyas.Database.Seconds
import WeakAyas.Manager.Sessions
import WeakAyas.Manager.FdReuse
import WeakAyas.Manager.Replies
import WeakAyas.Manager.Privilege
import WeakAyas.Manager.Accounts
import WeakAyas.Manager.Listing
import WeakAyas.Manager.PartialWrites
import WeakAyas.Manager.Minutes
import WeakAyas.Client.Typed
import WeakAyas.Client.Ids
import WeakAyas.Client.Completed
import WeakAyas.Client.Splitting
import WeakAyas.Client.RecvLoop
import WeakAyas.Dispatch.Serial
import WeakAyas.Dispatch.Schedule
import WeakAyas.Dispatch.Mutex
import WeakAyas.Dispatch.Order
import WeakAyas.Dispatch.SharedCond
import WeakAyas.Dispatch.Rest
import WeakAyas.Dispatch.Outlive
import WeakAyas.Dispatch.Returns
import WeakAyas.Pool.Served
import WeakAyas.Server.Registration
import WeakAyas.Server.Shutdown
import WeakAyas.Server.Standstill
import WeakAyas.Server.Sockets
import WeakAyas.Database.Figures
import WeakAyas.System.Console
import WeakAyas.System.Authority
import WeakAyas.System.Whole
import WeakAyas.System.Processes
