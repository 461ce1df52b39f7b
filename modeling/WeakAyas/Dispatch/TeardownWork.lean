/-
# The work that is left to `~EpollWorker`

Beside the work of the threads there is that of the destructor: the entries that its
loop has not visited, and the steps from one to the next.  A notification wakes it, and
gives it less work than the thread that notifies has lost.  So threads and destructor
take only finitely many steps by themselves (`next_work`).
-/

import WeakAyas.Dispatch.AtRest
import WeakAyas.Dispatch.Outlive
import WeakAyas.Dispatch.WorkSteps

namespace WeakAyas
namespace Dispatch

open TransitionSystem

namespace Teardown

variable {n : ℕ} {s s' : Teardown}

/-- The entries of `fd_infos` that the loop of the destructor has not visited. -/
def unvisited (s : Teardown) (visited : List Fd) : ℕ :=
  (s.keys.filter fun fd => decide (fd ∉ visited)).length

/-- The work of the destructor, but for what it sleeps through. -/
def destructorWork (s : Teardown) : ℕ :=
  match s.destructor with
  | .alive => 0
  | .join => 6 * s.unvisited [] + 3
  | .next visited => 6 * s.unvisited visited + 2
  | .lock fd _ visited => 6 * s.unvisited (visited ++ [fd]) + 7
  | .relock fd _ visited => 6 * s.unvisited (visited ++ [fd]) + 6
  | .check fd _ visited => 6 * s.unvisited (visited ++ [fd]) + 5
  | .asleep fd _ visited => 6 * s.unvisited (visited ++ [fd]) + 3
  | .unlock fd _ visited => 6 * s.unvisited (visited ++ [fd]) + 3
  | .closeEpoll => 1
  | .returned => 0

/-- Until the epoll thread has ended, that is left to do. -/
def loopWork (s : Teardown) : ℕ := if s.threads.loop = .ended then 0 else 2

/-- The `EventWrapper`s that are still to be deleted. -/
def returningWork (n : ℕ) (s : Teardown) : ℕ :=
  ∑ i ∈ Finset.range n, if s.returning i = none then 0 else 1

/-- The work that is left to the threads and the destructor.  Who notifies has more
left than whom it wakes. -/
def work (n : ℕ) (s : Teardown) : ℕ :=
  2 * s.threads.work n + s.loopWork + s.returningWork n + s.destructorWork

end Teardown

end Dispatch
end WeakAyas
