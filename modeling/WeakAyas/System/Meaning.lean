/-
# What a command does

The console and the server together, for one session: a command logs the session
in, makes a change of the tables or reads them, and is answered by one text or by
none (`Does`).

On an undisturbed database the handler of a command does just this, whatever the
tables hold (`exists_does_handleRequest`).
-/

import WeakAyas.Client.Typed
import WeakAyas.Database.Changes
import WeakAyas.Manager.SendData
import WeakAyas.System.Requests

namespace WeakAyas
namespace System

open Driver Database Manager Client

variable {κ : Type} [DecidableEq κ] {collation : Bytes → κ} {fits : Mutation → Prop}
  {dbms : Dbms Tables}

/-! ### Commands -/

/-- A session: its user, the id that its worker takes for Oscar's, and the tables. -/
structure Desk where
  user : Option ℤ
  special : ℤ
  db : Tables

/-- The commands that are Oscar's. -/
def privileged : Command → Bool
  | .deleteUser | .insertProblem | .deleteProblem | .insertType | .deleteType => true
  | .login | .register | .queryUnitsData | .queryUnitDetail | .getSubmission | .insertSubmission
  | .deleteSubmission => false

/-- The commands that need no session. -/
def isOpen : Command → Bool
  | .login | .register => true
  | _ => false

/-- The session may run the command, as this user. -/
def Desk.May (d : Desk) (c : Command) (user_id : ℤ) : Prop :=
  isOpen c = true ∨ d.user = some user_id ∧ (privileged c = true → user_id = d.special)

/-- The change that a command asks for. -/
def change (c : Command) (user_id : ℤ) (answers : List Bytes) : Option Mutation :=
  (c.operation user_id answers).bind Action.mutation

/-- What is said of a change. -/
def report (user_id : ℤ) (success : Bool) : Command → List Bytes → Bytes
  | .register, [username] =>
    if success then text "[Register] username = " ++ username ++ text " , Successful!"
    else text "[Register] username = " ++ username ++ text " , Failed!"
  | .deleteUser, [username] =>
    text "[DeleteUser] user_name = " ++ username ++ text " for user_id = " ++ toText user_id ++
      if success then text " deleted successfully!" else text " deletion failed!"
  | .insertProblem, [id, title, _] =>
    text "[InsertProblem] problemId = " ++ id ++ text ", problem title = " ++ title ++
      text " for user_id = " ++ toText user_id ++
      if success then text " is successful!" else text " is fail!"
  | .deleteProblem, [id] =>
    text "[DeleteProblem] problemId = " ++ id ++ text " for user_id = " ++ toText user_id ++
      if success then text " deleted successfully!" else text " deletion failed!"
  | .insertType, [id, type] =>
    text "[InsertProblemType] problemId = " ++ id ++ text ", problem type = " ++ type ++
      text " for user_id = " ++ toText user_id ++
      if success then text " inserted successfully!" else text " insertion failed!"
  | .deleteType, [id, type] =>
    text "[DeleteProblemType] problemId = " ++ id ++ text ", problem type = " ++ type ++
      text " for user_id = " ++ toText user_id ++
      if success then text " deleted successfully!" else text " deletion failed!"
  | .insertSubmission, [id, status, time] =>
    text "[AddSubmissions] problem = " ++ id ++ text ", solve status = " ++ status ++
      text ", solve time = " ++ time ++ text " for user_id = " ++ toText user_id ++
      if success then text " is successful!" else text " is fail!"
  | .deleteSubmission, [id] =>
    text "[DeleteSubmissions] submission ID = " ++ id ++ text " for user_id = " ++
      toText user_id ++ if success then text " is successful!" else text " is fail!"
  | _, _ => []

/-- What a command does on a desk: the desk afterwards, and the text that answers
it. -/
inductive Does (collation : Bytes → κ) (fits : Mutation → Prop) (d : Desk) :
    Command → List Bytes → Desk → Option Bytes → Prop
  /-- A user of the name is logged in. -/
  | login {username : Bytes} {u : User} : u ∈ d.db.users → u.named collation username = true →
      u.id ≠ -1 →
      Does collation fits d .login [username]
        { d with
          user := some u.id
          special := if username = text "Oscar" then u.id else d.special }
        (some (text "[Login] " ++ username ++ text " login success (user_id = " ++ toText u.id ++
          text ")"))
  /-- Nobody has the name, or the one who has it has the id `-1`. -/
  | unknown {username : Bytes} :
      (∀ u ∈ d.db.users, u.named collation username = false) ∨
        (∃ u ∈ d.db.users, u.named collation username = true ∧ u.id = -1) →
      Does collation fits d .login [username]
        { d with special := if username = text "Oscar" then -1 else d.special }
        (some (text "[Login] Fail: " ++ username))
  /-- A command of nobody. -/
  | loginFirst {c : Command} {answers : List Bytes} : isOpen c = false → d.user = none →
      Does collation fits d c answers d (some (text "Please login or register first!"))
  /-- A command that is Oscar's, of somebody else. -/
  | passedOver {c : Command} {answers : List Bytes} {user_id : ℤ} : privileged c = true →
      d.user = some user_id → user_id ≠ d.special →
      Does collation fits d c answers d none
  /-- A change that is made. -/
  | changed {c : Command} {answers : List Bytes} {user_id : ℤ} {m : Mutation} {stamp : Stamp} :
      d.May c user_id → change c user_id answers = some m → Performs collation fits m d.db →
      Fresh stamp d.db m →
      Does collation fits d c answers { d with db := effect collation stamp m d.db }
        (some (report user_id true c answers))
  /-- A change that is not made. -/
  | unchanged {c : Command} {answers : List Bytes} {user_id : ℤ} {m : Mutation} :
      d.May c user_id → change c user_id answers = some m → ¬ Performs collation fits m d.db →
      Does collation fits d c answers d (some (report user_id false c answers))
  /-- The units of the user, each in some spelling. -/
  | unitsData {user_id : ℤ} {unit : Bag.Shows unitColumn} {units : List Units} :
      d.user = some user_id →
      units.Perm (if user_id = -1 then [] else selectUnitsData collation unit user_id d.db) →
      Does collation fits d .queryUnitsData [] d
        (some (text "[UnitsData] Send units stats for user_id = " ++ toText user_id ++
          text "\n" ++ getUnitsTable units))
  /-- The problems of a unit that the user has tried. -/
  | unitDetail {user_id : ℤ} {title : Bag.Shows titleColumn} {unit : Bytes}
      {stats : List UnitStat} : d.user = some user_id →
      stats.Perm
        (if user_id = -1 then [] else selectUnitdetail collation title user_id unit d.db) →
      Does collation fits d .queryUnitDetail [unit] d
        (some (text "[UnitDetail] Unit = " ++ unit ++ text " for user_id = " ++ toText user_id ++
          text "\n" ++ getUnitStatsTable stats))
  | submissions {user_id : ℤ} {id : Bytes} {subs : Submissions} : d.user = some user_id →
      subs.Perm (getSubmissions user_id (decimal id) d.db) →
      Does collation fits d .getSubmission [id] d
        (some (text "[GetSubmissions] problem = " ++ id ++ text " for user_id = " ++
          toText user_id ++ text "\n" ++ getProblemSubmitTable subs))

/-! ### What a request leaves -/

/-- The text is sent to `fd` when it fits in a package; `none` is nothing at all. -/
def Sends (fd : Fd) (sent : List (Fd × Bytes)) : Option Bytes → Prop
  | none => sent = []
  | some payload => ∃ type, sent =
      if payload.length ≤ maxBuffersize - 7 then [(fd, frame type payload)] else []

/-- What a handler leaves when it lets no exception through: the manager, the tables
and its answer. -/
structure Leaves (dbms : Dbms Tables) (f : ℕ → Bool) (db : Tables) (fd : Fd) (o : Outcome)
    (mgr : SQLManager) (db' : Tables) (reply : Option Bytes) : Prop where
  mgr_eq : o.mgr = mgr
  database_eq : databaseAfter dbms f o.log db = db'
  error_eq : o.error = none
  sends : Sends fd o.sent reply

section Leaves

variable {f : ℕ → Bool} {db db' : Tables} {fd : Fd} {mgr mgr' : SQLManager} {o : Outcome}
  {a : Action} {reply : Option Bytes}

/-- A handler that does nothing more sends nothing. -/
theorem leaves_finish : Leaves dbms f db fd (finish mgr) mgr db none := ⟨rfl, rfl, rfl, rfl⟩

/-- One that sends its text leaves the tables. -/
theorem leaves_sendData (type : UInt8) (payload : Bytes) :
    Leaves dbms f db fd (sendData mgr fd type payload) mgr db (some payload) :=
  ⟨rfl, rfl, rfl, type, sent_sendData type payload⟩

/-- A call that changes nothing and sends nothing goes before. -/
theorem leaves_after (hm : a.mutation = none) (ha : a.sent = none)
    (ho : Leaves dbms f db fd o mgr db' reply) : Leaves dbms f db fd (o.after a) mgr db' reply where
  mgr_eq := ho.mgr_eq
  database_eq := by
    rw [← ho.database_eq]
    show ((a :: o.log).filterMap Action.mutation).foldl _ db = _
    rw [List.filterMap_cons_none hm]
    rfl
  error_eq := ho.error_eq
  sends := by
    rw [Outcome.sent_after ha]
    exact ho.sends

/-- A call that is answered is followed by the rest. -/
theorem leaves_call {α : Type} {answer : Except SqlException α} {k : α → Outcome} {r : α}
    (hm : a.mutation = none) (ha : a.sent = none) (hanswer : answer = .ok r)
    (hk : Leaves dbms f db fd (k r) mgr' db' reply) :
    Leaves dbms f db fd (call mgr a answer k) mgr' db' reply := by
  rw [hanswer]
  exact leaves_after hm ha hk

/-- A change is reported. -/
theorem leaves_report {m : Mutation} {ok : Bool} {type : UInt8} {msg : Bool → Bytes}
    (hm : a.mutation = some m) (ha : a.sent = none)
    (hperform : m.perform dbms f db = (.ok ok, db')) :
    Leaves dbms f db fd (call mgr a (m.perform dbms f db).1 fun ok => sendData mgr fd type (msg ok))
      mgr db' (some (msg ok)) := by
  rw [hperform]
  refine ⟨rfl, ?_, rfl, type, ?_⟩
  · show ((a :: [Action.sendData fd type (msg ok)]).filterMap Action.mutation).foldl _ db = db'
    rw [List.filterMap_cons_some hm]
    show (m.perform dbms f db).2 = db'
    rw [hperform]
  · show ((sendData mgr fd type (msg ok)).after a).sent = _
    rw [Outcome.sent_after ha]
    exact sent_sendData type (msg ok)

end Leaves

/-! ### The handlers -/

/-- The faults of an undisturbed database: the `INSERT` that it refuses. -/
def refusals (dbms : Dbms Tables) (db : Tables) : Option Mutation → ℕ → Bool
  | some m, n => n == m.updateAt && inserts m && (dbms.update m.stmt db).2 == 0
  | none, _ => false

/-- These are the faults of an undisturbed database. -/
theorem undisturbed_refusals (dbms : Dbms Tables) (db : Tables) (m : Mutation) :
    Undisturbed dbms m db (refusals dbms db (some m)) := by
  intro n
  simp only [refusals, Bool.and_eq_true, beq_iff_eq, and_assoc]

/-- The desk of a descriptor. -/
def deskOf (mgr : SQLManager) (fd : Fd) (db : Tables) : Desk :=
  ⟨mgr.userFdToId fd, mgr.specialId, db⟩

section Handlers

variable {db : SqlDriver} {mgr : SQLManager} {fd : Fd} {pkg : SocketPackage} {c : Command}
  {answers : List Bytes} {user_id : ℤ}

/-- Nobody is told to log in. -/
theorem handleRequest_loginFirst (htype : pkg.cType = c.type.toByte) (hc : isOpen c = false)
    (huser : mgr.userFdToId fd = none) : handleRequest db mgr fd pkg =
      sendData mgr fd SqlProtocol.login.toByte (text "Please login or register first!") := by
  unfold handleRequest
  rw [htype, SqlProtocol.ofByte_toByte]
  cases c <;> first
    | exact absurd hc (by decide)
    | simp only [Command.type, handleUnitsdata, handleUnitdetail, handleProblemSubmissions,
        handleInsertSubmission, handleDeleteSubmission, handleDeleteUser, handleInsertProblem,
        handleDeleteProblem, handleInsertProblemType, handleDeleteProblemType, checkLogin, huser]

/-- Somebody else than Oscar is told nothing. -/
theorem handleRequest_passedOver (htype : pkg.cType = c.type.toByte) (hc : privileged c = true)
    (huser : mgr.userFdToId fd = some user_id) (hne : user_id ≠ mgr.specialId) :
    handleRequest db mgr fd pkg = finish mgr := by
  unfold handleRequest
  rw [htype, SqlProtocol.ofByte_toByte]
  cases c <;> first
    | exact absurd hc (by decide)
    | simp only [Command.type, handleDeleteUser, handleInsertProblem, handleDeleteProblem,
        handleInsertProblemType, handleDeleteProblemType, checkLogin, huser, checkSpecial,
        ne_eq, hne, not_false_eq_true, if_true]

variable {tables : Tables} {f : ℕ → Bool} {m : Mutation}

/-- **The handler of a change performs it and reports.** -/
theorem handleRequest_change (h : List.Forall₂ Prompt.Accepts c.prompts answers)
    (hids : c.InRange answers) (htype : pkg.cType = c.type.toByte) (hfields : getdata pkg = answers)
    (hmay : (deskOf mgr fd tables).May c user_id) (hm : change c user_id answers = some m) :
    ∃ a, c.operation user_id answers = some a ∧ a.mutation = some m ∧ a.sent = none ∧
      asks mgr fd pkg = some m ∧ handleRequest (driverOn dbms f tables) mgr fd pkg =
        call mgr a (m.perform dbms f tables).1 fun ok =>
          sendData mgr fd pkg.cType (report user_id ok c answers) := by
  have hown : isOpen c = false → mgr.userFdToId fd = some user_id := fun hc =>
    (hmay.resolve_left (by simp [hc])).1
  have hoscar : privileged c = true → user_id = mgr.specialId := fun hc =>
    (hmay.resolve_left (by cases c <;> simp_all [privileged, isOpen])).2 hc
  have hof : SqlProtocol.ofByte pkg.cType = some c.type := by
    rw [htype, SqlProtocol.ofByte_toByte]
  unfold handleRequest asks
  rw [hof]
  cases c <;> simp only [Command.prompts, List.forall₂_cons_left_iff,
    List.forall₂_nil_left_iff] at h
  case login | queryUnitDetail | getSubmission =>
    obtain ⟨a, _, -, rfl, rfl⟩ := h
    simp [change, Command.operation, Action.mutation] at hm
  case queryUnitsData =>
    subst h
    simp [change, Command.operation, Action.mutation] at hm
  case register =>
    obtain ⟨username, _, -, rfl, rfl⟩ := h
    obtain rfl := Option.some.inj hm
    refine ⟨_, rfl, rfl, rfl, ?_, ?_⟩
    · simp only [Command.type, hfields, List.head?_cons, Option.map_some]
    · simp only [Command.type, handleRegister, hfields]
      rfl
  case insertSubmission =>
    obtain ⟨id, _, hid, ⟨status, _, hstatus, ⟨time, _, -, rfl, rfl⟩, rfl⟩, rfl⟩ := h
    obtain rfl := Option.some.inj hm
    have huser := hown rfl
    have hn : stoi id = some (decimal id : ℤ) := stoi_number hid (hids _ (.head _) rfl)
    have hbool : stringToBool status = (status == text "1") := by
      rcases status_of_accepts hstatus with rfl | rfl <;> decide
    refine ⟨_, rfl, rfl, rfl, ?_, ?_⟩
    · simp only [Command.type, huser, hfields, hn, hbool, Option.bind_some, Option.map_some]
    · simp only [Command.type, handleInsertSubmission, checkLogin, huser, hfields, withNumber, hn,
        hbool]
      rfl
  case deleteSubmission =>
    obtain ⟨id, _, hid, rfl, rfl⟩ := h
    obtain rfl := Option.some.inj hm
    have huser := hown rfl
    have hn : stoll id = some (decimal id : ℤ) := stoll_number hid (hids _ (.head _) rfl)
    refine ⟨_, rfl, rfl, rfl, ?_, ?_⟩
    · simp only [Command.type, huser, hfields, hn, Option.bind_some, Option.map_some]
    · simp only [Command.type, handleDeleteSubmission, checkLogin, huser, hfields, withNumber, hn]
      rfl
  case deleteUser =>
    obtain ⟨username, _, -, rfl, rfl⟩ := h
    obtain rfl := Option.some.inj hm
    have huser := hown rfl
    obtain rfl := hoscar rfl
    refine ⟨_, rfl, rfl, rfl, ?_, ?_⟩
    · simp only [Command.type, huser, hfields, if_true, privilegedOperation, Option.bind_some]
      rfl
    · simp only [Command.type, handleDeleteUser, checkLogin, huser, checkSpecial, hfields, ne_eq,
        not_true_eq_false, if_false]
      rfl
  case deleteProblem =>
    obtain ⟨id, _, hid, rfl, rfl⟩ := h
    obtain rfl := Option.some.inj hm
    have huser := hown rfl
    obtain rfl := hoscar rfl
    have hn : stoi id = some (decimal id : ℤ) := stoi_number hid (hids _ (.head _) rfl)
    refine ⟨_, rfl, rfl, rfl, ?_, ?_⟩
    · simp only [Command.type, huser, hfields, if_true, privilegedOperation, hn, Option.map_some,
        Option.bind_some]
      rfl
    · simp only [Command.type, handleDeleteProblem, checkLogin, huser, checkSpecial, hfields, ne_eq,
        not_true_eq_false, if_false, withNumber, hn]
      rfl
  case insertType | deleteType =>
    obtain ⟨id, _, hid, ⟨type, _, -, rfl, rfl⟩, rfl⟩ := h
    obtain rfl := Option.some.inj hm
    have huser := hown rfl
    obtain rfl := hoscar rfl
    have hn : stoi id = some (decimal id : ℤ) := stoi_number hid (hids _ (.head _) rfl)
    refine ⟨_, rfl, rfl, rfl, ?_, ?_⟩
    · simp only [Command.type, huser, hfields, if_true, privilegedOperation, hn, Option.map_some,
        Option.bind_some]
      rfl
    · simp only [Command.type, handleInsertProblemType, handleDeleteProblemType, checkLogin, huser,
        checkSpecial, hfields, ne_eq, not_true_eq_false, if_false, withNumber, hn]
      rfl
  case insertProblem =>
    obtain ⟨id, _, hid, ⟨title, _, -, ⟨difficulty, _, -, rfl, rfl⟩, rfl⟩, rfl⟩ := h
    obtain rfl := Option.some.inj hm
    have huser := hown rfl
    obtain rfl := hoscar rfl
    have hn : stoi id = some (decimal id : ℤ) := stoi_number hid (hids _ (.head _) rfl)
    refine ⟨_, rfl, rfl, rfl, ?_, ?_⟩
    · simp only [Command.type, huser, hfields, if_true, privilegedOperation, hn, Option.map_some,
        Option.bind_some]
      rfl
    · simp only [Command.type, handleInsertProblem, checkLogin, huser, checkSpecial, hfields, ne_eq,
        not_true_eq_false, if_false, withNumber, hn]
      rfl

/-- A command that changes nothing asks for no change. -/
theorem asks_of_change_eq_none (h : List.Forall₂ Prompt.Accepts c.prompts answers)
    (htype : pkg.cType = c.type.toByte) (hc : change c user_id answers = none) :
    asks mgr fd pkg = none := by
  have hof : SqlProtocol.ofByte pkg.cType = some c.type := by
    rw [htype, SqlProtocol.ofByte_toByte]
  obtain ⟨a, ha⟩ := Command.exists_operation h user_id
  rw [change, ha, Option.bind_some] at hc
  unfold asks
  rw [hof]
  cases c <;> simp only [Command.prompts, List.forall₂_cons_left_iff,
    List.forall₂_nil_left_iff] at h
  case login | queryUnitDetail | getSubmission | queryUnitsData =>
    simp [Command.type, privilegedOperation]
  case register | deleteUser | deleteProblem | deleteSubmission =>
    obtain ⟨x, _, -, rfl, rfl⟩ := h
    obtain rfl := Option.some.inj ha
    simp [Action.mutation] at hc
  case insertType | deleteType =>
    obtain ⟨x, _, -, ⟨y, _, -, rfl, rfl⟩, rfl⟩ := h
    obtain rfl := Option.some.inj ha
    simp [Action.mutation] at hc
  case insertProblem | insertSubmission =>
    obtain ⟨x, _, -, ⟨y, _, -, ⟨z, _, -, rfl, rfl⟩, rfl⟩, rfl⟩ := h
    obtain rfl := Option.some.inj ha
    simp [Action.mutation] at hc

end Handlers

/-! ### A request -/

section Request

variable {db : Tables} {mgr : SQLManager} {fd : Fd} {pkg : SocketPackage} {c : Command}
  {answers : List Bytes} {user_id : ℤ}

/-- `getUserId` finds a user of the name. -/
theorem getUserId_cases (h : Enforces collation fits dbms) (username : Bytes) (db : Tables) :
    ∃ id, (driverOn dbms (fun _ => false) db).getUserId username = .ok id ∧
      ((id = -1 ∧ ∀ u ∈ db.users, u.named collation username = false) ∨
        ∃ u ∈ db.users, u.named collation username = true ∧ u.id = id) := by
  have hperm := h.getUserId username db
  refine ⟨_, Query.perform_getUserId dbms username db, ?_⟩
  rcases hrows : dbms.query ((Query.getUserId username).stmt db) db with _ | ⟨row, rows⟩
  · refine .inl ⟨rfl, fun u hu => ?_⟩
    rw [hrows, List.map_nil] at hperm
    have hnone := List.map_eq_nil_iff.1 (List.nil_perm.1 hperm)
    simpa using (List.filter_eq_nil_iff.1 hnone) u hu
  · have hmem : row.int "id" ∈ (db.users.filter (·.named collation username)).map User.id := by
      refine hperm.subset ?_
      rw [hrows]
      exact List.mem_cons_self
    obtain ⟨u, hu, hid⟩ := List.mem_map.1 hmem
    exact .inr ⟨u, (List.mem_filter.1 hu).1, (List.mem_filter.1 hu).2, hid⟩

/-- The login of a name. -/
theorem does_handleLogin (mgr : SQLManager) (db : Tables) (h : Enforces collation fits dbms)
    {username : Bytes} {rest : List Bytes} (hfields : getdata pkg = username :: rest) :
    ∃ mgr' reply, Leaves dbms (fun _ => false) db fd
        (handleLogin (driverOn dbms (fun _ => false) db) mgr fd pkg) mgr' db reply ∧
      Does collation fits (deskOf mgr fd db) .login [username] (deskOf mgr' fd db) reply := by
  obtain ⟨id, hid, hcases⟩ := getUserId_cases h username db
  -- what the attempt makes of the special id
  have hspecial : (if username = text "Oscar" then { mgr with specialId := id } else mgr) =
      ⟨mgr.userFdToId, if username = text "Oscar" then id else mgr.specialId⟩ := by
    split_ifs <;> rfl
  simp only [handleLogin, hfields]
  by_cases hne : id = -1
  · subst hne
    refine ⟨⟨mgr.userFdToId, if username = text "Oscar" then -1 else mgr.specialId⟩, _,
      leaves_call rfl rfl hid ?_, Does.unknown (hcases.imp And.right fun h => h)⟩
    rw [if_neg (by simp), hspecial]
    exact leaves_sendData _ _
  · obtain ⟨u, hu, hnamed, rfl⟩ := hcases.resolve_left fun hn => hne hn.1
    have hcheck : checkUserId u.id = true := bne_iff_ne.2 hne
    have hdesk : ∀ special, deskOf ((⟨mgr.userFdToId, special⟩ : SQLManager).setUser fd
        (some u.id)) fd db = ⟨some u.id, special, db⟩ := by
      intro special
      simp [deskOf, SQLManager.setUser]
    refine ⟨(⟨mgr.userFdToId, if username = text "Oscar" then u.id else mgr.specialId⟩ :
      SQLManager).setUser fd (some u.id), some (text "[Login] " ++ username ++
        text " login success (user_id = " ++ toText u.id ++ text ")"),
      leaves_call rfl rfl hid ?_, ?_⟩
    · rw [if_pos hne, if_pos hcheck, hspecial]
      exact leaves_after rfl rfl (leaves_sendData _ _)
    · rw [hdesk]
      exact Does.login hu hnamed hne

/-- A command of a user that reads the tables. -/
theorem does_reads (h : Enforces collation fits dbms)
    (hnodup : (db.submissions.map Submission.id).Nodup)
    (haccepts : List.Forall₂ Prompt.Accepts c.prompts answers) (hids : c.InRange answers)
    (htype : pkg.cType = c.type.toByte) (hfields : getdata pkg = answers) (hopen : isOpen c = false)
    (huser : mgr.userFdToId fd = some user_id) (hm : change c user_id answers = none) :
    ∃ reply, Leaves dbms (fun _ => false) db fd
        (handleRequest (driverOn dbms (fun _ => false) db) mgr fd pkg) mgr db reply ∧
      Does collation fits (deskOf mgr fd db) c answers (deskOf mgr fd db) reply := by
  obtain ⟨a, ha⟩ := Command.exists_operation haccepts user_id
  rw [change, ha, Option.bind_some] at hm
  unfold handleRequest
  rw [htype, SqlProtocol.ofByte_toByte]
  cases c <;> simp only [Command.prompts, List.forall₂_cons_left_iff,
    List.forall₂_nil_left_iff] at haccepts
  case login | register => exact absurd hopen (by decide)
  case queryUnitsData =>
    subst haccepts
    obtain ⟨_, units, hunits, hperm⟩ := h.toStandard.perform_selectUnitsData user_id db
    refine ⟨_, ?_, Does.unitsData huser hperm⟩
    simp only [Command.type, handleUnitsdata, checkLogin, huser]
    exact leaves_call rfl rfl hunits (leaves_sendData _ _)
  case queryUnitDetail =>
    obtain ⟨unit, _, -, rfl, rfl⟩ := haccepts
    obtain ⟨_, stats, hstats, hperm⟩ := h.toStandard.perform_selectUnitdetail user_id unit db
    refine ⟨_, ?_, Does.unitDetail huser hperm⟩
    simp only [Command.type, handleUnitdetail, checkLogin, huser, hfields]
    exact leaves_call rfl rfl hstats (leaves_sendData _ _)
  case getSubmission =>
    obtain ⟨id, _, hid, rfl, rfl⟩ := haccepts
    have hn : stoi id = some (decimal id : ℤ) := stoi_number hid (hids _ (.head _) rfl)
    obtain ⟨subs, hsubs, hperm⟩ := h.toStandard.perform_getSubmissions hnodup user_id (decimal id)
    refine ⟨_, ?_, Does.submissions huser hperm⟩
    simp only [Command.type, handleProblemSubmissions, checkLogin, huser, hfields, withNumber, hn]
    exact leaves_call rfl rfl hsubs (leaves_sendData _ _)
  case deleteUser | deleteProblem | deleteSubmission =>
    obtain ⟨x, _, -, rfl, rfl⟩ := haccepts
    obtain rfl := Option.some.inj ha
    simp [Action.mutation] at hm
  case insertType | deleteType =>
    obtain ⟨x, _, -, ⟨y, _, -, rfl, rfl⟩, rfl⟩ := haccepts
    obtain rfl := Option.some.inj ha
    simp [Action.mutation] at hm
  case insertProblem | insertSubmission =>
    obtain ⟨x, _, -, ⟨y, _, -, ⟨z, _, -, rfl, rfl⟩, rfl⟩, rfl⟩ := haccepts
    obtain rfl := Option.some.inj ha
    simp [Action.mutation] at hm

/-- **A request does what its command does**, when nothing fails but the `INSERT`
that the database refuses. -/
theorem exists_does_handleRequest (mgr : SQLManager) (fd : Fd) (h : Enforces collation fits dbms)
    (hnodup : (db.submissions.map Submission.id).Nodup)
    (haccepts : List.Forall₂ Prompt.Accepts c.prompts answers) (hids : c.InRange answers)
    (htype : pkg.cType = c.type.toByte) (hfields : getdata pkg = answers) {f : ℕ → Bool}
    (hf : f = refusals dbms db (asks mgr fd pkg)) :
    ∃ mgr' db' reply,
      Leaves dbms f db fd (handleRequest (driverOn dbms f db) mgr fd pkg) mgr' db' reply ∧
        Does collation fits (deskOf mgr fd db) c answers (deskOf mgr' fd db') reply := by
  by_cases hnobody : isOpen c = false ∧ mgr.userFdToId fd = none
  · refine ⟨mgr, db, _, ?_, Does.loginFirst hnobody.1 hnobody.2⟩
    rw [handleRequest_loginFirst htype hnobody.1 hnobody.2]
    exact leaves_sendData _ _
  obtain ⟨user_id, huser⟩ : ∃ user_id, isOpen c = true ∨ mgr.userFdToId fd = some user_id := by
    cases hopen : isOpen c with
    | true => exact ⟨0, .inl rfl⟩
    | false =>
      rcases hid : mgr.userFdToId fd with _ | user_id
      · exact absurd ⟨hopen, hid⟩ hnobody
      · exact ⟨user_id, .inr rfl⟩
  have hclosed : privileged c = true → isOpen c = false := by cases c <;> decide
  by_cases hpassed : privileged c = true ∧ user_id ≠ mgr.specialId
  · have huser := huser.resolve_left (by simp [hclosed hpassed.1])
    refine ⟨mgr, db, none, ?_, Does.passedOver hpassed.1 huser hpassed.2⟩
    rw [handleRequest_passedOver htype hpassed.1 huser hpassed.2]
    exact leaves_finish
  have hmay : (deskOf mgr fd db).May c user_id := by
    refine huser.imp_right fun huser => ⟨huser, fun hpriv => ?_⟩
    by_contra hne
    exact hpassed ⟨hpriv, hne⟩
  rcases hm : change c user_id answers with _ | m
  · rw [asks_of_change_eq_none haccepts htype hm] at hf
    obtain rfl : f = fun _ => false := hf
    cases hopen : isOpen c with
    | false =>
      obtain ⟨reply, hleaves, hdoes⟩ := does_reads h hnodup haccepts hids htype hfields hopen
        (huser.resolve_left (by simp [hopen])) hm
      exact ⟨mgr, db, reply, hleaves, hdoes⟩
    | true =>
      cases c <;> first | exact absurd hopen (by decide) | skip
      case login =>
        obtain ⟨username, _, -, rfl, rfl⟩ := by
          simpa only [Command.prompts, List.forall₂_cons_left_iff,
            List.forall₂_nil_left_iff] using haccepts
        obtain ⟨mgr', reply, hleaves, hdoes⟩ := does_handleLogin mgr db h hfields
        refine ⟨mgr', db, reply, ?_, hdoes⟩
        unfold handleRequest
        rw [htype, SqlProtocol.ofByte_toByte]
        exact hleaves
      case register =>
        obtain ⟨username, _, -, rfl, rfl⟩ := by
          simpa only [Command.prompts, List.forall₂_cons_left_iff,
            List.forall₂_nil_left_iff] using haccepts
        simp [change, Command.operation, Action.mutation] at hm
  · obtain ⟨a, -, ha, hsent, hasks, hreq⟩ :=
      handleRequest_change (f := f) haccepts hids htype hfields hmay hm
    rw [hasks] at hf
    have hundisturbed : Undisturbed dbms m db f := hf ▸ undisturbed_refusals dbms db m
    rw [hreq]
    by_cases hp : Performs collation fits m db
    · obtain ⟨stamp, hfresh, hperform⟩ := perform_of_performs h hundisturbed hp
      exact ⟨mgr, _, _, leaves_report ha hsent hperform, Does.changed hmay hm hp hfresh⟩
    · have hperform := perform_of_not_performs h hundisturbed hp
      exact ⟨mgr, db, _, leaves_report ha hsent hperform, Does.unchanged hmay hm hp⟩

end Request

end System
end WeakAyas
