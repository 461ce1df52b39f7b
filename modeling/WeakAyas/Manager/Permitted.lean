/-
# What a handler may do

Only a login changes the manager, and every call that a handler makes is one that
the manager it found permits (`handleRequest_permitted`): the guards that the
handlers share carry this from a handler to the rest of its body.
-/

import WeakAyas.Manager.Handlers

namespace WeakAyas
namespace Manager

open Driver

/-- The calls that a request on `fd` may make while the session map and the
special id are those of `mgr`. -/
def Permitted (mgr : SQLManager) (fd : Fd) : Action → Prop
  | .getUserId _ | .checkUserId _ | .registerUser _ => True
  | .sendData fd' _ _ => fd' = fd
  | .selectUnitsData id | .selectUnitdetail id _ | .getSubmissions id _
  | .insertSubmitted id _ _ _ | .deleteSubmission _ id => mgr.userFdToId fd = some id
  | .deleteUser _ | .insertProblem _ _ _ | .deleteProblem _ | .insertProblemType _ _
  | .deleteProblemType _ _ => mgr.userFdToId fd = some mgr.specialId

/-- The outcome leaves the manager alone and makes permitted calls only. -/
structure Outcome.Confined (o : Outcome) (mgr : SQLManager) (fd : Fd) : Prop where
  mgr_eq : o.mgr = mgr
  permitted : ∀ a ∈ o.log, Permitted mgr fd a

variable {mgr : SQLManager} {fd : Fd}

/-- An early return makes no call. -/
theorem confined_finish : (finish mgr).Confined mgr fd := ⟨rfl, by simp [finish]⟩

/-- A reply goes to the own descriptor. -/
theorem confined_sendData {type : UInt8} {payload : Bytes} :
    (sendData mgr fd type payload).Confined mgr fd :=
  ⟨rfl, by simp [sendData, Permitted]⟩

/-- A permitted call before the rest of the body. -/
theorem Outcome.Confined.after {o : Outcome} {a : Action} (ho : o.Confined mgr fd)
    (ha : Permitted mgr fd a) : (o.after a).Confined mgr fd := by
  refine ⟨ho.mgr_eq, fun b hb => ?_⟩
  rcases List.mem_cons.1 hb with rfl | hb
  · exact ha
  · exact ho.permitted b hb

/-- A call of the driver, with what is done with each of its answers. -/
theorem confined_call {α : Type} {a : Action} {answer : Except SqlException α} {k : α → Outcome}
    (ha : Permitted mgr fd a) (hk : ∀ r, (k r).Confined mgr fd) :
    (call mgr a answer k).Confined mgr fd := by
  rcases answer with e | r
  · exact ⟨rfl, by simpa [call] using ha⟩
  · exact (hk r).after ha

/-- A call of the driver is made, whatever it answers. -/
theorem mem_log_call {α : Type} {a : Action} {answer : Except SqlException α} {k : α → Outcome} :
    a ∈ (call mgr a answer k).log := by
  rcases answer with e | r <;> simp [call, Outcome.after]

/-- Behind the guard the id is that of the session. -/
theorem confined_checkLogin {k : ℤ → Outcome}
    (hk : ∀ user_id, mgr.userFdToId fd = some user_id → (k user_id).Confined mgr fd) :
    (checkLogin mgr fd k).Confined mgr fd := by
  unfold checkLogin
  split
  · rename_i user_id hid
    exact hk user_id hid
  · exact confined_sendData

/-- Behind the guard the id is the special one. -/
theorem confined_checkSpecial {user_id : ℤ} {k : Outcome}
    (hk : user_id = mgr.specialId → k.Confined mgr fd) :
    (checkSpecial mgr user_id k).Confined mgr fd := by
  unfold checkSpecial
  split_ifs with h
  · exact confined_finish
  · exact hk (not_not.1 h)

/-- A number that is parsed before the body; where it is none the reply says so. -/
theorem confined_withNumber {type : UInt8} {n : Option ℤ} {invalid : Bytes} {k : ℤ → Outcome}
    (hk : ∀ n, (k n).Confined mgr fd) :
    (withNumber mgr fd type n invalid k).Confined mgr fd := by
  rcases n with _ | n
  · exact confined_sendData
  · exact hk n

variable (db : SqlDriver) (mgr fd) (pkg : SocketPackage)

/-- The handlers, each by its guards; the registration has none. -/
theorem confined_handleRegister : (handleRegister db mgr fd pkg).Confined mgr fd := by
  unfold handleRegister
  split
  · exact confined_sendData
  · exact confined_call trivial fun _ => confined_sendData

/-- It passes the id of the session to the driver. -/
theorem confined_handleUnitsdata : (handleUnitsdata db mgr fd pkg).Confined mgr fd := by
  refine confined_checkLogin fun user_id hid => ?_
  exact confined_call hid fun _ => confined_sendData

/-- It passes the id of the session to the driver. -/
theorem confined_handleUnitdetail : (handleUnitdetail db mgr fd pkg).Confined mgr fd := by
  refine confined_checkLogin fun user_id hid => ?_
  split
  · exact confined_sendData
  · exact confined_call hid fun _ => confined_sendData

/-- It passes the id of the session, and a number, to the driver. -/
theorem confined_handleProblemSubmissions :
    (handleProblemSubmissions db mgr fd pkg).Confined mgr fd := by
  refine confined_checkLogin fun user_id hid => ?_
  split
  · exact confined_sendData
  · refine confined_withNumber fun problemId => ?_
    exact confined_call hid fun _ => confined_sendData

/-- It inserts for the user of the session. -/
theorem confined_handleInsertSubmission :
    (handleInsertSubmission db mgr fd pkg).Confined mgr fd := by
  refine confined_checkLogin fun user_id hid => ?_
  split
  · refine confined_withNumber fun problemId => ?_
    exact confined_call hid fun _ => confined_sendData
  · exact confined_sendData

/-- It deletes for the user of the session. -/
theorem confined_handleDeleteSubmission :
    (handleDeleteSubmission db mgr fd pkg).Confined mgr fd := by
  refine confined_checkLogin fun user_id hid => ?_
  split
  · exact confined_sendData
  · refine confined_withNumber fun submissionId => ?_
    exact confined_call hid fun _ => confined_sendData

/-- The two guards of a privileged handler together. -/
theorem confined_privileged {k : ℤ → Outcome}
    (hk : mgr.userFdToId fd = some mgr.specialId → ∀ user_id, (k user_id).Confined mgr fd) :
    (checkLogin mgr fd fun user_id => checkSpecial mgr user_id (k user_id)).Confined mgr fd := by
  refine confined_checkLogin fun user_id hid => confined_checkSpecial fun hs => ?_
  rw [hs] at hid
  exact hk hid user_id

/-- Only the special user gets past the second guard. -/
theorem confined_handleDeleteUser : (handleDeleteUser db mgr fd pkg).Confined mgr fd := by
  refine confined_privileged mgr fd fun hs user_id => ?_
  split
  · exact confined_sendData
  · exact confined_call hs fun _ => confined_sendData

/-- Only the special user gets past the second guard. -/
theorem confined_handleInsertProblem : (handleInsertProblem db mgr fd pkg).Confined mgr fd := by
  refine confined_privileged mgr fd fun hs user_id => ?_
  split
  · refine confined_withNumber fun problemId => ?_
    exact confined_call hs fun _ => confined_sendData
  · exact confined_sendData

/-- Only the special user gets past the second guard. -/
theorem confined_handleDeleteProblem : (handleDeleteProblem db mgr fd pkg).Confined mgr fd := by
  refine confined_privileged mgr fd fun hs user_id => ?_
  split
  · exact confined_sendData
  · refine confined_withNumber fun problemId => ?_
    exact confined_call hs fun _ => confined_sendData

/-- Only the special user gets past the second guard. -/
theorem confined_handleInsertProblemType :
    (handleInsertProblemType db mgr fd pkg).Confined mgr fd := by
  refine confined_privileged mgr fd fun hs user_id => ?_
  split
  · refine confined_withNumber fun problemId => ?_
    exact confined_call hs fun _ => confined_sendData
  · exact confined_sendData

/-- Only the special user gets past the second guard. -/
theorem confined_handleDeleteProblemType :
    (handleDeleteProblemType db mgr fd pkg).Confined mgr fd := by
  refine confined_privileged mgr fd fun hs user_id => ?_
  split
  · refine confined_withNumber fun problemId => ?_
    exact confined_call hs fun _ => confined_sendData
  · exact confined_sendData

/-- The user name of a LOGIN request and the id that the database answered,
`-1` for an unknown name. -/
def loginAttempt (db : SqlDriver) (pkg : SocketPackage) : Option (Bytes × ℤ) :=
  match SqlProtocol.ofByte pkg.cType, getdata pkg with
  | some .login, username :: _ => (db.getUserId username).toOption.map fun id => (username, id)
  | _, _ => none

/-- The manager after a login attempt: Oscar's id is taken over even when it is
`-1`, a session only for a known user. -/
def SQLManager.attempted (mgr : SQLManager) (fd : Fd) (username : Bytes) (user_id : ℤ) :
    SQLManager where
  userFdToId :=
    if user_id ≠ -1 then Function.update mgr.userFdToId fd (some user_id) else mgr.userFdToId
  specialId := if username = text "Oscar" then user_id else mgr.specialId

/-- The manager after a login that the database has answered. -/
theorem handleLogin_mgr {username : Bytes} {fields : List Bytes} {user_id : ℤ}
    (hd : getdata pkg = username :: fields) (hq : db.getUserId username = .ok user_id) :
    (handleLogin db mgr fd pkg).mgr = mgr.attempted fd username user_id := by
  simp only [handleLogin, hd, hq, call]
  by_cases hid : user_id = -1 <;> by_cases hn : username = text "Oscar" <;>
    simp [Outcome.after, sendData, SQLManager.attempted, SQLManager.setUser, checkUserId, hid, hn]

/-- Only a login attempt changes the manager, and only in this way. -/
theorem handleRequest_mgr :
    (handleRequest db mgr fd pkg).mgr =
      match loginAttempt db pkg with
      | some (username, user_id) => mgr.attempted fd username user_id
      | none => mgr := by
  unfold loginAttempt handleRequest
  rcases SqlProtocol.ofByte pkg.cType with _ | t
  · rfl
  cases t
  case login =>
    rcases hd : getdata pkg with _ | ⟨username, fields⟩
    · simp [handleLogin, hd, sendData]
    · rcases hq : db.getUserId username with e | user_id
      · simp [handleLogin, hd, hq, call, Except.toOption]
      · simpa [hq, Except.toOption] using handleLogin_mgr mgr fd db pkg hd hq
  case registerUser => exact (confined_handleRegister mgr fd db pkg).mgr_eq
  case selectUnitsData => exact (confined_handleUnitsdata mgr fd db pkg).mgr_eq
  case selectUnitDetail => exact (confined_handleUnitdetail mgr fd db pkg).mgr_eq
  case getProblemSubmissions => exact (confined_handleProblemSubmissions mgr fd db pkg).mgr_eq
  case insertSubmitted => exact (confined_handleInsertSubmission mgr fd db pkg).mgr_eq
  case deleteSubmitted => exact (confined_handleDeleteSubmission mgr fd db pkg).mgr_eq
  case deleteUser => exact (confined_handleDeleteUser mgr fd db pkg).mgr_eq
  case insertProblem => exact (confined_handleInsertProblem mgr fd db pkg).mgr_eq
  case deleteProblem => exact (confined_handleDeleteProblem mgr fd db pkg).mgr_eq
  case insertProblemType => exact (confined_handleInsertProblemType mgr fd db pkg).mgr_eq
  case deleteProblemType => exact (confined_handleDeleteProblemType mgr fd db pkg).mgr_eq

/-- A login asks for the id and replies. -/
theorem permitted_handleLogin : ∀ a ∈ (handleLogin db mgr fd pkg).log, Permitted mgr fd a := by
  unfold handleLogin
  split
  · exact confined_sendData.permitted
  · rename_i username _ _
    rcases db.getUserId username with e | user_id
    · simp [call, Permitted]
    · intro a ha
      dsimp only [call, Outcome.after] at ha
      split_ifs at ha <;> simp only [sendData, List.mem_cons, List.not_mem_nil, or_false] at ha <;>
        rcases ha with rfl | rfl | rfl <;> first | exact trivial | rfl

/-- **Every call of a request is permitted by the manager it found.** -/
theorem handleRequest_permitted :
    ∀ a ∈ (handleRequest db mgr fd pkg).log, Permitted mgr fd a := by
  unfold handleRequest
  split
  · exact (confined_handleRegister mgr fd db pkg).permitted
  · exact permitted_handleLogin mgr fd db pkg
  · exact (confined_handleUnitsdata mgr fd db pkg).permitted
  · exact (confined_handleUnitdetail mgr fd db pkg).permitted
  · exact (confined_handleProblemSubmissions mgr fd db pkg).permitted
  · exact (confined_handleInsertSubmission mgr fd db pkg).permitted
  · exact (confined_handleDeleteSubmission mgr fd db pkg).permitted
  · exact (confined_handleDeleteUser mgr fd db pkg).permitted
  · exact (confined_handleInsertProblem mgr fd db pkg).permitted
  · exact (confined_handleDeleteProblem mgr fd db pkg).permitted
  · exact (confined_handleInsertProblemType mgr fd db pkg).permitted
  · exact (confined_handleDeleteProblemType mgr fd db pkg).permitted
  · exact confined_finish.permitted

/-! ### Texts -/

/-- The texts that a call gives to the driver. -/
def Action.texts : Action → List Bytes
  | .getUserId username | .registerUser username | .deleteUser username => [username]
  | .insertProblem _ title difficulty => [title, difficulty]
  | .insertProblemType _ problem_type | .deleteProblemType _ problem_type => [problem_type]
  | .insertSubmitted _ _ _ time_spent => [time_spent]
  | .selectUnitdetail _ unit => [unit]
  | .checkUserId _ | .deleteProblem _ | .deleteSubmission _ _ | .getSubmissions _ _
  | .selectUnitsData _ | .sendData _ _ _ => []

/-- The request whose handler makes the call, `none` for an answer. -/
def Action.requestType : Action → Option SqlProtocol
  | .getUserId _ | .checkUserId _ => some .login
  | .registerUser _ => some .registerUser
  | .deleteUser _ => some .deleteUser
  | .insertProblem _ _ _ => some .insertProblem
  | .deleteProblem _ => some .deleteProblem
  | .insertProblemType _ _ => some .insertProblemType
  | .deleteProblemType _ _ => some .deleteProblemType
  | .insertSubmitted _ _ _ _ => some .insertSubmitted
  | .deleteSubmission _ _ => some .deleteSubmitted
  | .getSubmissions _ _ => some .getProblemSubmissions
  | .selectUnitsData _ => some .selectUnitsData
  | .selectUnitdetail _ _ => some .selectUnitDetail
  | .sendData _ _ _ => none

/-- Every call of the handler meets `P`. -/
def Outcome.All (o : Outcome) (P : Action → Prop) : Prop := ∀ a ∈ o.log, P a

/-- The driver is given only texts among `fields`. -/
def Outcome.TextsFrom (o : Outcome) (fields : List Bytes) : Prop :=
  ∀ a ∈ o.log, a.texts ⊆ fields

section All

variable {mgr : SQLManager} {fd : Fd} {P : Action → Prop}

/-- An early return makes no call. -/
theorem all_finish : (finish mgr).All P := by simp [Outcome.All, finish]

/-- A reply is one call. -/
theorem all_sendData {type : UInt8} {payload : Bytes} (h : P (.sendData fd type payload)) :
    (sendData mgr fd type payload).All P := by
  simpa [Outcome.All, sendData] using h

/-- A call before the rest of the body. -/
theorem Outcome.All.after {o : Outcome} {a : Action} (ho : o.All P) (ha : P a) :
    (o.after a).All P := by
  intro b hb
  rcases List.mem_cons.1 hb with rfl | hb
  · exact ha
  · exact ho b hb

/-- A call of the driver, with what is done with each of its answers. -/
theorem all_call {α : Type} {a : Action} {answer : Except SqlException α} {k : α → Outcome}
    (ha : P a) (hk : ∀ r, (k r).All P) : (call mgr a answer k).All P := by
  rcases answer with e | r
  · simpa [Outcome.All, call] using ha
  · exact (hk r).after ha

/-- A guard replies, or goes on with the body. -/
theorem all_checkLogin {k : ℤ → Outcome} (hsend : ∀ type payload, P (.sendData fd type payload))
    (hk : ∀ user_id, (k user_id).All P) : (checkLogin mgr fd k).All P := by
  unfold checkLogin
  split
  · exact hk _
  · exact all_sendData (hsend _ _)

/-- A guard that ends the body, or goes on with it. -/
theorem all_checkSpecial {user_id : ℤ} {k : Outcome} (hk : k.All P) :
    (checkSpecial mgr user_id k).All P := by
  unfold checkSpecial
  split_ifs
  · exact all_finish
  · exact hk

/-- A number is parsed, or the reply says that it is none. -/
theorem all_withNumber {type : UInt8} {n : Option ℤ} {invalid : Bytes} {k : ℤ → Outcome}
    (hsend : ∀ type payload, P (.sendData fd type payload)) (hk : ∀ n, (k n).All P) :
    (withNumber mgr fd type n invalid k).All P := by
  rcases n with _ | n
  · exact all_sendData (hsend _ _)
  · exact hk n

end All

/-- The calls of a login: the two of the driver, and replies. -/
theorem all_handleLogin {P : Action → Prop} (hsend : ∀ type payload, P (.sendData fd type payload))
    (hget : ∀ username fields, getdata pkg = username :: fields → P (.getUserId username))
    (hcheck : ∀ id, P (.checkUserId id)) : (handleLogin db mgr fd pkg).All P := by
  unfold handleLogin
  split
  · exact all_sendData (hsend _ _)
  · rename_i username fields hd
    refine all_call (hget username fields hd) fun user_id => ?_
    dsimp only
    split_ifs
    all_goals first
      | exact all_sendData (hsend _ _)
      | exact (all_sendData (hsend _ _)).after (hcheck _)

/-- **Every call of a request is one of its own handler.** -/
theorem handleRequest_requestType : (handleRequest db mgr fd pkg).All fun a =>
    a.requestType = none ∨ a.requestType = SqlProtocol.ofByte pkg.cType := by
  unfold handleRequest
  split
  case h_2 ht =>
    exact all_handleLogin mgr fd db pkg (fun _ _ => .inl rfl) (fun _ _ _ => .inr ht.symm)
      fun _ => .inr ht.symm
  case h_13 => exact all_finish
  all_goals
    rename_i ht
    simp only [ht, handleRegister, handleUnitsdata, handleUnitdetail, handleProblemSubmissions,
      handleInsertSubmission, handleDeleteSubmission, handleDeleteUser, handleInsertProblem,
      handleDeleteProblem, handleInsertProblemType, handleDeleteProblemType]
  all_goals repeat' first
    | refine all_sendData ?_
    | refine all_checkLogin (fun _ _ => ?_) fun user_id => ?_
    | refine all_checkSpecial ?_
    | refine all_withNumber (fun _ _ => ?_) fun n => ?_
    | refine all_call ?_ fun r => ?_
    | split
  all_goals first
    | exact .inl rfl
    | exact .inr rfl

/-- **Every text that reaches the driver is a field of the request.** -/
theorem handleRequest_textsFrom : (handleRequest db mgr fd pkg).TextsFrom (getdata pkg) := by
  change (handleRequest db mgr fd pkg).All fun a => a.texts ⊆ getdata pkg
  unfold handleRequest
  split
  case h_2 =>
    refine all_handleLogin mgr fd db pkg (fun _ _ => List.nil_subset _) (fun n fields hd => ?_)
      fun _ => List.nil_subset _
    rw [hd]
    exact List.cons_subset_cons _ (List.nil_subset _)
  case h_13 => exact all_finish
  all_goals simp only [handleRegister, handleUnitsdata, handleUnitdetail, handleProblemSubmissions,
    handleInsertSubmission, handleDeleteSubmission, handleDeleteUser, handleInsertProblem,
    handleDeleteProblem, handleInsertProblemType, handleDeleteProblemType]
  all_goals repeat' first
    | exact all_sendData (List.nil_subset _)
    | exact all_finish
    | refine all_checkLogin (fun _ _ => List.nil_subset _) fun user_id => ?_
    | refine all_checkSpecial ?_
    | refine all_withNumber (fun _ _ => List.nil_subset _) fun n => ?_
    | refine all_call ?_ fun r => ?_
    | split
  all_goals simp_all [Action.texts]

end Manager
end WeakAyas
