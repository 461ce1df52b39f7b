/-
# What a request asks of the tables

A request asks the driver for one change at most (`mutations_handleRequest`), and
which one is told by its type, its fields and the session of its descriptor
(`asks`): what the driver answers makes no difference.  So a request moves the
database by that one operation (`databaseAfter_handleRequest`).
-/

import WeakAyas.Manager.Backend
import WeakAyas.Manager.Privilege

namespace WeakAyas
namespace System

open Driver Manager

/-- The changes that a handler asks for, in order. -/
def mutations (o : Outcome) : List Mutation := o.log.filterMap Action.mutation

/-- The change that a request asks for. -/
def asks (mgr : SQLManager) (fd : Fd) (pkg : SocketPackage) : Option Mutation :=
  match SqlProtocol.ofByte pkg.cType with
  | none => none
  | some .registerUser => (getdata pkg).head?.map .registerUser
  | some .insertSubmitted => (mgr.userFdToId fd).bind fun user_id => match getdata pkg with
    | [id, status, time] =>
      (stoi id).map fun n => .insertSubmitted user_id n (stringToBool status) time
    | _ => none
  | some .deleteSubmitted => (mgr.userFdToId fd).bind fun user_id => match getdata pkg with
    | id :: _ => (stoll id).map fun n => .deleteSubmission n user_id
    | [] => none
  | some t =>
    if mgr.userFdToId fd = some mgr.specialId then
      (privilegedOperation t (getdata pkg)).bind Action.mutation
    else none

/-- What a request holds that asks for the change. -/
def Requested (mgr : SQLManager) (fd : Fd) (pkg : SocketPackage) : Mutation → Prop
  | .registerUser username =>
    SqlProtocol.ofByte pkg.cType = some .registerUser ∧ ∃ fields, getdata pkg = username :: fields
  | .insertSubmitted users_id problem_id status time_spent =>
    SqlProtocol.ofByte pkg.cType = some .insertSubmitted ∧ mgr.userFdToId fd = some users_id ∧
      ∃ id solved, getdata pkg = [id, solved, time_spent] ∧ stoi id = some problem_id ∧
        stringToBool solved = status
  | .deleteSubmission submission_id users_id =>
    SqlProtocol.ofByte pkg.cType = some .deleteSubmitted ∧ mgr.userFdToId fd = some users_id ∧
      ∃ id fields, getdata pkg = id :: fields ∧ stoll id = some submission_id
  | .deleteUser username =>
    SqlProtocol.ofByte pkg.cType = some .deleteUser ∧
      mgr.userFdToId fd = some mgr.specialId ∧ ∃ fields, getdata pkg = username :: fields
  | .insertProblem problem_id title difficulty =>
    SqlProtocol.ofByte pkg.cType = some .insertProblem ∧
      mgr.userFdToId fd = some mgr.specialId ∧
      ∃ id fields, getdata pkg = id :: title :: difficulty :: fields ∧ stoi id = some problem_id
  | .deleteProblem problem_id =>
    SqlProtocol.ofByte pkg.cType = some .deleteProblem ∧
      mgr.userFdToId fd = some mgr.specialId ∧
      ∃ id fields, getdata pkg = id :: fields ∧ stoi id = some problem_id
  | .insertProblemType problem_id problem_type =>
    SqlProtocol.ofByte pkg.cType = some .insertProblemType ∧
      mgr.userFdToId fd = some mgr.specialId ∧
      ∃ id fields, getdata pkg = id :: problem_type :: fields ∧ stoi id = some problem_id
  | .deleteProblemType problem_id problem_type =>
    SqlProtocol.ofByte pkg.cType = some .deleteProblemType ∧
      mgr.userFdToId fd = some mgr.specialId ∧
      ∃ id fields, getdata pkg = id :: problem_type :: fields ∧ stoi id = some problem_id

/-! ### The guards -/

variable {mgr : SQLManager} {fd : Fd}

/-- A reply changes nothing. -/
theorem mutations_sendData {type : UInt8} {payload : Bytes} :
    mutations (sendData mgr fd type payload) = [] := rfl

/-- Nor does an early return. -/
theorem mutations_finish : mutations (finish mgr) = [] := rfl

/-- A call comes before the rest of the body. -/
theorem mutations_after {o : Outcome} {a : Action} :
    mutations (o.after a) = a.mutation.toList ++ mutations o := by
  rw [mutations, Outcome.after, List.filterMap_cons]
  cases a.mutation <;> rfl

/-- A call before answers. -/
theorem mutations_call {α : Type} {a : Action} {answer : Except SqlException α} {k : α → Outcome}
    (hk : ∀ r, mutations (k r) = []) : mutations (call mgr a answer k) = a.mutation.toList := by
  rcases answer with e | r
  · rw [call, mutations, List.filterMap_cons]
    cases a.mutation <;> rfl
  · rw [call, mutations_after, hk, List.append_nil]

/-- Without a session nothing is changed. -/
theorem mutations_checkLogin {k : ℤ → Outcome} :
    mutations (checkLogin mgr fd k) = match mgr.userFdToId fd with
      | some user_id => mutations (k user_id)
      | none => [] := by
  unfold checkLogin
  cases mgr.userFdToId fd <;> rfl

/-- Without a number nothing is. -/
theorem mutations_withNumber {type : UInt8} {n : Option ℤ} {invalid : Bytes} {k : ℤ → Outcome} :
    mutations (withNumber mgr fd type n invalid k) = match n with
      | some n => mutations (k n)
      | none => [] := by
  cases n <;> rfl

/-- Behind both guards the session is that of the special user. -/
theorem mutations_privileged {k : ℤ → Outcome} :
    mutations (checkLogin mgr fd fun user_id => checkSpecial mgr user_id (k user_id)) =
      if mgr.userFdToId fd = some mgr.specialId then mutations (k mgr.specialId) else [] := by
  rw [mutations_checkLogin]
  rcases hs : mgr.userFdToId fd with _ | user_id
  · rfl
  · by_cases h : user_id = mgr.specialId
    · simp [checkSpecial, h]
    · simp [checkSpecial, h, mutations_finish]

/-! ### The handlers -/

variable (mgr fd) (db : SqlDriver) (pkg : SocketPackage)

/-- A request that only reads, or logs in, asks for no change. -/
theorem mutations_of_reads {t : SqlProtocol} (ht : SqlProtocol.ofByte pkg.cType = some t)
    (hread : t = .login ∨ t = .selectUnitsData ∨ t = .selectUnitDetail ∨
      t = .getProblemSubmissions) : mutations (handleRequest db mgr fd pkg) = [] := by
  refine List.filterMap_eq_nil_iff.2 fun a ha => ?_
  have htype := handleRequest_requestType mgr fd db pkg a ha
  rw [ht] at htype
  rcases hread with rfl | rfl | rfl | rfl <;> cases a <;>
    first | rfl | simp [Action.requestType] at htype

/-- A privileged handler asks for the operation of its fields, when the session is
the special one. -/
theorem mutations_of_privileged {t : SqlProtocol} {k : ℤ → Outcome}
    (hk : ∀ user_id, mutations (k user_id) =
      ((privilegedOperation t (getdata pkg)).bind Action.mutation).toList) :
    mutations (checkLogin mgr fd fun user_id => checkSpecial mgr user_id (k user_id)) =
      (if mgr.userFdToId fd = some mgr.specialId then
        (privilegedOperation t (getdata pkg)).bind Action.mutation else none).toList := by
  rw [mutations_privileged, hk]
  split_ifs <;> rfl

/-- **A request asks for its change, and for no other.** -/
theorem mutations_handleRequest :
    mutations (handleRequest db mgr fd pkg) = (asks mgr fd pkg).toList := by
  rcases ht : SqlProtocol.ofByte pkg.cType with _ | t
  · rw [handleRequest, asks, ht]
    rfl
  by_cases hread : t = .login ∨ t = .selectUnitsData ∨ t = .selectUnitDetail ∨
      t = .getProblemSubmissions
  · rw [mutations_of_reads mgr fd db pkg ht hread, asks, ht]
    rcases hread with rfl | rfl | rfl | rfl <;> simp [privilegedOperation]
  rw [handleRequest, asks, ht]
  cases t with
  | registerUser =>
    simp only [handleRegister]
    rcases getdata pkg with _ | ⟨username, fields⟩
    · rfl
    · exact mutations_call fun _ => mutations_sendData
  | insertSubmitted =>
    simp only [handleInsertSubmission, mutations_checkLogin]
    rcases mgr.userFdToId fd with _ | user_id
    · rfl
    rcases getdata pkg with _ | ⟨id, _ | ⟨status, _ | ⟨time, _ | ⟨more, fields⟩⟩⟩⟩
    case some.cons.cons.cons.nil =>
      simp only [mutations_withNumber, Option.bind_some]
      rcases stoi id with _ | n
      · rfl
      · exact mutations_call fun _ => mutations_sendData
    all_goals rfl
  | deleteSubmitted =>
    simp only [handleDeleteSubmission, mutations_checkLogin]
    rcases mgr.userFdToId fd with _ | user_id
    · rfl
    rcases getdata pkg with _ | ⟨id, fields⟩
    · rfl
    simp only [mutations_withNumber, Option.bind_some]
    rcases stoll id with _ | n
    · rfl
    · exact mutations_call fun _ => mutations_sendData
  | deleteUser =>
    refine mutations_of_privileged mgr fd pkg fun user_id => ?_
    rcases getdata pkg with _ | ⟨username, fields⟩
    · rfl
    · exact mutations_call fun _ => mutations_sendData
  | insertProblem =>
    refine mutations_of_privileged mgr fd pkg fun user_id => ?_
    rcases getdata pkg with _ | ⟨id, _ | ⟨title, _ | ⟨difficulty, fields⟩⟩⟩
    case cons.cons.cons =>
      simp only [mutations_withNumber, privilegedOperation]
      rcases stoi id with _ | n
      · rfl
      · exact mutations_call fun _ => mutations_sendData
    all_goals rfl
  | deleteProblem =>
    refine mutations_of_privileged mgr fd pkg fun user_id => ?_
    rcases getdata pkg with _ | ⟨id, fields⟩
    · rfl
    simp only [mutations_withNumber, privilegedOperation]
    rcases stoi id with _ | n
    · rfl
    · exact mutations_call fun _ => mutations_sendData
  | insertProblemType =>
    refine mutations_of_privileged mgr fd pkg fun user_id => ?_
    rcases getdata pkg with _ | ⟨id, _ | ⟨type, fields⟩⟩
    case cons.cons =>
      simp only [mutations_withNumber, privilegedOperation]
      rcases stoi id with _ | n
      · rfl
      · exact mutations_call fun _ => mutations_sendData
    all_goals rfl
  | deleteProblemType =>
    refine mutations_of_privileged mgr fd pkg fun user_id => ?_
    rcases getdata pkg with _ | ⟨id, _ | ⟨type, fields⟩⟩
    case cons.cons =>
      simp only [mutations_withNumber, privilegedOperation]
      rcases stoi id with _ | n
      · rfl
      · exact mutations_call fun _ => mutations_sendData
    all_goals rfl
  | _ => exact absurd (by simp) hread

variable {mgr fd pkg} in
/-- **What a request asks for is in its fields**, and its session may ask for it. -/
theorem requested_of_asks {m : Mutation} (h : asks mgr fd pkg = some m) :
    Requested mgr fd pkg m := by
  unfold asks at h
  split at h
  · cases h
  · rename_i ht
    obtain ⟨username, hhead, rfl⟩ := Option.map_eq_some_iff.1 h
    obtain ⟨fields, hd⟩ := List.head?_eq_some_iff.1 hhead
    exact ⟨ht, fields, hd⟩
  · rename_i ht
    obtain ⟨user_id, huser, h⟩ := Option.bind_eq_some_iff.1 h
    split at h
    · rename_i id status time hd
      obtain ⟨n, hn, rfl⟩ := Option.map_eq_some_iff.1 h
      exact ⟨ht, huser, id, status, hd, hn, rfl⟩
    · cases h
  · rename_i ht
    obtain ⟨user_id, huser, h⟩ := Option.bind_eq_some_iff.1 h
    split at h
    · rename_i id fields hd
      obtain ⟨n, hn, rfl⟩ := Option.map_eq_some_iff.1 h
      exact ⟨ht, huser, id, fields, hd, hn⟩
    · cases h
  · rename_i t _ _ _ ht
    split_ifs at h with hs
    obtain ⟨op, hop, hm⟩ := Option.bind_eq_some_iff.1 h
    unfold privilegedOperation at hop
    split at hop
    · rename_i username fields hd _ _ _
      obtain rfl := Option.some.inj hop
      obtain rfl := Option.some.inj hm
      exact ⟨ht, hs, fields, hd⟩
    · rename_i id title difficulty fields hd _ _ _
      obtain ⟨n, hn, rfl⟩ := Option.map_eq_some_iff.1 hop
      obtain rfl := Option.some.inj hm
      exact ⟨ht, hs, id, fields, hd, hn⟩
    · rename_i id fields hd _ _ _
      obtain ⟨n, hn, rfl⟩ := Option.map_eq_some_iff.1 hop
      obtain rfl := Option.some.inj hm
      exact ⟨ht, hs, id, fields, hd, hn⟩
    · rename_i id type fields hd _ _ _
      obtain ⟨n, hn, rfl⟩ := Option.map_eq_some_iff.1 hop
      obtain rfl := Option.some.inj hm
      exact ⟨ht, hs, id, fields, hd, hn⟩
    · rename_i id type fields hd _ _ _
      obtain ⟨n, hn, rfl⟩ := Option.map_eq_some_iff.1 hop
      obtain rfl := Option.some.inj hm
      exact ⟨ht, hs, id, fields, hd, hn⟩
    · cases hop

variable {Db : Type} (dbms : Dbms Db)

/-- **A request moves the database by the operation it asks for.** -/
theorem databaseAfter_handleRequest (f : ℕ → Bool) (database : Db) :
    databaseAfter dbms f (handleRequest db mgr fd pkg).log database =
      match asks mgr fd pkg with
      | none => database
      | some m => (m.perform dbms f database).2 := by
  show (mutations (handleRequest db mgr fd pkg)).foldl _ database = _
  rw [mutations_handleRequest]
  cases asks mgr fd pkg <;> rfl

end System
end WeakAyas
