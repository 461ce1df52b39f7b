/-
# How long a session of Oscar keeps its privilege

`SQLManager::erase_fd`, `handle_login` and the five privileged handlers
(`SQLManager.cpp`, lines 115-120, 179-202 and 468-618).

One `special_id` stands for all sessions of Oscar.  A LOGIN as Oscar on any
descriptor sets it, and `erase_fd` on a descriptor of Oscar's resets it although
other sessions of his may be open, whose privileged requests then return in
silence.  So a session of Oscar reaches the driver exactly when every closed one
has been followed by a LOGIN as Oscar (`privilege_kept_iff`).
-/

import WeakAyas.Manager.Sessions

namespace WeakAyas
namespace Manager

open Driver

/-! ### Privileged requests -/

/-- The operation that a well-formed privileged request asks for. -/
def privilegedOperation : SqlProtocol → List Bytes → Option Action
  | .deleteUser, username :: _ => some (.deleteUser username)
  | .insertProblem, id :: title :: difficulty :: _ =>
    (stoi id).map fun n => .insertProblem n title difficulty
  | .deleteProblem, id :: _ => (stoi id).map fun n => .deleteProblem n
  | .insertProblemType, id :: type :: _ => (stoi id).map fun n => .insertProblemType n type
  | .deleteProblemType, id :: type :: _ => (stoi id).map fun n => .deleteProblemType n type
  | _, _ => none

variable {mgr : SQLManager} {fd : Fd} {user_id : ℤ}

/-- Behind the two checks an operation is called by the special id only. -/
theorem mem_log_privileged {k : ℤ → Outcome} {op : Action}
    (hsession : mgr.userFdToId fd = some user_id) (hop : op ∈ (k user_id).log) :
    op ∈ (checkLogin mgr fd fun user_id => checkSpecial mgr user_id (k user_id)).log ↔
      user_id = mgr.specialId := by
  simp only [checkLogin, hsession, checkSpecial]
  split_ifs with h
  · exact iff_of_false (by simp [finish]) h
  · exact iff_of_true hop (not_not.1 h)

/-- With a number in its field, a handler makes the call that it is for. -/
theorem mem_log_number {α : Type} {type : UInt8} {number : Option ℤ} {invalid : Bytes}
    {a : ℤ → Action} {answer : ℤ → Except SqlException α} {k : ℤ → α → Outcome} {op : Action}
    (hop : number.map a = some op) :
    op ∈ (withNumber mgr fd type number invalid fun n => call mgr (a n) (answer n) (k n)).log := by
  obtain ⟨n, rfl, rfl⟩ := Option.map_eq_some_iff.1 hop
  exact mem_log_call

/-- **A privileged request of a session reaches its operation exactly when the
session is that of `special_id`.** -/
theorem operation_mem_log_iff {db : SqlDriver} {pkg : SocketPackage} {t : SqlProtocol} {op : Action}
    (hsession : mgr.userFdToId fd = some user_id) (ht : SqlProtocol.ofByte pkg.cType = some t)
    (hop : privilegedOperation t (getdata pkg) = some op) :
    op ∈ (handleRequest db mgr fd pkg).log ↔ user_id = mgr.specialId := by
  rw [handleRequest, ht]
  cases t with
  | deleteUser =>
    refine mem_log_privileged hsession ?_
    generalize getdata pkg = fields at hop ⊢
    rcases fields with _ | ⟨username, rest⟩
    · cases hop
    · obtain rfl := Option.some.inj hop
      exact mem_log_call
  | insertProblem =>
    refine mem_log_privileged hsession ?_
    generalize getdata pkg = fields at hop ⊢
    rcases fields with _ | ⟨id, _ | ⟨title, _ | ⟨difficulty, rest⟩⟩⟩
    case cons.cons.cons => exact mem_log_number hop
    all_goals cases hop
  | deleteProblem =>
    refine mem_log_privileged hsession ?_
    generalize getdata pkg = fields at hop ⊢
    rcases fields with _ | ⟨id, rest⟩
    · cases hop
    · exact mem_log_number hop
  | insertProblemType =>
    refine mem_log_privileged hsession ?_
    generalize getdata pkg = fields at hop ⊢
    rcases fields with _ | ⟨id, _ | ⟨type, rest⟩⟩
    case cons.cons => exact mem_log_number hop
    all_goals cases hop
  | deleteProblemType =>
    refine mem_log_privileged hsession ?_
    generalize getdata pkg = fields at hop ⊢
    rcases fields with _ | ⟨id, _ | ⟨type, rest⟩⟩
    case cons.cons => exact mem_log_number hop
    all_goals cases hop
  | _ => cases hop

/-! ### What becomes of `special_id` -/

/-- A LOGIN request under the name `n`. -/
def Call.IsLoginAs (n : Bytes) (c : Call) : Prop :=
  ∃ db fd pkg fields, c = .handleRequest db fd pkg ∧
    SqlProtocol.ofByte pkg.cType = some .login ∧ getdata pkg = n :: fields

/-- The database is reachable and knows Oscar by this id. -/
def Call.KnowsOscar (oscar_id : ℤ) : Call → Prop
  | .handleRequest db _ _ => db.getUserId oscar = .ok oscar_id
  | .eraseFd _ => True

/-- Every closed session of Oscar has been followed by a LOGIN as Oscar. -/
def OscarRenewed (oscar_id : ℤ) (calls : List Call) : Prop :=
  ∀ pre fd post, calls = pre ++ .eraseFd fd :: post → (∃ n, LastLogin pre fd n oscar_id) →
    ∃ c ∈ post, c.IsLoginAs oscar

variable {oscar_id : ℤ}

/-- A login attempt is a LOGIN request under its name. -/
theorem isLoginAs_of_loginAttempt {db : SqlDriver} {pkg : SocketPackage} {n : Bytes} {id : ℤ}
    (h : loginAttempt db pkg = some (n, id)) : (Call.handleRequest db fd pkg).IsLoginAs n := by
  unfold loginAttempt at h
  split at h
  · rename_i username fields ht hd
    obtain ⟨u, -, heq⟩ := Option.map_eq_some_iff.1 h
    obtain ⟨rfl, -⟩ := Prod.mk.inj heq
    exact ⟨db, fd, pkg, fields, rfl, ht, hd⟩
  · cases h

/-- A LOGIN as Oscar sets the special id. -/
theorem specialId_of_isLoginAs {c : Call} (hdb : c.KnowsOscar oscar_id)
    (hc : c.IsLoginAs oscar) (mgr : SQLManager) : (c.apply mgr).specialId = oscar_id := by
  obtain ⟨db, fd, pkg, fields, rfl, ht, hd⟩ := hc
  have hanswer : db.getUserId oscar = .ok oscar_id := hdb
  have hattempt : loginAttempt db pkg = some (oscar, oscar_id) := by
    simp [loginAttempt, ht, hd, hanswer, Except.toOption]
  rw [Call.apply, handleRequest_mgr, hattempt]
  simp [SQLManager.attempted, oscar]

/-- No other request changes it. -/
theorem specialId_of_not_isLoginAs {db : SqlDriver} {pkg : SocketPackage}
    (hc : ¬ (Call.handleRequest db fd pkg).IsLoginAs oscar) (mgr : SQLManager) :
    ((Call.handleRequest db fd pkg).apply mgr).specialId = mgr.specialId := by
  rw [Call.apply, handleRequest_mgr]
  rcases h : loginAttempt db pkg with _ | ⟨n, id⟩
  · rfl
  · refine if_neg fun hn => hc ?_
    have hn' : n = oscar := hn
    exact hn' ▸ isLoginAs_of_loginAttempt h

/-- Without a LOGIN as Oscar the special id does not become his. -/
theorem specialId_ne_run {calls : List Call} (hid : oscar_id ≠ -1)
    (hno : ∀ c ∈ calls, ¬ c.IsLoginAs oscar) {mgr : SQLManager} (h : mgr.specialId ≠ oscar_id) :
    (run mgr calls).specialId ≠ oscar_id := by
  induction calls using List.reverseRecOn with
  | nil => exact h
  | append_singleton calls c ih =>
    have ih := ih fun c' hc' => hno c' (by simp [hc'])
    rw [run_append]
    cases c with
    | handleRequest db fd pkg =>
      rwa [specialId_of_not_isLoginAs (hno _ (by simp))]
    | eraseFd fd =>
      rw [Call.apply, eraseFd_specialId]
      split_ifs
      · exact hid.symm
      · exact ih

/-- Closing a session of Oscar takes the special id away. -/
theorem specialId_eraseFd_ne (hid : oscar_id ≠ -1) (h : mgr.userFdToId fd = some oscar_id) :
    (eraseFd mgr fd).specialId ≠ oscar_id := by
  rw [eraseFd_specialId, h]
  split_ifs with hs
  · exact hid.symm
  · exact fun heq => hs (congrArg some heq.symm)

/-- A run through one of its calls. -/
theorem run_append_cons (mgr : SQLManager) (pre post : List Call) (c : Call) :
    run mgr (pre ++ c :: post) = run (c.apply (run mgr pre)) post := by
  simp [run]

/-- **Once Oscar has logged in, the special id is his exactly while every closed
session of his has been followed by a LOGIN of his.** -/
theorem specialId_run_eq_iff (v : ℤ) {calls : List Call} (hid : oscar_id ≠ -1)
    (hdb : ∀ c ∈ calls, c.KnowsOscar oscar_id) (hlogin : ∃ c ∈ calls, c.IsLoginAs oscar) :
    (run (.fresh v) calls).specialId = oscar_id ↔ OscarRenewed oscar_id calls := by
  constructor
  · rintro hspecial pre fd post rfl ⟨n, hlast⟩
    by_contra! hno
    have hsession : (run (.fresh v) pre).userFdToId fd = some oscar_id := by
      rw [userFdToId_run, lastLogin_eq_some_iff.2 hlast]
      rfl
    rw [run_append_cons] at hspecial
    exact specialId_ne_run hid hno (specialId_eraseFd_ne hid hsession) hspecial
  · -- induction on the calls from the end: a LOGIN as Oscar decides, any other keeps
    intro hrenewed
    induction calls using List.reverseRecOn with
    | nil => simp at hlogin
    | append_singleton calls c ih =>
      rw [run_append]
      by_cases hc : c.IsLoginAs oscar
      · exact specialId_of_isLoginAs (hdb c (by simp)) hc _
      have hbefore : ∃ c ∈ calls, c.IsLoginAs oscar := by
        obtain ⟨d, hd, hlog⟩ := hlogin
        rcases List.mem_append.1 hd with hd | hd
        · exact ⟨d, hd, hlog⟩
        · exact absurd (List.mem_singleton.1 hd ▸ hlog) hc
      have hkept : OscarRenewed oscar_id calls := by
        rintro pre fd post rfl hlast
        obtain ⟨d, hd, hlog⟩ := hrenewed pre fd (post ++ [c]) (by simp) hlast
        rcases List.mem_append.1 hd with hd | hd
        · exact ⟨d, hd, hlog⟩
        · exact absurd (List.mem_singleton.1 hd ▸ hlog) hc
      have ih := ih (fun c' hc' => hdb c' (by simp [hc'])) hbefore hkept
      cases c with
      | handleRequest db fd pkg => rwa [specialId_of_not_isLoginAs hc]
      | eraseFd fd =>
        have hother : (run (.fresh v) calls).userFdToId fd ≠ some oscar_id := by
          intro hsession
          rw [userFdToId_run] at hsession
          obtain ⟨⟨n, id⟩, hlast, rfl⟩ := Option.map_eq_some_iff.1 hsession
          obtain ⟨d, hd, -⟩ := hrenewed calls fd [] rfl ⟨n, lastLogin_eq_some_iff.1 hlast⟩
          simp at hd
        rw [Call.apply, eraseFd_specialId, ih, if_neg hother]

/-! ### The privilege of a session -/

/-- **A session of Oscar keeps its privilege exactly while every session of his
that was closed has been followed by a LOGIN of his.**  For every sequence of
calls on one manager after which the latest LOGIN on `fd` is Oscar's, and every
well-formed privileged request on `fd`. -/
theorem privilege_kept_iff (v : ℤ) {calls : List Call} (hid : oscar_id ≠ -1)
    (hdb : ∀ c ∈ calls, c.KnowsOscar oscar_id) (hlast : LastLogin calls fd oscar oscar_id)
    (db : SqlDriver) (pkg : SocketPackage) {t : SqlProtocol} {op : Action}
    (ht : SqlProtocol.ofByte pkg.cType = some t)
    (hop : privilegedOperation t (getdata pkg) = some op) :
    op ∈ (handleRequest db (run (.fresh v) calls) fd pkg).log ↔ OscarRenewed oscar_id calls := by
  have hsession : (run (.fresh v) calls).userFdToId fd = some oscar_id := by
    rw [userFdToId_run, lastLogin_eq_some_iff.2 hlast]
    rfl
  have hlogin : ∃ c ∈ calls, c.IsLoginAs oscar := by
    obtain ⟨pre, c, post, rfl, ⟨db, pkg, rfl, hresult⟩, -⟩ := hlast
    exact ⟨.handleRequest db fd pkg, by simp,
      isLoginAs_of_loginAttempt (loginResult_eq_some_iff.1 hresult).1⟩
  rw [operation_mem_log_iff hsession ht hop, ← specialId_run_eq_iff v hid hdb hlogin, eq_comm]

/-- A LOGIN as Oscar, who has id 1. -/
def oscarLogin (fd : Fd) : Call :=
  .handleRequest (oneUser oscar 1) fd (fieldPackage .login oscar (by decide))

/-- Oscar logs in twice and the second connection closes. -/
def twoSessions : List Call := [oscarLogin 5, oscarLogin 6, .eraseFd 6]

/-- The database gives Oscar's id. -/
theorem knowsOscar_oscarLogin (fd : Fd) : (oscarLogin fd).KnowsOscar 1 := by
  simp [oscarLogin, Call.KnowsOscar, oneUser]

/-- Then Oscar logs in once more, on a third connection. -/
def renewedSessions : List Call := twoSessions ++ [oscarLogin 7]

/-- So it does in each of the calls. -/
theorem knowsOscar_renewedSessions : ∀ c ∈ renewedSessions, c.KnowsOscar 1 := by
  have hclose : (Call.eraseFd 6).KnowsOscar 1 := trivial
  simp [renewedSessions, twoSessions, knowsOscar_oscarLogin, hclose]

/-- After the renewed LOGIN the first session, which did nothing, deletes Bob again. -/
theorem privilege_kept_iff_renewed :
    OscarRenewed 1 renewedSessions ∧
    (Action.deleteUser (text "Bob") ∈ (handleRequest (oneUser oscar 1)
      (run (.fresh 0) renewedSessions) 5 (fieldPackage .deleteUser (text "Bob") (by decide))).log ↔
    OscarRenewed 1 renewedSessions) := by
  have hlast : LastLogin renewedSessions 5 oscar 1 :=
    lastLogin_eq_some_iff.1 (by decide +kernel)
  have hop : privilegedOperation .deleteUser
      (getdata (fieldPackage .deleteUser (text "Bob") (by decide))) =
      some (.deleteUser (text "Bob")) := by decide +kernel
  have hiff := privilege_kept_iff 0 (by decide) knowsOscar_renewedSessions hlast
    (oneUser oscar 1) _ rfl hop
  exact ⟨hiff.1 (by decide +kernel), hiff⟩

/-- The first session is open, and its DELETE_USER is not executed. -/
theorem not_privilege_kept :
    (∀ c ∈ twoSessions, c.KnowsOscar 1) ∧ LastLogin twoSessions 5 oscar 1 ∧
      privilegedOperation .deleteUser
        (getdata (fieldPackage .deleteUser (text "Bob") (by decide))) =
        some (.deleteUser (text "Bob")) ∧
      Action.deleteUser (text "Bob") ∉ (handleRequest (oneUser oscar 1)
        (run (.fresh 0) twoSessions) 5
        (fieldPackage .deleteUser (text "Bob") (by decide))).log := by
  refine ⟨?_, lastLogin_eq_some_iff.1 (by decide +kernel), by decide +kernel, by decide +kernel⟩
  have hclose : (Call.eraseFd 6).KnowsOscar 1 := trivial
  simp [twoSessions, knowsOscar_oscarLogin, hclose]

end Manager
end WeakAyas
