/-
# Sessions

The calls that one `SQLManager` receives, `handle_request` and `erase_fd`, and
what its session map means over every sequence of them.

What a session should be is said of the calls alone (`LastLogin`): the latest
LOGIN on `fd` that the database answered with an id, with no later LOGIN and no
`erase_fd` on `fd`.  The map refines it (`userFdToId_run`), so every call that a
request makes runs under the caller's own session (`requests_run_under_session`).

The privileged requests compare that session with `special_id`, which the
constructor leaves unset.  The ids that it can hold are the value it started
with, Oscar's, and `-1` (`specialId_run`), so the comparison is sound exactly
when the initial value is not the id of another user
(`privileged_only_oscar_iff`).
-/

import WeakAyas.Manager.Permitted

namespace WeakAyas
namespace Manager

open Driver

/-- A call on an `SQLManager`, with what the driver answers during it. -/
inductive Call where
  | handleRequest (db : SqlDriver) (fd : Fd) (pkg : SocketPackage)
  | eraseFd (fd : Fd)

/-- The manager after a call, whether or not an exception leaves it. -/
def Call.apply (mgr : SQLManager) : Call → SQLManager
  | .handleRequest db fd pkg => (Manager.handleRequest db mgr fd pkg).mgr
  | .eraseFd fd => Manager.eraseFd mgr fd

/-- The manager after a sequence of calls. -/
def run (mgr : SQLManager) (calls : List Call) : SQLManager := calls.foldl Call.apply mgr

/-- The last call comes last. -/
theorem run_append (mgr : SQLManager) (calls : List Call) (c : Call) :
    run mgr (calls ++ [c]) = c.apply (run mgr calls) := by
  simp [run]

/-! ### The login history -/

/-- The user name and id of a LOGIN that succeeds: `getUserId` finds the name
and `checkUserId` accepts the id. -/
def loginResult (db : SqlDriver) (pkg : SocketPackage) : Option (Bytes × ℤ) :=
  (loginAttempt db pkg).filter fun a => checkUserId a.2

/-- The call logs in on `fd`. -/
def Call.LogsIn (c : Call) (fd : Fd) (username : Bytes) (user_id : ℤ) : Prop :=
  ∃ db pkg, c = .handleRequest db fd pkg ∧ loginResult db pkg = some (username, user_id)

/-- The latest successful LOGIN on `fd` since the last `erase_fd(fd)`. -/
def LastLogin (calls : List Call) (fd : Fd) (username : Bytes) (user_id : ℤ) : Prop :=
  ∃ pre c post, calls = pre ++ c :: post ∧ c.LogsIn fd username user_id ∧
    ∀ c' ∈ post, c' ≠ .eraseFd fd ∧ ∀ n id, ¬ c'.LogsIn fd n id

/-- What one call does to the session of `fd`. -/
def Call.session (fd : Fd) (s : Option (Bytes × ℤ)) : Call → Option (Bytes × ℤ)
  | .handleRequest db fd' pkg => if fd' = fd then (loginResult db pkg).or s else s
  | .eraseFd fd' => if fd' = fd then none else s

/-- The latest login, computed. -/
def lastLogin (calls : List Call) (fd : Fd) : Option (Bytes × ℤ) :=
  calls.foldl (Call.session fd) none

/-- A call renews or ends the login of its number. -/
theorem lastLogin_append (calls : List Call) (c : Call) (fd : Fd) :
    lastLogin (calls ++ [c]) fd = c.session fd (lastLogin calls fd) := by
  simp [lastLogin]

/-- A call sets the session it logs in, ends the one it erases, and keeps every
other. -/
theorem Call.session_eq_some_iff {c : Call} {fd : Fd} {s : Option (Bytes × ℤ)} {n : Bytes}
    {id : ℤ} :
    c.session fd s = some (n, id) ↔ c.LogsIn fd n id ∨
      (s = some (n, id) ∧ c ≠ .eraseFd fd ∧ ∀ n' id', ¬ c.LogsIn fd n' id') := by
  cases c with
  | eraseFd fd' =>
    by_cases h : fd' = fd <;> simp [Call.session, Call.LogsIn, h]
  | handleRequest db fd' pkg =>
    by_cases h : fd' = fd
    · subst h
      rcases hr : loginResult db pkg with _ | ⟨n', id'⟩ <;>
        simp [Call.session, Call.LogsIn, hr, eq_comm]
    · simp [Call.session, Call.LogsIn, h]

/-- The fold finds the last login that has not been ended. -/
theorem lastLogin_eq_some_iff {calls : List Call} {fd : Fd} {n : Bytes} {id : ℤ} :
    lastLogin calls fd = some (n, id) ↔ LastLogin calls fd n id := by
  induction calls using List.reverseRecOn with
  | nil => simp [lastLogin, LastLogin]
  | append_singleton calls c ih =>
    rw [lastLogin_append, Call.session_eq_some_iff, ih]
    constructor
    · rintro (hc | ⟨⟨pre, d, post, rfl, hd, hpost⟩, hc⟩)
      · exact ⟨calls, c, [], rfl, hc, by simp⟩
      · refine ⟨pre, d, post ++ [c], by simp, hd, fun c' hc' => ?_⟩
        rcases List.mem_append.1 hc' with h | h
        · exact hpost c' h
        · rw [List.mem_singleton.1 h]
          exact hc
    · rintro ⟨pre, d, post, heq, hd, hpost⟩
      rcases List.eq_nil_or_concat post with rfl | ⟨post', e, rfl⟩
      · obtain ⟨-, hcd⟩ := List.append_inj' heq rfl
        rw [List.cons.inj hcd |>.1]
        exact .inl hd
      · rw [List.concat_eq_append, ← List.cons_append, ← List.append_assoc] at heq
        obtain ⟨hcalls, hce⟩ := List.append_inj' heq rfl
        rw [List.cons.inj hce |>.1]
        exact .inr ⟨⟨pre, d, post', hcalls, hd, fun c' hc' => hpost c' (by simp [hc'])⟩,
          hpost e (by simp)⟩

/-! ### The session map refines the history -/

/-- One call acts on the map as on the history. -/
theorem userFdToId_apply {mgr : SQLManager} {fd : Fd} {s : Option (Bytes × ℤ)}
    (h : mgr.userFdToId fd = s.map Prod.snd) (c : Call) :
    (c.apply mgr).userFdToId fd = (c.session fd s).map Prod.snd := by
  cases c with
  | eraseFd fd' =>
    rw [Call.apply, eraseFd_userFdToId, Call.session]
    rcases eq_or_ne fd' fd with rfl | hfd
    · simp
    · simp [hfd, hfd.symm, h]
  | handleRequest db fd' pkg =>
    rw [Call.apply, handleRequest_mgr, Call.session, loginResult]
    rcases loginAttempt db pkg with _ | ⟨n, id⟩
    · simpa using h
    · rcases eq_or_ne id (-1) with rfl | hid <;> rcases eq_or_ne fd' fd with rfl | hfd
      · simpa [SQLManager.attempted, checkUserId, Option.filter] using h
      · simpa [SQLManager.attempted, hfd] using h
      · simp [SQLManager.attempted, checkUserId, Option.filter, hid]
      · simpa [SQLManager.attempted, hid, hfd, hfd.symm] using h

/-- The session map holds the last logins. -/
theorem userFdToId_run (special_id : ℤ) (calls : List Call) (fd : Fd) :
    (run (.fresh special_id) calls).userFdToId fd = (lastLogin calls fd).map Prod.snd := by
  induction calls using List.reverseRecOn with
  | nil => rfl
  | append_singleton calls c ih =>
    rw [run_append, lastLogin_append]
    exact userFdToId_apply ih c

/-! ### Requests run under the caller's session -/

/-- The calls allowed to a request whose session is `s`: without a session only
the three of registration and login, with one every user id is its own. -/
def UnderSession (s : Option ℤ) : Action → Prop
  | .getUserId _ | .checkUserId _ | .registerUser _ | .sendData _ _ _ => True
  | .selectUnitsData id | .selectUnitdetail id _ | .getSubmissions id _
  | .insertSubmitted id _ _ _ | .deleteSubmission _ id => s = some id
  | .deleteUser _ | .insertProblem _ _ _ | .deleteProblem _ | .insertProblemType _ _
  | .deleteProblemType _ _ => s.isSome

/-- What is permitted is under the session. -/
theorem Permitted.underSession {mgr : SQLManager} {fd : Fd} {a : Action}
    (h : Permitted mgr fd a) : UnderSession (mgr.userFdToId fd) a := by
  cases a <;> first | exact trivial | exact h | exact Option.isSome_of_mem h

/-- **Every database call runs under the caller's own session.**  After any
calls the session of `fd` is the latest successful LOGIN on `fd` since the last
`erase_fd(fd)`, a call that does neither on `fd` leaves it, and every call that
a request makes is one its session allows. -/
theorem requests_run_under_session (special_id : ℤ) (calls : List Call) (fd : Fd) :
    (∀ id, (run (.fresh special_id) calls).userFdToId fd = some id ↔
      ∃ username, LastLogin calls fd username id) ∧
    (∀ c : Call, c ≠ .eraseFd fd → (∀ n id, ¬ c.LogsIn fd n id) →
      (run (.fresh special_id) (calls ++ [c])).userFdToId fd =
        (run (.fresh special_id) calls).userFdToId fd) ∧
    ∀ db pkg, ∀ a ∈ (handleRequest db (run (.fresh special_id) calls) fd pkg).log,
      UnderSession ((run (.fresh special_id) calls).userFdToId fd) a := by
  refine ⟨fun id => ?_, fun c herase hlogin => ?_, fun db pkg a ha => ?_⟩
  · rw [userFdToId_run]
    simp [← lastLogin_eq_some_iff]
  · simp only [userFdToId_run, lastLogin_append]
    congr 1
    ext ⟨n, id⟩
    simp [Call.session_eq_some_iff, herase, hlogin]
  · exact (handleRequest_permitted _ fd db pkg a ha).underSession

/-! ### Privileged requests -/

/-- The operations that only Oscar may run. -/
def Privileged : Action → Prop
  | .deleteUser _ | .insertProblem _ _ _ | .deleteProblem _ | .insertProblemType _ _
  | .deleteProblemType _ _ => True
  | _ => False

/-- What is privileged is under a session of the special user. -/
theorem Permitted.session_of_privileged {mgr : SQLManager} {fd : Fd} {a : Action}
    (h : Permitted mgr fd a) (ha : Privileged a) : mgr.userFdToId fd = some mgr.specialId := by
  cases a <;> first | exact h | exact ha.elim

/-- The user name `"Oscar"`. -/
def oscar : Bytes := text "Oscar"

/-- `getUserId` answers `-1` or the id of the one user with exactly that name;
`nameOf` is the table of all users there ever are, each id being used once. -/
def Call.Consistent (nameOf : ℤ → Option Bytes) : Call → Prop
  | .handleRequest db _ _ => ∀ n id, db.getUserId n = .ok id → id ≠ -1 → nameOf id = some n
  | .eraseFd _ => True

/-- A login attempt is made with a field of the request, and the database has
answered it. -/
theorem getUserId_of_loginAttempt {db : SqlDriver} {pkg : SocketPackage} {n : Bytes} {id : ℤ}
    (h : loginAttempt db pkg = some (n, id)) : db.getUserId n = .ok id ∧ IsField n := by
  unfold loginAttempt at h
  split at h
  · rename_i username fields _ hd
    obtain ⟨user_id, hq, heq⟩ := Option.map_eq_some_iff.1 h
    obtain ⟨rfl, rfl⟩ := Prod.mk.inj heq
    have hmem : username ∈ getdata pkg := by simp [hd]
    refine ⟨?_, isField_of_mem_getdata hmem⟩
    rcases hu : db.getUserId username with e | u
    · simp [hu, Except.toOption] at hq
    · simpa [hu, Except.toOption] using hq
  · cases h

/-- A login succeeds with every id but -1. -/
theorem loginResult_eq_some_iff {db : SqlDriver} {pkg : SocketPackage} {n : Bytes} {id : ℤ} :
    loginResult db pkg = some (n, id) ↔ loginAttempt db pkg = some (n, id) ∧ id ≠ -1 := by
  rw [loginResult, Option.filter_eq_some_iff, checkUserId, bne_iff_ne]

/-- A session belongs to a user of its name. -/
theorem nameOf_lastLogin {nameOf : ℤ → Option Bytes} {calls : List Call}
    (hc : ∀ c ∈ calls, c.Consistent nameOf) {fd : Fd} {n : Bytes} {id : ℤ}
    (h : LastLogin calls fd n id) : id ≠ -1 ∧ nameOf id = some n ∧ IsField n := by
  obtain ⟨pre, c, post, rfl, ⟨db, pkg, rfl, hr⟩, -⟩ := h
  obtain ⟨hattempt, hid⟩ := loginResult_eq_some_iff.1 hr
  obtain ⟨hq, hn⟩ := getUserId_of_loginAttempt hattempt
  have hcons : (Call.handleRequest db fd pkg).Consistent nameOf := hc _ (by simp)
  exact ⟨hid, hcons n id hq hid, hn⟩

/-- `special_id` is `-1`, what the constructor left in it, or an id of Oscar. -/
theorem specialId_run {nameOf : ℤ → Option Bytes} (v : ℤ) {calls : List Call}
    (hc : ∀ c ∈ calls, c.Consistent nameOf) :
    (run (.fresh v) calls).specialId = -1 ∨ (run (.fresh v) calls).specialId = v ∨
      nameOf (run (.fresh v) calls).specialId = some oscar := by
  induction calls using List.reverseRecOn with
  | nil => exact .inr (.inl rfl)
  | append_singleton calls c ih =>
    have ih := ih fun c' hc' => hc c' (by simp [hc'])
    rw [run_append]
    cases c with
    | eraseFd fd =>
      rw [Call.apply, eraseFd_specialId]
      split_ifs
      · exact .inl rfl
      · exact ih
    | handleRequest db fd pkg =>
      rw [Call.apply, handleRequest_mgr]
      rcases h : loginAttempt db pkg with _ | ⟨n, id⟩
      · exact ih
      · by_cases hn : n = oscar
        · -- a login as Oscar, known or not
          have hs : ((run (.fresh v) calls).attempted fd n id).specialId = id := if_pos hn
          rcases eq_or_ne id (-1) with hid | hid
          · exact .inl (hs.trans hid)
          · have hcons : (Call.handleRequest db fd pkg).Consistent nameOf := hc _ (by simp)
            refine .inr (.inr ?_)
            rw [← hn, hs]
            exact hcons n id (getUserId_of_loginAttempt h).1 hid
        · have hs : ((run (.fresh v) calls).attempted fd n id).specialId =
              (run (.fresh v) calls).specialId := if_neg hn
          simpa only [hs] using ih

/-- The package that carries one field. -/
def fieldPackage (t : SqlProtocol) (f : Bytes) (h : IsField f) : SocketPackage :=
  .filled packageStartByte t.toByte f packageEndByte h.2.2

/-- Names without `#`. -/
theorem isField_alice : IsField (text "Alice") := by decide

/-- Another one. -/
theorem isField_bob : IsField (text "Bob") := by decide

/-- A driver whose only known user is `n`, with id `v`, and whose operations
succeed. -/
def oneUser (n : Bytes) (v : ℤ) : SqlDriver where
  getUserId m := .ok (if m = n then v else -1)
  registerUser _ := .ok true
  deleteUser _ := .ok true
  insertProblem _ _ _ := .ok true
  deleteProblem _ := .ok true
  insertProblemType _ _ := .ok true
  deleteProblemType _ _ := .ok true
  insertSubmitted _ _ _ _ := .ok true
  deleteSubmission _ _ := .ok true
  getSubmissions _ _ := .ok []
  selectUnitsData _ := .ok []
  selectUnitdetail _ _ := .ok []

/-- The first user with a session on descriptor 5. -/
def aliceSession : SQLManager := (SQLManager.fresh 0).setUser 5 (some 1)

/-- Alice is logged in on 5. -/
theorem aliceSession_login : aliceSession.userFdToId 5 = some 1 := rfl

/-- A database with one user answers consistently. -/
theorem consistent_oneUser {nameOf : ℤ → Option Bytes} {n : Bytes} {v : ℤ}
    (hv : nameOf v = some n) (fd : Fd) (pkg : SocketPackage) :
    (Call.handleRequest (oneUser n v) fd pkg).Consistent nameOf := by
  intro m id hq hid
  by_cases hm : m = n
  · obtain rfl : v = id := by simpa [oneUser, hm] using hq
    rw [hm, hv]
  · exact absurd (by simpa [oneUser, hm] using hq.symm) hid

/-- It finds the id of that user. -/
theorem loginAttempt_oneUser {n : Bytes} (hn : IsField n) (v : ℤ) :
    loginAttempt (oneUser n v) (fieldPackage .login n hn) = some (n, v) := by
  have hd : getdata (fieldPackage .login n hn) = [n] := getdata_payload hn (by simp [fieldPackage])
  have ht : SqlProtocol.ofByte (fieldPackage .login n hn).cType = some .login := rfl
  simp [loginAttempt, ht, hd, oneUser, Except.toOption]

/-- After a first login of the one user with the id that `special_id` started
with, the session is that user's and so is the privilege. -/
theorem run_login_oneUser {n : Bytes} (hn : IsField n) (hne : n ≠ oscar) {v : ℤ} (hv : v ≠ -1)
    (fd : Fd) :
    lastLogin [.handleRequest (oneUser n v) fd (fieldPackage .login n hn)] fd = some (n, v) ∧
    (run (.fresh v) [.handleRequest (oneUser n v) fd (fieldPackage .login n hn)]).specialId = v := by
  have hattempt := loginAttempt_oneUser hn v
  constructor
  · have hr := loginResult_eq_some_iff.2 ⟨hattempt, hv⟩
    simp [lastLogin, Call.session, hr]
  · have h := handleRequest_mgr (.fresh v) fd (oneUser n v) (fieldPackage .login n hn)
    rw [hattempt] at h
    simp only [run, List.foldl_cons, List.foldl_nil, Call.apply, h]
    exact if_neg hne

/-- A DELETE_USER from the session that `special_id` names is executed. -/
theorem deleteUser_mem_log {mgr : SQLManager} {fd : Fd} (h : mgr.userFdToId fd = some mgr.specialId)
    (db : SqlDriver) {f : Bytes} (hf : IsField f) :
    .deleteUser f ∈ (handleRequest db mgr fd (fieldPackage .deleteUser f hf)).log := by
  have hd : getdata (fieldPackage .deleteUser f hf) = [f] :=
    getdata_payload hf (by simp [fieldPackage])
  have ht : SqlProtocol.ofByte (fieldPackage .deleteUser f hf).cType = some .deleteUser := rfl
  rcases hq : db.deleteUser f <;>
    simp [handleRequest, ht, handleDeleteUser, checkLogin, h, checkSpecial, hd, call, hq,
      Outcome.after]

/-- In every run the privileged operations are called for Oscar only. -/
def OscarOnly (v : ℤ) (nameOf : ℤ → Option Bytes) : Prop :=
  ∀ calls, (∀ c ∈ calls, Call.Consistent nameOf c) → ∀ db fd pkg,
    (Call.handleRequest db fd pkg).Consistent nameOf →
    ∀ a ∈ (handleRequest db (run (.fresh v) calls) fd pkg).log, Privileged a →
      ∃ id, LastLogin calls fd oscar id

/-- A user who has the id that `special_id` starts with logs in and deletes an
account. -/
theorem not_oscarOnly_of_other {v : ℤ} {nameOf : ℤ → Option Bytes} {n : Bytes} (hne : n ≠ oscar)
    (hn : IsField n) (hv : v ≠ -1) (hname : nameOf v = some n) : ¬ OscarOnly v nameOf := by
  intro h
  obtain ⟨hlast, hspecial⟩ := run_login_oneUser hn hne hv 0
  have hsession := userFdToId_run v [.handleRequest (oneUser n v) 0 (fieldPackage .login n hn)] 0
  rw [hlast, Option.map_some] at hsession
  obtain ⟨id, hid⟩ := h [.handleRequest (oneUser n v) 0 (fieldPackage .login n hn)]
    (by simpa using consistent_oneUser hname 0 _) (oneUser n v) 0 (fieldPackage .deleteUser n hn)
    (consistent_oneUser hname 0 _) (.deleteUser n)
    (deleteUser_mem_log (hsession.trans (congrArg some hspecial.symm)) _ hn) trivial
  rw [← lastLogin_eq_some_iff, hlast] at hid
  exact hne (Prod.mk.inj (Option.some.inj hid)).1

/-- **The privileged operations are Oscar's only, unless the unset `special_id`
starts as the id of another user**, one whose name a LOGIN can carry. -/
theorem privileged_only_oscar_iff (v : ℤ) (nameOf : ℤ → Option Bytes) :
    OscarOnly v nameOf ↔
      ¬ ∃ n, n ≠ oscar ∧ IsField n ∧ v ≠ -1 ∧ nameOf v = some n := by
  constructor
  · rintro h ⟨n, hne, hn, hv, hname⟩
    exact not_oscarOnly_of_other hne hn hv hname h
  · intro hv calls hc db fd pkg _ a ha hpriv
    have hs := (handleRequest_permitted _ fd db pkg a ha).session_of_privileged hpriv
    rw [userFdToId_run] at hs
    obtain ⟨⟨n, id⟩, hlast, hid⟩ := Option.map_eq_some_iff.1 hs
    rw [lastLogin_eq_some_iff] at hlast
    obtain ⟨hne, hname, hn⟩ := nameOf_lastLogin hc hlast
    replace hid : id = (run (.fresh v) calls).specialId := hid
    suffices hoscar : n = oscar from ⟨id, hoscar ▸ hlast⟩
    rcases specialId_run v hc with h | h | h
    · exact absurd (hid.trans h) hne
    · by_contra hn'
      rw [hid, h] at hne hname
      exact hv ⟨n, hn', hn, hne, hname⟩
    · rw [hid, h] at hname
      exact (Option.some.inj hname).symm

/-- Alice has the id 2 that `special_id` happens to hold. -/
theorem not_oscarOnly_alice :
    ¬ OscarOnly 2 fun id => if id = 2 then some (text "Alice") else none :=
  not_oscarOnly_of_other (n := text "Alice") (by decide) (by decide) (by decide) rfl

end Manager
end WeakAyas
