/-
# The tracker

What the server is for, without packages, handlers, connector calls and faults: who
is logged in where, which user each worker takes for Oscar, and the tables
(`Tracker`).  Four things happen to it: a login, a close, and a change that the
session may make and the tables admit.

The managers of all workers over one database refine it (`service_refines`): every
request is one of these events, or nothing.
-/

import WeakAyas.Database.Changes
import WeakAyas.Library.Ownership
import WeakAyas.Manager.Accounts
import WeakAyas.System.Requests

namespace WeakAyas
namespace System

open Driver Database Manager TransitionSystem

variable {κ W : Type} [DecidableEq κ] [DecidableEq W]

/-! ### The abstract system -/

/-- The sessions of every worker, the id that each takes for Oscar's, and the
tables. -/
structure Tracker (W : Type) where
  session : W → Fd → Option ℤ
  special : W → ℤ
  db : Tables

/-- What happens to a tracker. -/
inductive Event (W : Type) where
  /-- A login under a name, and the user that is found. -/
  | login (w : W) (fd : Fd) (username : Bytes) (found : Option User)
  /-- A descriptor is closed. -/
  | logout (w : W) (fd : Fd)
  /-- A change from a descriptor, with what the database puts into the row. -/
  | change (w : W) (fd : Fd) (m : Mutation) (stamp : Stamp)

/-- The session may make the change: anybody may register, a user changes the own
submissions, and the rest is Oscar's. -/
def MayChange (session : Option ℤ) (special : ℤ) : Mutation → Prop
  | .registerUser _ => True
  | .insertSubmitted users_id _ _ _ | .deleteSubmission _ users_id => session = some users_id
  | .deleteUser _ | .insertProblem _ _ _ | .deleteProblem _ | .insertProblemType _ _
  | .deleteProblemType _ _ => session = some special

instance (session : Option ℤ) (special : ℤ) (m : Mutation) :
    Decidable (MayChange session special m) := by
  cases m <;> unfold MayChange <;> infer_instance

instance (stamp : Stamp) (db : Tables) (m : Mutation) : Decidable (Fresh stamp db m) := by
  cases m <;> unfold Fresh <;> infer_instance

/-- The tracker after an event that can happen. -/
def Tracker.next (collation : Bytes → κ) (t : Tracker W) : Event W → Option (Tracker W)
  | .login w fd username found =>
    if ∀ u ∈ found, u ∈ t.db.users ∧ u.named collation username = true then
      some { t with
        session := match found with
          | some u => Function.update t.session w (Function.update (t.session w) fd (some u.id))
          | none => t.session
        special := if username = text "Oscar" then
            Function.update t.special w ((found.map User.id).getD (-1))
          else t.special }
    else none
  | .logout w fd => some { t with
      session := Function.update t.session w (Function.update (t.session w) fd none)
      special := if t.session w fd = some (t.special w) then Function.update t.special w (-1)
        else t.special }
  | .change w fd m stamp =>
    if MayChange (t.session w fd) (t.special w) m ∧ admits collation t.db m = true ∧
        Fresh stamp t.db m then
      some { t with db := effect collation stamp m t.db }
    else none

/-- The tracker, with nobody logged in at the start. -/
def tracker (W : Type) [DecidableEq W] (collation : Bytes → κ) :
    TransitionSystem (Tracker W) (Event W) where
  init t := t.session = fun _ _ => none
  next := Tracker.next collation

/-! ### The refinement -/

/-- The tracker that the managers and their database make up. -/
def trackerOf (s : Manager.Service W Tables) : Tracker W where
  session w := (s.mgrs w).userFdToId
  special w := (s.mgrs w).specialId
  db := s.db

variable {collation : Bytes → κ} {fits : Mutation → Prop} {dbms : Dbms Tables}

/-- A session may make the change that its request asks for. -/
theorem mayChange_of_asks (sql : SqlDriver) {mgr : SQLManager} {fd : Fd} {pkg : SocketPackage}
    {m : Mutation} (h : asks mgr fd pkg = some m) :
    MayChange (mgr.userFdToId fd) mgr.specialId m := by
  have hmem : m ∈ mutations (handleRequest sql mgr fd pkg) := by
    rw [mutations_handleRequest, h]
    exact List.mem_singleton_self m
  obtain ⟨a, ha, ham⟩ := List.mem_filterMap.1 hmem
  have hpermitted := handleRequest_permitted mgr fd sql pkg a ha
  cases a <;> simp only [Action.mutation, Option.some.injEq, reduceCtorEq] at ham <;> subst ham <;>
    exact hpermitted

/-- A login that finds an id finds a user of the name. -/
theorem exists_user_of_getUserId (h : Enforces collation fits dbms) {f : ℕ → Bool} {db : Tables}
    {username : Bytes} {id : ℤ} (hid : (driverOn dbms f db).getUserId username = .ok id)
    (hne : id ≠ -1) : ∃ u ∈ db.users, u.named collation username = true ∧ u.id = id := by
  rcases Query.eq_of_perform_getUserId dbms hid with rfl | ⟨row, rows, hq, rfl⟩
  · exact absurd rfl hne
  · have hmem : row.int "id" ∈ (db.users.filter (·.named collation username)).map User.id := by
      refine (h.getUserId username db).subset ?_
      rw [hq]
      exact List.mem_cons_self
    obtain ⟨u, hu, heq⟩ := List.mem_map.1 hmem
    exact ⟨u, (List.mem_filter.1 hu).1, (List.mem_filter.1 hu).2, heq⟩

/-- What one manager becomes is what one worker becomes. -/
theorem trackerOf_update (mgrs : W → SQLManager) (w : W) (mgr : SQLManager) (db : Tables) :
    trackerOf ⟨Function.update mgrs w mgr, db⟩ =
      ⟨Function.update (fun w => (mgrs w).userFdToId) w mgr.userFdToId,
        Function.update (fun w => (mgrs w).specialId) w mgr.specialId, db⟩ := by
  rw [trackerOf, map_update SQLManager.userFdToId, map_update SQLManager.specialId]

/-- A worker whose manager stays stays. -/
theorem trackerOf_same (s : Manager.Service W Tables) (w : W) (db : Tables) :
    trackerOf ⟨Function.update s.mgrs w (s.mgrs w), db⟩ = { trackerOf s with db := db } := by
  rw [Function.update_eq_self]
  rfl

/-- A login attempt is a login. -/
theorem next_login (h : Enforces collation fits dbms) {s : Manager.Service W Tables} (w : W)
    {f : ℕ → Bool} (fd : Fd) {pkg : SocketPackage} {username : Bytes} {id : ℤ}
    (hattempt : loginAttempt (driverOn dbms f s.db) pkg = some (username, id)) :
    ∃ found, (trackerOf s).next collation (.login w fd username found) =
      some (trackerOf ⟨Function.update s.mgrs w ((s.mgrs w).attempted fd username id), s.db⟩) := by
  have hid := (getUserId_of_loginAttempt hattempt).1
  by_cases hne : id = -1
  · subst hne
    refine ⟨none, ?_⟩
    rw [Tracker.next, if_pos (by simp), trackerOf_update]
    simp only [SQLManager.attempted, ne_eq, not_true_eq_false, if_false, Function.update_eq_self,
      trackerOf, Option.map_none, Option.getD_none]
    by_cases hname : username = text "Oscar"
    · simp [hname]
    · simp [hname]
  · obtain ⟨u, hu, hnamed, rfl⟩ := exists_user_of_getUserId h hid hne
    refine ⟨some u, ?_⟩
    rw [Tracker.next, if_pos (by simpa using ⟨hu, hnamed⟩), trackerOf_update]
    simp only [SQLManager.attempted, ne_eq, hne, not_false_eq_true, if_true, trackerOf,
      Option.map_some, Option.getD_some]
    by_cases hname : username = text "Oscar"
    · simp [hname]
    · simp [hname]

variable (collation) in
/-- A close is a logout. -/
theorem next_logout (s : Manager.Service W Tables) (w : W) (fd : Fd) :
    (trackerOf s).next collation (.logout w fd) =
      some (trackerOf ⟨Function.update s.mgrs w (eraseFd (s.mgrs w) fd), s.db⟩) := by
  rw [Tracker.next, trackerOf_update, eraseFd_userFdToId, eraseFd_specialId]
  simp only [trackerOf]
  by_cases hspecial : (s.mgrs w).userFdToId fd = some (s.mgrs w).specialId
  · simp [hspecial]
  · simp [hspecial]

/-- An operation that a request asks for is a change, or nothing. -/
theorem next_change (h : Enforces collation fits dbms) {s : Manager.Service W Tables} {w : W}
    {f : ℕ → Bool} {fd : Fd} {pkg : SocketPackage} {m : Mutation}
    (hasks : asks (s.mgrs w) fd pkg = some m) :
    (m.perform dbms f s.db).2 = s.db ∨ ∃ stamp,
      (trackerOf s).next collation (.change w fd m stamp) =
        some { trackerOf s with db := (m.perform dbms f s.db).2 } := by
  have hmay := mayChange_of_asks (driverOn dbms f s.db) hasks
  rcases perform_database dbms m f s.db with hdb | hdb
  · exact .inl hdb
  · rcases apply_cases h m s.db with hsame | ⟨hadmitted, stamp, hfresh, heffect⟩
    · exact .inl (hdb.trans hsame)
    · refine .inr ⟨stamp, ?_⟩
      rw [hdb, heffect, Tracker.next, if_pos ⟨hmay, hadmitted.2, hfresh⟩]
      rfl

/-- **The workers and their database are a tracker.**  Every request, whatever it
holds and whatever fails in it, and every close is an event of the tracker or
leaves it as it is. -/
theorem service_refines (h : Enforces collation fits dbms) :
    Simulation (service W dbms) anyStep (tracker W collation) anyStep
      (fun s t => t = trackerOf s) where
  init s hs := by
    obtain ⟨special_id, hmgrs⟩ := hs
    refine ⟨trackerOf s, ?_, rfl⟩
    show (fun w => (s.mgrs w).userFdToId) = _
    rw [hmgrs]
    rfl
  step s s' l t _ ht _ hn := by
    subst ht
    cases l with
    | eraseFd w fd =>
      obtain rfl := Option.some.inj hn
      exact .inr ⟨.logout w fd, _, trivial, next_logout collation s w fd, rfl⟩
    | request w f fd pkg =>
      obtain rfl := Option.some.inj hn
      rw [handleRequest_mgr]
      rcases hattempt : loginAttempt (driverOn dbms f s.db) pkg with _ | ⟨username, id⟩
      · rw [databaseAfter_handleRequest]
        rcases hasks : asks (s.mgrs w) fd pkg with _ | m
        · exact .inl (trackerOf_same s w s.db).symm
        · rcases next_change (f := f) h hasks with hsame | ⟨stamp, hnext⟩
          · refine .inl ?_
            simp only [hsame]
            exact (trackerOf_same s w s.db).symm
          · exact .inr ⟨.change w fd m stamp, _, trivial, hnext, (trackerOf_same s w _).symm⟩
      · obtain ⟨found, hnext⟩ := next_login h w fd hattempt
        refine .inr ⟨.login w fd username found, _, trivial, hnext, ?_⟩
        rw [databaseAfter, mutation_of_loginAttempt hattempt]
        rfl

/-- The database of the examples. -/
def sampleTracker : Dbms Tables := enforcing id some (text "2024-01-05")

theorem enforces_sampleTracker : Enforces id (fun _ => True) sampleTracker :=
  enforces_enforcing id some (text "2024-01-05")

/-- Two workers on the sample make up a tracker. -/
theorem service_refines_sample :
    Simulation (service Bool sampleTracker) anyStep (tracker Bool id) anyStep
      (fun s t => t = trackerOf s) :=
  service_refines enforces_sampleTracker

end System
end WeakAyas
