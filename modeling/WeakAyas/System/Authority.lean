/-
# Who changes the catalogue

The other three tables through every run of requests and closes over the managers of
all workers, whatever the requests hold and whichever connector calls fail.

| table | a row comes | a row goes |
| --- | --- | --- |
| `users` | with a registration of its name | by Oscar, by its name |
| `problems` | by Oscar, with its fields | by Oscar, by its number |
| `problem_type_map` | by Oscar, with its fields | by Oscar, by its fields or its problem |

By Oscar means: at the request the session of its descriptor is the one of the
`special_id` of its manager (`users_audited`, `catalogue_audited`).
-/

import WeakAyas.System.Audit

namespace WeakAyas
namespace System

open Driver Database Manager TransitionSystem

variable {κ W : Type} [DecidableEq κ] [DecidableEq W] {collation : Bytes → κ}
  {fits : Mutation → Prop} {dbms : Dbms Tables}

/-- At a request of the run its manager is asked for a change of this kind. -/
def AskedIn (dbms : Dbms Tables) (s : Manager.Service W Tables) (ls : List (ServiceStep W))
    (kind : Mutation → Prop) : Prop :=
  ∃ pre post t w f fd pkg m, ls = pre ++ .request w f fd pkg :: post ∧
    (service W dbms).run s pre = some t ∧ Requested (t.mgrs w) fd pkg m ∧ kind m

/-- A run in which the tables come to satisfy `P` is asked for a change that can do it. -/
theorem askedIn_of_run (h : Enforces collation fits dbms) {s s' : Manager.Service W Tables}
    {ls : List (ServiceStep W)} (hrun : (service W dbms).run s ls = some s')
    {P : Tables → Prop} {kind : Mutation → Prop}
    (hkind : ∀ stamp m db, ¬ P db → P (effect collation stamp m db) → kind m)
    (hs : ¬ P s.db) (hs' : P s'.db) : AskedIn dbms s ls kind := by
  obtain ⟨pre, post, t, w, f, fd, pkg, m, stamp, rfl, hpre, hreq, ht, ht'⟩ :=
    exists_request_of_run h hs hs' hrun
  exact ⟨pre, post, t, w, f, fd, pkg, m, rfl, hpre, hreq, hkind stamp m t.db ht ht'⟩

/-- The changes that only a session of the `special_id` may ask for. -/
def isSpecial : Mutation → Bool
  | .deleteUser _ | .insertProblem _ _ _ | .deleteProblem _ | .insertProblemType _ _
  | .deleteProblemType _ _ => true
  | .registerUser _ | .insertSubmitted _ _ _ _ | .deleteSubmission _ _ => false

/-- The same, and the session of the request is the one of the `special_id`. -/
def AskedBySpecial (dbms : Dbms Tables) (s : Manager.Service W Tables) (ls : List (ServiceStep W))
    (kind : Mutation → Prop) : Prop :=
  ∃ pre post t w f fd pkg m, ls = pre ++ .request w f fd pkg :: post ∧
    (service W dbms).run s pre = some t ∧
    (t.mgrs w).userFdToId fd = some (t.mgrs w).specialId ∧
    Requested (t.mgrs w) fd pkg m ∧ kind m

/-- What only the special user may ask for, the special user has asked for. -/
theorem AskedIn.bySpecial {s : Manager.Service W Tables} {ls : List (ServiceStep W)}
    {kind : Mutation → Prop} (h : AskedIn dbms s ls kind)
    (hkind : ∀ m, kind m → isSpecial m = true) : AskedBySpecial dbms s ls kind := by
  obtain ⟨pre, post, t, w, f, fd, pkg, m, rfl, hpre, hreq, hm⟩ := h
  refine ⟨pre, post, t, w, f, fd, pkg, m, rfl, hpre, ?_, hreq, hm⟩
  have hspecial := hkind m hm
  cases m with
  | registerUser username => cases hspecial
  | insertSubmitted users_id problem_id status time_spent => cases hspecial
  | deleteSubmission submission_id users_id => cases hspecial
  | _ => exact hreq.2.1

/-! ### Users -/

/-- A user is new only by a registration. -/
theorem user_of_mem_effect {stamp : Stamp} {m : Mutation} {db : Tables} {u : User}
    (hnew : u ∉ db.users) (hu : u ∈ (effect collation stamp m db).users) :
    m = .registerUser u.username := by
  cases m with
  | registerUser username =>
    rcases List.mem_append.1 hu with hu | hu
    · exact absurd hu hnew
    · obtain rfl := List.mem_singleton.1 hu
      rfl
  | deleteUser username => exact absurd (List.mem_filter.1 hu).1 hnew
  | _ => exact absurd hu hnew

/-- A user goes only by a deletion of its name. -/
theorem user_of_notMem_effect {stamp : Stamp} {m : Mutation} {db : Tables} {u : User}
    (hold : u ∈ db.users) (hu : u ∉ (effect collation stamp m db).users) :
    ∃ username, m = .deleteUser username ∧ collation u.username = collation username := by
  cases m with
  | registerUser username => exact absurd (List.mem_append_left _ hold) hu
  | deleteUser username =>
    refine ⟨username, rfl, ?_⟩
    by_contra hne
    exact hu (List.mem_filter.2 ⟨hold, by simpa [User.named] using hne⟩)
  | _ => exact absurd hold hu

/-- **Every user that comes or goes does so at a request that may do it**: with a
registration of the name, or with a deletion by Oscar. -/
theorem users_audited (h : Enforces collation fits dbms) {s s' : Manager.Service W Tables}
    {ls : List (ServiceStep W)} (hrun : (service W dbms).run s ls = some s') (u : User) :
    (u ∉ s.db.users → u ∈ s'.db.users →
      AskedIn dbms s ls fun m => m = .registerUser u.username) ∧
    (u ∈ s.db.users → u ∉ s'.db.users →
      AskedBySpecial dbms s ls fun m => ∃ username, m = .deleteUser username ∧
        collation u.username = collation username) := by
  constructor
  · intro hs hs'
    exact askedIn_of_run h hrun (P := fun db => u ∈ db.users)
      (fun _ _ _ ht ht' => user_of_mem_effect ht ht') hs hs'
  · intro hs hs'
    refine AskedIn.bySpecial (askedIn_of_run h hrun (P := fun db => u ∉ db.users)
      (fun _ _ _ ht ht' => user_of_notMem_effect (not_not.1 ht) ht') (not_not.2 hs) hs') ?_
    rintro m ⟨username, rfl, -⟩
    rfl

/-- Oscar registers, logs in and inserts a problem. -/
def oscarInserts : List (ServiceStep Bool) :=
  [.request true (fun _ => false) 6 (fieldPackage .registerUser (text "Oscar") (by decide)),
    .request true (fun _ => false) 6 (fieldPackage .login (text "Oscar") (by decide)),
    .request true (fun _ => false) 6 (.filled packageStartByte SqlProtocol.insertProblem.toByte
      (text "#1#Two Sum#Easy") packageEndByte (by decide))]

/-- He inserts a type, and deletes Bob and a problem with its types. -/
def oscarManages : List (ServiceStep Bool) :=
  oscarInserts ++
    [.request true (fun _ => false) 6 (.filled packageStartByte SqlProtocol.insertProblemType.toByte
        (text "#1#Array") packageEndByte (by decide)),
      .request true (fun _ => false) 6 (fieldPackage .deleteUser (text "Bob") isField_bob),
      .request true (fun _ => false) 6 (fieldPackage .deleteProblem (text "213") (by decide))]

/-- Oscar comes, and Bob goes. -/
theorem users_audited_oscar :
    ∃ s, (service Bool sampleTracker).run ⟨fun _ => .fresh 0, sample⟩ oscarManages = some s ∧
      (∃ u ∈ s.db.users, u ∉ sample.users) ∧ (∃ u ∈ sample.users, u ∉ s.db.users) ∧ ∀ u,
      (u ∉ sample.users → u ∈ s.db.users →
        AskedIn sampleTracker ⟨fun _ => .fresh 0, sample⟩ oscarManages
          fun m => m = .registerUser u.username) ∧
      (u ∈ sample.users → u ∉ s.db.users →
        AskedBySpecial sampleTracker ⟨fun _ => .fresh 0, sample⟩ oscarManages
          fun m => ∃ username, m = .deleteUser username ∧ id u.username = id username) := by
  obtain ⟨s, hs, hp⟩ := exists_run_any sampleTracker ⟨fun _ => .fresh 0, sample⟩ oscarManages
    (fun s => (∃ u ∈ s.db.users, u ∉ sample.users) ∧ ∃ u ∈ sample.users, u ∉ s.db.users)
    (by decide +kernel)
  obtain ⟨hnew, hgone⟩ := of_decide_eq_true hp
  exact ⟨s, hs, hnew, hgone, users_audited enforces_sampleTracker hs⟩

/-! ### Problems and their types -/

/-- A problem is new only by its insertion. -/
theorem problem_of_mem_effect {stamp : Stamp} {m : Mutation} {db : Tables} {p : Problem}
    (hnew : p ∉ db.problems) (hp : p ∈ (effect collation stamp m db).problems) :
    ∃ difficulty, p.difficulty = some difficulty ∧ m = .insertProblem p.id p.title difficulty := by
  cases m with
  | insertProblem id title difficulty =>
    rcases List.mem_append.1 hp with hp | hp
    · exact absurd hp hnew
    · obtain rfl := List.mem_singleton.1 hp
      exact ⟨difficulty, rfl, rfl⟩
  | deleteProblem problem_id => exact absurd (List.mem_filter.1 hp).1 hnew
  | _ => exact absurd hp hnew

/-- A problem goes only by its deletion. -/
theorem problem_of_notMem_effect {stamp : Stamp} {m : Mutation} {db : Tables} {p : Problem}
    (hold : p ∈ db.problems) (hp : p ∉ (effect collation stamp m db).problems) :
    m = .deleteProblem p.id := by
  cases m with
  | insertProblem id title difficulty => exact absurd (List.mem_append_left _ hold) hp
  | deleteProblem problem_id =>
    have hid : p.id = problem_id := by
      by_contra hne
      exact hp (List.mem_filter.2 ⟨hold, by simpa using hne⟩)
    rw [hid]
  | _ => exact absurd hold hp

/-- A type is new only by its insertion. -/
theorem type_of_mem_effect {stamp : Stamp} {m : Mutation} {db : Tables} {r : ProblemType}
    (hnew : r ∉ db.problemTypeMap) (hr : r ∈ (effect collation stamp m db).problemTypeMap) :
    m = .insertProblemType r.problemId r.problemType := by
  cases m with
  | insertProblemType problem_id problem_type =>
    rcases List.mem_append.1 hr with hr | hr
    · exact absurd hr hnew
    · obtain rfl := List.mem_singleton.1 hr
      rfl
  | deleteProblem problem_id => exact absurd (List.mem_filter.1 hr).1 hnew
  | deleteProblemType problem_id problem_type => exact absurd (List.mem_filter.1 hr).1 hnew
  | _ => exact absurd hr hnew

/-- A type goes only by its deletion, or with its problem. -/
theorem type_of_notMem_effect {stamp : Stamp} {m : Mutation} {db : Tables} {r : ProblemType}
    (hold : r ∈ db.problemTypeMap) (hr : r ∉ (effect collation stamp m db).problemTypeMap) :
    m = .deleteProblem r.problemId ∨ ∃ problem_type,
      m = .deleteProblemType r.problemId problem_type ∧
        collation r.problemType = collation problem_type := by
  have htaken : ∀ {q : ProblemType → Bool}, r ∉ db.problemTypeMap.filter q → q r = false := by
    intro q hq
    by_contra hn
    exact hq (List.mem_filter.2 ⟨hold, by simpa using hn⟩)
  cases m with
  | insertProblemType problem_id problem_type => exact absurd (List.mem_append_left _ hold) hr
  | deleteProblem problem_id =>
    obtain ⟨p, -, hand⟩ := List.any_eq_true.1 (by simpa only [Bool.not_eq_false'] using htaken hr)
    obtain ⟨hid, hproblem⟩ := Bool.and_eq_true_iff.1 hand
    rw [beq_iff_eq] at hid hproblem
    exact .inl (by rw [← hproblem, hid])
  | deleteProblemType problem_id problem_type =>
    have hand := htaken hr
    rw [Bool.not_eq_false', ProblemType.isOf, Bool.and_eq_true_iff, beq_iff_eq] at hand
    obtain ⟨rfl, htype⟩ := hand
    exact .inr ⟨problem_type, rfl, of_decide_eq_true htype⟩
  | _ => exact absurd hold hr

/-- **Every row of the catalogue that comes or goes does so at a request of Oscar's
session**: a problem with its fields or by its number, a type with its fields, by them or
with its problem. -/
theorem catalogue_audited (h : Enforces collation fits dbms) {s s' : Manager.Service W Tables}
    {ls : List (ServiceStep W)} (hrun : (service W dbms).run s ls = some s') :
    (∀ p, p ∉ s.db.problems → p ∈ s'.db.problems → AskedBySpecial dbms s ls fun m =>
      ∃ difficulty, p.difficulty = some difficulty ∧
        m = .insertProblem p.id p.title difficulty) ∧
    (∀ p, p ∈ s.db.problems → p ∉ s'.db.problems →
      AskedBySpecial dbms s ls fun m => m = .deleteProblem p.id) ∧
    (∀ r, r ∉ s.db.problemTypeMap → r ∈ s'.db.problemTypeMap →
      AskedBySpecial dbms s ls fun m => m = .insertProblemType r.problemId r.problemType) ∧
    ∀ r, r ∈ s.db.problemTypeMap → r ∉ s'.db.problemTypeMap → AskedBySpecial dbms s ls fun m =>
      m = .deleteProblem r.problemId ∨ ∃ problem_type,
        m = .deleteProblemType r.problemId problem_type ∧
          collation r.problemType = collation problem_type := by
  refine ⟨?_, ?_, ?_, ?_⟩
  · intro p hs hs'
    refine AskedIn.bySpecial (askedIn_of_run h hrun (P := fun db => p ∈ db.problems)
      (fun _ _ _ ht ht' => problem_of_mem_effect ht ht') hs hs') ?_
    rintro m ⟨difficulty, -, rfl⟩
    rfl
  · intro p hs hs'
    refine AskedIn.bySpecial (askedIn_of_run h hrun (P := fun db => p ∉ db.problems)
      (fun _ _ _ ht ht' => problem_of_notMem_effect (not_not.1 ht) ht') (not_not.2 hs) hs') ?_
    rintro m rfl
    rfl
  · intro r hs hs'
    refine AskedIn.bySpecial (askedIn_of_run h hrun (P := fun db => r ∈ db.problemTypeMap)
      (fun _ _ _ ht ht' => type_of_mem_effect ht ht') hs hs') ?_
    rintro m rfl
    rfl
  · intro r hs hs'
    refine AskedIn.bySpecial (askedIn_of_run h hrun (P := fun db => r ∉ db.problemTypeMap)
      (fun _ _ _ ht ht' => type_of_notMem_effect (not_not.1 ht) ht') (not_not.2 hs) hs') ?_
    rintro m (rfl | ⟨problem_type, rfl, -⟩) <;> rfl

/-- A problem comes and one goes, and so do types. -/
theorem catalogue_audited_oscar :
    ∃ s, (service Bool sampleTracker).run ⟨fun _ => .fresh 0, sample⟩ oscarManages = some s ∧
      ((∃ p ∈ s.db.problems, p ∉ sample.problems) ∧ (∃ p ∈ sample.problems, p ∉ s.db.problems) ∧
        (∃ r ∈ s.db.problemTypeMap, r ∉ sample.problemTypeMap) ∧
        ∃ r ∈ sample.problemTypeMap, r ∉ s.db.problemTypeMap) ∧
      (∀ p, p ∉ sample.problems → p ∈ s.db.problems →
        AskedBySpecial sampleTracker ⟨fun _ => .fresh 0, sample⟩ oscarManages fun m =>
          ∃ difficulty, p.difficulty = some difficulty ∧
            m = .insertProblem p.id p.title difficulty) ∧
      (∀ p, p ∈ sample.problems → p ∉ s.db.problems →
        AskedBySpecial sampleTracker ⟨fun _ => .fresh 0, sample⟩ oscarManages fun m =>
          m = .deleteProblem p.id) ∧
      (∀ r, r ∉ sample.problemTypeMap → r ∈ s.db.problemTypeMap →
        AskedBySpecial sampleTracker ⟨fun _ => .fresh 0, sample⟩ oscarManages fun m =>
          m = .insertProblemType r.problemId r.problemType) ∧
      ∀ r, r ∈ sample.problemTypeMap → r ∉ s.db.problemTypeMap →
        AskedBySpecial sampleTracker ⟨fun _ => .fresh 0, sample⟩ oscarManages fun m =>
          m = .deleteProblem r.problemId ∨ ∃ problem_type,
            m = .deleteProblemType r.problemId problem_type ∧
              id r.problemType = id problem_type := by
  obtain ⟨s, hs, hp⟩ := exists_run_any sampleTracker ⟨fun _ => .fresh 0, sample⟩ oscarManages
    (fun s => (∃ p ∈ s.db.problems, p ∉ sample.problems) ∧
      (∃ p ∈ sample.problems, p ∉ s.db.problems) ∧
      (∃ r ∈ s.db.problemTypeMap, r ∉ sample.problemTypeMap) ∧
      ∃ r ∈ sample.problemTypeMap, r ∉ s.db.problemTypeMap) (by decide +kernel)
  exact ⟨s, hs, of_decide_eq_true hp, catalogue_audited enforces_sampleTracker hs⟩

end System
end WeakAyas
