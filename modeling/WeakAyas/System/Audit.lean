/-
# What a run does to the tables

Every run of requests and closes over the managers of all workers, whatever the
requests hold and whichever connector calls fail.

The keys of `init.sql` hold from its start to its end (`keys_of_run`).  And each row
of `submissions` that comes or goes in it does so at one request: it comes with a
submission of the user it names, with that user's fields, and it goes by the own
user, or with its user or its problem, by Oscar (`submissions_audited`).
-/

import WeakAyas.Database.Integrity
import WeakAyas.Manager.Minutes
import WeakAyas.System.Tracker

namespace WeakAyas
namespace System

open Driver Database Manager TransitionSystem

variable {κ W : Type} [DecidableEq κ] [DecidableEq W] {collation : Bytes → κ}
  {fits : Mutation → Prop} {dbms : Dbms Tables}

/-- Every step can be taken. -/
theorem exists_run (dbms : Dbms Tables) (s : Manager.Service W Tables) (ls : List (ServiceStep W)) :
    ∃ s', (service W dbms).run s ls = some s' := by
  induction ls generalizing s with
  | nil => exact ⟨s, rfl⟩
  | cons l ls ih =>
    obtain ⟨t, ht⟩ : ∃ t, (service W dbms).next s l = some t := by
      cases l <;> exact ⟨_, rfl⟩
    obtain ⟨s', hs'⟩ := ih t
    exact ⟨s', by rw [TransitionSystem.run, ht]; exact hs'⟩

/-- A run ends in a state in which `p` holds, when evaluating it says so. -/
theorem exists_run_any (dbms : Dbms Tables) (s : Manager.Service W Tables)
    (ls : List (ServiceStep W)) (p : Manager.Service W Tables → Bool)
    (h : ((service W dbms).run s ls).any p = true) :
    ∃ s', (service W dbms).run s ls = some s' ∧ p s' = true := by
  obtain ⟨s', hs'⟩ := exists_run dbms s ls
  exact ⟨s', hs', by simpa [hs'] using h⟩

/-! ### Keys -/

theorem keys_next (h : Enforces collation fits dbms) {s s' : Manager.Service W Tables}
    {l : ServiceStep W} (hkeys : Keys collation s.db) (hn : s.next dbms l = some s') :
    Keys collation s'.db := by
  cases l with
  | eraseFd w fd =>
    obtain rfl := Option.some.inj hn
    exact hkeys
  | request w f fd pkg =>
    obtain rfl := Option.some.inj hn
    exact databaseAfter_induction dbms (P := Keys collation)
      (fun _ _ m _ _ hdb => hdb.apply h m) hkeys

/-- **The keys hold through every run.** -/
theorem keys_of_run (h : Enforces collation fits dbms) {s s' : Manager.Service W Tables}
    {ls : List (ServiceStep W)} (hkeys : Keys collation s.db)
    (hrun : (service W dbms).run s ls = some s') : Keys collation s'.db :=
  invariant_run (P := fun s => Keys collation s.db) (fun _ _ _ hs hn => keys_next h hs hn) hkeys
    hrun

/-- Alice logs in on one of two workers and submits a solution. -/
def aliceSubmits : List (ServiceStep Bool) :=
  [.request true (fun _ => false) 6 (fieldPackage .login (text "Alice") (by decide)),
    .request true (fun _ => false) 6 (submission (text "00:05:00") (by decide))]

theorem keys_of_run_alice :
    ∃ s, (service Bool sampleTracker).run ⟨fun _ => .fresh 0, sample⟩ aliceSubmits = some s ∧
      Keys id s.db := by
  obtain ⟨s, hs⟩ := exists_run sampleTracker ⟨fun _ => .fresh 0, sample⟩ aliceSubmits
  exact ⟨s, hs, keys_of_run enforces_sampleTracker keys_sample hs⟩

/-! ### What a run changes -/

/-- A step that changes the tables is a request for a change with this effect. -/
theorem effect_of_next (h : Enforces collation fits dbms) {s s' : Manager.Service W Tables}
    {l : ServiceStep W} (hn : s.next dbms l = some s') :
    s'.db = s.db ∨ ∃ w f fd pkg m stamp, l = .request w f fd pkg ∧
      Requested (s.mgrs w) fd pkg m ∧ s'.db = effect collation stamp m s.db := by
  cases l with
  | eraseFd w fd =>
    obtain rfl := Option.some.inj hn
    exact .inl rfl
  | request w f fd pkg =>
    obtain rfl := Option.some.inj hn
    dsimp only
    rw [databaseAfter_handleRequest]
    rcases hasks : asks (s.mgrs w) fd pkg with _ | m
    · exact .inl rfl
    · rcases perform_database dbms m f s.db with hdb | hdb
      · exact .inl hdb
      · rcases apply_cases h m s.db with hsame | ⟨-, stamp, -, heffect⟩
        · exact .inl (hdb.trans hsame)
        · exact .inr ⟨w, f, fd, pkg, m, stamp, rfl, requested_of_asks hasks, hdb.trans heffect⟩

/-- What the tables come to satisfy in a run they come to satisfy at a request. -/
theorem exists_request_of_run (h : Enforces collation fits dbms)
    {s s' : Manager.Service W Tables} {ls : List (ServiceStep W)} {P : Tables → Prop}
    (hs : ¬ P s.db) (hs' : P s'.db) (hrun : (service W dbms).run s ls = some s') :
    ∃ pre post t w f fd pkg m stamp, ls = pre ++ .request w f fd pkg :: post ∧
      (service W dbms).run s pre = some t ∧ Requested (t.mgrs w) fd pkg m ∧ ¬ P t.db ∧
      P (effect collation stamp m t.db) := by
  obtain ⟨pre, l, post, t, t', rfl, hpre, hn, ht, ht'⟩ :=
    exists_step_of_run (P := fun s : Manager.Service W Tables => P s.db) hs hs' hrun
  rcases effect_of_next h hn with hsame | ⟨w, f, fd, pkg, m, stamp, rfl, hreq, heffect⟩
  · exact absurd (hsame ▸ ht') ht
  · exact ⟨pre, post, t, w, f, fd, pkg, m, stamp, rfl, hpre, hreq, ht, heffect ▸ ht'⟩

/-! ### Submissions that come and go -/

/-- The request submits the row: it is of its user, with its fields. -/
def Submits (s : Manager.Service W Tables) (l : ServiceStep W) (r : Submission) : Prop :=
  ∃ w f fd pkg users_id problem_id status time_spent, l = .request w f fd pkg ∧
    Requested (s.mgrs w) fd pkg (.insertSubmitted users_id problem_id status time_spent) ∧
    r.usersId = some users_id ∧ r.problemId = some problem_id ∧
    r.status = some (if status then 1 else 0) ∧
    r.timeSpentMin = some (getMinuteFromTime time_spent)

variable (collation) in
/-- The request removes the row: by its number from the own user, or with its user or
its problem. -/
def Removes (s : Manager.Service W Tables) (l : ServiceStep W) (r : Submission) : Prop :=
  ∃ w f fd pkg, l = .request w f fd pkg ∧
    ((∃ users_id, Requested (s.mgrs w) fd pkg (.deleteSubmission r.id users_id) ∧
        r.usersId = some users_id) ∨
      (∃ username, Requested (s.mgrs w) fd pkg (.deleteUser username) ∧
        ∃ u ∈ s.db.users, u.named collation username = true ∧ r.usersId = some u.id) ∨
      ∃ problem_id, Requested (s.mgrs w) fd pkg (.deleteProblem problem_id) ∧
        r.problemId = some problem_id)

/-- A row that an effect brings is the one that it inserts. -/
theorem of_mem_effect {stamp : Stamp} {m : Mutation} {db : Tables} {r : Submission}
    (hnew : r ∉ db.submissions) (hr : r ∈ (effect collation stamp m db).submissions) :
    ∃ users_id problem_id status time_spent,
      m = .insertSubmitted users_id problem_id status time_spent ∧ r.usersId = some users_id ∧
        r.problemId = some problem_id ∧ r.status = some (if status then 1 else 0) ∧
        r.timeSpentMin = some (getMinuteFromTime time_spent) := by
  cases m with
  | insertSubmitted users_id problem_id status time_spent =>
    rcases List.mem_append.1 hr with hr | hr
    · exact absurd hr hnew
    · obtain rfl := List.mem_singleton.1 hr
      exact ⟨users_id, problem_id, status, time_spent, rfl, rfl, rfl, rfl, rfl⟩
  | deleteUser username => exact absurd (List.mem_filter.1 hr).1 hnew
  | deleteProblem problem_id => exact absurd (List.mem_filter.1 hr).1 hnew
  | deleteSubmission submission_id users_id => exact absurd (List.mem_filter.1 hr).1 hnew
  | _ => exact absurd hr hnew

/-- A row that an effect takes is one that it deletes. -/
theorem of_notMem_effect {stamp : Stamp} {m : Mutation} {db : Tables} {r : Submission}
    (hold : r ∈ db.submissions) (hr : r ∉ (effect collation stamp m db).submissions) :
    (∃ users_id, m = .deleteSubmission r.id users_id ∧ r.usersId = some users_id) ∨
      (∃ username, m = .deleteUser username ∧
        ∃ u ∈ db.users, u.named collation username = true ∧ r.usersId = some u.id) ∨
      ∃ problem_id, m = .deleteProblem problem_id ∧ r.problemId = some problem_id := by
  have htaken : ∀ {p : Submission → Bool}, r ∉ db.submissions.filter p → p r = false := by
    intro p hp
    by_contra hn
    exact hp (List.mem_filter.2 ⟨hold, by simpa using hn⟩)
  cases m with
  | insertSubmitted users_id problem_id status time_spent =>
    exact absurd (List.mem_append_left _ hold) hr
  | deleteUser username =>
    obtain ⟨u, hu, hand⟩ := List.any_eq_true.1 (by simpa only [Bool.not_eq_false'] using htaken hr)
    obtain ⟨hnamed, huser⟩ := Bool.and_eq_true_iff.1 hand
    exact .inr (.inl ⟨username, rfl, u, hu, hnamed, beq_iff_eq.1 huser⟩)
  | deleteProblem problem_id =>
    obtain ⟨p, _, hand⟩ := List.any_eq_true.1 (by simpa only [Bool.not_eq_false'] using htaken hr)
    obtain ⟨hid, hproblem⟩ := Bool.and_eq_true_iff.1 hand
    rw [beq_iff_eq.1 hid] at hproblem
    exact .inr (.inr ⟨problem_id, rfl, beq_iff_eq.1 hproblem⟩)
  | deleteSubmission submission_id users_id =>
    have hand := htaken hr
    rw [Bool.not_eq_false', Bool.and_eq_true_iff, beq_iff_eq] at hand
    obtain ⟨rfl, huser⟩ := hand
    exact .inl ⟨users_id, rfl, beq_iff_eq.1 huser⟩
  | _ => exact absurd hold hr

/-- **Every row of `submissions` that comes or goes does so at a request that may do
it.**  In every run, a row that is there at the end and was not at the start was
submitted at one of its requests, and one that was there and is not any more was
removed at one. -/
theorem submissions_audited (h : Enforces collation fits dbms) {s s' : Manager.Service W Tables}
    {ls : List (ServiceStep W)} (hrun : (service W dbms).run s ls = some s') (r : Submission) :
    (r ∉ s.db.submissions → r ∈ s'.db.submissions → ∃ pre l post t, ls = pre ++ l :: post ∧
      (service W dbms).run s pre = some t ∧ Submits t l r) ∧
    (r ∈ s.db.submissions → r ∉ s'.db.submissions → ∃ pre l post t, ls = pre ++ l :: post ∧
      (service W dbms).run s pre = some t ∧ Removes collation t l r) := by
  constructor
  · intro hs hs'
    obtain ⟨pre, post, t, w, f, fd, pkg, m, stamp, rfl, hpre, hreq, ht, ht'⟩ :=
      exists_request_of_run h (P := fun db => r ∈ db.submissions) hs hs' hrun
    obtain ⟨users_id, problem_id, status, time_spent, rfl, hrow⟩ := of_mem_effect ht ht'
    exact ⟨pre, _, post, t, rfl, hpre, w, f, fd, pkg, users_id, problem_id, status, time_spent,
      rfl, hreq, hrow⟩
  · intro hs hs'
    obtain ⟨pre, post, t, w, f, fd, pkg, m, stamp, rfl, hpre, hreq, ht, ht'⟩ :=
      exists_request_of_run h (P := fun db => r ∉ db.submissions) (not_not.2 hs) hs' hrun
    refine ⟨pre, _, post, t, rfl, hpre, w, f, fd, pkg, rfl, ?_⟩
    rcases of_notMem_effect (not_not.1 ht) ht' with ⟨users_id, rfl, huser⟩ |
      ⟨username, rfl, hgone⟩ | ⟨problem_id, rfl, hproblem⟩
    · exact .inl ⟨users_id, hreq, huser⟩
    · exact .inr (.inl ⟨username, hreq, hgone⟩)
    · exact .inr (.inr ⟨problem_id, hreq, hproblem⟩)

/-- Alice submits a solution and deletes an old one. -/
def aliceReplaces : List (ServiceStep Bool) :=
  aliceSubmits ++ [.request true (fun _ => false) 6 (fieldPackage .deleteSubmitted (text "1")
    (by decide))]

/-- A row comes with Alice's run, and one goes. -/
theorem submissions_audited_alice :
    ∃ s, (service Bool sampleTracker).run ⟨fun _ => .fresh 0, sample⟩ aliceReplaces = some s ∧
      (∃ r ∈ s.db.submissions, r ∉ sample.submissions) ∧
      (∃ r ∈ sample.submissions, r ∉ s.db.submissions) ∧ ∀ r,
      (r ∉ sample.submissions → r ∈ s.db.submissions → ∃ pre l post t,
        aliceReplaces = pre ++ l :: post ∧
        (service Bool sampleTracker).run ⟨fun _ => .fresh 0, sample⟩ pre = some t ∧
        Submits t l r) ∧
      (r ∈ sample.submissions → r ∉ s.db.submissions → ∃ pre l post t,
        aliceReplaces = pre ++ l :: post ∧
        (service Bool sampleTracker).run ⟨fun _ => .fresh 0, sample⟩ pre = some t ∧
        Removes id t l r) := by
  obtain ⟨s, hs, hp⟩ := exists_run_any sampleTracker ⟨fun _ => .fresh 0, sample⟩ aliceReplaces
    (fun s => (∃ r ∈ s.db.submissions, r ∉ sample.submissions) ∧
      ∃ r ∈ sample.submissions, r ∉ s.db.submissions) (by decide +kernel)
  obtain ⟨hnew, hgone⟩ := of_decide_eq_true hp
  exact ⟨s, hs, hnew, hgone, submissions_audited enforces_sampleTracker hs⟩

end System
end WeakAyas
