/-
# The keys are kept

The keys of `init.sql` over the effects of the driver's operations.  What an
operation is admitted to do keeps them, cascades included (`keys_effect`), so every
statement does (`Keys.apply`).

With the keys kept, insertions and deletions are inverse to each other: the deletion
of what was inserted finds that row alone, and nothing refers to it yet
(`effect_undo`).
-/

import WeakAyas.Database.Changes
import WeakAyas.Library.Constraints

namespace WeakAyas
namespace Database

open Driver Constraints

variable {κ : Type} [DecidableEq κ] {collation : Bytes → κ} {fits : Mutation → Prop}
  {dbms : Dbms Tables}

/-! ### References -/

omit [DecidableEq κ] in
/-- The types refer to their problems. -/
theorem Keys.typeOfProblem_refers {db : Tables} (h : Keys collation db) :
    Refers (fun t : ProblemType => some t.problemId) Problem.id db.problemTypeMap db.problems := by
  intro t ht i hi
  obtain rfl := Option.some.inj hi
  exact h.typeOfProblem t ht

theorem typeOfProblem_of_refers {types : List ProblemType} {problems : List Problem}
    (h : Refers (fun t : ProblemType => some t.problemId) Problem.id types problems) :
    ∀ t ∈ types, ∃ p ∈ problems, p.id = t.problemId :=
  fun t ht => h t ht t.problemId rfl

/-! ### One change -/

/-- **What a change is admitted to do keeps the keys.** -/
theorem keys_effect {stamp : Stamp} {m : Mutation} {db : Tables} (h : Keys collation db)
    (hadmits : admits collation db m = true) (hfresh : Fresh stamp db m) :
    Keys collation (effect collation stamp m db) := by
  cases m with
  | registerUser username =>
    have hname : ∀ u ∈ db.users, collation u.username ≠ collation username := by
      simpa [admits, User.named] using hadmits
    exact { h with
      usersId := Unique.insert User.id h.usersId hfresh
      usersUsername := Unique.insert (fun u : User => collation u.username)
        h.usersUsername hname
      submissionOfUser := Refers.insertParent h.submissionOfUser _ }
  | deleteUser username =>
    refine { h with
      usersId := Unique.delete h.usersId _
      usersUsername := Unique.delete h.usersUsername _
      submissionsId := Unique.delete h.submissionsId _
      submissionOfUser := Refers.cascade h.submissionOfUser ?_
      submissionOfProblem := Refers.delete h.submissionOfProblem _ }
    intro s _ u hu hs hq
    have hnamed : u.named collation username = true := by simpa using hq
    rw [Bool.not_eq_false', List.any_eq_true]
    exact ⟨u, hu, by simp [hnamed, Submission.ofUser, hs]⟩
  | insertProblem id title difficulty =>
    have hnew : ∀ p ∈ db.problems, p.id ≠ id ∧ collation p.title ≠ collation title := by
      simpa [admits] using hadmits
    exact { h with
      problemsId := Unique.insert Problem.id h.problemsId fun p hp => (hnew p hp).1
      problemsTitle := Unique.insert (fun p : Problem => collation p.title)
        h.problemsTitle fun p hp => (hnew p hp).2
      typeOfProblem := typeOfProblem_of_refers (h.typeOfProblem_refers.insertParent _)
      submissionOfProblem := Refers.insertParent h.submissionOfProblem _ }
  | deleteProblem problem_id =>
    refine { h with
      problemsId := Unique.delete h.problemsId _
      problemsTitle := Unique.delete h.problemsTitle _
      problemTypeMap := Unique.delete h.problemTypeMap _
      submissionsId := Unique.delete h.submissionsId _
      typeOfProblem := typeOfProblem_of_refers (h.typeOfProblem_refers.cascade ?_)
      submissionOfUser := Refers.delete h.submissionOfUser _
      submissionOfProblem := Refers.cascade h.submissionOfProblem ?_ }
    · intro t _ p hp ht hq
      have hid : p.id = problem_id := by simpa using hq
      rw [Bool.not_eq_false', List.any_eq_true]
      have htype : t.problemId = p.id := Option.some.inj ht
      exact ⟨p, hp, by simp [hid, htype]⟩
    · intro s _ p hp hs hq
      have hid : p.id = problem_id := by simpa using hq
      rw [Bool.not_eq_false', List.any_eq_true]
      exact ⟨p, hp, by simp [hid, Submission.ofProblem, hs]⟩
  | insertProblemType problem_id problem_type =>
    obtain ⟨hproblem, hnew⟩ := Bool.and_eq_true_iff.1 hadmits
    have hnew : ∀ t ∈ db.problemTypeMap, (t.problemId, collation t.problemType) ≠
        (problem_id, collation problem_type) := by
      simpa [ProblemType.isOf] using hnew
    obtain ⟨p, hp, hid⟩ := List.any_eq_true.1 hproblem
    exact { h with
      problemTypeMap := Unique.insert
        (fun t : ProblemType => (t.problemId, collation t.problemType)) h.problemTypeMap hnew
      typeOfProblem := typeOfProblem_of_refers (h.typeOfProblem_refers.insert fun i hi =>
        ⟨p, hp, (beq_iff_eq.1 hid).trans (Option.some.inj hi)⟩) }
  | deleteProblemType problem_id problem_type =>
    exact { h with
      problemTypeMap := Unique.delete h.problemTypeMap _
      typeOfProblem := typeOfProblem_of_refers (h.typeOfProblem_refers.delete _) }
  | insertSubmitted users_id problem_id status time_spent =>
    obtain ⟨huser, hproblem⟩ := Bool.and_eq_true_iff.1 hadmits
    obtain ⟨u, hu, hu_id⟩ := List.any_eq_true.1 huser
    obtain ⟨p, hp, hp_id⟩ := List.any_eq_true.1 hproblem
    exact { h with
      submissionsId := Unique.insert Submission.id h.submissionsId hfresh
      submissionOfUser := Refers.insert h.submissionOfUser fun i hi =>
        ⟨u, hu, (beq_iff_eq.1 hu_id).trans (Option.some.inj hi)⟩
      submissionOfProblem := Refers.insert h.submissionOfProblem fun i hi =>
        ⟨p, hp, (beq_iff_eq.1 hp_id).trans (Option.some.inj hi)⟩ }
  | deleteSubmission submission_id users_id =>
    exact { h with
      submissionsId := Unique.delete h.submissionsId _
      submissionOfUser := Refers.delete h.submissionOfUser _
      submissionOfProblem := Refers.delete h.submissionOfProblem _ }

/-- **Every statement keeps the keys.** -/
theorem Keys.apply {db : Tables} (h : Keys collation db) (hdbms : Enforces collation fits dbms)
    (m : Mutation) : Keys collation (m.apply dbms db) := by
  rcases apply_cases hdbms m db with hsame | ⟨hadmitted, stamp, hfresh, heffect⟩
  · rwa [hsame]
  · rw [heffect]
    exact keys_effect h hadmitted.2 hfresh

/-! ### Undoing an insertion -/

/-- The deletion of what an insertion puts in. -/
def undo (stamp : Stamp) : Mutation → Mutation
  | .registerUser username => .deleteUser username
  | .insertProblem id _ _ => .deleteProblem id
  | .insertProblemType problem_id problem_type => .deleteProblemType problem_id problem_type
  | .insertSubmitted users_id _ _ _ => .deleteSubmission stamp.id users_id
  | m => m

/-- **The deletion of what was inserted leaves the tables as they were.** -/
theorem effect_undo {stamp : Stamp} {m : Mutation} {db : Tables} (h : Keys collation db)
    (hi : inserts m = true) (hadmits : admits collation db m = true) (hfresh : Fresh stamp db m)
    (stamp' : Stamp) :
    effect collation stamp' (undo stamp m) (effect collation stamp m db) = db := by
  cases m with
  | registerUser username =>
    have hnew : ∀ u ∈ db.users, (!u.named collation username) = true := by
      simpa [admits] using hadmits
    have hnone : ∀ s ∈ db.submissions, s.usersId ≠ some stamp.id :=
      Refers.not_ref h.submissionOfUser hfresh
    have hsubs : (db.submissions.filter fun s =>
        !(db.users ++ [(⟨stamp.id, username, some stamp.curdate⟩ : User)]).any fun u =>
          u.named collation username && s.ofUser u.id) = db.submissions := by
      refine List.filter_eq_self.2 fun s hs => ?_
      have hold : (db.users.any fun u => u.named collation username && s.ofUser u.id) = false := by
        rw [List.any_eq_false]
        intro u hu
        simp [by simpa using hnew u hu]
      have hs := hnone s hs
      rw [List.any_append, hold]
      simpa [Submission.ofUser] using .inr hs
    simp only [undo, effect, deleteUser, insertUser]
    rw [hsubs, filter_insert hnew (by simp [User.named])]
  | insertProblem id title difficulty =>
    have hnew : ∀ p ∈ db.problems, p.id ≠ id := by
      intro p hp
      have := List.any_eq_false.1 (by simpa only [admits, Bool.not_eq_true'] using hadmits) p hp
      simp only [Bool.or_eq_true, beq_iff_eq, decide_eq_true_eq, not_or] at this
      exact this.1
    have hall : ∀ {α : Type} {rows : List α} {r : ℤ → α → Bool}, (∀ a ∈ rows, r id a = false) →
        (rows.filter fun a =>
          !(db.problems ++ [(⟨id, title, some difficulty⟩ : Problem)]).any fun p =>
            p.id == id && r p.id a) = rows := by
      intro α rows r hr
      refine List.filter_eq_self.2 fun a ha => ?_
      rw [Bool.not_eq_true', List.any_eq_false]
      intro p _ hp
      obtain ⟨hid, hra⟩ := Bool.and_eq_true_iff.1 hp
      rw [beq_iff_eq.1 hid, hr a ha] at hra
      cases hra
    have htypes : ∀ t ∈ db.problemTypeMap, (id == t.problemId) = false := by
      intro t ht
      have hne := h.typeOfProblem_refers.not_ref hnew t ht
      exact beq_eq_false_iff_ne.2 fun heq => hne (congrArg some heq.symm)
    have hsubs : ∀ s ∈ db.submissions, s.ofProblem id = false := by
      intro s hs
      have hne := Refers.not_ref h.submissionOfProblem hnew s hs
      exact beq_eq_false_iff_ne.2 hne
    simp only [undo, effect, deleteProblem, insertProblem]
    rw [hall (r := fun i (t : ProblemType) => i == t.problemId) htypes,
      hall (r := fun i (s : Submission) => s.ofProblem i) hsubs,
      filter_insert (fun p hp => by simpa using hnew p hp) (by simp)]
  | insertProblemType problem_id problem_type =>
    have hnew : ∀ t ∈ db.problemTypeMap, (!t.isOf collation problem_id problem_type) = true := by
      simpa [admits] using (Bool.and_eq_true_iff.1 hadmits).2
    simp only [undo, effect, deleteProblemType, insertProblemType]
    rw [filter_insert hnew (by simp [ProblemType.isOf])]
  | insertSubmitted users_id problem_id status time_spent =>
    have hnew : ∀ s ∈ db.submissions, (!(s.id == stamp.id && s.ofUser users_id)) = true := by
      intro s hs
      have hne : (s.id == stamp.id) = false := beq_eq_false_iff_ne.2 (hfresh s hs)
      rw [hne]
      rfl
    simp only [undo, effect, deleteSubmission, insertSubmission]
    rw [filter_insert hnew (by simp [Submission.ofUser])]
  | _ => simp [inserts] at hi

/-- The deletion finds the row. -/
theorem admits_undo {stamp : Stamp} {m : Mutation} {db : Tables} (hi : inserts m = true) :
    admits collation (effect collation stamp m db) (undo stamp m) = true := by
  cases m with
  | registerUser username => simp [undo, effect, insertUser, admits, User.named]
  | insertProblem id title difficulty => simp [undo, effect, insertProblem, admits]
  | insertProblemType problem_id problem_type =>
    simp [undo, effect, insertProblemType, admits, ProblemType.isOf]
  | insertSubmitted users_id problem_id status time_spent =>
    simp [undo, effect, insertSubmission, admits, Submission.isOf, Submission.ofUser]
  | _ => simp [inserts] at hi

/-- **Whatever an operation inserts, its counterpart deletes, and nothing else.**
After an insertion that succeeds, the deletion succeeds too and the tables are as
before, the references of other rows included. -/
theorem perform_undone (hdbms : Enforces collation fits dbms) {db db₁ : Tables}
    (h : Keys collation db) {m : Mutation} (hi : inserts m = true) {f : ℕ → Bool}
    (hf : Undisturbed dbms m db f) (hperform : m.perform dbms f db = (.ok true, db₁)) :
    ∃ stamp, db₁ = effect collation stamp m db ∧ ∀ f', Undisturbed dbms (undo stamp m) db₁ f' →
      (undo stamp m).perform dbms f' db₁ = (.ok true, db) := by
  have hp : Performs collation fits m db := by
    by_contra hn
    rw [perform_of_not_performs hdbms hf hn] at hperform
    simp at hperform
  obtain ⟨stamp, hfresh, heffect⟩ := perform_of_performs hdbms hf hp
  obtain rfl : effect collation stamp m db = db₁ := by
    rw [heffect] at hperform
    exact (Prod.ext_iff.1 hperform).2
  refine ⟨stamp, rfl, fun f' hf' => ?_⟩
  have hundo : Performs collation fits (undo stamp m) (effect collation stamp m db) := by
    refine ⟨?_, fun hins => ?_, admits_undo hi⟩
    · have hrefused := hp.1
      cases m <;> first | rfl | exact hrefused
    · cases m <;> simp [undo, inserts] at hi hins
  obtain ⟨stamp', -, hperform'⟩ := perform_of_performs hdbms hf' hundo
  rw [hperform', effect_undo h hi hp.2.2 hfresh]

/-- The sample after the registration of Carol. -/
def carolRegistered : Tables :=
  (Mutation.registerUser (text "Carol")).apply (enforcing id some (text "2024-01-05")) sample

/-- Carol registers and is deleted again. -/
theorem perform_undone_carol :
    ∃ stamp, carolRegistered = effect id stamp (.registerUser (text "Carol")) sample ∧
      ∀ f', Undisturbed (enforcing id some (text "2024-01-05"))
          (undo stamp (.registerUser (text "Carol"))) carolRegistered f' →
        (undo stamp (.registerUser (text "Carol"))).perform
          (enforcing id some (text "2024-01-05")) f' carolRegistered = (.ok true, sample) := by
  have hcount : ((enforcing id some (text "2024-01-05")).update
      (Mutation.registerUser (text "Carol")).stmt sample).2 = 1 := by
    decide +kernel
  exact perform_undone (enforces_enforcing id some (text "2024-01-05")) keys_sample
    (m := .registerUser (text "Carol")) rfl (f := fun _ => false) (by simp [Undisturbed, hcount])
    (perform_of_quiet rfl (by rw [hcount]; rfl) fun _ => rfl)

end Database
end WeakAyas
