/-
# What the statistics count

`SQL_Driver::Select_UnitsData` (`sql_driver.cpp`, lines 636-699) without its joins:
under the keys of `init.sql` the row of a unit has the figures of one list of
submissions, those of the user for the problems of the unit (`exists_shownFor`).

So each of the eight operations that change a table moves the statistics by the
submissions that it adds to this list (`arrivals`) or takes from it (`departs`), and
by no others (`shownFor_perform`).
-/

import WeakAyas.Database.Integrity
import WeakAyas.Database.Seconds

namespace WeakAyas
namespace Database

open Driver Bag

variable {κ : Type} [DecidableEq κ] {collation : Bytes → κ} {fits : Mutation → Prop}
  {dbms : Dbms Tables} {user_id : ℤ} {unit : Bytes} {db : Tables}

/-! ### The submissions of a unit -/

/-- The five counts of a row. -/
structure Figures where
  problems : ℤ
  total : ℤ
  in20 : ℤ
  in30 : ℤ
  over30 : ℤ
  deriving DecidableEq

/-- The counts of a list of submissions. -/
def figures (subs : List Submission) : Figures :=
  ⟨(subs.map Submission.problemId).dedup.length, count subs, sumCase (solvedIn 20) subs,
    sumCase (solvedIn 30) subs, sumCase solvedOver30 subs⟩

/-- The counts of a row of the answer. -/
def unitsFigures (u : Units) : Figures :=
  ⟨u.problemsSolved, u.totalSubmit, u.solved20min, u.solved30min, u.solvedOver30min⟩

/-- What an answer shows for a unit: its row, or nothing. -/
def shownFor (collation : Bytes → κ) (units : List Units) (unit : Bytes) : Figures :=
  ((units.find? fun u => decide (collation u.unit = collation unit)).map unitsFigures).getD
    (figures [])

/-- The submission is for a problem of the unit. -/
def Submission.ofUnit (collation : Bytes → κ) (unit : Bytes) (types : List ProblemType)
    (s : Submission) : Bool :=
  types.any fun pt => s.ofProblem pt.problemId && decide (collation pt.problemType = collation unit)

/-- The submissions of a unit as one filter. -/
theorem unitSubmissions_eq : unitSubmissions collation user_id unit db =
    db.submissions.filter fun s =>
      s.ofUser user_id && s.ofUnit collation unit db.problemTypeMap := rfl

/-- A submission is of a unit when its problem has the type. -/
theorem ofUnit_iff {types : List ProblemType} {s : Submission} :
    s.ofUnit collation unit types = true ↔ ∃ pt ∈ types, s.ofProblem pt.problemId = true ∧
      collation pt.problemType = collation unit := by
  simp [Submission.ofUnit]

/-! ### The counts -/

/-- The order of the submissions does not matter. -/
theorem figures_perm {subs subs' : List Submission} (h : subs.Perm subs') :
    figures subs = figures subs' := by
  rw [figures, figures, (h.map _).dedup.length_eq, count, count, h.length_eq, sumCase_perm h,
    sumCase_perm h, sumCase_perm h]

/-- The row of a group has the counts of its submissions. -/
theorem unitsFigures_unitsRow (spelling : Shows unitColumn) {g : SummaryRow × List SummaryRow}
    (hproblem : ∀ r ∈ g.2, r.2.ofProblem r.1.2.id = true) :
    unitsFigures (unitsRow spelling g) = figures (g.2.map Prod.snd) := by
  have hids : (g.2.map Prod.snd).map Submission.problemId =
      (g.2.map fun r => r.1.2.id).map some := by
    rw [List.map_map, List.map_map]
    exact List.map_congr_left fun r hr => by simpa [Submission.ofProblem] using hproblem r hr
  have hlen : ((g.2.map fun r => r.1.2.id).map some).dedup.length =
      (g.2.map fun r => r.1.2.id).dedup.length := by
    rw [List.dedup_map_of_injective (Option.some_injective ℤ), List.length_map]
  rw [figures, hids, hlen, sumCase_map, sumCase_map, sumCase_map, count, List.length_map]
  rfl

/-- **A row of the summary has the figures of the user's submissions for the problems
of its unit**, and a unit without such submissions has no row. -/
theorem shownFor_selectUnitsData (hkeys : Keys collation db) (spelling : Shows unitColumn)
    (user_id : ℤ) (unit : Bytes) :
    ∀ units : List Units, units.Perm (selectUnitsData collation spelling user_id db) →
      shownFor collation units unit = figures (unitSubmissions collation user_id unit db) := by
  intro units hperm
  rw [shownFor]
  rcases hfind : units.find? fun u => decide (collation u.unit = collation unit) with _ | u
  · -- no row of the unit, and no submission for it
    have hnone : unitRows collation user_id unit db = [] := by
      refine List.eq_nil_iff_forall_not_mem.2 fun r hr => ?_
      obtain ⟨g, hg, hunit⟩ := exists_group_of_mem_unitRows spelling hr
      have hrow : unitsRow spelling g ∈ units := hperm.mem_iff.2 (List.mem_map_of_mem hg)
      exact List.find?_eq_none.1 hfind _ hrow (decide_eq_true hunit)
    have hsubs : ((unitRows collation user_id unit db).map Prod.snd).Perm
        (unitSubmissions collation user_id unit db) := map_submission_unitRows hkeys
    rw [hnone, List.map_nil] at hsubs
    rw [hfind, List.nil_perm.1 hsubs]
    rfl
  · have hunit : collation u.unit = collation unit := by simpa using List.find?_some hfind
    obtain ⟨g, hg, rfl⟩ := List.mem_map.1 (hperm.mem_iff.1 (List.mem_of_find?_eq_some hfind))
    have hrows : g.2 = unitRows collation user_id unit db := group_eq_unitRows spelling hg hunit
    have hproblem : ∀ r ∈ g.2, r.2.ofProblem r.1.2.id = true := fun r hr => by
      rw [hrows, unitRows, List.mem_filter, mem_unitsJoined] at hr
      exact hr.1.2.1.2
    rw [hfind, Option.map_some, Option.getD_some, unitsFigures_unitsRow spelling hproblem, hrows]
    exact figures_perm (map_submission_unitRows hkeys)

/-! ### What an operation moves -/

variable (collation) in
/-- The submissions that an operation takes out of a unit. -/
def departs (m : Mutation) (unit : Bytes) (db : Tables) (s : Submission) : Bool :=
  match m with
  | .deleteUser username => db.users.any fun u => u.named collation username && s.ofUser u.id
  | .deleteProblem problem_id => s.ofProblem problem_id
  | .deleteProblemType problem_id problem_type =>
    decide (collation problem_type = collation unit) && s.ofProblem problem_id
  | .deleteSubmission submission_id users_id => s.isOf submission_id users_id
  | .registerUser _ | .insertProblem _ _ _ | .insertProblemType _ _ | .insertSubmitted _ _ _ _ =>
    false

variable (collation) in
/-- The submissions of the user that an operation puts into a unit: the new one, or
those of a problem that is mapped to it. -/
def arrivals (stamp : Stamp) (m : Mutation) (user_id : ℤ) (unit : Bytes) (db : Tables) :
    List Submission :=
  match m with
  | .insertSubmitted users_id problem_id status time_spent =>
    [⟨stamp.id, some problem_id, some users_id, some (if status then 1 else 0), stamp.time,
      some (getMinuteFromTime time_spent), some stamp.curdate⟩].filter fun s =>
        s.ofUser user_id && s.ofUnit collation unit db.problemTypeMap
  | .insertProblemType problem_id problem_type =>
    if collation problem_type = collation unit then problemSubmissions user_id problem_id db else []
  | .registerUser _ | .deleteUser _ | .insertProblem _ _ _ | .deleteProblem _
  | .deleteProblemType _ _ | .deleteSubmission _ _ => []

/-- Two conditions that exclude each other share the rows out. -/
theorem filter_or_perm {α : Type} {rows : List α} {p q : α → Bool}
    (h : ∀ a ∈ rows, p a = true → q a = false) :
    (rows.filter fun a => p a || q a).Perm (rows.filter p ++ rows.filter q) := by
  have hp : (rows.filter fun a => p a || q a).filter p = rows.filter p := by
    rw [List.filter_filter]
    exact List.filter_congr fun a _ => by cases p a <;> rfl
  have hq : (rows.filter fun a => p a || q a).filter (fun a => !p a) = rows.filter q := by
    rw [List.filter_filter]
    refine List.filter_congr fun a ha => ?_
    cases hpa : p a
    · rfl
    · rw [h a ha hpa]
      rfl
  have hperm := List.filter_append_perm p (rows.filter fun a => p a || q a)
  rw [hp, hq] at hperm
  exact hperm.symm

/-- A submission is for one problem. -/
theorem eq_of_ofProblem {s : Submission} {i j : ℤ} (hi : s.ofProblem i = true)
    (hj : s.ofProblem j = true) : i = j := by
  simp only [Submission.ofProblem, beq_iff_eq] at hi hj
  exact Option.some.inj (hi.symm.trans hj)

/-- Without the types of a problem its submissions are of no unit, and the others of
the same. -/
theorem ofUnit_filter {types : List ProblemType} {p : ProblemType → Bool} {s : Submission}
    {problem_id : ℤ} (h : ∀ pt ∈ types, collation pt.problemType = collation unit →
      (p pt = true ↔ pt.problemId ≠ problem_id)) :
    s.ofUnit collation unit (types.filter p) =
      (s.ofUnit collation unit types && !s.ofProblem problem_id) := by
  rw [Bool.eq_iff_iff, Bool.and_eq_true, ofUnit_iff, ofUnit_iff, Bool.not_eq_true']
  constructor
  · rintro ⟨pt, hpt, hproblem, hunit⟩
    obtain ⟨hpt, hp⟩ := List.mem_filter.1 hpt
    refine ⟨⟨pt, hpt, hproblem, hunit⟩, ?_⟩
    by_contra hn
    exact (h pt hpt hunit).1 hp (eq_of_ofProblem hproblem (by simpa using hn))
  · rintro ⟨⟨pt, hpt, hproblem, hunit⟩, hne⟩
    refine ⟨pt, List.mem_filter.2 ⟨hpt, (h pt hpt hunit).2 fun heq => ?_⟩, hproblem, hunit⟩
    rw [heq, hne] at hproblem
    cases hproblem

/-- **What an effect makes of the submissions of a unit.** -/
theorem unitSubmissions_effect {stamp : Stamp} {m : Mutation}
    (hadmits : admits collation db m = true) :
    (unitSubmissions collation user_id unit (effect collation stamp m db)).Perm
      ((unitSubmissions collation user_id unit db).filter
          (fun s => !departs collation m unit db s) ++
        arrivals collation stamp m user_id unit db) := by
  have hstay : ∀ rows : List Submission, rows.filter (fun _ => !false) = rows := List.filter_true
  cases m with
  | registerUser username =>
    refine .of_eq ?_
    simp only [departs, arrivals, hstay, List.append_nil]
    rfl
  | insertProblem id title difficulty =>
    refine .of_eq ?_
    simp only [departs, arrivals, hstay, List.append_nil]
    rfl
  | insertSubmitted users_id problem_id status time_spent =>
    refine .of_eq ?_
    simp only [departs, arrivals, hstay, unitSubmissions_eq, effect, insertSubmission,
      List.filter_append]
  | insertProblemType problem_id problem_type =>
    have hnew : ∀ pt ∈ db.problemTypeMap, pt.isOf collation problem_id problem_type = false := by
      simpa [admits] using (Bool.and_eq_true_iff.1 hadmits).2
    have hunit : ∀ s : Submission, s.ofUnit collation unit
        (db.problemTypeMap ++ [⟨problem_id, problem_type⟩]) =
          (s.ofUnit collation unit db.problemTypeMap ||
            s.ofProblem problem_id && decide (collation problem_type = collation unit)) := by
      intro s
      rw [Submission.ofUnit, List.any_append, List.any_cons, List.any_nil, Bool.or_false]
      rfl
    simp only [departs, arrivals, hstay, unitSubmissions_eq, effect, insertProblemType, hunit]
    by_cases hof : collation problem_type = collation unit
    · -- the submissions of the problem were not of the unit before
      simp only [hof, decide_true, Bool.and_true, if_true, Bool.and_or_distrib_left]
      refine filter_or_perm fun s _ hs => ?_
      obtain ⟨pt, hpt, hproblem, hpt_unit⟩ := ofUnit_iff.1 (Bool.and_eq_true_iff.1 hs).2
      by_contra hn
      obtain ⟨-, hproblem'⟩ := Bool.and_eq_true_iff.1 (by simpa using hn :
        (s.ofUser user_id && s.ofProblem problem_id) = true)
      have hnot := hnew pt hpt
      rw [ProblemType.isOf, eq_of_ofProblem hproblem hproblem', hpt_unit, hof] at hnot
      simp at hnot
    · simp [hof]
  | deleteUser username =>
    refine .of_eq ?_
    simp only [departs, arrivals, List.append_nil, unitSubmissions_eq, effect, deleteUser,
      List.filter_filter]
    exact List.filter_congr fun s _ => Bool.and_comm _ _
  | deleteSubmission submission_id users_id =>
    refine .of_eq ?_
    simp only [departs, arrivals, List.append_nil, unitSubmissions_eq, effect, deleteSubmission,
      List.filter_filter, Submission.isOf]
    exact List.filter_congr fun s _ => Bool.and_comm _ _
  | deleteProblem problem_id =>
    obtain ⟨p, hp, hid⟩ := List.any_eq_true.1 hadmits
    have hid : p.id = problem_id := by simpa using hid
    have hany : ∀ q : ℤ → Bool,
        (db.problems.any fun p => p.id == problem_id && q p.id) = q problem_id := by
      intro q
      rw [Bool.eq_iff_iff, List.any_eq_true]
      constructor
      · rintro ⟨p', -, hp'⟩
        obtain ⟨hid', hq⟩ := Bool.and_eq_true_iff.1 hp'
        rwa [beq_iff_eq.1 hid'] at hq
      · intro hq
        exact ⟨p, hp, by simp [hid, hq]⟩
    refine .of_eq ?_
    simp only [departs, arrivals, List.append_nil, unitSubmissions_eq, effect, deleteProblem,
      List.filter_filter]
    refine List.filter_congr fun s _ => ?_
    have htypes : ∀ pt ∈ db.problemTypeMap, collation pt.problemType = collation unit →
        ((!db.problems.any fun p => p.id == problem_id && p.id == pt.problemId) = true ↔
          pt.problemId ≠ problem_id) := by
      intro pt _ _
      rw [hany fun i => i == pt.problemId, Bool.not_eq_true', beq_eq_false_iff_ne]
      exact ne_comm
    rw [hany s.ofProblem, ofUnit_filter htypes]
    cases s.ofUser user_id <;> cases s.ofUnit collation unit db.problemTypeMap <;>
      cases s.ofProblem problem_id <;> rfl
  | deleteProblemType problem_id problem_type =>
    refine .of_eq ?_
    simp only [departs, arrivals, List.append_nil, unitSubmissions_eq, effect, deleteProblemType,
      List.filter_filter]
    refine List.filter_congr fun s _ => ?_
    by_cases hof : collation problem_type = collation unit
    · have htypes : ∀ pt ∈ db.problemTypeMap, collation pt.problemType = collation unit →
          ((!pt.isOf collation problem_id problem_type) = true ↔ pt.problemId ≠ problem_id) := by
        intro pt _ hpt
        simp [ProblemType.isOf, hpt, hof]
      rw [ofUnit_filter htypes, decide_eq_true hof]
      cases s.ofUser user_id <;> cases s.ofUnit collation unit db.problemTypeMap <;>
        cases s.ofProblem problem_id <;> rfl
    · -- the mappings to the unit stay
      have hunit : s.ofUnit collation unit
          (db.problemTypeMap.filter fun t => !t.isOf collation problem_id problem_type) =
            s.ofUnit collation unit db.problemTypeMap := by
        rw [Bool.eq_iff_iff, ofUnit_iff, ofUnit_iff]
        refine exists_congr fun pt => ?_
        rw [List.mem_filter]
        refine ⟨fun h => ⟨h.1.1, h.2⟩, fun h => ⟨⟨h.1, ?_⟩, h.2⟩⟩
        have hne : collation pt.problemType ≠ collation problem_type := fun heq =>
          hof (heq.symm.trans h.2.2)
        simp [ProblemType.isOf, hne]
      rw [hunit, decide_eq_false hof]
      rfl

/-- A user's answer has the figures of the user's submissions. -/
theorem exists_shownFor (h : Enforces collation fits dbms) (hkeys : Keys collation db)
    (hid : user_id ≠ -1) (unit : Bytes) : ∃ units : List Units,
      (Query.selectUnitsData user_id).perform dbms (fun _ => false) db = .ok units ∧
        shownFor collation units unit = figures (unitSubmissions collation user_id unit db) := by
  obtain ⟨spelling, units, hunits, hperm⟩ := h.toStandard.perform_selectUnitsData user_id db
  rw [if_neg hid] at hperm
  exact ⟨units, hunits, shownFor_selectUnitsData hkeys spelling user_id unit units hperm⟩

/-- **Every operation moves the statistics by its own submissions and no others.**  For
every operation, every user and every unit, what the user is shown for the unit before
and after are the counts of one list, and the operation takes from it what it deletes
and adds to it what it brings, or leaves it when it is not performed. -/
theorem shownFor_perform (h : Enforces collation fits dbms) (hkeys : Keys collation db)
    (m : Mutation) (f : ℕ → Bool) (hf : Undisturbed dbms m db f) (hid : user_id ≠ -1)
    (unit : Bytes) : ∃ (units units' : List Units) (stamp : Stamp),
      (Query.selectUnitsData user_id).perform dbms (fun _ => false) db = .ok units ∧
      (Query.selectUnitsData user_id).perform dbms (fun _ => false) (m.perform dbms f db).2 =
        .ok units' ∧
      shownFor collation units unit = figures (unitSubmissions collation user_id unit db) ∧
      (Performs collation fits m db → shownFor collation units' unit =
        figures ((unitSubmissions collation user_id unit db).filter
            (fun s => !departs collation m unit db s) ++
          arrivals collation stamp m user_id unit db)) ∧
      (¬ Performs collation fits m db → shownFor collation units' unit =
        shownFor collation units unit) := by
  obtain ⟨units, hunits, hshown⟩ := exists_shownFor h hkeys hid unit
  by_cases hp : Performs collation fits m db
  · obtain ⟨stamp, hfresh, hperform⟩ := perform_of_performs h hf hp
    obtain ⟨units', hunits', hshown'⟩ :=
      exists_shownFor h (keys_effect hkeys hp.2.2 hfresh) hid unit
    rw [hperform]
    refine ⟨units, units', stamp, hunits, hunits', hshown, fun _ => ?_, fun hn => absurd hp hn⟩
    exact hshown'.trans (figures_perm (unitSubmissions_effect hp.2.2))
  · rw [perform_of_not_performs h hf hp]
    exact ⟨units, units, ⟨0, none, []⟩, hunits, hunits, hshown, fun hn => absurd hn hp,
      fun _ => rfl⟩

/-- The problem 198 goes, and Alice's submissions for it leave the unit. -/
theorem shownFor_perform_alice : ∃ (units units' : List Units) (stamp : Stamp),
    (Query.selectUnitsData 1).perform (enforcing id some (text "2024-01-05")) (fun _ => false)
      sample = .ok units ∧
    (Query.selectUnitsData 1).perform (enforcing id some (text "2024-01-05")) (fun _ => false)
      ((Mutation.deleteProblem 198).perform (enforcing id some (text "2024-01-05"))
        (fun _ => false) sample).2 = .ok units' ∧
    shownFor id units (text "DP") = figures (unitSubmissions id 1 (text "DP") sample) ∧
    (Performs id (fun _ => True) (.deleteProblem 198) sample → shownFor id units' (text "DP") =
      figures ((unitSubmissions id 1 (text "DP") sample).filter
          (fun s => !departs id (.deleteProblem 198) (text "DP") sample s) ++
        arrivals id stamp (.deleteProblem 198) 1 (text "DP") sample)) ∧
    (¬ Performs id (fun _ => True) (.deleteProblem 198) sample →
      shownFor id units' (text "DP") = shownFor id units (text "DP")) :=
  shownFor_perform (enforces_enforcing id some (text "2024-01-05")) keys_sample
    (.deleteProblem 198) _ (by simp [Undisturbed, inserts]) (by decide) (text "DP")

/-- Two problems and three submissions, one of which stays. -/
example : figures (unitSubmissions id 1 (text "DP") sample) = ⟨2, 3, 1, 2, 1⟩ ∧
    (unitSubmissions id 1 (text "DP") sample).filter
        (fun s => !departs id (.deleteProblem 198) (text "DP") sample s) =
      [⟨4, some 213, some 1, some 1, some (text "00:15:00"), some 15,
        some (text "2024-01-04")⟩] := by
  decide

end Database
end WeakAyas
