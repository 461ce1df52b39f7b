/-
# Users do not see or disturb each other

The three `SELECT` of a user filter on `users_id` wherever they read
`submissions`, the drill-down in all four places (`sql_driver.cpp`, lines
716-742), so they depend on the user's own submissions only
(`selectUnitdetail_perm`).  What another user inserts or deletes leaves these as
they are (`agreeFor_perform`).
-/

import WeakAyas.Database.Reference

namespace WeakAyas
namespace Database

open Driver Bag

variable {κ : Type} [DecidableEq κ] {collation : Bytes → κ} {u v : ℤ} {db db' : Tables}

/-! ### What a user's rows depend on -/

/-- The row of a group does not depend on the order of its rows. -/
theorem unitsRow_perm (unit : Shows unitColumn) {g g' : SummaryRow × List SummaryRow}
    (h : g.2.Perm g'.2) : unitsRow unit g = unitsRow unit g' := by
  unfold unitsRow
  rw [unit.perm h, (h.map _).dedup.length_eq, count_perm h, sumCase_perm h, sumCase_perm h,
    sumCase_perm h]

/-- The statistics of the units depend on the own submissions only. -/
theorem selectUnitsData_perm (unit : Shows unitColumn) (h : AgreeFor v db db') :
    (selectUnitsData collation unit v db).Perm (selectUnitsData collation unit v db') := by
  obtain ⟨hproblems, htypes, hsubmissions⟩ := h
  have hjoined : ∀ db : Tables, unitsJoined v db =
      join (join db.problemTypeMap db.problems fun pt p => p.id == pt.problemId)
        (db.submissions.filter (·.ofUser v)) fun r s => s.ofProblem r.2.id := fun db =>
    filter_join_right _ _ _ fun s : Submission => s.ofUser v
  refine groupBy_map_perm (fun _ _ _ hrows => unitsRow_perm unit hrows) ?_
  rw [hjoined, hjoined]
  exact join_perm (join_perm htypes hproblems _) hsubmissions _

/-- So do the greatest ids. -/
theorem maxIds_perm (h : AgreeFor v db db') : (maxIds v db).Perm (maxIds v db') := by
  refine groupBy_map_perm (fun g g' hkey hrows => ?_) h.2.2
  rw [show g.1.problemId = g'.1.problemId from hkey, max?_perm (hrows.map Submission.id)]

/-- So do the last submissions. -/
theorem lastSubmissions_perm (h : AgreeFor v db db') :
    (lastSubmissions v db).Perm (lastSubmissions v db') := by
  have hlast : ∀ db : Tables, lastSubmissions v db =
      (join (db.submissions.filter (·.ofUser v)) (maxIds v db) fun s1 s2 => s2.2 == some s1.id).map
        Prod.fst := fun db =>
    congrArg (List.map Prod.fst) (filter_join_left _ _ _ fun s : Submission => s.ofUser v)
  rw [hlast, hlast]
  exact (join_perm h.2.2 (maxIds_perm h) _).map Prod.fst

/-- The joined rows of the drill-down depend on the own submissions only. -/
theorem detailJoined_perm (h : AgreeFor v db db') (unit : Bytes) :
    (detailJoined collation v unit db).Perm (detailJoined collation v unit db') := by
  have hlast := lastSubmissions_perm h
  obtain ⟨hproblems, htypes, hsubmissions⟩ := h
  have hjoin : ∀ db : Tables,
      join (join db.problems db.problemTypeMap fun p pt => p.id == pt.problemId) db.submissions
        (fun r s => s.ofProblem r.1.id && s.ofUser v) =
      join (join db.problems db.problemTypeMap fun p pt => p.id == pt.problemId)
        (db.submissions.filter (·.ofUser v)) fun r s => s.ofProblem r.1.id && s.ofUser v :=
    fun db => (join_filter _ _ fun _ s hc =>
      show Submission.ofUser v s = true from (Bool.and_eq_true_iff.1 hc).2).symm
  refine (join_perm ?_ hlast _).filter _
  refine (List.Perm.of_eq (hjoin db)).trans (.trans ?_ (.of_eq (hjoin db').symm))
  exact join_perm (join_perm hproblems htypes _) hsubmissions _

omit [DecidableEq κ] in
/-- The row of a group depends on its key and on its rows in any order. -/
theorem detailRow_perm (title : Shows titleColumn) {g g' : DetailRow × List DetailRow}
    (hkey : detailKey collation g.1 = detailKey collation g'.1) (h : g.2.Perm g'.2) :
    detailRow title g = detailRow title g' := by
  simp only [detailKey, DetailKey.mk.injEq] at hkey
  obtain ⟨hid, -, hdate, htime, hstatus⟩ := hkey
  simp only [detailRow]
  rw [title.perm h, count_perm h, sumCase_perm h, sumCase_perm h, sumCase_perm h, hid, hdate,
    htime, hstatus]

/-- **The drill-down depends on the user's own submissions only.** -/
theorem selectUnitdetail_perm (title : Shows titleColumn) (h : AgreeFor v db db') (unit : Bytes) :
    (selectUnitdetail collation title v unit db).Perm
      (selectUnitdetail collation title v unit db') :=
  groupBy_map_perm (fun _ _ hkey hrows => detailRow_perm title hkey hrows)
    (detailJoined_perm h unit)

/-- So does the list of the submissions of a problem. -/
theorem getSubmissions_perm (h : AgreeFor v db db') (problem_id : ℤ) :
    (getSubmissions v problem_id db).Perm (getSubmissions v problem_id db') := by
  have hfilter : ∀ db : Tables,
      db.submissions.filter (fun s => s.ofUser v && s.ofProblem problem_id) =
      (db.submissions.filter (·.ofUser v)).filter (·.ofProblem problem_id) := fun db => by
    rw [List.filter_filter]
    exact List.filter_congr fun s _ => Bool.and_comm _ _
  rw [getSubmissions, getSubmissions, hfilter, hfilter]
  exact (h.2.2.filter _).map _

/-! ### What another user changes -/

/-- The calls in question: submissions of `u` inserted or deleted, and users
registered. -/
def By (u : ℤ) : Mutation → Prop
  | .registerUser _ => True
  | .insertSubmitted users_id _ _ _ | .deleteSubmission _ users_id => users_id = u
  | _ => False

/-- An insertion for another user. -/
theorem agreeFor_insertSubmission (huv : u ≠ v) {id problem_id : ℤ} {status : Bool}
    {time : Option Bytes} {minutes : ℤ} {curdate : Bytes} :
    AgreeFor v db (insertSubmission id u problem_id status time minutes curdate db) := by
  refine ⟨.rfl, .rfl, .of_eq ?_⟩
  rw [insertSubmission, List.filter_append, List.filter_cons_of_neg, List.filter_nil,
    List.append_nil]
  simpa [Submission.ofUser] using huv

/-- A deletion for another user. -/
theorem agreeFor_deleteSubmission (huv : u ≠ v) {submission_id : ℤ} :
    AgreeFor v db (deleteSubmission submission_id u db) := by
  refine ⟨.rfl, .rfl, .of_eq ?_⟩
  rw [deleteSubmission, List.filter_filter]
  refine List.filter_congr fun s _ => ?_
  by_cases hs : s.usersId = some v
  · simp [Submission.ofUser, hs, huv.symm]
  · have hv : s.ofUser v = false := by simpa [Submission.ofUser] using hs
    rw [hv, Bool.false_and]

/-- One call of another user, whatever fails in it. -/
theorem agreeFor_perform {dbms : Dbms Tables} (hdbms : Standard collation dbms) (huv : u ≠ v)
    {m : Mutation} (hm : By u m) (f : ℕ → Bool) (db : Tables) :
    AgreeFor v db (m.perform dbms f db).2 := by
  suffices happly : AgreeFor v db (m.apply dbms db) by
    rcases perform_database dbms m f db with h | h <;> rw [h]
    · exact .refl v db
    · exact happly
  cases m with
  | registerUser username =>
    rcases hdbms.insertUser username db with h | ⟨id, curdate, h⟩ <;> rw [h]
    · exact .refl v db
    · exact ⟨.rfl, .rfl, .rfl⟩
  | insertSubmitted users_id problem_id status time_spent =>
    obtain rfl : users_id = u := hm
    rcases hdbms.insertSubmission users_id problem_id status time_spent db with
      h | ⟨id, time, curdate, h⟩ <;> rw [h]
    · exact .refl v db
    · exact agreeFor_insertSubmission huv
  | deleteSubmission submission_id users_id =>
    obtain rfl : users_id = u := hm
    rw [hdbms.deleteSubmission]
    exact agreeFor_deleteSubmission huv
  | _ => exact hm.elim

/-- Calls one after the other, each under its faults. -/
def performAll (dbms : Dbms Tables) (calls : List (Mutation × (ℕ → Bool))) (db : Tables) : Tables :=
  calls.foldl (fun db c => (c.1.perform dbms c.2 db).2) db

/-- A row after the calls is an old one or one that a call leaves. -/
theorem submissions_performAll {dbms : Dbms Tables} {calls : List (Mutation × (ℕ → Bool))}
    {R : Mutation → Submission → Prop} (h : ∀ c ∈ calls, ∀ db,
      ∀ s ∈ (c.1.apply dbms db).submissions, s ∈ db.submissions ∨ R c.1 s) (db : Tables) :
    ∀ s ∈ (performAll dbms calls db).submissions, s ∈ db.submissions ∨ ∃ c ∈ calls, R c.1 s := by
  induction calls generalizing db with
  | nil => exact fun s hs => .inl hs
  | cons c calls ih =>
    intro s hs
    have ih := ih (fun c' hc' => h c' (List.mem_cons_of_mem _ hc')) (c.1.perform dbms c.2 db).2 s hs
    rcases ih with hs | ⟨c', hc', hR⟩
    · -- the first call has left the row
      rcases perform_database dbms c.1 c.2 db with hdb | hdb <;> rw [hdb] at hs
      · exact .inl hs
      · exact (h c List.mem_cons_self db s hs).imp id fun hR => ⟨c, List.mem_cons_self, hR⟩
    · exact .inr ⟨c', List.mem_cons_of_mem _ hc', hR⟩

/-- Any number of calls of another user. -/
theorem agreeFor_performAll {dbms : Dbms Tables} (hdbms : Standard collation dbms) (huv : u ≠ v)
    {calls : List (Mutation × (ℕ → Bool))} (hcalls : ∀ c ∈ calls, By u c.1) (db : Tables) :
    AgreeFor v db (performAll dbms calls db) := by
  induction calls generalizing db with
  | nil => exact .refl v db
  | cons c calls ih =>
    exact (agreeFor_perform hdbms huv (hcalls c (by simp)) c.2 db).trans
      (ih (fun c' hc' => hcalls c' (by simp [hc'])) _)

/-! ### The answers -/

/-- Two answers of an operation, as bags of rows. -/
def SameRows (α : Type) (answer answer' : Except SqlException (List α)) : Prop :=
  ∃ rows rows', answer = .ok rows ∧ answer' = .ok rows' ∧ rows.Perm rows'

/-- Two answers of `SQL_Driver::getSubmissions`: maps filled from the same bag of
rows. -/
def SameSubmissions (answer answer' : Except SqlException Submissions) : Prop :=
  ∃ rows rows' : List (ℤ × ExamInfo),
    answer = .ok (rows.foldl (fun subs x => Query.storeExamInfo x subs) []) ∧
    answer' = .ok (rows'.foldl (fun subs x => Query.storeExamInfo x subs) []) ∧ rows.Perm rows'

/-- The user gets the same rows from the two databases. -/
structure SameAnswers (dbms : Dbms Tables) (user_id : ℤ) (db db' : Tables) : Prop where
  unitsData : SameRows Units
    ((Query.selectUnitsData user_id).perform dbms (fun _ => false) db)
    ((Query.selectUnitsData user_id).perform dbms (fun _ => false) db')
  unitdetail : ∀ unit, SameRows UnitStat
    ((Query.selectUnitdetail user_id unit).perform dbms (fun _ => false) db)
    ((Query.selectUnitdetail user_id unit).perform dbms (fun _ => false) db')
  submissions : ∀ problem_id, SameSubmissions
    ((Query.getSubmissions user_id problem_id).perform dbms (fun _ => false) db)
    ((Query.getSubmissions user_id problem_id).perform dbms (fun _ => false) db')

/-- What agrees for a user gives them the same rows. -/
theorem sameAnswers_of_agreeFor {dbms : Dbms Tables} (hdbms : Standard collation dbms)
    (h : AgreeFor v db db') : SameAnswers dbms v db db' where
  unitsData := by
    obtain ⟨unit, hunits⟩ := hdbms.unitsData
    refine ⟨_, _, Query.perform_selectUnitsData dbms v db, Query.perform_selectUnitsData dbms v db',
      ?_⟩
    split_ifs
    · exact .nil
    · exact (hunits v db).trans ((selectUnitsData_perm unit h).trans (hunits v db').symm)
  unitdetail unit := by
    obtain ⟨title, hstats⟩ := hdbms.unitdetail
    refine ⟨_, _, Query.perform_selectUnitdetail dbms v unit db,
      Query.perform_selectUnitdetail dbms v unit db', ?_⟩
    split_ifs
    · exact .nil
    · exact (hstats v unit db).trans
        ((selectUnitdetail_perm title h unit).trans (hstats v unit db').symm)
  submissions problem_id := by
    refine ⟨_, _, Query.perform_getSubmissions dbms v problem_id db,
      Query.perform_getSubmissions dbms v problem_id db', ?_⟩
    exact (hdbms.submissions v problem_id db).trans
      ((getSubmissions_perm h problem_id).trans (hdbms.submissions v problem_id db').symm)

/-- **Users do not see or disturb each other.**  On every standard database no
calls of another user change the rows that a user gets, and these depend only on
the problems, their types and the user's own submissions. -/
theorem sameAnswers_of_calls {dbms : Dbms Tables} (hdbms : Standard collation dbms) (huv : u ≠ v) :
    (∀ (calls : List (Mutation × (ℕ → Bool))), (∀ c ∈ calls, By u c.1) → ∀ db,
      SameAnswers dbms v db (performAll dbms calls db)) ∧
    ∀ db db', AgreeFor v db db' → SameAnswers dbms v db db' :=
  ⟨fun _ hcalls db =>
    sameAnswers_of_agreeFor hdbms (agreeFor_performAll hdbms huv hcalls db),
    fun _ _ h => sameAnswers_of_agreeFor hdbms h⟩

/-- Bob submits and deletes, Alice's rows stay. -/
theorem sameAnswers_of_calls_bob :
    SameAnswers (reference id some (text "2024-01-05")) 1 sample
      (performAll (reference id some (text "2024-01-05"))
        [(.insertSubmitted 2 198 true (text "00:05:00"), fun _ => false),
          (.deleteSubmission 2 2, fun _ => false)] sample) :=
  (sameAnswers_of_calls (u := 2) (standard_reference id some (text "2024-01-05"))
    (by decide)).1 _ (by simp [By]) sample

end Database
end WeakAyas
