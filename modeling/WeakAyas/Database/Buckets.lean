/-
# The buckets of the statistics

`SQL_Driver::Select_UnitsData` and `SQL_Driver::Select_Unitdetail`
(`sql_driver.cpp`, lines 636-770) on submissions that `SQL_Driver::InsertSubmitted`
(lines 433-485) has written.

`s.status = 1 AND s.time_spent_min <= 30` and `s.status = 0 OR s.time_spent_min >
30` are no complements of each other: both miss a null.  `InsertSubmitted` binds
both columns, the status as a `bool`, and on its rows they are
(`solvedOver30_eq_not_solvedIn`), whatever the minutes.  So every group is shared
out between the two (`buckets_partition`).
-/

import WeakAyas.Database.Isolation

namespace WeakAyas
namespace Database

open Driver Bag

variable {κ : Type} [DecidableEq κ] {collation : Bytes → κ} {db : Tables}

/-! ### Rows of `InsertSubmitted` -/

/-- A row that `SQL_Driver::InsertSubmitted` has written. -/
def Submission.Inserted (s : Submission) : Prop :=
  ∃ (id problem_id users_id : ℤ) (status : Bool) (time : Option Bytes) (minutes : ℤ)
      (curdate : Bytes),
    s = ⟨id, some problem_id, some users_id, some (if status then 1 else 0), time, some minutes,
      some curdate⟩

/-- All submissions are of `InsertSubmitted`. -/
def AllInserted (db : Tables) : Prop := ∀ s ∈ db.submissions, s.Inserted

/-- A call of a user leaves old rows and rows of `InsertSubmitted`. -/
theorem inserted_apply {dbms : Dbms Tables} (hdbms : Standard collation dbms) {u : ℤ} {m : Mutation}
    (hm : By u m) (db : Tables) :
    ∀ s ∈ (m.apply dbms db).submissions, s ∈ db.submissions ∨ s.Inserted := by
  cases m with
  | registerUser username =>
    rcases hdbms.insertUser username db with happly | ⟨id, curdate, happly⟩ <;> rw [happly] <;>
      exact fun s hs => .inl hs
  | insertSubmitted users_id problem_id status time_spent =>
    rcases hdbms.insertSubmission users_id problem_id status time_spent db with
      happly | ⟨id, time, curdate, happly⟩ <;> rw [happly]
    · exact fun s hs => .inl hs
    · intro s hs
      refine (List.mem_append.1 hs).imp_right fun hs => ?_
      exact ⟨id, problem_id, users_id, status, time, _, curdate, List.mem_singleton.1 hs⟩
  | deleteSubmission submission_id users_id =>
    rw [hdbms.deleteSubmission]
    exact fun s hs => .inl (List.mem_filter.1 hs).1
  | _ => exact hm.elim

/-- **Users leave rows of `InsertSubmitted` only.** -/
theorem allInserted_performAll {dbms : Dbms Tables} (hdbms : Standard collation dbms)
    {calls : List (Mutation × (ℕ → Bool))} (hcalls : ∀ c ∈ calls, ∃ u, By u c.1)
    (h : AllInserted db) : AllInserted (performAll dbms calls db) := by
  intro s hs
  have hrow := submissions_performAll (R := fun _ s => s.Inserted) (fun c hc db =>
    inserted_apply hdbms (hcalls c hc).choose_spec db) db s hs
  rcases hrow with hs | ⟨_, _, hs⟩
  · exact h s hs
  · exact hs

/-- On such a row the two conditions are complements. -/
theorem solvedOver30_eq_not_solvedIn {s : Submission} (h : s.Inserted) :
    solvedOver30 s = !solvedIn 30 s := by
  obtain ⟨id, problem_id, users_id, status, time, minutes, curdate, rfl⟩ := h
  cases status
  · rfl
  · rw [Bool.eq_iff_iff]
    simp [solvedOver30, solvedIn]

/-- Solved within 20 minutes is solved within 30. -/
theorem solvedIn_mono {s : Submission} (h : solvedIn 20 s = true) : solvedIn 30 s = true := by
  simp only [solvedIn, Bool.and_eq_true, Option.any_eq_true, decide_eq_true_eq] at h ⊢
  obtain ⟨hstatus, minutes, hminutes, hle⟩ := h
  exact ⟨hstatus, minutes, hminutes, by omega⟩

/-! ### Groups -/

/-- The buckets of a row: those within 20 minutes are among those within 30, and
these and the rest make up the row, which is not empty. -/
structure Buckets (solved_20min solved_30min solved_over_30min total : ℤ) : Prop where
  nonneg : 0 ≤ solved_20min
  le : solved_20min ≤ solved_30min
  sum : solved_30min + solved_over_30min = total
  pos : 1 ≤ total

/-- A group of rows with their submissions has its buckets. -/
theorem buckets_of_group {α : Type} (submission : α → Submission) {rows : List α}
    (h : ∀ r ∈ rows, (submission r).Inserted) {r : α} (hr : r ∈ rows) :
    Buckets (sumCase (fun r => solvedIn 20 (submission r)) rows)
      (sumCase (fun r => solvedIn 30 (submission r)) rows)
      (sumCase (fun r => solvedOver30 (submission r)) rows) (count rows) where
  nonneg := sumCase_nonneg _ _
  le := sumCase_le_sumCase fun _ _ => solvedIn_mono
  sum := sumCase_add_sumCase fun r hr => solvedOver30_eq_not_solvedIn (h r hr)
  pos := by
    have := List.length_pos_of_mem hr
    rw [count]
    omega

/-- The rate that the driver computes, computed exactly. -/
def exactRate (solved total : ℤ) : ℚ := if total ≠ 0 then (solved : ℚ) / total * 100 else 0

/-- The two rates of a partition are the whole. -/
theorem exactRate_add_exactRate {solved rest total : ℤ} (hsum : solved + rest = total)
    (hpos : 1 ≤ total) : exactRate solved total + exactRate rest total = 100 := by
  have hne : (total : ℚ) ≠ 0 := by
    have : total ≠ 0 := by omega
    exact_mod_cast this
  have hcast : (solved : ℚ) + rest = total := by exact_mod_cast hsum
  rw [exactRate, exactRate, if_pos (by omega), if_pos (by omega), ← add_mul, ← add_div, hcast,
    div_self hne, one_mul]

/-- A count is a `double`. -/
theorem double_intCast {n : ℤ} (hn : |n| < 2 ^ 53) : Query.double n = n :=
  Rounding.roundBinary_intCast hn

/-- **The rate of the driver is the exact one up to its two roundings**: two units in
the last of 53 binary digits. -/
theorem abs_rate_sub_le {solved total : ℤ} (hsolved : |solved| < 2 ^ 53)
    (htotal : |total| < 2 ^ 53) :
    |Query.rate solved total - exactRate solved total| ≤
      (2 : ℚ) ^ (-51 : ℤ) * |exactRate solved total| := by
  rw [Query.rate, exactRate]
  split_ifs with hzero
  · rw [double_intCast hsolved, double_intCast htotal]
    generalize (solved : ℚ) / total = q
    -- the quotient is rounded, and the product with the rounded quotient
    have hquotient : |Query.double q - q| ≤ (2 : ℚ) ^ (-53 : ℤ) * |q| :=
      Rounding.abs_roundBinary_sub_le 53 q
    have hproduct : |Query.double (Query.double q * 100) - Query.double q * 100| ≤
        (2 : ℚ) ^ (-53 : ℤ) * |Query.double q * 100| :=
      Rounding.abs_roundBinary_sub_le 53 _
    generalize Query.double (Query.double q * 100) = r at *
    generalize Query.double q = d at *
    have hd : |d| ≤ |q| + |d - q| := by
      have := abs_add_le q (d - q)
      rwa [add_sub_cancel] at this
    have hr : |r - q * 100| ≤ |r - d * 100| + |d - q| * 100 := by
      have := abs_add_le (r - d * 100) ((d - q) * 100)
      rwa [abs_mul, abs_of_pos (by norm_num : (0 : ℚ) < 100), sub_mul, sub_add_sub_cancel] at this
    rw [abs_mul, abs_of_pos (by norm_num : (0 : ℚ) < 100)] at hproduct ⊢
    have hq := abs_nonneg q
    norm_num at hquotient hproduct ⊢
    linarith
  · simp

/-- A row of the statistics of the units. -/
structure UnitsBuckets (u : Units) : Prop where
  buckets : Buckets u.solved20min u.solved30min u.solvedOver30min u.totalSubmit
  one_le : 1 ≤ u.problemsSolved
  le : u.problemsSolved ≤ u.totalSubmit
  rate30min : u.rate30min = Query.rate u.solved30min u.totalSubmit
  rateOver30min : u.rateOver30min = Query.rate u.solvedOver30min u.totalSubmit
  rates : exactRate u.solved30min u.totalSubmit + exactRate u.solvedOver30min u.totalSubmit = 100

/-- Every row of the units has its buckets. -/
theorem unitsBuckets_of_mem (hdb : AllInserted db) {unit : Shows unitColumn} {user_id : ℤ}
    {u : Units} (hu : u ∈ selectUnitsData collation unit user_id db) : UnitsBuckets u := by
  obtain ⟨g, hg, rfl⟩ := List.mem_map.1 hu
  have hgroup := (of_mem_groupBy hg).2
  have hbuckets := buckets_of_group Prod.snd (fun r (hr : r ∈ g.2) => by
      rw [hgroup] at hr
      have hjoined := List.mem_filter.1 (List.mem_filter.1 hr).1
      exact hdb _ (mem_join.1 hjoined.1).2.1) (mem_of_mem_groupBy hg)
  have hsolved : (unitsRow unit g).problemsSolved = (g.2.map fun r => r.1.2.id).dedup.length := rfl
  have htotal : (unitsRow unit g).totalSubmit = g.2.length := rfl
  have hids : (g.2.map fun r => r.1.2.id).dedup ≠ [] := by
    rw [ne_eq, List.dedup_eq_nil, List.map_eq_nil_iff]
    exact List.ne_nil_of_mem (mem_of_mem_groupBy hg)
  have hpos := List.length_pos_iff.2 hids
  have hle := (List.dedup_sublist (g.2.map fun r => r.1.2.id)).length_le
  rw [List.length_map] at hle
  exact ⟨hbuckets, by omega, by omega, rfl, rfl,
    exactRate_add_exactRate hbuckets.sum hbuckets.pos⟩

/-- So has every row of a unit's problems. -/
theorem buckets_of_mem_unitdetail (hdb : AllInserted db) {title : Shows titleColumn}
    {user_id : ℤ} {unit : Bytes} {us : UnitStat}
    (hus : us ∈ selectUnitdetail collation title user_id unit db) :
    Buckets us.solved20min us.solved30min us.solvedOver30min us.totalExam := by
  obtain ⟨g, hg, rfl⟩ := List.mem_map.1 hus
  refine buckets_of_group (fun r : DetailRow => r.1.2) (fun r hr => ?_)
    (mem_of_mem_groupBy hg)
  rw [(of_mem_groupBy hg).2] at hr
  have hjoined := (List.mem_filter.1 (List.mem_filter.1 hr).1).1
  exact hdb _ (mem_join.1 (mem_join.1 hjoined).1).2.1

/-! ### The answers -/

/-- **The buckets share the submissions out.**  On every standard database whose
submissions are all of `InsertSubmitted`, for every user and unit, and whatever
rows a failing call has left in the answer. -/
theorem buckets_partition {dbms : Dbms Tables} (hdbms : Standard collation dbms)
    (hdb : AllInserted db) (user_id : ℤ) (f : ℕ → Bool) :
    (∀ units : List Units, (Query.selectUnitsData user_id).perform dbms f db =
        (.ok units : Except SqlException (List Units)) → ∀ u ∈ units, UnitsBuckets u) ∧
    ∀ (unit : Bytes) (stats : List UnitStat),
      (Query.selectUnitdetail user_id unit).perform dbms f db =
        (.ok stats : Except SqlException (List UnitStat)) →
      ∀ us ∈ stats, Buckets us.solved20min us.solved30min us.solvedOver30min us.totalExam := by
  constructor
  · intro units hperform u hu
    have hrow := Query.subset_of_perform_selectUnitsData dbms hperform hu
    obtain ⟨unit, hunits⟩ := hdbms.unitsData
    exact unitsBuckets_of_mem hdb ((hunits user_id db).mem_iff.1 hrow)
  · intro unit stats hperform us hus
    have hrow := Query.subset_of_perform_selectUnitdetail dbms hperform hus
    obtain ⟨title, hstats⟩ := hdbms.unitdetail
    exact buckets_of_mem_unitdetail hdb ((hstats user_id unit db).mem_iff.1 hrow)

/-- Alice submits twice, once with a negative time. -/
def twoCalls : List (Mutation × (ℕ → Bool)) :=
  [(.insertSubmitted 1 198 true (text "00:25:30"), fun _ => false),
    (.insertSubmitted 1 198 false (text "-1:00:00"), fun _ => false)]

/-- Both calls are Alice's. -/
theorem twoCalls_by {c : Mutation × (ℕ → Bool)} (hc : c ∈ twoCalls) : ∃ u, By u c.1 := by
  rcases List.mem_pair.1 hc with rfl | rfl <;> exact ⟨1, rfl⟩

/-- The two calls on a table without submissions. -/
theorem buckets_partition_alice :
    ∃ units : List Units,
      (Query.selectUnitsData 1).perform (reference id some (text "2024-01-05")) (fun _ => false)
        (performAll (reference id some (text "2024-01-05")) twoCalls
          { sample with submissions := [] }) = (.ok units : Except SqlException (List Units)) ∧
      ∀ u ∈ units, UnitsBuckets u := by
  have hdbms := standard_reference id some (text "2024-01-05")
  have hdb : AllInserted { sample with submissions := [] } := fun s hs =>
    absurd hs List.not_mem_nil
  have hinserted := allInserted_performAll hdbms (fun _ => twoCalls_by) hdb
  have hperform := Query.perform_selectUnitsData (reference id some (text "2024-01-05")) 1
    (performAll (reference id some (text "2024-01-05")) twoCalls { sample with submissions := [] })
  exact ⟨_, hperform, (buckets_partition hdbms hinserted 1 _).1 _ hperform⟩

/-- In each of the two units of the problem the second one counts as over 30 minutes. -/
example :
    (selectUnitsData id greatestUnit 1 (performAll (reference id some (text "2024-01-05")) twoCalls
      { sample with submissions := [] })).map (fun u =>
        (u.solved20min, u.solved30min, u.solvedOver30min, u.totalSubmit)) =
      [(0, 1, 1, 2), (0, 1, 1, 2)] := by decide +kernel

end Database
end WeakAyas
