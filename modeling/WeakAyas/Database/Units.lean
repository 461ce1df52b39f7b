/-
# The summary of a unit is the sum of its details

`SQL_Driver::Select_UnitsData` and `SQL_Driver::Select_Unitdetail`
(`sql_driver.cpp`, lines 636-782).

Both join the problems, their types and a user's submissions.  The second joins
the user's last submission of each problem in as well, which by the keys of the
tables is exactly one for each problem that has any (`exists_mem_lastSubmissions`,
`eq_of_mem_lastSubmissions`), so the rows of a unit are the same
(`map_summaryRow_detailJoined`) and only their grouping is finer.
-/

import WeakAyas.Database.Reference

namespace WeakAyas
namespace Database

open Driver Bag

variable {κ : Type} {collation : Bytes → κ} {user_id : ℤ} {unit : Bytes} {db : Tables}

/-! ### The last submission of a problem -/

/-- A row of the key `id` is found by it. -/
theorem eq_of_id_eq {α : Type} {id : α → ℤ} {rows : List α} (h : (rows.map id).Nodup) {a b : α}
    (ha : a ∈ rows) (hb : b ∈ rows) (hid : id a = id b) : a = b :=
  List.inj_on_of_nodup_map h ha hb hid

/-- The submission is the user's last one of its problem. -/
def IsLast (user_id : ℤ) (db : Tables) (s : Submission) : Prop :=
  s ∈ db.submissions ∧ s.ofUser user_id = true ∧
    ∀ s' ∈ db.submissions, s'.ofUser user_id = true → s'.problemId = s.problemId → s'.id ≤ s.id

/-- The greatest id is the id of a last submission. -/
theorem isLast_of_mem_maxIds {m : Option ℤ × Option ℤ} (hm : m ∈ maxIds user_id db) :
    ∃ s, IsLast user_id db s ∧ m = (s.problemId, some s.id) := by
  obtain ⟨g, hg, rfl⟩ := List.mem_map.1 hm
  have hgroup := (of_mem_groupBy hg).2
  rcases hmax : (g.2.map Submission.id).max? with _ | i
  · rw [List.max?_eq_none_iff, List.map_eq_nil_iff] at hmax
    have := mem_of_mem_groupBy hg
    simp [hmax] at this
  · obtain ⟨hi, hle⟩ := List.max?_eq_some_iff.1 hmax
    obtain ⟨s, hs, rfl⟩ := List.mem_map.1 hi
    simp only [hgroup, List.mem_filter, decide_eq_true_eq] at hs
    refine ⟨s, ⟨hs.1.1, hs.1.2, fun s' hs' huser hproblem => hle _ (List.mem_map_of_mem ?_)⟩,
      by rw [hs.2]⟩
    rw [hgroup]
    exact List.mem_filter.2 ⟨List.mem_filter.2 ⟨hs', huser⟩, by simp [hproblem, hs.2]⟩

/-- Every problem with a submission of the user has a greatest id. -/
theorem exists_mem_maxIds {s : Submission} (hs : s ∈ db.submissions)
    (huser : s.ofUser user_id = true) : ∃ m ∈ maxIds user_id db, m.1 = s.problemId := by
  obtain ⟨g, hg, hkey⟩ := exists_mem_groupBy Submission.problemId
    (List.mem_filter.2 ⟨hs, huser⟩)
  exact ⟨_, List.mem_map_of_mem hg, hkey.symm⟩

/-- **The joined-in rows are the last submissions.** -/
theorem mem_lastSubmissions (hkeys : Keys collation db) {s : Submission} :
    s ∈ lastSubmissions user_id db ↔ IsLast user_id db s := by
  simp only [lastSubmissions, List.mem_map, List.mem_filter, mem_join, Prod.exists,
    exists_and_right, exists_eq_right, beq_iff_eq]
  constructor
  · rintro ⟨⟨problem_id, max_id, hs, hm, hid⟩, huser⟩
    obtain ⟨s', hlast, hpair⟩ := isLast_of_mem_maxIds hm
    obtain rfl : s' = s := by
      have hid' : s'.id = s.id := by simpa [hid] using (congrArg Prod.snd hpair).symm
      exact eq_of_id_eq hkeys.submissionsId hlast.1 hs hid'
    exact hlast
  · intro hlast
    obtain ⟨m, hm, hproblem⟩ := exists_mem_maxIds hlast.1 hlast.2.1
    obtain ⟨s', hlast', rfl⟩ := isLast_of_mem_maxIds hm
    have hid : s'.id = s.id := le_antisymm
      (hlast.2.2 s' hlast'.1 hlast'.2.1 hproblem)
      (hlast'.2.2 s hlast.1 hlast.2.1 hproblem.symm)
    exact ⟨⟨_, _, hlast.1, hm, by rw [hid]⟩, hlast.2.1⟩

/-- A problem with a submission of the user has a last one. -/
theorem exists_mem_lastSubmissions (hkeys : Keys collation db) {s : Submission} {problem_id : ℤ}
    (hs : s ∈ db.submissions) (huser : s.ofUser user_id = true)
    (hproblem : s.ofProblem problem_id = true) :
    ∃ e ∈ lastSubmissions user_id db, e.ofProblem problem_id = true := by
  obtain ⟨m, hm, hm₁⟩ := exists_mem_maxIds hs huser
  obtain ⟨e, hlast, rfl⟩ := isLast_of_mem_maxIds hm
  refine ⟨e, (mem_lastSubmissions hkeys).2 hlast, ?_⟩
  have : e.problemId = s.problemId := hm₁
  rw [Submission.ofProblem, this]
  exact hproblem

/-- A problem has one last submission only. -/
theorem eq_of_mem_lastSubmissions (hkeys : Keys collation db) {e e' : Submission} {problem_id : ℤ}
    (he : e ∈ lastSubmissions user_id db) (he' : e' ∈ lastSubmissions user_id db)
    (hproblem : e.ofProblem problem_id = true) (hproblem' : e'.ofProblem problem_id = true) :
    e = e' := by
  rw [mem_lastSubmissions hkeys] at he he'
  simp only [Submission.ofProblem, beq_iff_eq] at hproblem hproblem'
  have hsame : e.problemId = e'.problemId := hproblem.trans hproblem'.symm
  exact eq_of_id_eq hkeys.submissionsId he.1 he'.1 (le_antisymm
    (he'.2.2 e he.1 he.2.1 hsame) (he.2.2 e' he'.1 he'.2.1 hsame.symm))

/-- A problem has one greatest id. -/
theorem nodup_maxIds : (maxIds user_id db).Nodup :=
  List.pairwise_map.2 ((pairwise_groupBy _ _).imp fun h heq => h (congrArg Prod.fst heq))

/-- No last submission comes twice. -/
theorem nodup_lastSubmissions (hkeys : Keys collation db) : (lastSubmissions user_id db).Nodup := by
  refine List.Nodup.map_on ?_ ((nodup_join (hkeys.submissionsId.of_map _) nodup_maxIds _).filter _)
  rintro ⟨s, m⟩ h ⟨s', m'⟩ h' rfl
  simp only [List.mem_filter, mem_join, beq_iff_eq] at h h'
  -- a greatest id belongs to one problem
  have hpair : ∀ m ∈ maxIds user_id db, m.2 = some s.id → m = (s.problemId, some s.id) := by
    intro m hm hid
    obtain ⟨s', hlast, rfl⟩ := isLast_of_mem_maxIds hm
    have hid' : s'.id = s.id := by simpa using hid
    rw [eq_of_id_eq hkeys.submissionsId hlast.1 h.1.1 hid']
  rw [hpair m h.1.2.1 h.1.2.2, hpair m' h'.1.2.1 h'.1.2.2]

/-! ### The rows of a unit -/

variable [DecidableEq κ]

/-- The joined row without the last submission, as the summary has it. -/
def summaryRow : DetailRow → SummaryRow := fun (((p, pt), s), _) => ((pt, p), s)

/-- A row of the summary is a submission of the user with its problem and a type of it. -/
theorem mem_unitsJoined {r : SummaryRow} :
    r ∈ unitsJoined user_id db ↔
      (r.1.1 ∈ db.problemTypeMap ∧ r.1.2 ∈ db.problems ∧ r.1.2.id = r.1.1.problemId) ∧
        (r.2 ∈ db.submissions ∧ r.2.ofProblem r.1.2.id = true) ∧ r.2.ofUser user_id = true := by
  simp only [unitsJoined, List.mem_filter, mem_join, beq_iff_eq]
  tauto

/-- A row of the details has the user's last submission beside it. -/
theorem mem_detailJoined {r : DetailRow} :
    r ∈ detailJoined collation user_id unit db ↔
      (r.1.1.1 ∈ db.problems ∧ r.1.1.2 ∈ db.problemTypeMap ∧ r.1.1.1.id = r.1.1.2.problemId) ∧
        (r.1.2 ∈ db.submissions ∧ r.1.2.ofProblem r.1.1.1.id = true ∧
          r.1.2.ofUser user_id = true) ∧
        (r.2 ∈ lastSubmissions user_id db ∧ r.2.ofProblem r.1.1.1.id = true) ∧
        collation r.1.1.2.problemType = collation unit := by
  simp only [detailJoined, List.mem_filter, mem_join, beq_iff_eq, Bool.and_eq_true,
    decide_eq_true_eq]
  tauto

/-- The rows of a unit in the summary. -/
def unitRows (collation : Bytes → κ) (user_id : ℤ) (unit : Bytes) (db : Tables) :
    List SummaryRow :=
  (unitsJoined user_id db).filter fun r => collation r.1.1.problemType = collation unit

/-- No row of a unit comes twice. -/
theorem nodup_unitRows (hkeys : Keys collation db) :
    (unitRows collation user_id unit db).Nodup :=
  ((nodup_join (nodup_join (hkeys.problemTypeMap.of_map _) (hkeys.problemsId.of_map _) _)
    (hkeys.submissionsId.of_map _) _).filter _).filter _

/-- No row of the details comes twice. -/
theorem nodup_detailJoined (hkeys : Keys collation db) :
    (detailJoined collation user_id unit db).Nodup :=
  (nodup_join (nodup_join (nodup_join (hkeys.problemsId.of_map _) (hkeys.problemTypeMap.of_map _) _)
    (hkeys.submissionsId.of_map _) _) (nodup_lastSubmissions hkeys) _).filter _

/-- In the details a problem has one last submission. -/
theorem last_eq_of_id_eq (hkeys : Keys collation db) {r r' : DetailRow}
    (h : r ∈ detailJoined collation user_id unit db)
    (h' : r' ∈ detailJoined collation user_id unit db) (hid : r.1.1.1.id = r'.1.1.1.id) :
    r.2 = r'.2 := by
  rw [mem_detailJoined] at h h'
  exact eq_of_mem_lastSubmissions hkeys h.2.2.1.1 h'.2.2.1.1 h.2.2.1.2 (hid ▸ h'.2.2.1.2)

/-- **The details of a unit are its rows in the summary**, each once. -/
theorem map_summaryRow_detailJoined (hkeys : Keys collation db) :
    ((detailJoined collation user_id unit db).map summaryRow).Perm
      (unitRows collation user_id unit db) := by
  refine (List.perm_ext_iff_of_nodup ?_ (nodup_unitRows hkeys)).2 ?_
  · refine List.Nodup.map_on ?_ (nodup_detailJoined hkeys)
    rintro ⟨⟨⟨p, pt⟩, s⟩, e⟩ h ⟨⟨⟨p', pt'⟩, s'⟩, e'⟩ h' heq
    obtain ⟨⟨rfl, rfl⟩, rfl⟩ : (pt = pt' ∧ p = p') ∧ s = s' := by simpa [summaryRow] using heq
    obtain rfl : e = e' := last_eq_of_id_eq hkeys h h' rfl
    rfl
  · rintro ⟨⟨pt, p⟩, s⟩
    rw [unitRows, List.mem_filter, mem_unitsJoined, List.mem_map, decide_eq_true_eq]
    constructor
    · rintro ⟨⟨⟨⟨p, pt⟩, s⟩, e⟩, h, heq⟩
      cases heq
      rw [mem_detailJoined] at h
      exact ⟨⟨⟨h.1.2.1, h.1.1, h.1.2.2⟩, ⟨h.2.1.1, h.2.1.2.1⟩, h.2.1.2.2⟩, h.2.2.2⟩
    · rintro ⟨⟨⟨hpt, hp, hid⟩, ⟨hs, hproblem⟩, huser⟩, hunit⟩
      obtain ⟨e, he, hproblem'⟩ := exists_mem_lastSubmissions hkeys hs huser hproblem
      exact ⟨(((p, pt), s), e), mem_detailJoined.2
        ⟨⟨hp, hpt, hid⟩, ⟨hs, hproblem, huser⟩, ⟨he, hproblem'⟩, hunit⟩, rfl⟩

/-- What is counted over the details of a unit is counted over its rows. -/
theorem sum_selectUnitdetail (hkeys : Keys collation db) (c : Submission → Bool) :
    ((groupBy (detailKey collation) (detailJoined collation user_id unit db)).map
      fun g => sumCase (fun r => c r.1.2) g.2).sum =
      sumCase (fun r => c r.2) (unitRows collation user_id unit db) := by
  rw [sum_groupBy, ← sumCase_perm (map_summaryRow_detailJoined hkeys), sumCase_map]
  rfl

/-- In the details of a unit the problem determines the rest of the key: the keys
of the problems and the one last submission do. -/
theorem detailKey_eq_iff (hkeys : Keys collation db) {r r' : DetailRow}
    (h : r ∈ detailJoined collation user_id unit db)
    (h' : r' ∈ detailJoined collation user_id unit db) :
    detailKey collation r = detailKey collation r' ↔ r.1.1.1.id = r'.1.1.1.id := by
  refine ⟨fun hkey => congrArg DetailKey.id hkey, fun hid => ?_⟩
  have hp : r.1.1.1 = r'.1.1.1 :=
    eq_of_id_eq hkeys.problemsId (mem_detailJoined.1 h).1.1 (mem_detailJoined.1 h').1.1 hid
  simp only [detailKey, hp, last_eq_of_id_eq hkeys h h' hid]

/-- One detail for each problem of the unit. -/
theorem length_selectUnitdetail (hkeys : Keys collation db) (title : Shows titleColumn) :
    (selectUnitdetail collation title user_id unit db).length =
      ((unitRows collation user_id unit db).map fun r => r.1.2.id).dedup.length := by
  rw [selectUnitdetail, List.length_map, length_groupBy_congr (k := fun r => r.1.1.1.id)
    fun r h r' h' => detailKey_eq_iff hkeys h h']
  have hperm : ((detailJoined collation user_id unit db).map summaryRow).Perm _ :=
    map_summaryRow_detailJoined hkeys
  rw [← (hperm.map fun r => r.1.2.id).dedup.length_eq, List.map_map]
  rfl

/-! ### Summary and details -/

/-- The summary and the details of a unit agree: it has a row in the summary,
and one only, when it has details, and the row adds them up. -/
structure UnitAgrees (collation : Bytes → κ) (unit : Bytes) (units : List Units)
    (stats : List UnitStat) : Prop where
  row_iff : (∃ r ∈ units, collation r.unit = collation unit) ↔ stats ≠ []
  unique : (units.filter fun r => collation r.unit = collation unit).length ≤ 1
  counts : ∀ r ∈ units, collation r.unit = collation unit →
    r.problemsSolved = stats.length ∧ r.totalSubmit = (stats.map UnitStat.totalExam).sum ∧
      r.solved20min = (stats.map UnitStat.solved20min).sum ∧
      r.solved30min = (stats.map UnitStat.solved30min).sum ∧
      r.solvedOver30min = (stats.map UnitStat.solvedOver30min).sum

/-- The order of the rows does not matter. -/
theorem UnitAgrees.perm {units units' : List Units} {stats stats' : List UnitStat}
    (h : UnitAgrees collation unit units stats) (hunits : units'.Perm units)
    (hstats : stats'.Perm stats) : UnitAgrees collation unit units' stats' where
  row_iff := by
    have hnil : stats' ≠ [] ↔ stats ≠ [] := by
      rw [← List.length_pos_iff, hstats.length_eq, List.length_pos_iff]
    rw [hnil, ← h.row_iff]
    exact exists_congr fun r => and_congr_left' hunits.mem_iff
  unique := by
    rw [(hunits.filter _).length_eq]
    exact h.unique
  counts r hr hunit := by
    rw [hstats.length_eq, (hstats.map UnitStat.totalExam).sum_eq,
      (hstats.map UnitStat.solved20min).sum_eq, (hstats.map UnitStat.solved30min).sum_eq,
      (hstats.map UnitStat.solvedOver30min).sum_eq]
    exact h.counts r (hunits.mem_iff.1 hr) hunit

/-- A row of the summary shows the unit of its group, in some spelling. -/
theorem collation_unitsRow (spelling : Shows unitColumn) {g : SummaryRow × List SummaryRow}
    (hg : g ∈ groupBy (fun r => collation r.1.1.problemType) (unitsJoined user_id db)) :
    collation (unitsRow spelling g).unit = collation g.1.1.1.problemType := by
  refine spelling.apply_of collation (mem_of_mem_groupBy hg) fun r hr => ?_
  rw [(of_mem_groupBy hg).2, List.mem_filter, decide_eq_true_eq] at hr
  exact hr.2

/-- A group of the summary is the rows of its unit. -/
theorem group_eq_unitRows (spelling : Shows unitColumn) {g : SummaryRow × List SummaryRow}
    (hg : g ∈ groupBy (fun r => collation r.1.1.problemType) (unitsJoined user_id db))
    (hunit : collation (unitsRow spelling g).unit = collation unit) :
    g.2 = unitRows collation user_id unit db := by
  rw [collation_unitsRow spelling hg] at hunit
  rw [(of_mem_groupBy hg).2, unitRows]
  refine List.filter_congr fun r _ => ?_
  rw [← hunit]

/-- A unit with rows has its group, shown as the unit. -/
theorem exists_group_of_mem_unitRows (spelling : Shows unitColumn) {r : SummaryRow}
    (hr : r ∈ unitRows collation user_id unit db) :
    ∃ g ∈ groupBy (fun r => collation r.1.1.problemType) (unitsJoined user_id db),
      collation (unitsRow spelling g).unit = collation unit := by
  obtain ⟨hr, hunit⟩ := List.mem_filter.1 hr
  obtain ⟨g, hg, hkey⟩ := exists_mem_groupBy (fun r => collation r.1.1.problemType) hr
  refine ⟨g, hg, (collation_unitsRow spelling hg).trans (hkey.symm.trans ?_)⟩
  simpa using hunit

/-- The rows of the summary are of different units. -/
theorem pairwise_selectUnitsData (spelling : Shows unitColumn) :
    (selectUnitsData collation spelling user_id db).Pairwise fun r r' =>
      collation r.unit ≠ collation r'.unit := by
  refine List.pairwise_map.2 (List.Pairwise.imp_of_mem (fun {g g'} hg hg' hne => ?_)
    (pairwise_groupBy (fun r => collation r.1.1.problemType) (unitsJoined user_id db)))
  rwa [collation_unitsRow spelling hg, collation_unitsRow spelling hg']

/-- **The two statements agree on every unit.** -/
theorem unitAgrees_select (hkeys : Keys collation db) (spelling : Shows unitColumn)
    (title : Shows titleColumn) (user_id : ℤ) (unit : Bytes) :
    UnitAgrees collation unit (selectUnitsData collation spelling user_id db)
      (selectUnitdetail collation title user_id unit db) where
  row_iff := by
    have hnil : selectUnitdetail collation title user_id unit db = [] ↔
        unitRows collation user_id unit db = [] := by
      rw [selectUnitdetail, List.map_eq_nil_iff, groupBy_eq_nil, ← List.length_eq_zero_iff,
        ← List.length_eq_zero_iff (l := unitRows collation user_id unit db),
        ← (map_summaryRow_detailJoined hkeys).length_eq, List.length_map]
    rw [ne_eq, hnil]
    constructor
    · rintro ⟨r, hr, hunit⟩ hempty
      obtain ⟨g, hg, rfl⟩ := List.mem_map.1 hr
      have hmem := mem_of_mem_groupBy hg
      rw [group_eq_unitRows spelling hg hunit, hempty] at hmem
      exact List.not_mem_nil hmem
    · intro hne
      obtain ⟨r, hr⟩ := List.exists_mem_of_ne_nil _ hne
      obtain ⟨g, hg, hunit⟩ := exists_group_of_mem_unitRows spelling hr
      exact ⟨unitsRow spelling g, List.mem_map_of_mem hg, hunit⟩
  unique := length_filter_le_one (fun r : Units => collation r.unit)
    (pairwise_selectUnitsData spelling) (collation unit)
  counts r hr hunit := by
    obtain ⟨g, hg, rfl⟩ := List.mem_map.1 hr
    have hgroup := group_eq_unitRows spelling hg hunit
    have hsum : ∀ c : Submission → Bool, sumCase (fun r => c r.2) g.2 =
        ((groupBy (detailKey collation) (detailJoined collation user_id unit db)).map
          fun g => sumCase (fun r => c r.1.2) g.2).sum := fun c => by
      rw [sum_selectUnitdetail hkeys, hgroup]
    refine ⟨?_, ?_, ?_, ?_, ?_⟩
    · rw [length_selectUnitdetail hkeys, ← hgroup]
      rfl
    · rw [selectUnitdetail, List.map_map]
      refine ((count_eq_sumCase _).trans (hsum fun _ => true)).trans (congrArg List.sum ?_)
      exact List.map_congr_left fun g _ => (count_eq_sumCase _).symm
    · rw [selectUnitdetail, List.map_map]
      exact hsum (solvedIn 20)
    · rw [selectUnitdetail, List.map_map]
      exact hsum (solvedIn 30)
    · rw [selectUnitdetail, List.map_map]
      exact hsum solvedOver30

/-- **The summary of a unit is the sum of its details.**  On every standard
database with the keys of the tables, for every user and every unit. -/
theorem unitsData_unitdetail {dbms : Dbms Tables} (hdbms : Standard collation dbms) {db : Tables}
    (hkeys : Keys collation db) (user_id : ℤ) (unit : Bytes) :
    ∃ (units : List Units) (stats : List UnitStat),
      (Query.selectUnitsData user_id).perform dbms (fun _ => false) db = .ok units ∧
      (Query.selectUnitdetail user_id unit).perform dbms (fun _ => false) db = .ok stats ∧
      UnitAgrees collation unit units stats := by
  obtain ⟨spelling, hunits⟩ := hdbms.unitsData
  obtain ⟨title, hstats⟩ := hdbms.unitdetail
  refine ⟨_, _, Query.perform_selectUnitsData dbms user_id db,
    Query.perform_selectUnitdetail dbms user_id unit db, ?_⟩
  split_ifs
  · exact ⟨by simp, by simp, by simp⟩
  · exact (unitAgrees_select hkeys spelling title user_id unit).perm (hunits user_id db)
      (hstats user_id unit db)

/-- The unit `DP` of Alice. -/
theorem unitsData_unitdetail_dp :
    ∃ (units : List Units) (stats : List UnitStat),
      (Query.selectUnitsData 1).perform (reference id some (text "2024-01-05"))
        (fun _ => false) sample = .ok units ∧
      (Query.selectUnitdetail 1 (text "DP")).perform (reference id some (text "2024-01-05"))
        (fun _ => false) sample = .ok stats ∧
      UnitAgrees id (text "DP") units stats :=
  unitsData_unitdetail (standard_reference id some (text "2024-01-05")) keys_sample 1 (text "DP")

/-- Her two problems and three submissions. -/
example :
    (selectUnitdetail id greatestTitle 1 (text "DP") sample).map UnitStat.totalExam = [2, 1] ∧
      (selectUnitsData id greatestUnit 1 sample).map Units.totalSubmit = [2, 3] := by decide

end Database
end WeakAyas
