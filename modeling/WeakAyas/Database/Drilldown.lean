/-
# The drill-down of a unit

`SQL_Driver::Select_Unitdetail` (`sql_driver.cpp`, lines 701-782) over the keys of
`init.sql`.

A row of the joined tables is a submission of the user together with its problem,
the mapping to the unit and the user's last submission, and the keys leave no
choice for these three.  So the group of a problem is the user's submissions for it
(`map_submission_group`), every attempted problem of the unit has one group
(`mem_examNo_iff`, `nodup_examNo`), and what the row shows beside the counts is of
the last submission (`unitdetail_drilldown`).
-/

import WeakAyas.Database.Units

namespace WeakAyas
namespace Database

open Driver Bag

variable {κ : Type} {collation : Bytes → κ} {user_id : ℤ} {unit : Bytes} {db : Tables}

/-- The user's submissions for a problem. -/
def problemSubmissions (user_id problem_id : ℤ) (db : Tables) : List Submission :=
  db.submissions.filter fun s => s.ofUser user_id && s.ofProblem problem_id

/-- A submission of the user for the problem. -/
theorem mem_problemSubmissions {problem_id : ℤ} {s : Submission} :
    s ∈ problemSubmissions user_id problem_id db ↔
      s ∈ db.submissions ∧ s.ofUser user_id = true ∧ s.ofProblem problem_id = true := by
  rw [problemSubmissions, List.mem_filter, Bool.and_eq_true]

/-- The problem is mapped to the unit, and the user has a submission for it. -/
def Attempted (collation : Bytes → κ) (user_id : ℤ) (unit : Bytes) (db : Tables)
    (problem_id : ℤ) : Prop :=
  (∃ pt ∈ db.problemTypeMap, pt.problemId = problem_id ∧
      collation pt.problemType = collation unit) ∧
    ∃ s ∈ db.submissions, s.ofUser user_id = true ∧ s.ofProblem problem_id = true

/-- The row of a problem: its title, the number of the user's submissions for it,
and the last of them. -/
structure ShowsProblem (user_id : ℤ) (db : Tables) (us : UnitStat) (p : Problem) : Prop where
  examNo : us.examNo = p.id
  examName : us.examName = p.title
  totalExam : us.totalExam = (problemSubmissions user_id p.id db).length
  last : ∃ s, IsLast user_id db s ∧ s.ofProblem p.id = true ∧
    us.lastDate = s.submitDate.getD [] ∧ us.lastDateTime = s.timeSpent.getD [] ∧
      us.lastDateState = if s.status.any (· ≠ 0) then text "Solved" else text "Unsolved"

/-- The mapping of a problem to a unit is determined. -/
theorem problemType_eq (hkeys : Keys collation db) {pt pt' : ProblemType}
    (hpt : pt ∈ db.problemTypeMap) (hpt' : pt' ∈ db.problemTypeMap)
    (hid : pt.problemId = pt'.problemId)
    (hunit : collation pt.problemType = collation pt'.problemType) : pt = pt' :=
  List.inj_on_of_nodup_map hkeys.problemTypeMap hpt hpt' (Prod.ext hid hunit)

variable [DecidableEq κ]

/-- In the details a submission determines its row. -/
theorem detailRow_eq (hkeys : Keys collation db) {r r' : DetailRow}
    (h : r ∈ detailJoined collation user_id unit db)
    (h' : r' ∈ detailJoined collation user_id unit db) (hs : r.1.2 = r'.1.2) : r = r' := by
  obtain ⟨⟨⟨p, pt⟩, s⟩, e⟩ := r
  obtain ⟨⟨⟨p', pt'⟩, s'⟩, e'⟩ := r'
  obtain rfl : s = s' := hs
  have hr := mem_detailJoined.1 h
  have hr' := mem_detailJoined.1 h'
  have hid : p.id = p'.id := by
    have hproblem := hr.2.1.2.1
    have hproblem' := hr'.2.1.2.1
    simp only [Submission.ofProblem, beq_iff_eq] at hproblem hproblem'
    exact Option.some.inj (hproblem.symm.trans hproblem')
  obtain rfl : p = p' := eq_of_id_eq hkeys.problemsId hr.1.1 hr'.1.1 hid
  obtain rfl : pt = pt' := problemType_eq hkeys hr.1.2.1 hr'.1.2.1
    (hr.1.2.2.symm.trans hr'.1.2.2) (hr.2.2.2.trans hr'.2.2.2.symm)
  obtain rfl : e = e' := last_eq_of_id_eq hkeys h h' rfl
  rfl

/-- **The group of a problem is the user's submissions for it**, each once. -/
theorem map_submission_group (hkeys : Keys collation db) {g : DetailRow × List DetailRow}
    (hg : g ∈ groupBy (detailKey collation) (detailJoined collation user_id unit db)) :
    (g.2.map fun r => r.1.2).Perm (problemSubmissions user_id g.1.1.1.1.id db) := by
  obtain ⟨hrep, hgroup⟩ := of_mem_groupBy hg
  have hsub : ∀ r ∈ g.2, r ∈ detailJoined collation user_id unit db ∧
      r.1.1.1.id = g.1.1.1.1.id := fun r hr => by
    rw [hgroup, List.mem_filter, decide_eq_true_eq] at hr
    exact ⟨hr.1, (detailKey_eq_iff hkeys hr.1 hrep).1 hr.2⟩
  refine (List.perm_ext_iff_of_nodup ?_ ((hkeys.submissionsId.of_map _).filter _)).2 fun s => ?_
  · refine List.Nodup.map_on (fun r hr r' hr' hs => ?_) ?_
    · exact detailRow_eq hkeys (hsub r hr).1 (hsub r' hr').1 hs
    · rw [hgroup]
      exact (nodup_detailJoined hkeys).filter _
  · refine Iff.trans List.mem_map (Iff.trans ?_ mem_problemSubmissions.symm)
    constructor
    · rintro ⟨r, hr, rfl⟩
      obtain ⟨hr, hid⟩ := hsub r hr
      have hjoined := mem_detailJoined.1 hr
      exact ⟨hjoined.2.1.1, hjoined.2.1.2.2, hid ▸ hjoined.2.1.2.1⟩
    · rintro ⟨hs, huser, hproblem⟩
      -- the representative with this submission in the place of its own
      have hjoined := mem_detailJoined.1 hrep
      have hr : ((g.1.1.1, s), g.1.2) ∈ detailJoined collation user_id unit db :=
        mem_detailJoined.2 ⟨hjoined.1, ⟨hs, hproblem, huser⟩, hjoined.2.2⟩
      refine ⟨((g.1.1.1, s), g.1.2), ?_, rfl⟩
      rw [hgroup]
      exact List.mem_filter.2 ⟨hr, by simpa using (detailKey_eq_iff hkeys hr hrep).2 rfl⟩

/-! ### The rows -/

/-- The row of a group shows its problem. -/
theorem showsProblem_detailRow (hkeys : Keys collation db) (title : Shows titleColumn)
    {g : DetailRow × List DetailRow}
    (hg : g ∈ groupBy (detailKey collation) (detailJoined collation user_id unit db)) :
    ShowsProblem user_id db (detailRow title g) g.1.1.1.1 where
  examNo := rfl
  examName := title.apply_of id (mem_of_mem_groupBy hg) fun r hr => by
    -- the rows of the group are of one problem
    obtain ⟨hrep, hgroup⟩ := of_mem_groupBy hg
    rw [hgroup, List.mem_filter, decide_eq_true_eq] at hr
    have hid := (detailKey_eq_iff hkeys hr.1 hrep).1 hr.2
    rw [id, titleColumn, eq_of_id_eq hkeys.problemsId (mem_detailJoined.1 hr.1).1.1
      (mem_detailJoined.1 hrep).1.1 hid]
  totalExam := by
    rw [← (map_submission_group hkeys hg).length_eq, List.length_map]
    rfl
  last := by
    have hjoined := mem_detailJoined.1 (of_mem_groupBy hg).1
    exact ⟨g.1.2, (mem_lastSubmissions hkeys).1 hjoined.2.2.1.1, hjoined.2.2.1.2, rfl, rfl, rfl⟩

/-- A problem has one row at most. -/
theorem nodup_examNo (hkeys : Keys collation db) (title : Shows titleColumn) :
    ((selectUnitdetail collation title user_id unit db).map UnitStat.examNo).Nodup := by
  rw [selectUnitdetail, List.map_map, List.Nodup, List.pairwise_map]
  refine List.Pairwise.imp_of_mem (fun {g g'} hg hg' hne hid => hne ?_) (pairwise_groupBy _ _)
  exact (detailKey_eq_iff hkeys (of_mem_groupBy hg).1 (of_mem_groupBy hg').1).2 hid

/-- The attempted problems of the unit have a row, and no others. -/
theorem mem_examNo_iff (hkeys : Keys collation db) (title : Shows titleColumn) (n : ℤ) :
    n ∈ (selectUnitdetail collation title user_id unit db).map UnitStat.examNo ↔
      Attempted collation user_id unit db n := by
  rw [selectUnitdetail, List.map_map, List.mem_map]
  constructor
  · rintro ⟨g, hg, rfl⟩
    obtain ⟨⟨-, hpt, hid⟩, ⟨hs, hproblem, huser⟩, -, hunit⟩ :=
      mem_detailJoined.1 (of_mem_groupBy hg).1
    exact ⟨⟨_, hpt, hid.symm, hunit⟩, _, hs, huser, hproblem⟩
  · rintro ⟨⟨pt, hpt, rfl, hunit⟩, s, hs, huser, hproblem⟩
    obtain ⟨p, hp, hid⟩ := hkeys.typeOfProblem pt hpt
    obtain ⟨e, he, hlast⟩ := exists_mem_lastSubmissions hkeys hs huser hproblem
    rw [← hid] at hproblem hlast
    have hr : (((p, pt), s), e) ∈ detailJoined collation user_id unit db :=
      mem_detailJoined.2 ⟨⟨hp, hpt, hid⟩, ⟨hs, hproblem, huser⟩, ⟨he, hlast⟩, hunit⟩
    obtain ⟨g, hg, hkey⟩ := exists_mem_groupBy (detailKey collation) hr
    exact ⟨g, hg, ((detailKey_eq_iff hkeys hr (of_mem_groupBy hg).1).1 hkey).symm.trans hid⟩

/-- **One row for each attempted problem, showing the last attempt.**  On every
standard database with the keys of the tables, for every user and every unit: the
problems of the rows are distinct, they are the problems of the unit that the user
has a submission for, and each row shows its problem. -/
theorem unitdetail_drilldown {dbms : Dbms Tables} (hdbms : Standard collation dbms)
    (hkeys : Keys collation db) (huser : checkUserId user_id = true) (unit : Bytes) :
    ∃ stats : List UnitStat,
      (Query.selectUnitdetail user_id unit).perform dbms (fun _ => false) db = .ok stats ∧
      (stats.map UnitStat.examNo).Nodup ∧
      (∀ n, n ∈ stats.map UnitStat.examNo ↔ Attempted collation user_id unit db n) ∧
      ∀ us ∈ stats, ∃ p ∈ db.problems, ShowsProblem user_id db us p := by
  have hperform := Query.perform_selectUnitdetail dbms user_id unit db
  rw [if_neg (by simpa [checkUserId] using huser)] at hperform
  obtain ⟨title, hstats⟩ := hdbms.unitdetail
  have hperm := hstats user_id unit db
  refine ⟨_, hperform, ?_, fun n => ?_, fun us hus => ?_⟩
  · exact (hperm.map UnitStat.examNo).nodup_iff.2 (nodup_examNo hkeys title)
  · rw [(hperm.map UnitStat.examNo).mem_iff, mem_examNo_iff hkeys]
  · obtain ⟨g, hg, rfl⟩ := List.mem_map.1 (hperm.mem_iff.1 hus)
    exact ⟨_, (mem_detailJoined.1 (of_mem_groupBy hg).1).1.1,
      showsProblem_detailRow hkeys title hg⟩

/-- The unit `DP` of Alice. -/
theorem unitdetail_drilldown_dp :
    ∃ stats : List UnitStat,
      (Query.selectUnitdetail 1 (text "DP")).perform (reference id some (text "2024-01-05"))
        (fun _ => false) sample = .ok stats ∧
      (stats.map UnitStat.examNo).Nodup ∧
      (∀ n, n ∈ stats.map UnitStat.examNo ↔ Attempted id 1 (text "DP") sample n) ∧
      ∀ us ∈ stats, ∃ p ∈ sample.problems, ShowsProblem 1 sample us p :=
  unitdetail_drilldown (standard_reference id some (text "2024-01-05")) keys_sample (by decide)
    (text "DP")

/-- Bob's attempt between her two does not show. -/
example :
    (selectUnitdetail id greatestTitle 1 (text "DP") sample).map UnitStat.lastDateTime =
      [text "00:25:00", text "00:15:00"] := by decide

end Database
end WeakAyas
