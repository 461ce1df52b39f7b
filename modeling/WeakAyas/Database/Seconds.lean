/-
# The seconds of a time

`SQL_Driver::InsertSubmitted` with `getMinuteFromTime` (`sql_driver.cpp`, lines
426-485) and the buckets of `Select_UnitsData` and `Select_Unitdetail` (lines
653-742), on times that `validate_time_spent` accepts (`ConsoleClient.hpp`, lines
43-60).

`getMinuteFromTime` reads the seconds and drops them, so a submission of 00:20:01 to
00:20:59 is counted as solved within 20 minutes and one of 00:30:01 to 00:30:59 as
solved within 30.  The buckets count by the real time exactly when no solved
submission of a row lies there (`countsRealTime_iff`).
-/

import WeakAyas.Client.Console
import WeakAyas.Database.Drilldown
import WeakAyas.Database.Isolation
import WeakAyas.Driver.Minutes

namespace WeakAyas
namespace Database

open Driver Bag Client

/-! ### Times of the console -/

/-- The seconds of a time `hh:mm:ss`. -/
def secondsOf : Bytes → ℕ
  | [h₁, h₂, _, m₁, m₂, _, s₁, s₂] =>
    3600 * decimal [h₁, h₂] + 60 * decimal [m₁, m₂] + decimal [s₁, s₂]
  | _ => 0

/-- What `validate_time_spent` accepts is the text of a time. -/
theorem denotesTime_of_validate {t : Bytes} (ht : validateTimeSpent t = true) :
    ∃ h m s, DenotesTime t h m s ∧ h < 100 ∧ secondsOf t = 3600 * h + 60 * m + s := by
  unfold validateTimeSpent at ht
  split at ht
  case h_2 => simp at ht
  case h_1 h₁ h₂ c₁ m₁ m₂ c₂ s₁ s₂ =>
    simp only [Bool.and_eq_true, beq_iff_eq, List.all_cons, List.all_nil, and_true,
      Option.any_eq_true, decide_eq_true_eq] at ht
    obtain ⟨⟨⟨⟨⟨rfl, rfl⟩, hh₁, hh₂, hm₁, hm₂, hs₁, hs₂⟩, -⟩, m, hm, hm59⟩, s, hs, hs59⟩ := ht
    have hdigits : ∀ a b : UInt8, isDigit a = true → isDigit b = true → IsDigits [a, b] :=
      fun a b ha hb => ⟨List.cons_ne_nil _ _, by simp [ha, hb]⟩
    have hhh := hdigits h₁ h₂ hh₁ hh₂
    have hmm := hdigits m₁ m₂ hm₁ hm₂
    have hss := hdigits s₁ s₂ hs₁ hs₂
    have hmd := eq_decimal_of_stoiBits hmm.ne_nil hmm.digits hm
    have hsd := eq_decimal_of_stoiBits hss.ne_nil hss.digits hs
    exact ⟨_, _, _, ⟨_, _, _, hhh, hmm, hss, rfl, rfl, rfl, rfl, by omega, by omega⟩,
      decimal_lt hhh.digits, rfl⟩

/-- The stored minutes are the whole minutes of the time. -/
theorem secondsOf_bounds {t : Bytes} (ht : validateTimeSpent t = true) :
    60 * getMinuteFromTime t ≤ secondsOf t ∧ secondsOf t < 60 * getMinuteFromTime t + 60 := by
  obtain ⟨h, m, s, hdenotes, hh, hseconds⟩ := denotesTime_of_validate ht
  have ⟨_, _, _, _, _, _, _, _, _, _, hm, hs⟩ := hdenotes
  have hminutes := getMinuteFromTime_of_denotes hdenotes (by omega)
  rw [hseconds, hminutes]
  omega

/-! ### Stored submissions -/

/-- The row that the call inserts, with the time as it was typed. -/
def RowOf (m : Mutation) (s : Submission) : Prop :=
  ∃ (id users_id problem_id : ℤ) (status : Bool) (time_spent curdate : Bytes),
    m = .insertSubmitted users_id problem_id status time_spent ∧
    s = ⟨id, some problem_id, some users_id, some (if status then 1 else 0), some time_spent,
      some (getMinuteFromTime time_spent), some curdate⟩

/-- A database whose `TIME` column keeps a time of the day as its text. -/
def KeepsTime (dbms : Dbms Tables) : Prop :=
  ∀ users_id problem_id status time_spent db, validateTimeSpent time_spent = true →
    (Mutation.insertSubmitted users_id problem_id status time_spent).apply dbms db = db ∨
    ∃ id curdate, (Mutation.insertSubmitted users_id problem_id status time_spent).apply dbms db =
      insertSubmission id users_id problem_id status (some time_spent)
        (getMinuteFromTime time_spent) curdate db

/-- The calls of a history: submissions inserted with a time that the console
accepts, and submissions deleted. -/
def Submits : Mutation → Prop
  | .insertSubmitted _ _ _ time_spent => validateTimeSpent time_spent = true
  | .deleteSubmission _ _ => True
  | _ => False

/-- A submission whose row is that of a time of the console. -/
def Submission.Timed (s : Submission) : Prop :=
  ∃ t, validateTimeSpent t = true ∧ s.timeSpent = some t ∧
    s.timeSpentMin = some (getMinuteFromTime t) ∧ (s.status = some 0 ∨ s.status = some 1)

/-- Solved, and less than a minute beyond a whole number of minutes. -/
def Submission.Beyond (minutes : ℕ) (s : Submission) : Prop :=
  s.status = some 1 ∧ ∃ t, s.timeSpent = some t ∧ 60 * minutes < secondsOf t ∧
    secondsOf t < 60 * minutes + 60

/-- Solved in 00:20:01 to 00:20:59 or in 00:30:01 to 00:30:59. -/
def Submission.RoundedDown (s : Submission) : Prop := s.Beyond 20 ∨ s.Beyond 30

/-- An insertion of such a time. -/
def RoundsDown : Mutation → Prop
  | .insertSubmitted _ _ status time_spent => status = true ∧
    ((1200 < secondsOf time_spent ∧ secondsOf time_spent < 1260) ∨
      (1800 < secondsOf time_spent ∧ secondsOf time_spent < 1860))
  | _ => False

variable {κ : Type} {collation : Bytes → κ} {db : Tables}

section

variable [DecidableEq κ]

/-- A call leaves old rows and the row of its arguments. -/
theorem rowOf_apply {dbms : Dbms Tables} (hdbms : Standard collation dbms) (htime : KeepsTime dbms)
    {m : Mutation} (hm : Submits m) (db : Tables) :
    ∀ s ∈ (m.apply dbms db).submissions, s ∈ db.submissions ∨ RowOf m s := by
  cases m with
  | insertSubmitted users_id problem_id status time_spent =>
    rcases htime users_id problem_id status time_spent db hm with happly | ⟨id, curdate, happly⟩ <;>
      rw [happly]
    · exact fun s hs => .inl hs
    · intro s hs
      refine (List.mem_append.1 hs).imp_right fun hs => ?_
      exact ⟨id, users_id, problem_id, status, time_spent, curdate, rfl, List.mem_singleton.1 hs⟩
  | deleteSubmission submission_id users_id =>
    rw [hdbms.deleteSubmission]
    exact fun s hs => .inl (List.mem_filter.1 hs).1
  | _ => exact hm.elim

/-- **Every stored submission is the row of a call.** -/
theorem rowOf_performAll {dbms : Dbms Tables} (hdbms : Standard collation dbms)
    (htime : KeepsTime dbms) {calls : List (Mutation × (ℕ → Bool))}
    (hcalls : ∀ c ∈ calls, Submits c.1) (hempty : db.submissions = []) :
    ∀ s ∈ (performAll dbms calls db).submissions, ∃ c ∈ calls, RowOf c.1 s := by
  intro s hs
  have hrow := submissions_performAll (fun c hc => rowOf_apply hdbms htime (hcalls c hc)) db s hs
  rcases hrow with hs | hrow
  · simp [hempty] at hs
  · exact hrow

end

/-- The row of a call of the console is timed. -/
theorem timed_of_rowOf {m : Mutation} (hm : Submits m) {s : Submission} (h : RowOf m s) :
    s.Timed := by
  obtain ⟨id, users_id, problem_id, status, time_spent, curdate, rfl, rfl⟩ := h
  refine ⟨time_spent, hm, rfl, rfl, ?_⟩
  cases status
  · exact .inl rfl
  · exact .inr rfl

/-- It is rounded down only when the time of the call is. -/
theorem not_roundedDown_of_rowOf {m : Mutation} (hm : ¬ RoundsDown m) {s : Submission}
    (h : RowOf m s) : ¬ s.RoundedDown := by
  obtain ⟨id, users_id, problem_id, status, time_spent, curdate, rfl, rfl⟩ := h
  rintro (⟨hstatus, t, ht, hlt⟩ | ⟨hstatus, t, ht, hlt⟩)
  all_goals
    obtain rfl : time_spent = t := Option.some.inj ht
    have hsolved : status = true := by
      cases status
      · simp at hstatus
      · rfl
  · exact hm ⟨hsolved, .inl hlt⟩
  · exact hm ⟨hsolved, .inr hlt⟩

/-! ### Real buckets -/

/-- Solved in at most so many minutes, by the time itself. -/
def realSolvedIn (minutes : ℕ) (s : Submission) : Bool :=
  s.status == some 1 && s.timeSpent.any fun t => secondsOf t ≤ 60 * minutes

/-- Not solved, or in more than 30 minutes, by the time itself. -/
def realOver30 (s : Submission) : Bool :=
  s.status == some 0 || s.timeSpent.any fun t => 1800 < secondsOf t

/-- The stored minutes take every submission that the time takes, and those beyond
besides. -/
theorem solvedIn_iff {s : Submission} (h : s.Timed) (minutes : ℕ) :
    solvedIn minutes s = true ↔ realSolvedIn minutes s = true ∨ s.Beyond minutes := by
  obtain ⟨t, ht, htime, hminutes, -⟩ := h
  have hbounds := secondsOf_bounds ht
  simp only [solvedIn, realSolvedIn, Submission.Beyond, htime, hminutes, Option.any_some,
    Bool.and_eq_true, beq_iff_eq, decide_eq_true_eq, Option.some.injEq, exists_eq_left']
  by_cases hstatus : s.status = some 1
  · simp only [hstatus, true_and]
    omega
  · simp [hstatus]

/-- A submission beyond 30 minutes is not counted as over 30. -/
theorem realOver30_iff {s : Submission} (h : s.Timed) :
    realOver30 s = true ↔ solvedOver30 s = true ∨ s.Beyond 30 := by
  obtain ⟨t, ht, htime, hminutes, hstatus⟩ := h
  have hbounds := secondsOf_bounds ht
  simp only [solvedOver30, realOver30, Submission.Beyond, htime, hminutes, Option.any_some,
    Bool.or_eq_true, beq_iff_eq, decide_eq_true_eq, Option.some.injEq, exists_eq_left']
  rcases hstatus with hstatus | hstatus
  · simp [hstatus]
  · simp only [hstatus, Option.some.injEq, true_and]
    omega

/-- A time beyond the minutes is not within them, seconds included. -/
theorem not_realSolvedIn_of_beyond {s : Submission} {minutes : ℕ} (h : s.Beyond minutes) :
    realSolvedIn minutes s = false := by
  obtain ⟨hstatus, t, htime, hlt, -⟩ := h
  simp [realSolvedIn, hstatus, htime, hlt]

/-- But the code does not count it as over 30. -/
theorem not_solvedOver30_of_beyond {s : Submission} (h : s.Timed) (hbeyond : s.Beyond 30) :
    solvedOver30 s = false := by
  obtain ⟨t, ht, htime, hminutes, -⟩ := h
  obtain ⟨hstatus, t', htime', -, hlt⟩ := hbeyond
  obtain rfl : t = t' := Option.some.inj (htime.symm.trans htime')
  have hbounds := secondsOf_bounds ht
  simp only [solvedOver30, hstatus, hminutes, Option.any_some]
  simp
  omega

/-- The three buckets are the real ones of the submissions. -/
def RealBuckets (solved_20min solved_30min solved_over_30min : ℤ) (rows : List Submission) : Prop :=
  solved_20min = sumCase (realSolvedIn 20) rows ∧ solved_30min = sumCase (realSolvedIn 30) rows ∧
    solved_over_30min = sumCase realOver30 rows

/-- **The buckets are the real ones exactly when no submission is rounded down.** -/
theorem realBuckets_iff {rows : List Submission} (h : ∀ s ∈ rows, s.Timed) :
    RealBuckets (sumCase (solvedIn 20) rows) (sumCase (solvedIn 30) rows)
        (sumCase solvedOver30 rows) rows ↔
      ∀ s ∈ rows, ¬ s.RoundedDown := by
  have hin : ∀ minutes : ℕ, sumCase (solvedIn minutes) rows = sumCase (realSolvedIn minutes) rows ↔
      ∀ s ∈ rows, ¬ s.Beyond minutes := fun minutes => by
    rw [eq_comm, sumCase_eq_sumCase_iff fun s hs hreal =>
      (solvedIn_iff (h s hs) minutes).2 (.inl hreal)]
    refine forall₂_congr fun s hs => ?_
    rw [solvedIn_iff (h s hs)]
    refine ⟨fun himp hbeyond => ?_, fun hnot hor => hor.resolve_right hnot⟩
    exact absurd (himp (.inr hbeyond)) (by simp [not_realSolvedIn_of_beyond hbeyond])
  have hover : sumCase solvedOver30 rows = sumCase realOver30 rows ↔
      ∀ s ∈ rows, ¬ s.Beyond 30 := by
    rw [sumCase_eq_sumCase_iff fun s hs hover => (realOver30_iff (h s hs)).2 (.inl hover)]
    refine forall₂_congr fun s hs => ?_
    rw [realOver30_iff (h s hs)]
    refine ⟨fun himp hbeyond => ?_, fun hnot hor => hor.resolve_right hnot⟩
    exact absurd (himp (.inr hbeyond)) (by simp [not_solvedOver30_of_beyond (h s hs) hbeyond])
  have h20 := hin 20
  have h30 := hin 30
  rw [Nat.cast_ofNat] at h20 h30
  rw [RealBuckets, h20, h30, hover]
  constructor
  · rintro ⟨h20, h30, -⟩ s hs (hbeyond | hbeyond)
    · exact h20 s hs hbeyond
    · exact h30 s hs hbeyond
  · intro hrows
    exact ⟨fun s hs hb => hrows s hs (.inl hb), fun s hs hb => hrows s hs (.inr hb),
      fun s hs hb => hrows s hs (.inr hb)⟩

/-! ### The submissions of a row -/

section Rows

variable [DecidableEq κ] {user_id : ℤ} {unit : Bytes}

/-- The user's submissions for the problems of a unit. -/
def unitSubmissions (collation : Bytes → κ) (user_id : ℤ) (unit : Bytes) (db : Tables) :
    List Submission :=
  db.submissions.filter fun s => s.ofUser user_id && db.problemTypeMap.any fun pt =>
    s.ofProblem pt.problemId && collation pt.problemType = collation unit

/-- The submissions of a user for the problems of a unit. -/
theorem mem_unitSubmissions {s : Submission} :
    s ∈ unitSubmissions collation user_id unit db ↔
      s ∈ db.submissions ∧ s.ofUser user_id = true ∧ ∃ pt ∈ db.problemTypeMap,
        s.ofProblem pt.problemId = true ∧ collation pt.problemType = collation unit := by
  simp only [unitSubmissions, List.mem_filter, Bool.and_eq_true, List.any_eq_true,
    decide_eq_true_eq]

/-- **The rows of a unit are the submissions for its problems**, each once. -/
theorem map_submission_unitRows (hkeys : Keys collation db) :
    ((unitRows collation user_id unit db).map Prod.snd).Perm
      (unitSubmissions collation user_id unit db) := by
  have hrow : ∀ r ∈ unitRows collation user_id unit db, r ∈ unitsJoined user_id db ∧
      collation r.1.1.problemType = collation unit := fun r hr => by
    simpa [unitRows] using hr
  refine (List.perm_ext_iff_of_nodup ?_ ((hkeys.submissionsId.of_map _).filter _)).2 fun s => ?_
  · refine List.Nodup.map_on ?_ (nodup_unitRows hkeys)
    rintro ⟨⟨pt, p⟩, s⟩ h ⟨⟨pt', p'⟩, s'⟩ h' rfl
    obtain ⟨hr, hunit⟩ := hrow _ h
    obtain ⟨hr', hunit'⟩ := hrow _ h'
    obtain ⟨⟨hpt, hp, hid⟩, ⟨-, hproblem⟩, -⟩ := mem_unitsJoined.1 hr
    obtain ⟨⟨hpt', hp', hid'⟩, ⟨-, hproblem'⟩, -⟩ := mem_unitsJoined.1 hr'
    dsimp only at hp hp' hid hid' hproblem hproblem' hunit hunit'
    rw [Submission.ofProblem, beq_iff_eq] at hproblem hproblem'
    obtain rfl : p = p' := eq_of_id_eq hkeys.problemsId hp hp'
      (Option.some.inj (hproblem.symm.trans hproblem'))
    obtain rfl : pt = pt' := problemType_eq hkeys hpt hpt' (hid.symm.trans hid')
      (hunit.trans hunit'.symm)
    rfl
  · rw [List.mem_map]
    refine Iff.trans ?_ mem_unitSubmissions.symm
    constructor
    · rintro ⟨r, hr, rfl⟩
      obtain ⟨hr, hunit⟩ := hrow r hr
      obtain ⟨⟨hpt, -, hid⟩, ⟨hs, hproblem⟩, huser⟩ := mem_unitsJoined.1 hr
      exact ⟨hs, huser, r.1.1, hpt, hid ▸ hproblem, hunit⟩
    · rintro ⟨hs, huser, pt, hpt, hproblem, hunit⟩
      obtain ⟨p, hp, hid⟩ := hkeys.typeOfProblem pt hpt
      refine ⟨((pt, p), s), List.mem_filter.2 ⟨mem_unitsJoined.2 ?_, by simpa using hunit⟩, rfl⟩
      exact ⟨⟨hpt, hp, hid⟩, ⟨hs, by rwa [← hid] at hproblem⟩, huser⟩

/-- A row of the units counts the submissions of its unit. -/
theorem sumCase_unitsRow (hkeys : Keys collation db) (spelling : Shows unitColumn)
    (c : Submission → Bool) {g : SummaryRow × List SummaryRow}
    (hg : g ∈ groupBy (fun r => collation r.1.1.problemType) (unitsJoined user_id db)) :
    sumCase (fun r => c r.2) g.2 =
      sumCase c (unitSubmissions collation user_id (unitsRow spelling g).unit db) := by
  rw [group_eq_unitRows spelling hg rfl, ← sumCase_map,
    sumCase_perm (map_submission_unitRows hkeys)]

/-- A row of the details counts the submissions for its problem. -/
theorem sumCase_detailRow (hkeys : Keys collation db) (title : Shows titleColumn)
    (c : Submission → Bool) {g : DetailRow × List DetailRow}
    (hg : g ∈ groupBy (detailKey collation) (detailJoined collation user_id unit db)) :
    sumCase (fun r => c r.1.2) g.2 =
      sumCase c (problemSubmissions user_id (detailRow title g).examNo db) := by
  have hperm : (g.2.map fun r => r.1.2).Perm _ := map_submission_group hkeys hg
  exact (sumCase_map (fun r : DetailRow => r.1.2) c g.2).symm.trans (sumCase_perm hperm)

/-- The buckets of a row of the units. -/
theorem realBuckets_unitsRow (hkeys : Keys collation db) (hdb : ∀ s ∈ db.submissions, s.Timed)
    (spelling : Shows unitColumn) {g : SummaryRow × List SummaryRow} {u : Units}
    (hu : u = unitsRow spelling g)
    (hg : g ∈ groupBy (fun r => collation r.1.1.problemType) (unitsJoined user_id db)) :
    RealBuckets u.solved20min u.solved30min u.solvedOver30min
        (unitSubmissions collation user_id u.unit db) ↔
      ∀ s ∈ unitSubmissions collation user_id u.unit db, ¬ s.RoundedDown := by
  subst hu
  rw [← realBuckets_iff fun s hs => hdb s (mem_unitSubmissions.1 hs).1,
    ← sumCase_unitsRow hkeys spelling (solvedIn 20) hg,
    ← sumCase_unitsRow hkeys spelling (solvedIn 30) hg,
    ← sumCase_unitsRow hkeys spelling solvedOver30 hg]
  rfl

/-- The buckets of a row of the details. -/
theorem realBuckets_detailRow (hkeys : Keys collation db) (hdb : ∀ s ∈ db.submissions, s.Timed)
    (title : Shows titleColumn) {g : DetailRow × List DetailRow} {us : UnitStat}
    (hus : us = detailRow title g)
    (hg : g ∈ groupBy (detailKey collation) (detailJoined collation user_id unit db)) :
    RealBuckets us.solved20min us.solved30min us.solvedOver30min
        (problemSubmissions user_id us.examNo db) ↔
      ∀ s ∈ problemSubmissions user_id us.examNo db, ¬ s.RoundedDown := by
  subst hus
  rw [← realBuckets_iff fun s hs => hdb s (mem_problemSubmissions.1 hs).1,
    ← sumCase_detailRow hkeys title (solvedIn 20) hg,
    ← sumCase_detailRow hkeys title (solvedIn 30) hg,
    ← sumCase_detailRow hkeys title solvedOver30 hg]
  rfl

/-! ### The answers -/

/-- In every row that a user gets the buckets are the real ones of its
submissions. -/
def CountsRealTime (collation : Bytes → κ) (dbms : Dbms Tables) (db : Tables) : Prop :=
  ∀ user_id : ℤ,
    (∀ units : List Units, (Query.selectUnitsData user_id).perform dbms (fun _ => false) db =
        (.ok units : Except SqlException (List Units)) →
      ∀ u ∈ units, RealBuckets u.solved20min u.solved30min u.solvedOver30min
        (unitSubmissions collation user_id u.unit db)) ∧
    ∀ (unit : Bytes) (stats : List UnitStat),
      (Query.selectUnitdetail user_id unit).perform dbms (fun _ => false) db =
        (.ok stats : Except SqlException (List UnitStat)) →
      ∀ us ∈ stats, RealBuckets us.solved20min us.solved30min us.solvedOver30min
        (problemSubmissions user_id us.examNo db)

/-- The submission is in a row: it is of a user, for a problem of some unit. -/
def Counted (db : Tables) (s : Submission) : Prop :=
  ∃ user_id, checkUserId user_id = true ∧ s.ofUser user_id = true ∧
    ∃ pt ∈ db.problemTypeMap, s.ofProblem pt.problemId = true

/-- On one database. -/
theorem countsRealTime_of_timed {dbms : Dbms Tables} (hdbms : Standard collation dbms)
    (hkeys : Keys collation db) (hdb : ∀ s ∈ db.submissions, s.Timed) :
    CountsRealTime collation dbms db ↔
      ∀ s ∈ db.submissions, Counted db s → ¬ s.RoundedDown := by
  have hperform := Query.perform_selectUnitsData dbms
  obtain ⟨spelling, hunitsData⟩ := hdbms.unitsData
  obtain ⟨title, hunitdetail⟩ := hdbms.unitdetail
  constructor
  · intro h s hs ⟨user_id, hcheck, huser, pt, hpt, hproblem⟩
    -- the submission is among those of the row of its unit
    have hmem : s ∈ unitSubmissions collation user_id pt.problemType db :=
      mem_unitSubmissions.2 ⟨hs, huser, pt, hpt, hproblem, rfl⟩
    obtain ⟨r, hr, -⟩ := List.mem_map.1 ((map_submission_unitRows hkeys).mem_iff.2 hmem)
    obtain ⟨g, hg, hu⟩ := exists_group_of_mem_unitRows spelling hr
    have hrow : unitsRow spelling g ∈
        (dbms.query ((Query.selectUnitsData user_id).stmt db) db).map unitsOf :=
      (hunitsData user_id db).mem_iff.2 (List.mem_map_of_mem hg)
    have hperform := hperform user_id db
    rw [if_neg (by simpa [checkUserId] using hcheck)] at hperform
    have hreal := (h user_id).1 _ hperform _ hrow
    refine (realBuckets_unitsRow hkeys hdb spelling rfl hg).1 hreal s ?_
    exact mem_unitSubmissions.2 ⟨hs, huser, pt, hpt, hproblem, hu.symm⟩
  · intro h user_id
    by_cases hcheck : checkUserId user_id = true
    · constructor
      · intro units hunits u hu
        have hrow := Query.subset_of_perform_selectUnitsData dbms hunits hu
        obtain ⟨g, hg, hu⟩ := List.mem_map.1 ((hunitsData user_id db).mem_iff.1 hrow)
        refine (realBuckets_unitsRow hkeys hdb spelling hu.symm hg).2 fun s hs => ?_
        obtain ⟨hs, huser, pt, hpt, hproblem, -⟩ := mem_unitSubmissions.1 hs
        exact h s hs ⟨user_id, hcheck, huser, pt, hpt, hproblem⟩
      · intro unit stats hstats us hus
        have hrow := Query.subset_of_perform_selectUnitdetail dbms hstats hus
        obtain ⟨g, hg, rfl⟩ := List.mem_map.1 ((hunitdetail user_id unit db).mem_iff.1 hrow)
        refine (realBuckets_detailRow hkeys hdb title rfl hg).2 fun s hs => ?_
        obtain ⟨⟨-, hpt, hid⟩, -⟩ := mem_detailJoined.1 (of_mem_groupBy hg).1
        obtain ⟨hs, huser, hproblem⟩ := mem_problemSubmissions.1 hs
        exact h s hs ⟨user_id, hcheck, huser, _, hpt, hid ▸ hproblem⟩
    · -- without a user there is no row
      obtain rfl : user_id = -1 := by simpa [checkUserId] using hcheck
      constructor
      · intro units hunits u hu
        rw [hperform, if_pos rfl] at hunits
        obtain rfl := Except.ok.inj hunits
        exact absurd hu List.not_mem_nil
      · intro unit stats hstats us hus
        rw [Query.perform_selectUnitdetail, if_pos rfl] at hstats
        obtain rfl := Except.ok.inj hstats
        exact absurd hus List.not_mem_nil

/-- **The buckets count by the real time exactly when no counted submission is
rounded down.**  After every history of submissions with times of the console, on
every standard database that keeps such times: a history without such an insertion
leads to real buckets in every row of every user, and a database on the way has
them if and only if no solved submission of a row is of 00:20:01 to 00:20:59 or of
00:30:01 to 00:30:59. -/
theorem countsRealTime_iff {dbms : Dbms Tables} (hdbms : Standard collation dbms)
    (htime : KeepsTime dbms) {calls : List (Mutation × (ℕ → Bool))}
    (hcalls : ∀ c ∈ calls, Submits c.1) (hempty : db.submissions = [])
    (hkeys : Keys collation (performAll dbms calls db)) :
    ((∀ c ∈ calls, ¬ RoundsDown c.1) → CountsRealTime collation dbms (performAll dbms calls db)) ∧
    (CountsRealTime collation dbms (performAll dbms calls db) ↔
      ∀ s ∈ (performAll dbms calls db).submissions,
        Counted (performAll dbms calls db) s → ¬ s.RoundedDown) := by
  have hrows := rowOf_performAll hdbms htime hcalls hempty
  have hiff := countsRealTime_of_timed hdbms hkeys fun s hs => by
    obtain ⟨c, hc, hrow⟩ := hrows s hs
    exact timed_of_rowOf (hcalls c hc) hrow
  refine ⟨fun h => hiff.2 fun s hs _ => ?_, hiff⟩
  obtain ⟨c, hc, hrow⟩ := hrows s hs
  exact not_roundedDown_of_rowOf (h c hc) hrow

end Rows

/-! ### 30 seconds beyond -/

/-- The reference database keeps a time as its text. -/
theorem keepsTime_reference : KeepsTime (reference id some (text "2024-01-05")) := by
  intro users_id problem_id status time_spent db _
  rw [apply_insertSubmitted, referenceInsertSubmission]
  split_ifs
  · exact .inr ⟨_, _, rfl⟩
  · exact .inl rfl

/-- Alice solves problem 198 in 20 minutes and 30 seconds. -/
def lateCalls : List (Mutation × (ℕ → Bool)) :=
  [(.insertSubmitted 1 198 true (text "00:20:30"), fun _ => false)]

/-- Her submission is the only one. -/
def lateTables : Tables :=
  performAll (reference id some (text "2024-01-05")) lateCalls { sample with submissions := [] }

/-- The tables after the calls. -/
theorem lateTables_eq : lateTables = { sample with submissions :=
    [⟨1, some 198, some 1, some 1, some (text "00:20:30"), some 20, some (text "2024-01-05")⟩] } := by
  have hgo : (Mutation.insertSubmitted 1 198 true (text "00:20:30")).goesOn
      (reference id some (text "2024-01-05")) { sample with submissions := [] } = true :=
    (goesOn_insertSubmitted _).2 ⟨by decide, by rw [query_lockUser]; exact List.cons_ne_nil _ _⟩
  have hminutes : getMinuteFromTime (text "00:20:30") = 20 := by decide
  rw [lateTables, lateCalls, performAll, List.foldl_cons, List.foldl_nil, database_of_quiet _ hgo,
    apply_insertSubmitted, hminutes]
  rfl

/-- They have their keys. -/
theorem keys_lateTables : Keys id lateTables := by
  rw [lateTables_eq]
  exact { keys_sample with
    submissionsId := by decide
    submissionOfUser := by decide
    submissionOfProblem := by decide }

/-- The calls are those of a console. -/
theorem submits_lateCalls : ∀ c ∈ lateCalls, Submits c.1 := by
  intro c hc
  obtain rfl := List.mem_singleton.1 hc
  exact (by decide : validateTimeSpent (text "00:20:30") = true)

/-- The history of her one submission. -/
theorem countsRealTime_iff_alice :
    ((∀ c ∈ lateCalls, ¬ RoundsDown c.1) →
      CountsRealTime id (reference id some (text "2024-01-05")) lateTables) ∧
    (CountsRealTime id (reference id some (text "2024-01-05")) lateTables ↔
      ∀ s ∈ lateTables.submissions, Counted lateTables s → ¬ s.RoundedDown) :=
  countsRealTime_iff (standard_reference id some (text "2024-01-05")) keepsTime_reference
    submits_lateCalls rfl keys_lateTables

/-- **She is counted as solving within 20 minutes.** -/
theorem not_countsRealTime :
    ¬ CountsRealTime id (reference id some (text "2024-01-05")) lateTables := by
  have hdb : ∀ s ∈ lateTables.submissions, s.Timed := fun s hs => by
    obtain ⟨c, hc, hrow⟩ := rowOf_performAll (standard_reference id some (text "2024-01-05"))
      keepsTime_reference submits_lateCalls rfl s hs
    exact timed_of_rowOf (submits_lateCalls c hc) hrow
  rw [countsRealTime_of_timed (standard_reference id some (text "2024-01-05")) keys_lateTables hdb]
  have hrow : ⟨1, some 198, some 1, some 1, some (text "00:20:30"), some 20,
      some (text "2024-01-05")⟩ ∈ lateTables.submissions := by
    rw [lateTables_eq]
    exact List.mem_singleton_self _
  have hdp : ⟨198, text "DP"⟩ ∈ lateTables.problemTypeMap := by
    rw [lateTables_eq]
    exact List.mem_cons_self
  intro h
  refine h _ hrow ⟨1, rfl, rfl, ⟨198, text "DP"⟩, hdp, rfl⟩ ?_
  exact .inl ⟨rfl, text "00:20:30", rfl, by decide, by decide⟩

end Database
end WeakAyas
