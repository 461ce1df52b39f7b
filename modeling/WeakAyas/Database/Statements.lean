/-
# What the statements mean

The statements of the driver on the tables, clause by clause as they stand in
`sql_driver.cpp`: the three `SELECT` of a user (lines 569-572, 651-664, 716-742)
and the three changes that a user can make (lines 150-152, 457-461, 516).

A comparison with a null is not true, and an `ON`, a `WHERE` or a `CASE WHEN`
takes a row only when its condition is true.  The rows of a group can spell its unit
or its title in several ways that the collation does not tell apart, and which of
these is selected is left open (`Bag.Shows`).

`Standard` says of a database that it answers these statements so, in any order
of the rows.  The spelling of a group, the day of `CURDATE()`, the next
`AUTO_INCREMENT` and the value of a `TIME` are its own.
-/

import WeakAyas.Library.Bag
import WeakAyas.Database.Tables
import WeakAyas.Driver.Escapes

namespace WeakAyas
namespace Database

open Driver Bag

variable {κ : Type} [DecidableEq κ] (collation : Bytes → κ)

/-! ### Statistics -/

/-- `s.status = 1 AND s.time_spent_min <= minutes`. -/
def solvedIn (minutes : ℤ) (s : Submission) : Bool :=
  s.status == some 1 && s.timeSpentMin.any (· ≤ minutes)

/-- `s.status = 0 OR s.time_spent_min > 30`. -/
def solvedOver30 (s : Submission) : Bool := s.status == some 0 || s.timeSpentMin.any (30 < ·)

/-- A row of the joined tables `pt`, `p` and `s`. -/
abbrev SummaryRow := (ProblemType × Problem) × Submission

/-- `FROM problem_type_map pt JOIN problems p ON p.id = pt.problem_id
JOIN submissions s ON s.problem_id = p.id WHERE s.users_id = ?`. -/
def unitsJoined (user_id : ℤ) (db : Tables) : List SummaryRow :=
  (join (join db.problemTypeMap db.problems fun pt p => p.id == pt.problemId) db.submissions
    fun (_, p) s => s.ofProblem p.id).filter fun (_, s) => s.ofUser user_id

/-- `pt.problem_type AS unit`. -/
def unitColumn : SummaryRow → Bytes := fun ((pt, _), _) => pt.problemType

/-- The row of `SQL_Driver::Select_UnitsData` for a group. -/
def unitsRow (unit : Shows unitColumn) (g : SummaryRow × List SummaryRow) : Units :=
  let total := count g.2
  let in20 := sumCase (fun (_, s) => solvedIn 20 s) g.2
  let in30 := sumCase (fun (_, s) => solvedIn 30 s) g.2
  let over30 := sumCase (fun (_, s) => solvedOver30 s) g.2
  { unit := unit.of g.2
    problemsSolved := (g.2.map fun ((_, p), _) => p.id).dedup.length  -- `COUNT(DISTINCT p.id)`
    totalSubmit := total
    solved20min := in20
    solved30min := in30
    solvedOver30min := over30
    rate20min := Query.rate in20 total
    rate30min := Query.rate in30 total
    rateOver30min := Query.rate over30 total }

/-- The `SELECT` of `SQL_Driver::Select_UnitsData`, `GROUP BY pt.problem_type`. -/
def selectUnitsData (unit : Shows unitColumn) (user_id : ℤ) (db : Tables) : List Units :=
  (groupBy (fun ((pt, _), _) => collation pt.problemType) (unitsJoined user_id db)).map
    (unitsRow unit)

/-! ### Statistics of a unit -/

/-- `s2`: `SELECT problem_id, MAX(id) AS max_id FROM submissions WHERE users_id = ?
GROUP BY problem_id`. -/
def maxIds (user_id : ℤ) (db : Tables) : List (Option ℤ × Option ℤ) :=
  (groupBy Submission.problemId (db.submissions.filter (·.ofUser user_id))).map fun g =>
    (g.1.problemId, (g.2.map Submission.id).max?)

/-- `e`: `SELECT s1.problem_id, s1.time_spent, s1.status, s1.submit_date FROM submissions s1
JOIN ( ... ) s2 ON s1.id = s2.max_id WHERE s1.users_id = ?`. -/
def lastSubmissions (user_id : ℤ) (db : Tables) : List Submission :=
  ((join db.submissions (maxIds user_id db) fun s1 s2 => s2.2 == some s1.id).filter
    fun (s1, _) => s1.ofUser user_id).map Prod.fst

/-- A row of the joined tables `p`, `pt`, `s` and `e`. -/
abbrev DetailRow := ((Problem × ProblemType) × Submission) × Submission

/-- `FROM problems p JOIN problem_type_map pt ON p.id = pt.problem_id
JOIN submissions s ON s.problem_id = p.id AND s.users_id = ?
JOIN ( ... ) e ON e.problem_id = p.id WHERE pt.problem_type = ?`. -/
def detailJoined (user_id : ℤ) (unit : Bytes) (db : Tables) : List DetailRow :=
  (join
    (join (join db.problems db.problemTypeMap fun p pt => p.id == pt.problemId) db.submissions
      fun (p, _) s => s.ofProblem p.id && s.ofUser user_id)
    (lastSubmissions user_id db) fun ((p, _), _) e => e.ofProblem p.id).filter
  fun (((_, pt), _), _) => collation pt.problemType = collation unit

/-- `GROUP BY p.id, p.title, e.submit_date, e.time_spent, e.status`. -/
structure DetailKey (κ : Type) where
  id : ℤ
  title : κ
  submitDate : Option Bytes
  timeSpent : Option Bytes
  status : Option ℤ
  deriving DecidableEq

def detailKey : DetailRow → DetailKey κ :=
  fun (((p, _), _), e) => ⟨p.id, collation p.title, e.submitDate, e.timeSpent, e.status⟩

/-- `p.title AS Name`. -/
def titleColumn : DetailRow → Bytes := fun (((p, _), _), _) => p.title

/-- The row of `SQL_Driver::Select_Unitdetail` for a group; a null is read as an
empty string. -/
def detailRow (title : Shows titleColumn) (g : DetailRow × List DetailRow) : UnitStat :=
  let (((p, _), _), e) := g.1
  { examNo := p.id
    examName := title.of g.2
    totalExam := count g.2
    solved20min := sumCase (fun ((_, s), _) => solvedIn 20 s) g.2
    solved30min := sumCase (fun ((_, s), _) => solvedIn 30 s) g.2
    solvedOver30min := sumCase (fun ((_, s), _) => solvedOver30 s) g.2
    lastDate := e.submitDate.getD []
    lastDateTime := e.timeSpent.getD []
    lastDateState := if e.status.any (· ≠ 0) then text "Solved" else text "Unsolved" }

/-- The `SELECT` of `SQL_Driver::Select_Unitdetail`. -/
def selectUnitdetail (title : Shows titleColumn) (user_id : ℤ) (unit : Bytes) (db : Tables) :
    List UnitStat :=
  (groupBy (detailKey collation) (detailJoined collation user_id unit db)).map (detailRow title)

/-- The `SELECT` of `SQL_Driver::getSubmissions`, with its `WHERE users_id = ? AND
problem_id = ?`; a null is read as 0, false or an empty string. -/
def getSubmissions (users_id problem_id : ℤ) (db : Tables) : Submissions :=
  (db.submissions.filter fun s => s.ofUser users_id && s.ofProblem problem_id).map fun s =>
    (s.id, ⟨s.usersId.getD 0, s.problemId.getD 0, s.status.any (· ≠ 0), s.timeSpent.getD [],
      s.timeSpentMin.getD 0, s.submitDate.getD []⟩)

/-! ### Changes -/

/-- `INSERT INTO users (username, created_at) VALUES (?, CURDATE())`. -/
def insertUser (id : ℤ) (username : Bytes) (curdate : Bytes) (db : Tables) : Tables :=
  { db with users := db.users ++ [⟨id, username, some curdate⟩] }

/-- `INSERT INTO submissions (problem_id, users_id, status, time_spent, time_spent_min,
submit_date) VALUES (?, ?, ?, ?, ?, CURDATE())`. -/
def insertSubmission (id users_id problem_id : ℤ) (status : Bool) (time_spent : Option Bytes)
    (time_spent_min : ℤ) (curdate : Bytes) (db : Tables) : Tables :=
  { db with
    submissions := db.submissions ++ [⟨id, some problem_id, some users_id,
      some (if status then 1 else 0), time_spent, some time_spent_min, some curdate⟩] }

/-- `DELETE FROM submissions WHERE id = ? AND users_id = ?`. -/
def deleteSubmission (submission_id users_id : ℤ) (db : Tables) : Tables :=
  { db with
    submissions := db.submissions.filter fun s => !(s.id == submission_id && s.ofUser users_id) }

/-! ### A standard database -/

/-- A database that gives these statements their meaning.  In which spelling it shows
a unit or a title is its own, and the same for the same rows.  An `INSERT` may be
refused, for a key or for a value, and changes nothing then; the exception that
comes with it is one of the faults. -/
structure Standard (dbms : Dbms Tables) : Prop where
  unitsData : ∃ unit : Shows unitColumn, ∀ user_id db,
    ((dbms.query ((Query.selectUnitsData user_id).stmt db) db).map unitsOf).Perm
      (selectUnitsData collation unit user_id db)
  unitdetail : ∃ title : Shows titleColumn, ∀ user_id unit db,
    ((dbms.query ((Query.selectUnitdetail user_id unit).stmt db) db).map unitStatOf).Perm
      (selectUnitdetail collation title user_id unit db)
  submissions : ∀ users_id problem_id db,
    ((dbms.query ((Query.getSubmissions users_id problem_id).stmt db) db).map examInfoOf).Perm
      (getSubmissions users_id problem_id db)
  insertUser : ∀ username db,
    (Mutation.registerUser username).apply dbms db = db ∨
      ∃ id curdate, (Mutation.registerUser username).apply dbms db =
        insertUser id username curdate db
  insertSubmission : ∀ users_id problem_id status time_spent db,
    (Mutation.insertSubmitted users_id problem_id status time_spent).apply dbms db = db ∨
      ∃ id time curdate,
        (Mutation.insertSubmitted users_id problem_id status time_spent).apply dbms db =
          insertSubmission id users_id problem_id status time (getMinuteFromTime time_spent)
            curdate db
  deleteSubmission : ∀ submission_id users_id db,
    (Mutation.deleteSubmission submission_id users_id).apply dbms db =
      deleteSubmission submission_id users_id db

/-- Submissions with different ids are rows with different ids. -/
theorem nodup_fst_getSubmissions {db : Tables} (h : (db.submissions.map Submission.id).Nodup)
    (users_id problem_id : ℤ) : ((getSubmissions users_id problem_id db).map Prod.fst).Nodup := by
  rw [getSubmissions, List.map_map]
  exact h.sublist (List.filter_sublist.map Submission.id)

variable {collation} in
/-- **The map of a user and a problem has their submissions.** -/
theorem Standard.perform_getSubmissions {dbms : Dbms Tables} (hdbms : Standard collation dbms)
    {db : Tables} (h : (db.submissions.map Submission.id).Nodup) (users_id problem_id : ℤ) :
    ∃ subs : Submissions,
      (Query.getSubmissions users_id problem_id).perform dbms (fun _ => false) db = .ok subs ∧
        subs.Perm (getSubmissions users_id problem_id db) := by
  have hperm := hdbms.submissions users_id problem_id db
  have hperform := Query.perform_getSubmissions dbms users_id problem_id db
  generalize (dbms.query _ db).map examInfoOf = rows at hperm hperform
  have hnodup : (([] ++ rows).map Prod.fst).Nodup :=
    (hperm.map Prod.fst).nodup_iff.2 (nodup_fst_getSubmissions h users_id problem_id)
  rw [Query.foldl_storeExamInfo hnodup, List.nil_append] at hperform
  exact ⟨rows, hperform, hperm⟩

variable {collation} in
/-- The list of the units has the rows of the user, and none for nobody. -/
theorem Standard.perform_selectUnitsData {dbms : Dbms Tables} (hdbms : Standard collation dbms)
    (user_id : ℤ) (db : Tables) : ∃ (unit : Shows unitColumn) (units : List Units),
      (Query.selectUnitsData user_id).perform dbms (fun _ => false) db = .ok units ∧
        units.Perm (if user_id = -1 then [] else selectUnitsData collation unit user_id db) := by
  obtain ⟨unit, hunits⟩ := hdbms.unitsData
  refine ⟨unit, _, Query.perform_selectUnitsData dbms user_id db, ?_⟩
  split_ifs
  · exact .rfl
  · exact hunits user_id db

variable {collation} in
/-- So has the list of the problems of a unit. -/
theorem Standard.perform_selectUnitdetail {dbms : Dbms Tables} (hdbms : Standard collation dbms)
    (user_id : ℤ) (unit : Bytes) (db : Tables) :
    ∃ (title : Shows titleColumn) (stats : List UnitStat),
      (Query.selectUnitdetail user_id unit).perform dbms (fun _ => false) db = .ok stats ∧
        stats.Perm
          (if user_id = -1 then [] else selectUnitdetail collation title user_id unit db) := by
  obtain ⟨title, hstats⟩ := hdbms.unitdetail
  refine ⟨title, _, Query.perform_selectUnitdetail dbms user_id unit db, ?_⟩
  split_ifs
  · exact .rfl
  · exact hstats user_id unit db

end Database
end WeakAyas
