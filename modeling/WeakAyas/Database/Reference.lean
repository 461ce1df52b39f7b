/-
# A database that is standard

The statements are told apart by their text.  An `INSERT` is refused when it
breaks a key of `init.sql`; the id it gets is one above all others.  Of the
spellings of a group the greatest is shown.  The sort key of a string, the text of a
`TIME` value and the day are parameters.
-/

import Mathlib.Data.List.Lex
import WeakAyas.Database.Statements
import WeakAyas.Driver.Minutes

namespace WeakAyas
namespace Database

open Driver Bag

variable {κ : Type} [DecidableEq κ] (collation : Bytes → κ) (timeOf : Bytes → Option Bytes)
  (curdate : Bytes)

/-! ### Spellings -/

/-- The bytes of a text, as numbers. -/
def codes (s : Bytes) : List ℕ := s.map UInt8.toNat

/-- Different texts have different bytes. -/
theorem codes_injective : Function.Injective codes :=
  List.map_injective_iff.2 fun _ _ => UInt8.toNat_inj.1

/-- The unit of a group, in its greatest spelling. -/
def greatestUnit : Shows unitColumn := .greatest unitColumn codes codes_injective

/-- The title of a group, in its greatest spelling. -/
def greatestTitle : Shows titleColumn := .greatest titleColumn codes codes_injective

/-! ### Rows -/

/-- The columns of `SQL_Driver::Select_UnitsData`. -/
def rowOfUnits (u : Units) : Row where
  int column :=
    if column = "problems_solved" then u.problemsSolved
    else if column = "total_submit" then u.totalSubmit
    else if column = "solved_20min" then u.solved20min
    else if column = "solved_30min" then u.solved30min
    else if column = "solved_over_30min" then u.solvedOver30min
    else 0
  str column := if column = "unit" then u.unit else []
  bool _ := false

/-- The columns of `SQL_Driver::Select_Unitdetail`. -/
def rowOfUnitStat (u : UnitStat) : Row where
  int column :=
    if column = "Exam_No" then u.examNo
    else if column = "total_submit" then u.totalExam
    else if column = "solved_20min" then u.solved20min
    else if column = "solved_30min" then u.solved30min
    else if column = "solved_over_30min" then u.solvedOver30min
    else 0
  str column :=
    if column = "Name" then u.examName
    else if column = "last_solved_date" then u.lastDate
    else if column = "last_solved_time" then u.lastDateTime
    else []
  bool column := column == "last_status" && u.lastDateState == text "Solved"

/-- The columns of `SQL_Driver::getSubmissions`. -/
def rowOfExamInfo (x : ℤ × ExamInfo) : Row where
  int column :=
    if column = "id" then x.1
    else if column = "users_id" then x.2.userId
    else if column = "problem_id" then x.2.problemId
    else if column = "time_spent_min" then x.2.iSolvedtime
    else 0
  str column :=
    if column = "time_spent" then x.2.sSolvedtime
    else if column = "submit_date" then x.2.date
    else []
  bool column := column == "status" && x.2.state

/-- The columns of a user. -/
def rowOfUser (u : User) : Row where
  int column := if column = "id" then u.id else 0
  str column := if column = "username" then u.username else []
  bool _ := false

/-- The driver reads off a row what was put into it. -/
theorem unitsOf_rowOfUnits (unit : Shows unitColumn) (g : SummaryRow × List SummaryRow) :
    unitsOf (rowOfUnits (unitsRow unit g)) = unitsRow unit g := rfl

/-- The same of the statistics of a problem. -/
theorem unitStatOf_rowOfUnitStat (title : Shows titleColumn) (g : DetailRow × List DetailRow) :
    unitStatOf (rowOfUnitStat (detailRow title g)) = detailRow title g := by
  have hstate : (rowOfUnitStat (detailRow title g)).bool "last_status" =
      g.1.2.status.any (· ≠ 0) := by
    change ("last_status" == "last_status" && (if g.1.2.status.any (· ≠ 0) then text "Solved"
      else text "Unsolved") == text "Solved") = g.1.2.status.any (· ≠ 0)
    cases g.1.2.status.any (· ≠ 0) <;> decide
  rw [unitStatOf, hstate]
  rfl

/-- The same of a submission. -/
theorem examInfoOf_rowOfExamInfo (x : ℤ × ExamInfo) : examInfoOf (rowOfExamInfo x) = x := by
  obtain ⟨id, user_id, problem_id, state, time, minutes, date⟩ := x
  have hstate : (rowOfExamInfo (id, ⟨user_id, problem_id, state, time, minutes, date⟩)).bool
      "status" = state := by
    cases state <;> rfl
  rw [examInfoOf, hstate]
  rfl

/-! ### Statements -/

/-- An id above all others. -/
def nextId (ids : List ℤ) : ℤ := ids.max?.getD 0 + 1

/-- The texts of the statements. -/
def unitsDataSql : String := ((Query.selectUnitsData 0).stmt ()).sql
def unitdetailSql : String := ((Query.selectUnitdetail 0 []).stmt ()).sql
def submissionsSql : String := ((Query.getSubmissions 0 0).stmt ()).sql
def insertUserSql : String := (Mutation.registerUser []).stmt.sql
def insertSubmissionSql : String := (Mutation.insertSubmitted 0 0 false []).stmt.sql
def deleteSubmissionSql : String := (Mutation.deleteSubmission 0 0).stmt.sql

/-- The queries of a user, by their text. -/
def referenceQuery (p : Stmt) (db : Tables) : List Row :=
  if p.sql = unitsDataSql then match p.params with
    | [(1, .int user_id)] => (selectUnitsData collation greatestUnit user_id db).map rowOfUnits
    | _ => []
  else if p.sql = unitdetailSql then match p.params with
    | [(1, .int user_id), (2, .int _), (3, .int _), (4, .str unit)] =>
      (selectUnitdetail collation greatestTitle user_id unit db).map rowOfUnitStat
    | _ => []
  else if p.sql = submissionsSql then match p.params with
    | [(1, .int users_id), (2, .int problem_id)] =>
      (getSubmissions users_id problem_id db).map rowOfExamInfo
    | _ => []
  else if p.sql = "SELECT username FROM users WHERE id = ? FOR UPDATE" ∨
      p.sql = "SELECT username FROM users WHERE id = ?" then match p.params with
    | [(1, .int users_id)] => (db.users.filter (·.id == users_id)).map rowOfUser
    | _ => []
  else if p.sql = "SELECT id FROM submissions WHERE id = ? AND users_id = ? FOR UPDATE" then
    match p.params with
    | [(1, .int submission_id), (2, .int users_id)] =>
      (db.submissions.filter fun s => s.id == submission_id && s.ofUser users_id).map fun s =>
        ⟨fun column => if column = "id" then s.id else 0, fun _ => [], fun _ => false⟩
    | _ => []
  else []

/-- `Mutation.registerUser`, and the rows affected. -/
def referenceInsertUser (username : Bytes) (db : Tables) : Tables × ℕ :=
  if db.users.any fun u => decide (collation u.username = collation username) then (db, 0)
  else (insertUser (nextId (db.users.map User.id)) username curdate db, 1)

/-- `Mutation.insertSubmitted`, and the rows affected. -/
def referenceInsertSubmission (users_id problem_id : ℤ) (status : Bool) (time_spent : Bytes)
    (time_spent_min : ℤ) (db : Tables) : Tables × ℕ :=
  if db.users.any (·.id == users_id) && db.problems.any (·.id == problem_id) then
    (insertSubmission (nextId (db.submissions.map Submission.id)) users_id problem_id status
      (timeOf time_spent) time_spent_min curdate db, 1)
  else (db, 0)

/-- `Mutation.deleteSubmission`, and the rows affected. -/
def referenceDeleteSubmission (submission_id users_id : ℤ) (db : Tables) : Tables × ℕ :=
  (deleteSubmission submission_id users_id db,
    db.submissions.countP fun s => s.id == submission_id && s.ofUser users_id)

/-- The changes of a user, by their text. -/
def referenceUpdate (p : Stmt) (db : Tables) : Tables × ℕ :=
  if p.sql = insertUserSql then match p.params with
    | [(1, .str username)] => referenceInsertUser collation curdate username db
    | _ => (db, 0)
  else if p.sql = insertSubmissionSql then match p.params with
    | [(1, .int problem_id), (2, .int users_id), (3, .bool status), (4, .str time_spent),
        (5, .int time_spent_min)] =>
      referenceInsertSubmission timeOf curdate users_id problem_id status time_spent time_spent_min
        db
    | _ => (db, 0)
  else if p.sql = deleteSubmissionSql then match p.params with
    | [(1, .int submission_id), (2, .int users_id)] =>
      referenceDeleteSubmission submission_id users_id db
    | _ => (db, 0)
  else (db, 0)

/-- A deletion that meets no row changes nothing. -/
theorem referenceDeleteSubmission_unchanged {submission_id users_id : ℤ} {db : Tables}
    (h : (referenceDeleteSubmission submission_id users_id db).2 = 0) :
    (referenceDeleteSubmission submission_id users_id db).1 = db := by
  have hall : db.submissions.filter (fun s => !(s.id == submission_id && s.ofUser users_id)) =
      db.submissions := List.filter_eq_self.2 fun s hs => by
    simpa [imp_iff_not_or] using List.countP_eq_zero.1 h s hs
  rw [referenceDeleteSubmission, deleteSubmission, hall]

/-- The database. -/
def reference : Dbms Tables where
  query := referenceQuery collation
  update := referenceUpdate collation timeOf curdate
  unchanged p db := by
    unfold referenceUpdate referenceInsertUser referenceInsertSubmission
    repeat' split
    all_goals first
      | exact referenceDeleteSubmission_unchanged
      | exact fun _ => rfl
      | exact fun h => absurd h (Nat.succ_ne_zero 0)

/-! ### It is standard -/

/-- The three statements with their parameters. -/
theorem stmt_selectUnitsData (user_id : ℤ) (db : Tables) :
    (Query.selectUnitsData user_id).stmt db = ⟨unitsDataSql, [(1, .int user_id)]⟩ := rfl

/-- The user is bound three times. -/
theorem stmt_selectUnitdetail (user_id : ℤ) (unit : Bytes) (db : Tables) :
    (Query.selectUnitdetail user_id unit).stmt db =
      ⟨unitdetailSql, [(1, .int user_id), (2, .int user_id), (3, .int user_id), (4, .str unit)]⟩ :=
  rfl

/-- The user comes first. -/
theorem stmt_getSubmissions (users_id problem_id : ℤ) (db : Tables) :
    (Query.getSubmissions users_id problem_id).stmt db =
      ⟨submissionsSql, [(1, .int users_id), (2, .int problem_id)]⟩ := rfl

/-- The texts are different. -/
theorem texts_ne : unitdetailSql ≠ unitsDataSql ∧ submissionsSql ≠ unitsDataSql ∧
    submissionsSql ≠ unitdetailSql ∧ insertSubmissionSql ≠ insertUserSql ∧
    deleteSubmissionSql ≠ insertUserSql ∧ deleteSubmissionSql ≠ insertSubmissionSql := by
  decide +kernel

/-- What the insertion of a submission makes of the tables. -/
theorem apply_insertSubmitted (users_id problem_id : ℤ) (status : Bool) (time_spent : Bytes)
    (db : Tables) :
    (Mutation.insertSubmitted users_id problem_id status time_spent).apply
        (reference collation timeOf curdate) db =
      (referenceInsertSubmission timeOf curdate users_id problem_id status time_spent
        (getMinuteFromTime time_spent) db).1 := by
  have hstmt : (Mutation.insertSubmitted users_id problem_id status time_spent).stmt =
      ⟨insertSubmissionSql, [(1, .int problem_id), (2, .int users_id), (3, .bool status),
        (4, .str time_spent), (5, .int (getMinuteFromTime time_spent))]⟩ := rfl
  simp only [Mutation.apply, hstmt, reference, referenceUpdate, texts_ne.2.2.2.1, if_false,
    if_true]

/-- The row lock finds the user. -/
theorem query_lockUser (users_id : ℤ) (db : Tables) :
    (reference collation timeOf curdate).query (lockUser users_id) db =
      (db.users.filter (·.id == users_id)).map rowOfUser := by
  have hne : (lockUser 0).sql ≠ unitsDataSql ∧ (lockUser 0).sql ≠ unitdetailSql ∧
      (lockUser 0).sql ≠ submissionsSql := by decide +kernel
  simp only [lockUser] at hne
  simp only [reference, referenceQuery, lockUser, hne, if_false, true_or, if_true]

/-- **There is a standard database.** -/
theorem standard_reference : Standard collation (reference collation timeOf curdate) where
  unitsData := ⟨greatestUnit, fun user_id db => by
    rw [stmt_selectUnitsData]
    simp only [reference, referenceQuery, if_true, selectUnitsData, List.map_map]
    exact .of_eq (List.map_congr_left fun g _ => unitsOf_rowOfUnits greatestUnit g)⟩
  unitdetail := ⟨greatestTitle, fun user_id unit db => by
    rw [stmt_selectUnitdetail]
    simp only [reference, referenceQuery, texts_ne.1, if_false, if_true, selectUnitdetail,
      List.map_map]
    exact .of_eq (List.map_congr_left fun g _ => unitStatOf_rowOfUnitStat greatestTitle g)⟩
  submissions users_id problem_id db := by
    rw [stmt_getSubmissions]
    simp only [reference, referenceQuery, texts_ne.2.1, texts_ne.2.2.1, if_false, if_true,
      List.map_map]
    exact .of_eq ((List.map_congr_left fun x _ => examInfoOf_rowOfExamInfo x).trans (List.map_id _))
  insertUser username db := by
    have hstmt : (Mutation.registerUser username).stmt = ⟨insertUserSql, [(1, .str username)]⟩ :=
      rfl
    simp only [Mutation.apply, hstmt, reference, referenceUpdate, if_true, referenceInsertUser]
    split_ifs
    · exact .inl rfl
    · exact .inr ⟨_, _, rfl⟩
  insertSubmission users_id problem_id status time_spent db := by
    rw [apply_insertSubmitted, referenceInsertSubmission]
    split_ifs
    · exact .inr ⟨_, _, _, rfl⟩
    · exact .inl rfl
  deleteSubmission submission_id users_id db := by
    have hstmt : (Mutation.deleteSubmission submission_id users_id).stmt =
        ⟨deleteSubmissionSql, [(1, .int submission_id), (2, .int users_id)]⟩ := rfl
    simp only [Mutation.apply, hstmt, reference, referenceUpdate, texts_ne.2.2.2.2.1,
      texts_ne.2.2.2.2.2, if_false, if_true, referenceDeleteSubmission]

/-- Two users, two problems and their submissions. -/
def sample : Tables where
  users := [⟨1, text "Alice", none⟩, ⟨2, text "Bob", none⟩]
  problems := [⟨198, text "House Robber", none⟩, ⟨213, text "House Robber II", none⟩]
  problemTypeMap := [⟨198, text "DP"⟩, ⟨198, text "Array"⟩, ⟨213, text "DP"⟩]
  submissions :=
    [⟨1, some 198, some 1, some 0, some (text "00:45:00"), some 45, some (text "2024-01-01")⟩,
      ⟨2, some 198, some 2, some 1, some (text "00:10:00"), some 10, some (text "2024-01-02")⟩,
      ⟨3, some 198, some 1, some 1, some (text "00:25:00"), some 25, some (text "2024-01-03")⟩,
      ⟨4, some 213, some 1, some 1, some (text "00:15:00"), some 15, some (text "2024-01-04")⟩]

/-- The sample has the keys of `init.sql`. -/
theorem keys_sample : Keys id sample where
  usersId := by decide
  usersUsername := by decide
  problemsId := by decide
  problemsTitle := by decide
  problemTypeMap := by decide
  submissionsId := by decide
  typeOfProblem := by decide
  submissionOfUser := by decide
  submissionOfProblem := by decide

end Database
end WeakAyas
