/-
# The operations of the driver

The twelve operations of `sql_driver.cpp` that open a connection.  Eight change
a table and have one shape (`mutation`): a row lock where there is one, the
change, its check, `commit`; four only read (`query`).

| operation | lines | lock | gives up unless |
| --- | --- | --- | --- |
| `registerUser` | 145-176 | | a row is affected |
| `deleteUser` | 179-210 | | a row is affected |
| `InsertProblem` | 213-247 | | a row is affected |
| `DeleteProblem` | 250-299 | the problem | it exists, a row is affected |
| `InsertProblemType` | 303-361 | the mapping | it is absent, a row is affected |
| `DeleteProblemType` | 365-423 | the mapping | it exists, a row is affected |
| `InsertSubmitted` | 433-485 | the user | it exists |
| `DeleteSubmission` | 488-552 | the submission | it exists, a row is affected |

The white space inside the two long `SELECT` texts is collapsed.
-/

import WeakAyas.Driver.Connection
import WeakAyas.Library.Rounding
import WeakAyas.Wire.Decimal

namespace WeakAyas
namespace Driver

variable {Db ρ : Type} (dbms : Dbms Db)

/-- `con->rollback(); con->setAutoCommit(true); return false;` -/
def giveUp : Sql Db Unit Bool := do
  rollback
  setAutoCommit true
  return false

/-- The `try` block of an operation that changes a table: `lock` tells whether
to go on, `change` prepares the update, `accepts` checks the affected rows, and
`report` is what happens before the commit. -/
def mutation (lock : Sql Db Unit Bool) (change : Sql Db Unit Stmt) (accepts : ℕ → Bool)
    (report : Sql Db Unit Unit) : Sql Db Unit Bool := do
  setAutoCommit false
  if ← lock then
    let p ← change
    let affected ← executeUpdate dbms p
    if accepts affected then
      report
      commit
      setAutoCommit true
      return true
    else giveUp
  else giveUp

/-- `SQL_Driver::getMinuteFromTime`: `sscanf` with `%d:%d:%d`, and `hh * 60 + mm` in
an `int`. -/
def getMinuteFromTime (t : Bytes) : ℤ :=
  match scanD (t.takeWhile (· != 0)) with
  | some (hh, 58 :: rest) => match scanD rest with
    | some (mm, 58 :: rest) => match scanD rest with
      | some _ => wrapInt (hh * 60 + mm)
      | none => -1
    | _ => -1
  | _ => -1

/-- The operations that change a table, with their arguments. -/
inductive Mutation where
  | registerUser (username : Bytes)
  | deleteUser (username : Bytes)
  | insertProblem (id : ℤ) (title difficulty : Bytes)
  | deleteProblem (problem_id : ℤ)
  | insertProblemType (problem_id : ℤ) (problem_type : Bytes)
  | deleteProblemType (problem_id : ℤ) (problem_type : Bytes)
  | insertSubmitted (users_id problem_id : ℤ) (status : Bool) (time_spent : Bytes)
  | deleteSubmission (submission_id users_id : ℤ)

namespace Mutation

/-- The row lock, and whether the operation goes on. -/
def lock : Mutation → Sql Db Unit Bool
  | registerUser _ | deleteUser _ | insertProblem _ _ _ => return true
  | deleteProblem problem_id => do
    let pstmt_lock ← prepareStatement "SELECT id FROM problems WHERE id = ? FOR UPDATE"
    let pstmt_lock ← setInt pstmt_lock 1 problem_id
    let res ← executeQuery dbms pstmt_lock
    next res
  | insertProblemType problem_id problem_type => do
    let pstmt_lock ← prepareStatement
      "SELECT problem_id FROM problem_type_map WHERE problem_id = ? AND problem_type = ? FOR UPDATE"
    let pstmt_lock ← setInt pstmt_lock 1 problem_id
    let pstmt_lock ← setString pstmt_lock 2 problem_type
    let res ← executeQuery dbms pstmt_lock
    let found ← next res
    return !found
  | deleteProblemType problem_id problem_type => do
    let pstmt_lock ← prepareStatement
      "SELECT problem_id FROM problem_type_map WHERE problem_id = ? AND problem_type = ? FOR UPDATE"
    let pstmt_lock ← setInt pstmt_lock 1 problem_id
    let pstmt_lock ← setString pstmt_lock 2 problem_type
    let res ← executeQuery dbms pstmt_lock
    next res
  | insertSubmitted users_id _ _ _ => do
    let pstmt ← prepareStatement "SELECT username FROM users WHERE id = ? FOR UPDATE"
    let pstmt ← setInt pstmt 1 users_id
    let res ← executeQuery dbms pstmt
    let _ ← next res
    match res with
    | row :: _ => do
      let _ ← getString row "username"
      return true
    | [] => return false
  | deleteSubmission submission_id users_id => do
    let pstmt_lock ← prepareStatement
      "SELECT id FROM submissions WHERE id = ? AND users_id = ? FOR UPDATE"
    let pstmt_lock ← setInt pstmt_lock 1 submission_id
    let pstmt_lock ← setInt pstmt_lock 2 users_id
    let res_lock ← executeQuery dbms pstmt_lock
    next res_lock

/-- The update, prepared and bound. -/
def change : Mutation → Sql Db Unit Stmt
  | registerUser username => do
    let pstmt ← prepareStatement "INSERT INTO users (username, created_at) VALUES (?, CURDATE())"
    setString pstmt 1 username
  | deleteUser username => do
    let pstmt ← prepareStatement "DELETE FROM users WHERE username = ?"
    setString pstmt 1 username
  | insertProblem id title difficulty => do
    let pstmt ← prepareStatement "INSERT INTO problems (id, title, difficulty) VALUES (?, ?, ?)"
    let pstmt ← setInt pstmt 1 id
    let pstmt ← setString pstmt 2 title
    setString pstmt 3 difficulty
  | deleteProblem problem_id => do
    let pstmt ← prepareStatement "DELETE FROM problems WHERE id = ?"
    setInt pstmt 1 problem_id
  | insertProblemType problem_id problem_type => do
    let pstmt ← prepareStatement
      "INSERT INTO problem_type_map (problem_id, problem_type) VALUES (?, ?)"
    let pstmt ← setInt pstmt 1 problem_id
    setString pstmt 2 problem_type
  | deleteProblemType problem_id problem_type => do
    let pstmt ← prepareStatement
      "DELETE FROM problem_type_map WHERE problem_id = ? AND problem_type = ?"
    let pstmt ← setInt pstmt 1 problem_id
    setString pstmt 2 problem_type
  | insertSubmitted users_id problem_id status time_spent => do
    let pstmt ← prepareStatement ("INSERT INTO submissions (problem_id, users_id, status, " ++
      "time_spent, time_spent_min, submit_date) VALUES (?, ?, ?, ?, ?, CURDATE())")
    let pstmt ← setInt pstmt 1 problem_id
    let pstmt ← setInt pstmt 2 users_id
    let pstmt ← setBoolean pstmt 3 status
    let pstmt ← setString pstmt 4 time_spent
    setInt pstmt 5 (getMinuteFromTime time_spent)
  | deleteSubmission submission_id users_id => do
    let pstmt ← prepareStatement "DELETE FROM submissions WHERE id = ? AND users_id = ?"
    let pstmt ← setInt pstmt 1 submission_id
    setInt pstmt 2 users_id

/-- `affected > 0`; `InsertSubmitted` does not look at the count. -/
def accepts : Mutation → ℕ → Bool
  | insertSubmitted _ _ _ _, _ => true
  | _, affected => affected > 0

/-- The query that `DeleteSubmission` makes for its message. -/
def report : Mutation → Sql Db Unit Unit
  | deleteSubmission _ users_id => do
    let pstmt ← prepareStatement "SELECT username FROM users WHERE id = ?"
    let pstmt ← setInt pstmt 1 users_id
    let res ← executeQuery dbms pstmt
    let _ ← next res
    match res with
    | row :: _ => do
      let _ ← getString row "username"
      return ()
    | [] => return ()
  | _ => return ()

/-- `if(users_id == -1) return false;`, before a connection is opened. -/
def refused : Mutation → Bool
  | insertSubmitted users_id _ _ _ | deleteSubmission _ users_id => users_id == -1
  | _ => false

/-- The operation under the faults `f`: what it returns or throws, and the
committed database afterwards. -/
def perform (m : Mutation) (f : ℕ → Bool) (db : Db) : Except SqlException Bool × Db :=
  if m.refused then (.ok false, db)
  else operation f () (mutation dbms (m.lock dbms) m.change m.accepts (m.report dbms))
    (fun ok _ => ok) (fun _ => false) db

end Mutation

/-! ### Queries -/

/-- The operations that only read. -/
inductive Query where
  | getUserId (username : Bytes)
  | getSubmissions (users_id problem_id : ℤ)
  | selectUnitsData (user_id : ℤ)
  | selectUnitdetail (user_id : ℤ) (unit : Bytes)

namespace Query

/-- What a query returns. -/
def Answer : Query → Type
  | getUserId _ => ℤ
  | getSubmissions _ _ => Submissions
  | selectUnitsData _ => List Units
  | selectUnitdetail _ _ => List UnitStat

/-- The value of the local variable at the start. -/
def empty : (q : Query) → q.Answer
  | getUserId _ => (-1 : ℤ)
  | getSubmissions _ _ => ([] : Submissions)
  | selectUnitsData _ => ([] : List Units)
  | selectUnitdetail _ _ => ([] : List UnitStat)

/-- The query, prepared and bound. -/
def select : Query → Sql Db ρ Stmt
  | getUserId username => do
    let pstmt ← prepareStatement "SELECT id FROM users WHERE username = ?"
    setString pstmt 1 username
  | getSubmissions users_id problem_id => do
    let pstmt ← prepareStatement
      ("SELECT id, users_id, problem_id, status, time_spent, time_spent_min, submit_date " ++
        "FROM submissions WHERE users_id = ? AND problem_id = ? ORDER BY id ASC")
    let pstmt ← setInt pstmt 1 users_id
    setInt pstmt 2 problem_id
  | selectUnitsData user_id => do
    let pstmt ← prepareStatement
      ("SELECT pt.problem_type AS unit, COUNT(DISTINCT p.id) AS problems_solved, " ++
        "COUNT(p.id) AS total_submit, " ++
        "SUM(CASE WHEN s.status = 1 AND s.time_spent_min <= 20 THEN 1 ELSE 0 END) AS solved_20min, " ++
        "SUM(CASE WHEN s.status = 1 AND s.time_spent_min <= 30 THEN 1 ELSE 0 END) AS solved_30min, " ++
        "SUM(CASE WHEN s.status = 0 OR s.time_spent_min > 30 THEN 1 ELSE 0 END) " ++
        "AS solved_over_30min FROM problem_type_map pt JOIN problems p ON p.id = pt.problem_id " ++
        "JOIN submissions s ON s.problem_id = p.id WHERE s.users_id = ? " ++
        "GROUP BY pt.problem_type " ++
        "ORDER BY solved_over_30min DESC, solved_30min DESC, solved_20min DESC;")
    setInt pstmt 1 user_id
  | selectUnitdetail user_id unit => do
    let pstmt ← prepareStatement
      ("SELECT p.id AS Exam_No, p.title AS Name, COUNT(s.id) AS total_submit, " ++
        "SUM(CASE WHEN s.status = 1 AND s.time_spent_min <= 20 THEN 1 ELSE 0 END) AS solved_20min, " ++
        "SUM(CASE WHEN s.status = 1 AND s.time_spent_min <= 30 THEN 1 ELSE 0 END) AS solved_30min, " ++
        "SUM(CASE WHEN s.status = 0 OR s.time_spent_min > 30 THEN 1 ELSE 0 END) " ++
        "AS solved_over_30min, e.submit_date AS last_solved_date, " ++
        "e.time_spent AS last_solved_time, e.status AS last_status FROM problems p " ++
        "JOIN problem_type_map pt ON p.id = pt.problem_id " ++
        "JOIN submissions s ON s.problem_id = p.id AND s.users_id = ? " ++
        "JOIN ( SELECT s1.problem_id, s1.time_spent, s1.status, s1.submit_date " ++
        "FROM submissions s1 JOIN ( SELECT problem_id, MAX(id) AS max_id FROM submissions " ++
        "WHERE users_id = ? GROUP BY problem_id ) s2 ON s1.id = s2.max_id " ++
        "WHERE s1.users_id = ? ) e ON e.problem_id = p.id WHERE pt.problem_type = ? " ++
        "GROUP BY p.id, p.title, e.submit_date, e.time_spent, e.status " ++
        "ORDER BY last_solved_date DESC, solved_over_30min DESC, solved_30min DESC, " ++
        "solved_20min DESC;")
    let pstmt ← setInt pstmt 1 user_id
    let pstmt ← setInt pstmt 2 user_id
    let pstmt ← setInt pstmt 3 user_id
    setString pstmt 4 unit

/-- The `double` of a value: 53 binary digits.  No rate comes near the ends of the
exponents. -/
def double (x : ℚ) : ℚ := Rounding.roundBinary 53 x

/-- `total ? (double)solved / total * 100 : 0`. -/
def rate (solved total : ℤ) : ℚ :=
  if total ≠ 0 then double (double (double solved / double total) * 100) else 0

/-- Less than 14.375: the quotient has been rounded down. -/
example : rate 23 160 < 14375 / 1000 ∧ 14374999 / 1000000 < rate 23 160 ∧ rate 1 2 = 50 := by
  decide +kernel

def readUnits (res : Row) : Sql Db ρ Units := do
  let unit ← getString res "unit"
  let problems_solved ← getInt res "problems_solved"
  let total_submit ← getInt res "total_submit"
  let solved_20min ← getInt res "solved_20min"
  let solved_30min ← getInt res "solved_30min"
  let solved_over_30min ← getInt res "solved_over_30min"
  return ⟨unit, problems_solved, total_submit, solved_20min, solved_30min, solved_over_30min,
    rate solved_20min total_submit, rate solved_30min total_submit,
    rate solved_over_30min total_submit⟩

def readUnitStat (res : Row) : Sql Db ρ UnitStat := do
  let exam_No ← getInt res "Exam_No"
  let exam_name ← getString res "Name"
  let totalExam ← getInt res "total_submit"
  let solved_20min ← getInt res "solved_20min"
  let solved_30min ← getInt res "solved_30min"
  let solved_over_30min ← getInt res "solved_over_30min"
  let last_date ← getString res "last_solved_date"
  let last_date_time ← getString res "last_solved_time"
  let last_status ← getBoolean res "last_status"
  return ⟨exam_No, exam_name, totalExam, solved_20min, solved_30min, solved_over_30min, last_date,
    last_date_time, if last_status then text "Solved" else text "Unsolved"⟩

def readExamInfo (res : Row) : Sql Db ρ (ℤ × ExamInfo) := do
  let submit_id ← getInt res "id"
  let user_id ← getInt res "users_id"
  let problem_id ← getInt res "problem_id"
  let state ← getBoolean res "status"
  let s_solvedtime ← getString res "time_spent"
  let i_solvedtime ← getInt res "time_spent_min"
  let date ← getString res "submit_date"
  return (submit_id, ⟨user_id, problem_id, state, s_solvedtime, i_solvedtime, date⟩)

/-- `examsubmitdata[submit_id] = info`. -/
def storeExamInfo (x : ℤ × ExamInfo) (subs : Submissions) : Submissions :=
  if subs.any fun y => y.1 == x.1 then subs.map fun y => if y.1 == x.1 then x else y
  else subs ++ [x]

/-- `stats.push_back(u)`. -/
def pushBack {α : Type} (u : α) (stats : List α) : List α := stats ++ [u]

/-- The loop over the rows: `getUserId` takes the first row only. -/
def collect : (q : Query) → List Row → Sql Db q.Answer Unit
  | getUserId _, res => do
    let _ ← next res
    match res with
    | row :: _ => do
      let user_id ← getInt row "id"
      setOut fun _ => user_id
    | [] => return ()
  | getSubmissions _ _, res => fetch readExamInfo storeExamInfo res
  | selectUnitsData _, res => fetch readUnits pushBack res
  | selectUnitdetail _ _, res => fetch readUnitStat pushBack res

/-- The `try` block of a query. -/
def body (q : Query) : Sql Db q.Answer Unit := do
  setAutoCommit false
  let _iso ← prepareStatement "SET TRANSACTION ISOLATION LEVEL REPEATABLE READ"
  execute "SET TRANSACTION ISOLATION LEVEL REPEATABLE READ"
  let pstmt ← q.select
  let res ← executeQuery dbms pstmt
  q.collect res
  commit
  setAutoCommit true

/-- `if(user_id == -1) return {};`, before a connection is opened. -/
def refused : Query → Bool
  | selectUnitsData user_id | selectUnitdetail user_id _ => user_id == -1
  | _ => false

/-- The query under the faults `f`: what it returns or throws. -/
def perform (q : Query) (f : ℕ → Bool) (db : Db) : Except SqlException q.Answer :=
  if q.refused then .ok q.empty
  else (operation f q.empty (q.body dbms) (fun _ out => out) id db).1

end Query

end Driver
end WeakAyas
