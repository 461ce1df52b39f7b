/-
# What all statements mean

The other statements of `sql_driver.cpp` on the tables: the five changes of an
administrator (lines 186-189, 220-226, 276-279, 330-334, 393-396) with the cascades
of `init.sql`, the search for a user (lines 97-100), and the row locks.

| statement | definition |
| --- | --- |
| `DELETE FROM users WHERE username = ?` | `deleteUser` |
| `INSERT INTO problems` | `insertProblem` |
| `DELETE FROM problems WHERE id = ?` | `deleteProblem` |
| `INSERT INTO problem_type_map` | `insertProblemType` |
| `DELETE FROM problem_type_map WHERE problem_id = ? AND problem_type = ?` | `deleteProblemType` |

`Enforces` says of a standard database that it gives all statements of the driver
this meaning and enforces the keys.  Which values suit their columns is its own.
-/

import WeakAyas.Database.Statements

namespace WeakAyas
namespace Database

open Driver

variable {κ : Type} [DecidableEq κ] (collation : Bytes → κ)

/-! ### Rows that a condition takes -/

/-- `username = ?`. -/
def User.named (username : Bytes) (u : User) : Bool :=
  decide (collation u.username = collation username)

/-- `problem_id = ? AND problem_type = ?`. -/
def ProblemType.isOf (problem_id : ℤ) (problem_type : Bytes) (t : ProblemType) : Bool :=
  t.problemId == problem_id && decide (collation t.problemType = collation problem_type)

/-- `id = ? AND users_id = ?`. -/
def Submission.isOf (submission_id users_id : ℤ) (s : Submission) : Bool :=
  s.id == submission_id && s.ofUser users_id

/-! ### Changes -/

/-- `DELETE FROM users WHERE username = ?`, and the submissions of these users. -/
def deleteUser (username : Bytes) (db : Tables) : Tables :=
  { db with
    users := db.users.filter fun u => !u.named collation username
    submissions := db.submissions.filter fun s =>
      !db.users.any fun u => u.named collation username && s.ofUser u.id }

/-- `INSERT INTO problems (id, title, difficulty) VALUES (?, ?, ?)`. -/
def insertProblem (id : ℤ) (title difficulty : Bytes) (db : Tables) : Tables :=
  { db with problems := db.problems ++ [⟨id, title, some difficulty⟩] }

/-- `DELETE FROM problems WHERE id = ?`, and the types and submissions of the
problem. -/
def deleteProblem (problem_id : ℤ) (db : Tables) : Tables :=
  { db with
    problems := db.problems.filter fun p => !p.id == problem_id
    problemTypeMap := db.problemTypeMap.filter fun t =>
      !db.problems.any fun p => p.id == problem_id && p.id == t.problemId
    submissions := db.submissions.filter fun s =>
      !db.problems.any fun p => p.id == problem_id && s.ofProblem p.id }

/-- `INSERT INTO problem_type_map (problem_id, problem_type) VALUES (?, ?)`. -/
def insertProblemType (problem_id : ℤ) (problem_type : Bytes) (db : Tables) : Tables :=
  { db with problemTypeMap := db.problemTypeMap ++ [⟨problem_id, problem_type⟩] }

/-- `DELETE FROM problem_type_map WHERE problem_id = ? AND problem_type = ?`. -/
def deleteProblemType (problem_id : ℤ) (problem_type : Bytes) (db : Tables) : Tables :=
  { db with
    problemTypeMap := db.problemTypeMap.filter fun t => !t.isOf collation problem_id problem_type }

/-- What the database itself puts into a row: the next `AUTO_INCREMENT`, the value
of a `TIME`, and `CURDATE()`. -/
structure Stamp where
  id : ℤ
  time : Option Bytes
  curdate : Bytes

/-- What a change makes of the tables. -/
def effect (stamp : Stamp) : Mutation → Tables → Tables
  | .registerUser username => insertUser stamp.id username stamp.curdate
  | .deleteUser username => deleteUser collation username
  | .insertProblem id title difficulty => insertProblem id title difficulty
  | .deleteProblem problem_id => deleteProblem problem_id
  | .insertProblemType problem_id problem_type => insertProblemType problem_id problem_type
  | .deleteProblemType problem_id problem_type =>
    deleteProblemType collation problem_id problem_type
  | .insertSubmitted users_id problem_id status time_spent =>
    insertSubmission stamp.id users_id problem_id status stamp.time (getMinuteFromTime time_spent)
      stamp.curdate
  | .deleteSubmission submission_id users_id => deleteSubmission submission_id users_id

/-- An `INSERT`. -/
def inserts : Mutation → Bool
  | .registerUser _ | .insertProblem _ _ _ | .insertProblemType _ _ | .insertSubmitted _ _ _ _ =>
    true
  | .deleteUser _ | .deleteProblem _ | .deleteProblemType _ _ | .deleteSubmission _ _ => false

/-- An `INSERT` finds its keys free and the rows it refers to; a `DELETE` finds a
row. -/
def admits (db : Tables) : Mutation → Bool
  | .registerUser username => !db.users.any (·.named collation username)
  | .deleteUser username => db.users.any (·.named collation username)
  | .insertProblem id title _ =>
    !db.problems.any fun p => p.id == id || decide (collation p.title = collation title)
  | .deleteProblem problem_id => db.problems.any (·.id == problem_id)
  | .insertProblemType problem_id problem_type =>
    db.problems.any (·.id == problem_id) &&
      !db.problemTypeMap.any (·.isOf collation problem_id problem_type)
  | .deleteProblemType problem_id problem_type =>
    db.problemTypeMap.any (·.isOf collation problem_id problem_type)
  | .insertSubmitted users_id problem_id _ _ =>
    db.users.any (·.id == users_id) && db.problems.any (·.id == problem_id)
  | .deleteSubmission submission_id users_id =>
    db.submissions.any (·.isOf submission_id users_id)

/-- The `AUTO_INCREMENT` of the new row is not the id of another. -/
def Fresh (stamp : Stamp) (db : Tables) : Mutation → Prop
  | .registerUser _ => ∀ u ∈ db.users, u.id ≠ stamp.id
  | .insertSubmitted _ _ _ _ => ∀ s ∈ db.submissions, s.id ≠ stamp.id
  | _ => True

/-! ### Row locks -/

/-- The `SELECT ... FOR UPDATE` of an operation. -/
def lockStmt : Mutation → Option Stmt
  | .registerUser _ | .deleteUser _ | .insertProblem _ _ _ => none
  | .deleteProblem problem_id =>
    some ⟨"SELECT id FROM problems WHERE id = ? FOR UPDATE", [(1, .int problem_id)]⟩
  | .insertProblemType problem_id problem_type | .deleteProblemType problem_id problem_type =>
    some ⟨"SELECT problem_id FROM problem_type_map WHERE problem_id = ? AND problem_type = ? " ++
      "FOR UPDATE", [(1, .int problem_id), (2, .str problem_type)]⟩
  | .insertSubmitted users_id _ _ _ =>
    some ⟨"SELECT username FROM users WHERE id = ? FOR UPDATE", [(1, .int users_id)]⟩
  | .deleteSubmission submission_id users_id =>
    some ⟨"SELECT id FROM submissions WHERE id = ? AND users_id = ? FOR UPDATE",
      [(1, .int submission_id), (2, .int users_id)]⟩

/-- The lock finds a row. -/
def locks (db : Tables) : Mutation → Bool
  | .registerUser _ | .deleteUser _ | .insertProblem _ _ _ => true
  | .deleteProblem problem_id => db.problems.any (·.id == problem_id)
  | .insertProblemType problem_id problem_type | .deleteProblemType problem_id problem_type =>
    db.problemTypeMap.any (·.isOf collation problem_id problem_type)
  | .insertSubmitted users_id _ _ _ => db.users.any (·.id == users_id)
  | .deleteSubmission submission_id users_id => db.submissions.any (·.isOf submission_id users_id)

/-! ### A database that enforces the keys -/

/-- A standard database with all statements of the driver.  `fits` tells which
values suit their columns.  An `INSERT` of other values, or against a key, affects
no row; the exception that comes with it is one of the faults. -/
structure Enforces (fits : Mutation → Prop) (dbms : Dbms Tables) : Prop
    extends Standard collation dbms where
  getUserId : ∀ username db,
    ((dbms.query ((Query.getUserId username).stmt db) db).map (·.int "id")).Perm
      ((db.users.filter (·.named collation username)).map User.id)
  lock : ∀ m p db, lockStmt m = some p →
    (dbms.query p db).isEmpty = !locks collation db m
  insert : ∀ m db, inserts m = true → fits m → admits collation db m = true →
    ∃ stamp, Fresh stamp db m ∧ dbms.update m.stmt db = (effect collation stamp m db, 1)
  refuse : ∀ m db, inserts m = true → ¬ (fits m ∧ admits collation db m = true) →
    dbms.update m.stmt db = (db, 0)
  delete : ∀ m db stamp, inserts m = false →
    (dbms.update m.stmt db).1 = effect collation stamp m db ∧
      ((dbms.update m.stmt db).2 = 0 ↔ admits collation db m = false)

end Database
end WeakAyas
