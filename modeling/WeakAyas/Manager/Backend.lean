/-
# The driver behind a request

`SQLManager` holds an `SQL_Driver`, and a request asks it one operation at most
beside `checkUserId`.  Here the driver of a request is the operations of
`sql_driver.cpp` on a database (`driverOn`), and the database after a request is
what its changes have made of it (`databaseAfter`).
-/

import WeakAyas.Manager.Permitted
import WeakAyas.Driver.Escapes

namespace WeakAyas
namespace Manager

open Driver

variable {Db : Type} (dbms : Dbms Db)

/-- The answers of the driver on the database, when the connector calls `f`
fail. -/
def driverOn (f : ℕ → Bool) (db : Db) : SqlDriver where
  getUserId username := (Query.getUserId username).perform dbms f db
  registerUser username := ((Mutation.registerUser username).perform dbms f db).1
  deleteUser username := ((Mutation.deleteUser username).perform dbms f db).1
  insertProblem id title difficulty :=
    ((Mutation.insertProblem id title difficulty).perform dbms f db).1
  deleteProblem problem_id := ((Mutation.deleteProblem problem_id).perform dbms f db).1
  insertProblemType problem_id problem_type :=
    ((Mutation.insertProblemType problem_id problem_type).perform dbms f db).1
  deleteProblemType problem_id problem_type :=
    ((Mutation.deleteProblemType problem_id problem_type).perform dbms f db).1
  insertSubmitted users_id problem_id status time_spent :=
    ((Mutation.insertSubmitted users_id problem_id status time_spent).perform dbms f db).1
  deleteSubmission submission_id users_id :=
    ((Mutation.deleteSubmission submission_id users_id).perform dbms f db).1
  getSubmissions users_id problem_id :=
    (Query.getSubmissions users_id problem_id).perform dbms f db
  selectUnitsData user_id := (Query.selectUnitsData user_id).perform dbms f db
  selectUnitdetail user_id unit := (Query.selectUnitdetail user_id unit).perform dbms f db

/-- The answer is that of the operation. -/
theorem driverOn_getSubmissions (f : ℕ → Bool) (db : Db) (users_id problem_id : ℤ) :
    (driverOn dbms f db).getSubmissions users_id problem_id =
      (Query.getSubmissions users_id problem_id).perform dbms f db := rfl

/-- The change of a table that a call asks for. -/
def Action.mutation : Action → Option Mutation
  | .registerUser username => some (.registerUser username)
  | .deleteUser username => some (.deleteUser username)
  | .insertProblem id title difficulty => some (.insertProblem id title difficulty)
  | .deleteProblem problem_id => some (.deleteProblem problem_id)
  | .insertProblemType problem_id problem_type => some (.insertProblemType problem_id problem_type)
  | .deleteProblemType problem_id problem_type => some (.deleteProblemType problem_id problem_type)
  | .insertSubmitted users_id problem_id status time_spent =>
    some (.insertSubmitted users_id problem_id status time_spent)
  | .deleteSubmission submission_id users_id => some (.deleteSubmission submission_id users_id)
  | .getUserId _ | .checkUserId _ | .getSubmissions _ _ | .selectUnitsData _
  | .selectUnitdetail _ _ | .sendData _ _ _ => none

/-- The committed database after the calls of a request. -/
def databaseAfter (f : ℕ → Bool) (log : List Action) (db : Db) : Db :=
  (log.filterMap Action.mutation).foldl (fun db m => (m.perform dbms f db).2) db

/-- What every change of the log keeps, the request keeps. -/
theorem databaseAfter_induction {f : ℕ → Bool} {log : List Action} {P : Db → Prop}
    (hstep : ∀ a ∈ log, ∀ m, a.mutation = some m → ∀ db, P db → P (m.apply dbms db)) {db : Db}
    (h : P db) : P (databaseAfter dbms f log db) := by
  unfold databaseAfter
  induction log generalizing db with
  | nil => exact h
  | cons a log ih =>
    have ih := @ih fun b hb => hstep b (List.mem_cons_of_mem _ hb)
    rw [List.filterMap_cons]
    rcases ha : a.mutation with _ | m
    · exact ih h
    · refine ih (?_ : P (m.perform dbms f db).2)
      rcases perform_database dbms m f db with hdb | hdb <;> rw [hdb]
      · exact h
      · exact hstep a List.mem_cons_self m ha db h

end Manager
end WeakAyas
