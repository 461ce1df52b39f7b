/-
# A connection to the database

The calls of the MySQL connector that `sql_driver.cpp` makes, on the state of
one connection, and the frame of every operation: `getConnection` (lines 49-67),
the `try` block, and the `catch` block that rolls back and switches autocommit
on again.

The server keeps a committed database and, while autocommit is off, the work of
the open transaction.  Switching autocommit on commits that work, as MySQL does;
closing the connection discards it.  What a statement does is a parameter
(`Dbms`).  Each call may throw `sql::SQLException` instead, by its number in the
operation (`Script.run`).
-/

import WeakAyas.Driver.Records
import WeakAyas.Library.Script

namespace WeakAyas
namespace Driver

open Script

/-- A value bound to a `?`. -/
inductive Param where
  | int (n : ℤ)
  | str (s : Bytes)
  | bool (b : Bool)
  deriving DecidableEq, Repr

/-- A `sql::PreparedStatement`: its text and what is bound to its parameters. -/
structure Stmt where
  sql : String
  params : List (ℕ × Param)
  deriving DecidableEq, Repr

/-- A row of a `sql::ResultSet`, by the type that is asked of a column. -/
structure Row where
  int : String → ℤ
  str : String → Bytes
  bool : String → Bool

/-- What the statements mean to the database, outside of this repository.  An
update that affects no row changes nothing. -/
structure Dbms (Db : Type) where
  query : Stmt → Db → List Row
  update : Stmt → Db → Db × ℕ
  unchanged : ∀ p db, (update p db).2 = 0 → (update p db).1 = db

/-- A connection: what is committed, what its transaction has made of it, and
the local variable of the operation that its `catch` block still sees. -/
structure Conn (Db ρ : Type) where
  committed : Db
  work : Db
  autoCommit : Bool
  out : ρ

/-- A script of connector calls. -/
abbrev Sql (Db ρ : Type) := Script (Conn Db ρ)

variable {Db ρ α β : Type}

/-- `driver->connect(url, user, password)`. -/
def connect : Sql Db ρ Unit := ask fun _ => ()

/-- `conn->setSchema(schema)`. -/
def setSchema (_schema : String) : Sql Db ρ Unit := ask fun _ => ()

/-- `conn->createStatement()`. -/
def createStatement : Sql Db ρ Unit := ask fun _ => ()

/-- `execute` of a statement that changes no data. -/
def execute (_sql : String) : Sql Db ρ Unit := ask fun _ => ()

/-- The effect of `SET autocommit`: switched on, it commits the open
transaction. -/
def Conn.setAutoCommit (on : Bool) (c : Conn Db ρ) : Conn Db ρ :=
  { c with autoCommit := on, committed := if on && !c.autoCommit then c.work else c.committed }

/-- `con->setAutoCommit(on)`. -/
def setAutoCommit (on : Bool) : Sql Db ρ Unit := prim (Conn.setAutoCommit on) fun _ => ()

/-- `con->prepareStatement(sql)`. -/
def prepareStatement (sql : String) : Sql Db ρ Stmt := ask fun _ => ⟨sql, []⟩

/-- `setInt`, `setInt64`, `setString` and `setBoolean`. -/
def setParam (p : Stmt) (i : ℕ) (x : Param) : Sql Db ρ Stmt :=
  ask fun _ => { p with params := p.params ++ [(i, x)] }

def setInt (p : Stmt) (i : ℕ) (n : ℤ) : Sql Db ρ Stmt := setParam p i (.int n)

def setString (p : Stmt) (i : ℕ) (s : Bytes) : Sql Db ρ Stmt := setParam p i (.str s)

def setBoolean (p : Stmt) (i : ℕ) (b : Bool) : Sql Db ρ Stmt := setParam p i (.bool b)

/-- `pstmt->executeQuery()`. -/
def executeQuery (dbms : Dbms Db) (p : Stmt) : Sql Db ρ (List Row) :=
  ask fun c => dbms.query p c.work

/-- The effect of an update on the transaction, or at once with autocommit. -/
def Conn.executeUpdate (dbms : Dbms Db) (p : Stmt) (c : Conn Db ρ) : Conn Db ρ :=
  { c with
    work := (dbms.update p c.work).1
    committed := if c.autoCommit then (dbms.update p c.work).1 else c.committed }

/-- `pstmt->executeUpdate()`, the number of rows it affects. -/
def executeUpdate (dbms : Dbms Db) (p : Stmt) : Sql Db ρ ℕ :=
  prim (Conn.executeUpdate dbms p) fun c => (dbms.update p c.work).2

/-- `res->next()` on a cursor before the rows `res`. -/
def next (res : List Row) : Sql Db ρ Bool := ask fun _ => !res.isEmpty

/-- `getInt` and `getInt64`. -/
def getInt (r : Row) (column : String) : Sql Db ρ ℤ := ask fun _ => r.int column

def getString (r : Row) (column : String) : Sql Db ρ Bytes := ask fun _ => r.str column

def getBoolean (r : Row) (column : String) : Sql Db ρ Bool := ask fun _ => r.bool column

/-- `con->commit()`. -/
def commit : Sql Db ρ Unit := prim (fun c => { c with committed := c.work }) fun _ => ()

/-- `con->rollback()`. -/
def rollback : Sql Db ρ Unit := prim (fun c => { c with work := c.committed }) fun _ => ()

/-- An assignment to the local variable. -/
def setOut (e : ρ → ρ) : Sql Db ρ Unit := .assign (fun c => { c with out := e c.out }) (.ret ())

/-- `while (res->next()) { read the row; store it }`. -/
def fetch (read : Row → Sql Db ρ β) (store : β → ρ → ρ) : List Row → Sql Db ρ Unit
  | [] => do
    let _ ← next []
    return ()
  | r :: rows => do
    let _ ← next (r :: rows)
    let x ← read r
    setOut (store x)
    fetch read store rows

/-- `SQL_Driver::getConnection`. -/
def getConnection : Sql Db ρ Unit := do
  connect
  setSchema "leetcode_tracker"
  setAutoCommit true
  createStatement
  execute "SET TRANSACTION ISOLATION LEVEL REPEATABLE READ"

/-- A new connection to `db`, and the local variable at its start. -/
def Conn.opened (db : Db) (out : ρ) : Conn Db ρ := ⟨db, db, true, out⟩

/-- The `catch` block: `try { con->rollback(); } catch(...){}`, then
`con->setAutoCommit(true)` without a guard.  The value returned, unless that
call throws, and the committed database. -/
def handleException (f : ℕ → Bool) (failed : ρ → α) (n : ℕ) (c : Conn Db ρ) :
    Except SqlException α × Db :=
  match rollback.run f n c with
  | (_, n, c) => match (setAutoCommit true).run f n c with
    | (some _, _, c) => (.ok (failed c.out), c.committed)
    | (none, _, c) => (.error ⟨⟩, c.committed)

/-- The frame of every operation, under the faults `f`: what it returns or
throws, and the committed database afterwards. -/
def operation (f : ℕ → Bool) (out : ρ) (body : Sql Db ρ β) (returned : β → ρ → α) (failed : ρ → α)
    (db : Db) : Except SqlException α × Db :=
  match getConnection.run f 0 (.opened db out) with
  | (none, _, c) => (.ok (failed c.out), c.committed)  -- `nullptr`
  | (some _, n, c) => match body.run f n c with
    | (some a, _, c) => (.ok (returned a c.out), c.committed)
    | (none, n, c) => handleException f failed n c

/-! ### What an operation does -/

/-- The calls of `getConnection`. -/
def connectionCalls : ℕ := 5

theorem along_getConnection (db : Db) (out : ρ) :
    getConnection.Along (· = Conn.opened db out) (Conn.opened db out) := by
  rintro (_ | _ | _ | _ | _ | k) <;> rfl

/-- Without a fault among its calls an operation returns its value. -/
theorem operation_of_quiet {f : ℕ → Bool} {out : ρ} {body : Sql Db ρ β} {returned : β → ρ → α}
    {failed : ρ → α} {db : Db}
    (h : ∀ i < connectionCalls + body.calls (.opened db out), f i = false) :
    operation f out body returned failed db =
      (.ok (returned (body.value (.opened db out)) (body.final (.opened db out)).out),
        (body.final (.opened db out)).committed) := by
  have hconn : getConnection.run f 0 (Conn.opened db out) = (some (), 5, Conn.opened db out) :=
    run_of_quiet getConnection 0 (Conn.opened db out) fun i hi => by
      rw [Nat.zero_add]
      exact h i (Nat.lt_of_lt_of_le hi (Nat.le_add_right _ _))
  have hbody := run_of_quiet (f := f) body 5 (.opened db out) fun i hi => h (5 + i) (by
    simp only [connectionCalls]; omega)
  rw [operation, hconn]
  simp only [hbody]

/-- A fault in `getConnection` is reported as a failure. -/
theorem operation_of_fault_connecting {f : ℕ → Bool} {out : ρ} {body : Sql Db ρ β}
    {returned : β → ρ → α} {failed : ρ → α} {db : Db} {k : ℕ} (hf : FirstFault f k)
    (hk : k < connectionCalls) :
    operation f out body returned failed db = (.ok (failed out), db) := by
  have hconn := run_of_fault (f := f) getConnection 0 (Conn.opened db out) (k := k) hk
    (by rw [Nat.zero_add]; exact hf.1) fun i hi => by rw [Nat.zero_add]; exact hf.2 i hi
  rw [operation, hconn, along_getConnection db out k]
  rfl

/-- A later fault leaves the work of that moment to the `catch` block. -/
theorem operation_of_fault {f : ℕ → Bool} {out : ρ} {body : Sql Db ρ β} {returned : β → ρ → α}
    {failed : ρ → α} {db : Db} {k : ℕ} (hf : FirstFault f (connectionCalls + k))
    (hk : k < body.calls (.opened db out)) :
    operation f out body returned failed db =
      handleException f failed (connectionCalls + k + 1) (body.stateAt (.opened db out) k) := by
  have hconn : getConnection.run f 0 (Conn.opened db out) = (some (), 5, Conn.opened db out) :=
    run_of_quiet getConnection 0 (Conn.opened db out) fun i hi => by
      rw [Nat.zero_add]
      exact hf.2 i (Nat.lt_of_lt_of_le hi (Nat.le_add_right _ _))
  have hbody := run_of_fault (f := f) body 5 (.opened db out) hk hf.1 fun i hi =>
    hf.2 (5 + i) (by simp only [connectionCalls]; omega)
  rw [operation, hconn]
  simp only [hbody]
  rfl

/-- The database after rolling back, unless that fails, and switching
autocommit on. -/
def Conn.leftBehind (c : Conn Db ρ) (rollbackFails : Bool) : Db :=
  if rollbackFails && !c.autoCommit then c.work else c.committed

/-- The `catch` block fails with its second call.  If that succeeds, the work
is committed when it was not rolled back. -/
theorem handleException_eq (f : ℕ → Bool) (failed : ρ → α) (n : ℕ) (c : Conn Db ρ) :
    handleException f failed n c =
      if f (n + 1) then (.error ⟨⟩, c.committed)
      else (.ok (failed c.out), c.leftBehind (f n)) := by
  cases h : f n <;> cases h' : f (n + 1) <;> cases hc : c.autoCommit <;>
    simp [handleException, rollback, setAutoCommit, prim, Script.run, Conn.setAutoCommit,
      Conn.leftBehind, h, h', hc]

end Driver
end WeakAyas
