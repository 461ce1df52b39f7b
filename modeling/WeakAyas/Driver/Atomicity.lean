/-
# What a change reports and what it leaves

The committed database and the answer of the eight operations that change a
table, under every pattern of failing calls.

An operation makes its update at call `updateAt` and commits at call `commitAt`.
A fault before the update, and a rollback that succeeds, leave the database as
it was.  Two faults do not: the `setAutoCommit(true)` after a commit that went
through, and any fault between the update and the end of the commit when the
rollback of the `catch` block fails too, for then its `setAutoCommit(true)`
commits the work.  In both the operation answers `false` over a changed database
(`Torn`), and nowhere else do answer and database disagree
(`agrees_iff_not_torn`).
-/

import WeakAyas.Driver.Operations

namespace WeakAyas
namespace Driver

open Script

variable {Db ρ : Type}

/-! ### The moments of a mutation -/

variable (dbms : Dbms Db)

/-- The row lock changes nothing. -/
theorem readOnly_lock (m : Mutation) : (m.lock dbms).ReadOnly := by
  cases m <;> simp only [Mutation.lock, pure_eq, bind_eq] <;>
    repeat' first
      | exact readOnly_ret _
      | exact readOnly_ask _
      | refine ReadOnly.bind (readOnly_ask _) fun _ => ?_
      | split

/-- Preparing and binding a change changes nothing. -/
theorem readOnly_change (m : Mutation) : (m.change : Sql Db Unit Stmt).ReadOnly := by
  cases m <;> simp only [Mutation.change, bind_eq] <;>
    repeat' first
      | exact readOnly_ask _
      | refine ReadOnly.bind (readOnly_ask _) fun _ => ?_

/-- Nor does what is reported of it. -/
theorem readOnly_report (m : Mutation) : (m.report dbms).ReadOnly := by
  cases m <;> simp only [Mutation.report, pure_eq, bind_eq] <;>
    repeat' first
      | exact readOnly_ret _
      | exact readOnly_ask _
      | refine ReadOnly.bind (readOnly_ask _) fun _ => ?_
      | split

/-- The update of a mutation with its parameters. -/
def Mutation.stmt : Mutation → Stmt
  | registerUser username =>
    ⟨"INSERT INTO users (username, created_at) VALUES (?, CURDATE())", [(1, .str username)]⟩
  | deleteUser username => ⟨"DELETE FROM users WHERE username = ?", [(1, .str username)]⟩
  | insertProblem id title difficulty =>
    ⟨"INSERT INTO problems (id, title, difficulty) VALUES (?, ?, ?)",
      [(1, .int id), (2, .str title), (3, .str difficulty)]⟩
  | deleteProblem problem_id => ⟨"DELETE FROM problems WHERE id = ?", [(1, .int problem_id)]⟩
  | insertProblemType problem_id problem_type =>
    ⟨"INSERT INTO problem_type_map (problem_id, problem_type) VALUES (?, ?)",
      [(1, .int problem_id), (2, .str problem_type)]⟩
  | deleteProblemType problem_id problem_type =>
    ⟨"DELETE FROM problem_type_map WHERE problem_id = ? AND problem_type = ?",
      [(1, .int problem_id), (2, .str problem_type)]⟩
  | insertSubmitted users_id problem_id status time_spent =>
    ⟨"INSERT INTO submissions (problem_id, users_id, status, " ++
      "time_spent, time_spent_min, submit_date) VALUES (?, ?, ?, ?, ?, CURDATE())",
      [(1, .int problem_id), (2, .int users_id), (3, .bool status), (4, .str time_spent),
        (5, .int (getMinuteFromTime time_spent))]⟩
  | deleteSubmission submission_id users_id =>
    ⟨"DELETE FROM submissions WHERE id = ? AND users_id = ?",
      [(1, .int submission_id), (2, .int users_id)]⟩

/-- The change of a mutation, applied once. -/
def Mutation.apply (m : Mutation) (db : Db) : Db := (dbms.update m.stmt db).1

/-- The operation reaches its update: it is not refused, and its lock finds what
it looks for. -/
def Mutation.goesOn (m : Mutation) (db : Db) : Bool :=
  !m.refused && (m.lock dbms).value (.opened db ())

/-- The number of the call `executeUpdate`. -/
def Mutation.updateAt : Mutation → ℕ
  | registerUser _ | deleteUser _ => 8
  | insertProblem _ _ _ => 10
  | deleteProblem _ => 12
  | insertProblemType _ _ | deleteProblemType _ _ | deleteSubmission _ _ => 14
  | insertSubmitted _ _ _ _ => 17

/-- The number of the call `commit`: `DeleteSubmission` looks for the user's
name before it. -/
def Mutation.commitAt (m : Mutation) (db : Db) : ℕ :=
  match m with
  | deleteSubmission _ users_id =>
    if (dbms.query ⟨"SELECT username FROM users WHERE id = ?", [(1, .int users_id)]⟩
      (m.apply dbms db)).isEmpty then 19 else 20
  | m => m.updateAt + 1

/-- It gives the statement of the change. -/
theorem value_change (m : Mutation) (c : Conn Db Unit) : m.change.value c = m.stmt := by
  cases m <;> rfl

/-- Reading a name from the first row, as `InsertSubmitted` and
`DeleteSubmission` do: one call more with a row. -/
theorem calls_firstRow {α : Type} (res : List Row) (x y : α) (c : Conn Db Unit) :
    (match res with
      | row :: _ => (getString row "username").bind fun _ => .ret x
      | [] => .ret y : Sql Db Unit α).calls c = if res.isEmpty then 0 else 1 := by
  rcases res with _ | ⟨row, rows⟩ <;> rfl

/-- Whether the lock has found a row. -/
theorem value_firstRow {α : Type} (res : List Row) (x y : α) (c : Conn Db Unit) :
    (match res with
      | row :: _ => (getString row "username").bind fun _ => .ret x
      | [] => .ret y : Sql Db Unit α).value c = if res.isEmpty then y else x := by
  rcases res with _ | ⟨row, rows⟩ <;> rfl

/-- The lock sees the work of the transaction only. -/
theorem value_lock (m : Mutation) (c c' : Conn Db Unit) (h : c.work = c'.work) :
    (m.lock dbms).value c = (m.lock dbms).value c' := by
  obtain ⟨_, _, _, _⟩ := c
  obtain ⟨_, _, _, _⟩ := c'
  obtain rfl := h
  cases m with
  | insertSubmitted users_id problem_id status time_spent =>
    exact (value_firstRow _ true false _).trans (value_firstRow _ true false _).symm
  | _ => rfl

/-- The calls before `executeUpdate`. -/
theorem calls_lock_change (m : Mutation) (c : Conn Db Unit) (h : (m.lock dbms).value c = true) :
    connectionCalls + (1 + (m.lock dbms).calls c + m.change.calls c) = m.updateAt := by
  cases m with
  | insertSubmitted users_id problem_id status time_spent =>
    have hrow := (value_firstRow _ true false _).symm.trans h
    split_ifs at hrow with he
    have hcalls := (calls_firstRow _ true false c).trans (if_neg he)
    exact congrArg (fun n => connectionCalls + (1 + (n + 4) + 6)) hcalls
  | _ => rfl

/-- The calls from `executeUpdate` to `commit`. -/
theorem calls_report (m : Mutation) (c : Conn Db Unit) (db : Db) (hc : c.work = m.apply dbms db) :
    m.updateAt + (1 + (m.report dbms).calls c) = m.commitAt dbms db := by
  cases m with
  | deleteSubmission submission_id users_id =>
    have hcalls := calls_firstRow (dbms.query
      ⟨"SELECT username FROM users WHERE id = ?", [(1, .int users_id)]⟩ c.work) () () c
    rw [Mutation.commitAt, ← hc]
    refine (congrArg (fun n => 14 + (1 + (n + 4))) hcalls).trans ?_
    split_ifs <;> rfl
  | _ => rfl

/-- The states of a mutation whose update is accepted, call by call. -/
theorem stateAt_accepted {m : Mutation} {db : Db} (hgo : m.goesOn dbms db = true)
    (hacc : m.accepts (dbms.update m.stmt db).2 = true) (k : ℕ) :
    (mutation dbms (m.lock dbms) m.change m.accepts (m.report dbms)).stateAt (.opened db ()) k =
      if k = 0 then .opened db ()
      else if connectionCalls + k ≤ m.updateAt then ⟨db, db, false, ()⟩
      else if connectionCalls + k ≤ m.commitAt dbms db then ⟨db, m.apply dbms db, false, ()⟩
      else if connectionCalls + k = m.commitAt dbms db + 1 then
        ⟨m.apply dbms db, m.apply dbms db, false, ()⟩
      else ⟨m.apply dbms db, m.apply dbms db, true, ()⟩ := by
  have hlock : (m.lock dbms).value ⟨db, db, false, ()⟩ = true :=
    (value_lock dbms m ⟨db, db, false, ()⟩ (.opened db ()) rfl).trans (Bool.and_eq_true_iff.1 hgo).2
  have hu := calls_lock_change dbms m ⟨db, db, false, ()⟩ hlock
  have hc := calls_report dbms m ⟨db, m.apply dbms db, false, ()⟩ db rfl
  have hchange : (m.change : Sql Db Unit Stmt).ReadOnly := readOnly_change m
  rw [connectionCalls] at hu ⊢
  simp only [mutation, bind_eq, setAutoCommit, stateAt_prim_bind]
  by_cases h₀ : k = 0
  · rw [if_pos h₀, if_pos h₀]
  · rw [if_neg h₀, if_neg h₀]
    change (Script.bind (m.lock dbms) _).stateAt ⟨db, db, false, ()⟩ (k - 1) = _
    rw [(readOnly_lock dbms m).stateAt_bind, hlock, if_pos rfl, hchange.stateAt_bind, value_change]
    simp only [executeUpdate, stateAt_prim_bind, hacc, if_true]
    change (if _ then _ else if _ then _ else if _ then _ else
      (Script.bind (m.report dbms) _).stateAt ⟨db, m.apply dbms db, false, ()⟩ _) = _
    rw [(readOnly_report dbms m).stateAt_bind]
    simp only [commit, stateAt_prim_bind]
    -- the moments in order: lock, change, update, report, commit, autocommit
    split_ifs <;> first | rfl | omega

/-- A mutation whose update is accepted ends with the call after its commit, and
succeeds. -/
theorem calls_accepted {m : Mutation} {db : Db} (hgo : m.goesOn dbms db = true)
    (hacc : m.accepts (dbms.update m.stmt db).2 = true) :
    connectionCalls + (mutation dbms (m.lock dbms) m.change m.accepts (m.report dbms)).calls
        (.opened db ()) = m.commitAt dbms db + 2 ∧
      (mutation dbms (m.lock dbms) m.change m.accepts (m.report dbms)).value (.opened db ()) =
        true := by
  have hlock : (m.lock dbms).value ⟨db, db, false, ()⟩ = true :=
    (value_lock dbms m ⟨db, db, false, ()⟩ (.opened db ()) rfl).trans (Bool.and_eq_true_iff.1 hgo).2
  have hu := calls_lock_change dbms m ⟨db, db, false, ()⟩ hlock
  have hc := calls_report dbms m ⟨db, m.apply dbms db, false, ()⟩ db rfl
  have hchange : (m.change : Sql Db Unit Stmt).ReadOnly := readOnly_change m
  have hopen : Conn.setAutoCommit false (Conn.opened db ()) = ⟨db, db, false, ()⟩ := rfl
  have hupdate : Conn.executeUpdate dbms m.stmt (⟨db, db, false, ()⟩ : Conn Db Unit) =
    ⟨db, m.apply dbms db, false, ()⟩ := rfl
  constructor
  · simp only [mutation, bind_eq, pure_eq, setAutoCommit, executeUpdate, commit, calls_bind,
      calls_prim, value_prim, final_prim, hopen, (readOnly_lock dbms m).final, hlock,
      if_true, hchange.final, value_change, hacc, hupdate, calls_ret]
    omega
  · simp only [mutation, bind_eq, pure_eq, setAutoCommit, executeUpdate, final_prim, value_bind,
      value_prim, hopen, (readOnly_lock dbms m).final, hlock, if_true, hchange.final, value_change,
      hacc, value_ret]

/-- Work and committed database are both `db`. -/
def Conn.Unchanged (db : Db) (c : Conn Db ρ) : Prop := c.committed = db ∧ c.work = db

/-- Where nothing is changed, `setAutoCommit` commits nothing. -/
theorem unchanged_setAutoCommit {db : Db} {c : Conn Db ρ} (h : c.Unchanged db) (on : Bool) :
    (c.setAutoCommit on).Unchanged db := by
  refine ⟨?_, h.2⟩
  unfold Conn.setAutoCommit
  dsimp only
  split_ifs
  · exact h.2
  · exact h.1

/-- Giving up leaves an unchanged database unchanged. -/
theorem giveUp_unchanged {db : Db} {c : Conn Db Unit} (h : c.Unchanged db) :
    giveUp.Along (Conn.Unchanged db) c ∧ giveUp.value c = false := by
  have hroll : ({ c with work := c.committed } : Conn Db Unit).Unchanged db := ⟨h.1, h.1⟩
  refine ⟨?_, rfl⟩
  rintro (_ | _ | k)
  · exact h
  · exact hroll
  · exact unchanged_setAutoCommit hroll true

/-- Only the count 0 is not accepted. -/
theorem eq_zero_of_not_accepts {m : Mutation} {n : ℕ} (h : m.accepts n = false) : n = 0 := by
  cases m with
  | insertSubmitted users_id problem_id status time_spent => cases h
  | _ => simpa [Mutation.accepts] using h

/-- A mutation that does not reach its update, or whose update affects no row,
leaves the database unchanged at every moment, and fails. -/
theorem mutation_unchanged {m : Mutation} {db : Db} (hrefused : m.refused = false)
    (h : ¬ (m.goesOn dbms db = true ∧ m.accepts (dbms.update m.stmt db).2 = true)) :
    (mutation dbms (m.lock dbms) m.change m.accepts (m.report dbms)).Along (Conn.Unchanged db)
        (.opened db ()) ∧
      (mutation dbms (m.lock dbms) m.change m.accepts (m.report dbms)).value (.opened db ()) =
        false := by
  have hopen : Conn.setAutoCommit false (Conn.opened db ()) = ⟨db, db, false, ()⟩ := rfl
  have hstart : (⟨db, db, false, ()⟩ : Conn Db Unit).Unchanged db := ⟨rfl, rfl⟩
  have hset : (setAutoCommit false : Sql Db Unit Unit).Along (Conn.Unchanged db) (.opened db ()) :=
    along_prim ⟨rfl, rfl⟩ hstart
  have hlock := (readOnly_lock dbms m).along hstart
  have hchange := (readOnly_change m : (m.change : Sql Db Unit Stmt).ReadOnly).along hstart
  have hgo : m.goesOn dbms db = (m.lock dbms).value ⟨db, db, false, ()⟩ := by
    rw [Mutation.goesOn, hrefused]
    exact value_lock dbms m _ _ rfl
  rw [hgo] at h
  rcases hl : (m.lock dbms).value ⟨db, db, false, ()⟩ with _ | _
  · -- the lock does not find what it looks for
    obtain ⟨halong, hvalue⟩ := giveUp_unchanged hstart
    constructor
    · refine hset.bind ?_
      change Script.Along _ (Script.bind (m.lock dbms) _) ⟨db, db, false, ()⟩
      refine hlock.bind ?_
      rwa [hl, if_neg (by simp), (readOnly_lock dbms m).final]
    · simp only [mutation, bind_eq, setAutoCommit, value_bind, final_prim, hopen, hl,
        (readOnly_lock dbms m).final]
      exact hvalue
  · -- the update affects no row, so it changes nothing
    have hacc : m.accepts (dbms.update m.stmt db).2 = false := by simpa [hl] using h
    have hzero := eq_zero_of_not_accepts hacc
    have hupdate : Conn.executeUpdate dbms m.stmt (⟨db, db, false, ()⟩ : Conn Db Unit) =
        ⟨db, db, false, ()⟩ := by
      simp [Conn.executeUpdate, dbms.unchanged _ _ hzero]
    obtain ⟨halong, hvalue⟩ := giveUp_unchanged hstart
    constructor
    · refine hset.bind ?_
      change Script.Along _ (Script.bind (m.lock dbms) _) ⟨db, db, false, ()⟩
      refine hlock.bind ?_
      rw [hl, if_pos rfl, (readOnly_lock dbms m).final]
      refine hchange.bind ?_
      rw [value_change, (readOnly_change m : (m.change : Sql Db Unit Stmt).ReadOnly).final]
      refine (along_prim hstart (hupdate.symm ▸ hstart)).bind ?_
      rwa [value_prim, hacc, if_neg (by simp), final_prim, hupdate]
    · simp only [mutation, bind_eq, setAutoCommit, executeUpdate, value_bind, value_prim,
        final_prim, hopen, hl, (readOnly_lock dbms m).final, value_change, hacc, hupdate,
        (readOnly_change m : (m.change : Sql Db Unit Stmt).ReadOnly).final, if_true]
      exact hvalue

/-- The change comes before its commit. -/
theorem updateAt_lt_commitAt (m : Mutation) (db : Db) :
    connectionCalls < m.updateAt ∧ m.updateAt < m.commitAt dbms db := by
  have hc := calls_report dbms m ⟨db, m.apply dbms db, true, ()⟩ db rfl
  refine ⟨?_, by omega⟩
  cases m <;> simp [Mutation.updateAt, connectionCalls]

/-! ### Answer and database -/

/-- The answer tells what became of the database: `true` when the change is
applied, once, and `false` when nothing changed. -/
def Mutation.Agrees (m : Mutation) (f : ℕ → Bool) (db : Db) : Prop :=
  ((m.perform dbms f db).1 = .ok true → (m.perform dbms f db).2 = m.apply dbms db) ∧
  ((m.perform dbms f db).1 = .ok false → (m.perform dbms f db).2 = db)

/-- The faults that tear answer and database apart: the operation reaches an
update that changes something, the first fault is at the call after the commit,
or at a call from the update to the commit whose rollback fails too, and the
last `setAutoCommit(true)` succeeds. -/
def Mutation.Torn (m : Mutation) (f : ℕ → Bool) (db : Db) : Prop :=
  m.goesOn dbms db = true ∧ m.apply dbms db ≠ db ∧ ∃ k, FirstFault f k ∧ f (k + 2) = false ∧
    (k = m.commitAt dbms db + 1 ∨
      (m.updateAt < k ∧ k ≤ m.commitAt dbms db ∧ f (k + 1) = true))

/-- After a fault at call `k` of an accepted mutation, the update stays if it was
made and not rolled back, and in any case once it is committed. -/
theorem leftBehind_accepted {m : Mutation} {db : Db} (hgo : m.goesOn dbms db = true)
    (hacc : m.accepts (dbms.update m.stmt db).2 = true) (j : ℕ) (r : Bool) :
    ((mutation dbms (m.lock dbms) m.change m.accepts (m.report dbms)).stateAt
      (.opened db ()) j).leftBehind r =
      if connectionCalls + j ≤ m.updateAt then db
      else if connectionCalls + j ≤ m.commitAt dbms db then (if r then m.apply dbms db else db)
      else m.apply dbms db := by
  have hlt := (updateAt_lt_commitAt dbms m db).1
  rw [stateAt_accepted dbms hgo hacc]
  split_ifs <;> first | rfl | (exfalso; omega) | simp_all [Conn.leftBehind, Conn.opened]

/-- A transaction without a change leaves nothing behind. -/
theorem leftBehind_unchanged {db : Db} {c : Conn Db ρ} (hc : c.Unchanged db) (r : Bool) :
    c.leftBehind r = db := by
  unfold Conn.leftBehind
  split_ifs
  · exact hc.2
  · exact hc.1

/-- What leaves an unchanged database behind agrees. -/
theorem handleException_unchanged {f : ℕ → Bool} {n : ℕ} {db : Db} {c : Conn Db Unit}
    (hc : c.Unchanged db) :
    (handleException f (fun _ => false) n c).1 ≠ .ok true ∧
      (handleException f (fun _ => false) n c).2 = db := by
  rw [handleException_eq]
  split_ifs
  · exact ⟨by simp, hc.1⟩
  · exact ⟨by simp, leftBehind_unchanged hc _⟩

/-- An operation that does not reach its update, or whose update affects no row,
does not succeed and leaves the database unchanged, whatever fails. -/
theorem perform_of_unchanged {m : Mutation} {db : Db} (f : ℕ → Bool)
    (h : ¬ (m.goesOn dbms db = true ∧ m.accepts (dbms.update m.stmt db).2 = true)) :
    (m.perform dbms f db).1 ≠ .ok true ∧ (m.perform dbms f db).2 = db := by
  rcases hr : m.refused with _ | _
  · obtain ⟨halong, hvalue⟩ := mutation_unchanged dbms hr h
    rw [Mutation.perform, if_neg (by simp [hr])]
    rcases quiet_or_firstFault f (connectionCalls + (mutation dbms (m.lock dbms) m.change m.accepts
      (m.report dbms)).calls (.opened db ())) with hq | ⟨k, hk, hf⟩
    · rw [operation_of_quiet hq, hvalue]
      exact ⟨by simp, halong.final.1⟩
    · by_cases hconn : k < connectionCalls
      · rw [operation_of_fault_connecting hf hconn]
        exact ⟨by simp, rfl⟩
      · obtain ⟨j, rfl⟩ := Nat.exists_eq_add_of_le (Nat.le_of_not_lt hconn)
        rw [operation_of_fault hf (by omega)]
        exact handleException_unchanged (halong j)
  · rw [Mutation.perform, if_pos hr]
    exact ⟨by simp, rfl⟩

/-- **An operation that does not change anything agrees, whatever fails.** -/
theorem agrees_of_unchanged {m : Mutation} {db : Db} (f : ℕ → Bool)
    (h : ¬ (m.goesOn dbms db = true ∧ m.accepts (dbms.update m.stmt db).2 = true)) :
    m.Agrees dbms f db :=
  ⟨fun ht => absurd ht (perform_of_unchanged dbms f h).1,
    fun _ => (perform_of_unchanged dbms f h).2⟩

/-- **An operation changes the database by its update or not at all**, whatever
fails. -/
theorem perform_database (m : Mutation) (f : ℕ → Bool) (db : Db) :
    (m.perform dbms f db).2 = db ∨ (m.perform dbms f db).2 = m.apply dbms db := by
  by_cases h : m.goesOn dbms db = true ∧ m.accepts (dbms.update m.stmt db).2 = true
  · obtain ⟨hgo, hacc⟩ := h
    have hrefused : m.refused = false := by
      simpa using (Bool.and_eq_true_iff.1 hgo).1
    have hstate := stateAt_accepted dbms hgo hacc
    rw [Mutation.perform, if_neg (by simp [hrefused])]
    rcases quiet_or_firstFault f (connectionCalls + (mutation dbms (m.lock dbms) m.change m.accepts
      (m.report dbms)).calls (.opened db ())) with hq | ⟨k, hk, hf⟩
    · rw [operation_of_quiet hq, ← stateAt_of_calls_le _ _ le_rfl, hstate]
      split_ifs <;> first | exact .inl rfl | exact .inr rfl
    · by_cases hconn : k < connectionCalls
      · rw [operation_of_fault_connecting hf hconn]
        exact .inl rfl
      · obtain ⟨j, rfl⟩ := Nat.exists_eq_add_of_le (Nat.le_of_not_lt hconn)
        rw [operation_of_fault hf (by omega), handleException_eq, leftBehind_accepted dbms hgo hacc,
          hstate]
        split_ifs <;> first | exact .inl rfl | exact .inr rfl
  · exact .inl (perform_of_unchanged dbms f h).2

/-- **An undisturbed operation that goes on makes its update.** -/
theorem database_of_quiet {m : Mutation} {db : Db} (hgo : m.goesOn dbms db = true) :
    (m.perform dbms (fun _ => false) db).2 = m.apply dbms db := by
  rcases hacc : m.accepts (dbms.update m.stmt db).2 with _ | _
  · -- no row is affected
    have hsame : m.apply dbms db = db := dbms.unchanged _ _ (eq_zero_of_not_accepts hacc)
    rw [hsame]
    exact (perform_of_unchanged dbms _ (by simp [hacc])).2
  · have hrefused : m.refused = false := by
      simpa using (Bool.and_eq_true_iff.1 hgo).1
    obtain ⟨hcalls, -⟩ := calls_accepted dbms hgo hacc
    rw [Mutation.perform, if_neg (by simp [hrefused]), operation_of_quiet fun _ _ => rfl,
      ← stateAt_of_calls_le _ _ le_rfl, stateAt_accepted dbms hgo hacc, hcalls]
    obtain ⟨hlt, hlt'⟩ := updateAt_lt_commitAt dbms m db
    rw [if_neg (by omega), if_neg (by omega), if_neg (by omega), if_neg (by omega)]

/-- **Answer and database agree exactly when no such faults occur.**  For every
operation that changes a table, every database and every pattern of failing
calls. -/
theorem agrees_iff_not_torn (m : Mutation) (f : ℕ → Bool) (db : Db) :
    m.Agrees dbms f db ↔ ¬ m.Torn dbms f db := by
  by_cases h : m.goesOn dbms db = true ∧ m.accepts (dbms.update m.stmt db).2 = true
  · obtain ⟨hgo, hacc⟩ := h
    obtain ⟨hcalls, hvalue⟩ := calls_accepted dbms hgo hacc
    have hrefused : m.refused = false := by
      simpa using (Bool.and_eq_true_iff.1 hgo).1
    have hstate := stateAt_accepted dbms hgo hacc
    obtain ⟨hlt, hlt'⟩ := updateAt_lt_commitAt dbms m db
    have hperform : m.perform dbms f db = operation f () (mutation dbms (m.lock dbms) m.change
        m.accepts (m.report dbms)) (fun ok _ => ok) (fun _ => false) db := by
      rw [Mutation.perform, if_neg (by simp [hrefused])]
    rw [Mutation.Agrees, hperform]
    rcases quiet_or_firstFault f (connectionCalls + (mutation dbms (m.lock dbms) m.change m.accepts
      (m.report dbms)).calls (.opened db ())) with hq | ⟨k, hk, hf⟩
    · rw [operation_of_quiet hq, hvalue, ← stateAt_of_calls_le _ _ le_rfl, hstate]
      rw [hcalls] at hq
      refine ⟨fun _ ⟨_, _, k, hf, _, hk⟩ => ?_, fun _ => ⟨fun _ => ?_, nofun⟩⟩
      · have := hq k (by omega)
        rw [hf.1] at this
        cases this
      · rw [if_neg (by omega), if_neg (by omega), if_neg (by omega), if_neg (by omega)]
    · rw [hcalls] at hk
      have hunique : ∀ k', FirstFault f k' → k' = k := fun k' hf' => hf'.unique hf
      by_cases hconn : k < connectionCalls
      · rw [operation_of_fault_connecting hf hconn]
        refine ⟨fun _ ⟨_, _, k', hf', _, hk'⟩ => ?_, fun _ => ⟨nofun, fun _ => rfl⟩⟩
        have := hunique k' hf'
        omega
      · obtain ⟨j, rfl⟩ := Nat.exists_eq_add_of_le (Nat.le_of_not_lt hconn)
        rw [operation_of_fault hf (by omega), handleException_eq,
          leftBehind_accepted dbms hgo hacc]
        rcases hset : f (connectionCalls + j + 2) with _ | _
        · rw [if_neg Bool.false_ne_true]
          refine ⟨fun ⟨_, hfalse⟩ ⟨_, hne, k', hf', _, hk'⟩ => ?_,
            fun htorn => ⟨nofun, fun _ => ?_⟩⟩
          · -- the work that was not rolled back is committed
            obtain rfl := hunique k' hf'
            have hdb := hfalse rfl
            dsimp only at hdb
            rcases hk' with hk' | ⟨hup, hle, hroll⟩
            · rw [if_neg (by omega), if_neg (by omega)] at hdb
              exact hne hdb
            · rw [if_neg (by omega), if_pos hle, if_pos hroll] at hdb
              exact hne hdb
          · by_contra hdb
            dsimp only at hdb
            have hne : m.apply dbms db ≠ db := fun heq => hdb (by rw [heq]; simp)
            refine htorn ⟨hgo, hne, connectionCalls + j, hf, hset, ?_⟩
            split_ifs at hdb with hup hle hroll
            · exact absurd rfl hdb
            · exact .inr ⟨by omega, hle, hroll⟩
            · exact absurd rfl hdb
            · exact .inl (by omega)
        · rw [if_pos rfl]
          refine ⟨fun _ ⟨_, _, k', hf', hk', _⟩ => ?_, fun _ => ⟨nofun, nofun⟩⟩
          rw [hunique k' hf', hset] at hk'
          cases hk'
  · refine ⟨fun _ ⟨hgo, hne, _⟩ => ?_, fun _ => agrees_of_unchanged dbms f h⟩
    -- an update that affects no row changes nothing
    have hacc : m.accepts (dbms.update m.stmt db).2 = false := by simpa [hgo] using h
    exact hne (dbms.unchanged _ _ (eq_zero_of_not_accepts hacc))

/-- Users that are only counted: each update adds one. -/
def counting : Dbms ℕ where
  query _ _ := []
  update _ db := (db + 1, 1)
  unchanged _ _ h := absurd h (by simp)

/-- Registering a user when the `setAutoCommit(true)` after the commit throws:
the answer is `false` and the user is there. -/
theorem not_agrees_registerUser :
    ¬ (Mutation.registerUser (text "Alice")).Agrees counting (fun n => n == 10) 0 :=
  fun h => absurd (h.2 rfl) (by decide)

end Driver
end WeakAyas
