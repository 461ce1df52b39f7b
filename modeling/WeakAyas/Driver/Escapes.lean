/-
# What a failing call makes of an operation

All twelve operations that open a connection, under every pattern of failing
calls.  A failure to connect is answered with the operation's failure value.
Any later failure is caught, and the `catch` block calls the connector again:
its `rollback` is guarded, its `setAutoCommit(true)` is not.  So an exception
escapes exactly when the call after next to the first fault fails as well, as
it does on a lost connection (`contained_iff`).

One value is not the failure value either: `getUserId` returns the id it has
found when the commit or the last `setAutoCommit(true)` fails.
-/

import WeakAyas.Driver.Atomicity

namespace WeakAyas
namespace Driver

open Script

variable {Db ρ : Type} (dbms : Dbms Db)

/-! ### What a query has collected -/

/-- The row as `Units`. -/
def unitsOf (r : Row) : Units :=
  ⟨r.str "unit", r.int "problems_solved", r.int "total_submit", r.int "solved_20min",
    r.int "solved_30min", r.int "solved_over_30min",
    Query.rate (r.int "solved_20min") (r.int "total_submit"),
    Query.rate (r.int "solved_30min") (r.int "total_submit"),
    Query.rate (r.int "solved_over_30min") (r.int "total_submit")⟩

/-- The row as `UnitStat`. -/
def unitStatOf (r : Row) : UnitStat :=
  ⟨r.int "Exam_No", r.str "Name", r.int "total_submit", r.int "solved_20min",
    r.int "solved_30min", r.int "solved_over_30min", r.str "last_solved_date",
    r.str "last_solved_time", if r.bool "last_status" then text "Solved" else text "Unsolved"⟩

/-- The row as an entry of the submissions. -/
def examInfoOf (r : Row) : ℤ × ExamInfo :=
  (r.int "id", ⟨r.int "users_id", r.int "problem_id", r.bool "status", r.str "time_spent",
    r.int "time_spent_min", r.str "submit_date"⟩)

/-- A script that reads a row in `n` calls. -/
structure Reads {β : Type} (read : Row → Sql Db ρ β) (n : ℕ) (rowOf : Row → β) : Prop where
  readOnly : ∀ r, (read r).ReadOnly
  calls : ∀ r c, (read r).calls c = n
  value : ∀ r c, (read r).value c = rowOf r

/-- `Select_UnitsData` reads six columns of a row. -/
theorem reads_units : Reads (Query.readUnits : Row → Sql Db ρ Units) 6 unitsOf where
  readOnly r := by
    rintro c (_ | _ | _ | _ | _ | _ | k) <;> rfl
  calls _ _ := rfl
  value _ _ := rfl

/-- `Select_Unitdetail` reads nine. -/
theorem reads_unitStat : Reads (Query.readUnitStat : Row → Sql Db ρ UnitStat) 9 unitStatOf where
  readOnly r := by
    rintro c (_ | _ | _ | _ | _ | _ | _ | _ | _ | k) <;> rfl
  calls _ _ := rfl
  value _ _ := rfl

/-- `getSubmissions` reads seven. -/
theorem reads_examInfo :
    Reads (Query.readExamInfo : Row → Sql Db ρ (ℤ × ExamInfo)) 7 examInfoOf where
  readOnly r := by
    rintro c (_ | _ | _ | _ | _ | _ | _ | k) <;> rfl
  calls _ _ := rfl
  value _ _ := rfl

/-- **The loop has stored the rows it has read to the end.**  Each row takes one
call of `next` and those of its columns. -/
theorem out_stateAt_fetch {β : Type} {read : Row → Sql Db ρ β} {n : ℕ} {rowOf : Row → β}
    (hread : Reads read n rowOf) (store : β → ρ → ρ) (rows : List Row) (c : Conn Db ρ) (k : ℕ) :
    ((fetch read store rows).stateAt c k).out =
      (rows.take (k / (n + 1))).foldl (fun out r => store (rowOf r) out) c.out := by
  induction rows generalizing c k with
  | nil => cases k <;> simp [fetch, next, ask, prim, Script.bind, Script.stateAt]
  | cons r rows ih =>
    simp only [fetch, bind_eq, next, ask]
    rw [stateAt_prim_bind, (hread.readOnly r).stateAt_bind, hread.calls, hread.value]
    simp only [id, setOut, Script.bind, Script.stateAt]
    by_cases hk : k < n + 1
    · rw [Nat.div_eq_of_lt hk]
      split_ifs
      · rfl
      · rfl
      · omega
    · have hdiv : k / (n + 1) = (k - (n + 1)) / (n + 1) + 1 :=
        Nat.div_eq_sub_div (by omega) (by omega)
      rw [if_neg (by omega), if_neg (by omega), ih, hdiv, List.take_succ_cons, List.foldl_cons,
        show k - 1 - n = k - (n + 1) by omega]

namespace Query

/-- The query with its parameters, as the database sees it. -/
def stmt (q : Query) (db : Db) : Stmt := q.select.value (Conn.opened db q.empty)

/-- The number of the first `res->next()`. -/
def firstRowAt : Query → ℕ
  | getUserId _ | selectUnitsData _ => 11
  | getSubmissions _ _ => 12
  | selectUnitdetail _ _ => 14

/-- What a query has collected before call `k`: the rows whose calls are all
before it, `-1` for `getUserId`. -/
def collected (q : Query) (db : Db) (k : ℕ) : q.Answer :=
  let res := dbms.query (q.stmt db) db
  match q with
  | getUserId _ => (-1 : ℤ)
  | getSubmissions _ _ =>
    (res.take ((k - 12) / 8)).foldl (fun subs r => storeExamInfo (examInfoOf r) subs) []
  | selectUnitsData _ => (res.take ((k - 11) / 7)).map unitsOf
  | selectUnitdetail _ _ => (res.take ((k - 14) / 10)).map unitStatOf

/-- Nothing is collected while connecting. -/
theorem collected_of_lt (q : Query) (db : Db) {k : ℕ} (hk : k < connectionCalls) :
    q.collected dbms db k = q.empty := by
  rw [connectionCalls] at hk
  cases q with
  | getUserId username => rfl
  | getSubmissions users_id problem_id =>
    rw [collected, show (k - 12) / 8 = 0 by omega]
    rfl
  | selectUnitsData user_id =>
    rw [collected, show (k - 11) / 7 = 0 by omega]
    rfl
  | selectUnitdetail user_id unit =>
    rw [collected, show (k - 14) / 10 = 0 by omega]
    rfl

/-- `getUserId` has found an id before call `k`. -/
def FoundId (q : Query) (db : Db) (k : ℕ) : Prop :=
  match q with
  | getUserId username => 12 < k ∧ ∃ row rows,
      dbms.query ((getUserId username).stmt db) db = row :: rows ∧ row.int "id" ≠ -1
  | _ => False

/-- Preparing and binding a query changes nothing. -/
theorem readOnly_select (q : Query) : (q.select : Sql Db ρ Stmt).ReadOnly := by
  cases q <;> simp only [select, bind_eq] <;>
    repeat' first
      | exact readOnly_ask _
      | refine ReadOnly.bind (readOnly_ask _) fun _ => ?_

/-- It gives the statement of the query. -/
theorem value_select (q : Query) (db : Db) (c : Conn Db q.Answer) :
    q.select.value c = q.stmt db := by
  cases q <;> rfl

/-- The calls before the first row. -/
theorem calls_select (q : Query) (c : Conn Db ρ) :
    connectionCalls + (4 + q.select.calls c) = q.firstRowAt := by
  cases q <;> rfl

/-- The loop starts with a call. -/
theorem stateAt_collect_zero (q : Query) (res : List Row) (c : Conn Db q.Answer) :
    (q.collect res).stateAt c 0 = c := by
  cases q <;> rcases res with _ | ⟨r, rows⟩ <;> rfl

/-- What follows the loop keeps the local variable. -/
theorem along_finish (c : Conn Db ρ) :
    (commit.bind fun _ => setAutoCommit true).Along (fun c' => c'.out = c.out) c := by
  rintro (_ | _ | k) <;> rfl

/-- The local variable during the query is that of its loop. -/
theorem out_stateAt_body (q : Query) (db : Db) (k : ℕ) :
    ((q.body dbms).stateAt (.opened db q.empty) k).out =
      ((q.collect (dbms.query (q.stmt db) db)).stateAt ⟨db, db, false, q.empty⟩
        (connectionCalls + k - q.firstRowAt)).out := by
  have hcalls := q.calls_select (⟨db, db, false, q.empty⟩ : Conn Db q.Answer)
  have hselect : (q.select : Sql Db q.Answer Stmt).ReadOnly := readOnly_select q
  simp only [body, bind_eq, setAutoCommit, prepareStatement, execute, executeQuery, ask,
    stateAt_prim_bind, id]
  change Conn.out (if _ then _ else if _ then ⟨db, db, false, q.empty⟩ else
    if _ then ⟨db, db, false, q.empty⟩ else
      (q.select.bind _).stateAt ⟨db, db, false, q.empty⟩ _) = _
  rw [hselect.stateAt_bind, value_select q db, stateAt_prim_bind, stateAt_bind]
  -- before the loop the index below is 0, after it the state is final
  have hzero : ∀ i, i = 0 → ((q.collect (dbms.query (q.stmt db) db)).stateAt
      ⟨db, db, false, q.empty⟩ i).out = q.empty := by
    rintro _ rfl
    rw [stateAt_collect_zero]
  rw [connectionCalls] at hcalls ⊢
  split_ifs with h₀ h₁ h₂ h₃ h₄ h₅
  · exact (hzero _ (by omega)).symm
  · exact (hzero _ (by omega)).symm
  · exact (hzero _ (by omega)).symm
  · exact (hzero _ (by omega)).symm
  · exact (hzero _ (by omega)).symm
  · rw [show k - 1 - 1 - 1 - q.select.calls (⟨db, db, false, q.empty⟩ : Conn Db q.Answer) - 1 =
      5 + k - q.firstRowAt by omega]
    rfl
  · -- commit and autocommit keep the local variable
    rw [stateAt_of_calls_le (q.collect (dbms.query (q.stmt db) db)) _ (by
      simp only [id] at h₅
      omega)]
    exact along_finish _ _

/-- The rows are stored in their order. -/
theorem foldl_pushBack {β : Type} (rowOf : Row → β) (rows : List Row) (stats : List β) :
    rows.foldl (fun out r => pushBack (rowOf r) out) stats = stats ++ rows.map rowOf := by
  induction rows generalizing stats with
  | nil => simp
  | cons r rows ih => rw [List.foldl_cons, ih, pushBack, List.map_cons, List.append_assoc,
      List.singleton_append]

/-- Entries of different ids are stored in their order. -/
theorem foldl_storeExamInfo {xs subs : Submissions} (h : ((subs ++ xs).map Prod.fst).Nodup) :
    xs.foldl (fun subs x => storeExamInfo x subs) subs = subs ++ xs := by
  induction xs generalizing subs with
  | nil => simp
  | cons x xs ih =>
    have hnew : (subs.any fun y => y.1 == x.1) = false := by
      rw [List.any_eq_false]
      intro y hy hyx
      rw [List.map_append, List.nodup_append] at h
      exact h.2.2 y.1 (List.mem_map_of_mem hy) x.1 (by simp) (beq_iff_eq.1 hyx)
    rw [List.foldl_cons, storeExamInfo, hnew, if_neg (by decide), ih (by simpa using h),
      List.append_assoc, List.singleton_append]

/-- Undisturbed, the loop stores all rows. -/
theorem out_final_fetch {β : Type} {read : Row → Sql Db ρ β} {n : ℕ} {rowOf : Row → β}
    (hread : Reads read n rowOf) (store : β → ρ → ρ) (rows : List Row) (c : Conn Db ρ) :
    ((fetch read store rows).final c).out =
      rows.foldl (fun out r => store (rowOf r) out) c.out := by
  have hk : (fetch read store rows).calls c ≤
      ((fetch read store rows).calls c + rows.length) * (n + 1) :=
    (Nat.le_add_right _ _).trans (Nat.le_mul_of_pos_right _ (Nat.succ_pos n))
  rw [← stateAt_of_calls_le _ c hk, out_stateAt_fetch hread, Nat.mul_div_cancel _ (Nat.succ_pos n),
    List.take_of_length_le (Nat.le_add_left _ _)]

/-- Without a fault a query returns what its loop has stored. -/
theorem perform_of_quiet (q : Query) (db : Db) (hq : q.refused = false) :
    q.perform dbms (fun _ => false) db =
      .ok ((q.collect (dbms.query (q.stmt db) db)).final ⟨db, db, false, q.empty⟩).out := by
  have hcollect := (q.collect (dbms.query (q.stmt db) db)).stateAt_of_calls_le
    (⟨db, db, false, q.empty⟩ : Conn Db q.Answer) (k := connectionCalls +
      ((q.body dbms).calls (.opened db q.empty) + q.firstRowAt +
        (q.collect (dbms.query (q.stmt db) db)).calls ⟨db, db, false, q.empty⟩) - q.firstRowAt)
    (by omega)
  rw [perform, if_neg (by simp [hq]), operation_of_quiet fun _ _ => rfl,
    ← stateAt_of_calls_le (q.body dbms) _ (k := (q.body dbms).calls (.opened db q.empty) +
      q.firstRowAt + (q.collect (dbms.query (q.stmt db) db)).calls ⟨db, db, false, q.empty⟩)
      (by omega)]
  exact congrArg Except.ok ((out_stateAt_body dbms q db _).trans (congrArg Conn.out hcollect))

/-- The rows of a user's statistics, as the driver returns them. -/
theorem perform_selectUnitsData (user_id : ℤ) (db : Db) :
    (selectUnitsData user_id).perform dbms (fun _ => false) db =
      (.ok (if user_id = -1 then []
        else (dbms.query ((selectUnitsData user_id).stmt db) db).map unitsOf) :
        Except SqlException (List Units)) := by
  rcases eq_or_ne user_id (-1) with rfl | h
  · rfl
  · rw [if_neg h, perform_of_quiet dbms _ db (by simpa [refused] using h)]
    refine congrArg Except.ok ((out_final_fetch reads_units pushBack _ _).trans ?_)
    exact foldl_pushBack unitsOf _ []

/-- The same of the problems of a unit. -/
theorem perform_selectUnitdetail (user_id : ℤ) (unit : Bytes) (db : Db) :
    (selectUnitdetail user_id unit).perform dbms (fun _ => false) db =
      (.ok (if user_id = -1 then []
        else (dbms.query ((selectUnitdetail user_id unit).stmt db) db).map unitStatOf) :
        Except SqlException (List UnitStat)) := by
  rcases eq_or_ne user_id (-1) with rfl | h
  · rfl
  · rw [if_neg h, perform_of_quiet dbms _ db (by simpa [refused] using h)]
    refine congrArg Except.ok ((out_final_fetch reads_unitStat pushBack _ _).trans ?_)
    exact foldl_pushBack unitStatOf _ []

/-- The submissions are stored by their id. -/
theorem perform_getSubmissions (users_id problem_id : ℤ) (db : Db) :
    (getSubmissions users_id problem_id).perform dbms (fun _ => false) db =
      (.ok (((dbms.query ((getSubmissions users_id problem_id).stmt db) db).map examInfoOf).foldl
        (fun subs x => storeExamInfo x subs) []) : Except SqlException Submissions) := by
  rw [perform_of_quiet dbms _ db rfl, List.foldl_map]
  exact congrArg Except.ok (out_final_fetch reads_examInfo storeExamInfo _ _)

/-- The id is that of the first row. -/
theorem perform_getUserId (username : Bytes) (db : Db) :
    (getUserId username).perform dbms (fun _ => false) db =
      (.ok (((dbms.query ((getUserId username).stmt db) db).head?.map (·.int "id")).getD (-1)) :
        Except SqlException ℤ) := by
  rw [perform_of_quiet dbms _ db rfl]
  rcases dbms.query ((getUserId username).stmt db) db with _ | ⟨row, rows⟩
  · rfl
  · rfl

/-- The local variable of `getUserId` before call `i` of its loop. -/
theorem out_collect_getUserId (username : Bytes) (res : List Row) (db : Db) (i : ℕ) :
    (((getUserId username).collect res).stateAt
        (⟨db, db, false, (-1 : ℤ)⟩ : Conn Db (getUserId username).Answer) i).out = (-1 : ℤ) ↔
      ¬ (1 < i ∧ ∃ row rows, res = row :: rows ∧ row.int "id" ≠ -1) := by
  rcases res with _ | ⟨r, rows⟩
  · refine iff_of_true ?_ (by simp)
    rcases i with _ | i <;> rfl
  · rcases i with _ | _ | i
    · exact iff_of_true rfl (by simp)
    · exact iff_of_true rfl (by simp)
    · change r.int "id" = -1 ↔ _
      simp

/-- A query returns what its local variable holds at some moment. -/
theorem exists_out_of_perform {q : Query} {f : ℕ → Bool} {db : Db} {a : q.Answer}
    (h : q.perform dbms f db = .ok a) :
    a = q.empty ∨ ∃ k, a = ((q.body dbms).stateAt (.opened db q.empty) k).out := by
  unfold perform at h
  split_ifs at h
  · exact .inl (Except.ok.inj h).symm
  · rcases quiet_or_firstFault f (connectionCalls + (q.body dbms).calls (.opened db q.empty)) with
      hq | ⟨k, hk, hf⟩
    · rw [operation_of_quiet hq, ← stateAt_of_calls_le (q.body dbms) _ le_rfl] at h
      exact .inr ⟨_, (Except.ok.inj h).symm⟩
    · by_cases hconn : k < connectionCalls
      · rw [operation_of_fault_connecting hf hconn] at h
        exact .inl (Except.ok.inj h).symm
      · obtain ⟨j, rfl⟩ := Nat.exists_eq_add_of_le (Nat.le_of_not_lt hconn)
        rw [operation_of_fault hf (by omega), handleException_eq] at h
        split_ifs at h
        exact .inr ⟨j, (Except.ok.inj h).symm⟩

/-- **`getUserId` answers `-1` or the id of the first row**, whatever fails. -/
theorem eq_of_perform_getUserId {username : Bytes} {f : ℕ → Bool} {db : Db} {id : ℤ}
    (h : (getUserId username).perform dbms f db = (.ok id : Except SqlException ℤ)) :
    id = -1 ∨ ∃ row rows, dbms.query ((getUserId username).stmt db) db = row :: rows ∧
      id = row.int "id" := by
  rcases exists_out_of_perform dbms h with hid | ⟨k, hid⟩
  · exact .inl hid
  · rw [out_stateAt_body] at hid
    generalize connectionCalls + k - (getUserId username).firstRowAt = i at hid
    generalize dbms.query ((getUserId username).stmt db) db = res at hid
    rcases res with _ | ⟨row, rows⟩
    · rcases i with _ | i <;> exact .inl hid
    · rcases i with _ | _ | i
      · exact .inl hid
      · exact .inl hid
      · exact .inr ⟨row, rows, rfl, hid⟩

/-- **The local variable is what has been collected, unless `getUserId` has
found an id.** -/
theorem out_eq_collected_iff (q : Query) (db : Db) (k : ℕ) :
    ((q.body dbms).stateAt (.opened db q.empty) k).out = q.collected dbms db (connectionCalls + k) ↔
      ¬ q.FoundId dbms db (connectionCalls + k) := by
  rw [out_stateAt_body]
  cases q with
  | getUserId username =>
    have hlt : 12 < connectionCalls + k ↔ 1 < connectionCalls + k - 11 := by omega
    rw [FoundId, hlt]
    exact out_collect_getUserId username _ db _
  | getSubmissions users_id problem_id =>
    exact iff_of_true (out_stateAt_fetch reads_examInfo storeExamInfo _ _ _) not_false
  | selectUnitsData user_id =>
    refine iff_of_true ?_ not_false
    refine (out_stateAt_fetch reads_units pushBack _ _ _).trans ?_
    exact (foldl_pushBack unitsOf _ []).trans (List.nil_append _)
  | selectUnitdetail user_id unit =>
    refine iff_of_true ?_ not_false
    refine (out_stateAt_fetch reads_unitStat pushBack _ _ _).trans ?_
    exact (foldl_pushBack unitStatOf _ []).trans (List.nil_append _)

/-- A query that returns rows returns rows of the database, whatever fails. -/
theorem eq_collected_of_perform {q : Query} {f : ℕ → Bool} {db : Db} {a : q.Answer}
    (hid : ∀ k, ¬ q.FoundId dbms db k) (h : q.perform dbms f db = .ok a) :
    a = q.empty ∨ ∃ k, a = q.collected dbms db k := by
  rcases exists_out_of_perform dbms h with h | ⟨k, h⟩
  · exact .inl h
  · exact .inr ⟨_, h.trans ((out_eq_collected_iff dbms q db k).2 (hid _))⟩

/-- Whatever fails, an answer has rows of the database only. -/
theorem subset_of_perform_selectUnitsData {user_id : ℤ} {f : ℕ → Bool} {db : Db}
    {units : List Units} (h : (selectUnitsData user_id).perform dbms f db =
      (.ok units : Except SqlException (List Units))) :
    units ⊆ (dbms.query ((selectUnitsData user_id).stmt db) db).map unitsOf := by
  have hquery := eq_collected_of_perform dbms (q := selectUnitsData user_id) (fun _ => not_false) h
  rcases hquery with h | ⟨k, h⟩ <;> rw [h]
  · exact List.nil_subset _
  · exact List.map_subset _ (List.take_subset _ _)

/-- The same of the problems of a unit. -/
theorem subset_of_perform_selectUnitdetail {user_id : ℤ} {unit : Bytes} {f : ℕ → Bool} {db : Db}
    {stats : List UnitStat} (h : (selectUnitdetail user_id unit).perform dbms f db =
      (.ok stats : Except SqlException (List UnitStat))) :
    stats ⊆ (dbms.query ((selectUnitdetail user_id unit).stmt db) db).map unitStatOf := by
  have hquery :=
    eq_collected_of_perform dbms (q := selectUnitdetail user_id unit) (fun _ => not_false) h
  rcases hquery with h | ⟨k, h⟩ <;> rw [h]
  · exact List.nil_subset _
  · exact List.map_subset _ (List.take_subset _ _)

end Query

/-! ### Operations -/

/-- The operations that open a connection. -/
inductive Operation where
  | mutation (m : Mutation)
  | query (q : Query)

namespace Operation

def Answer : Operation → Type
  | mutation _ => Bool
  | query q => q.Answer

/-- What the operation returns or throws under the faults `f`. -/
def perform (f : ℕ → Bool) (db : Db) : (op : Operation) → Except SqlException op.Answer
  | mutation m => (m.perform dbms f db).1
  | query q => q.perform dbms f db

/-- The connector calls that the operation makes when none fails. -/
def calls (db : Db) : Operation → ℕ
  | mutation m =>
    if m.refused then 0
    else connectionCalls +
      (Driver.mutation dbms (m.lock dbms) m.change m.accepts (m.report dbms)).calls (.opened db ())
  | query q => if q.refused then 0 else connectionCalls + (q.body dbms).calls (.opened db q.empty)

/-- The failure value when call `k` is the first to fail: `false`, `-1`, or the
rows collected so far. -/
def failureValue (db : Db) (k : ℕ) : (op : Operation) → op.Answer
  | mutation _ => false
  | query q => q.collected dbms db k

/-- No exception escapes, and a failing call makes the operation return its
failure value. -/
def Contained (op : Operation) (f : ℕ → Bool) (db : Db) : Prop :=
  ∃ v, op.perform dbms f db = .ok v ∧
    ∀ k < op.calls dbms db, FirstFault f k → v = op.failureValue dbms db k

/-- The call fails while `getUserId` holds the id it has found. -/
def FoundId (db : Db) (k : ℕ) : Operation → Prop
  | mutation _ => False
  | query q => q.FoundId dbms db k

/-- What the frame of an operation makes of the first fault. -/
theorem contained_operation_iff {ρ α β : Type} {f : ℕ → Bool} {out : ρ} {body : Sql Db ρ β}
    {returned : β → ρ → α} {failed : ρ → α} {db : Db} {value : ℕ → α} {Found : ℕ → Prop}
    (hconn : ∀ k < connectionCalls, failed out = value k)
    (hbody : ∀ k, failed (body.stateAt (.opened db out) k).out = value (connectionCalls + k) ↔
      ¬ Found (connectionCalls + k)) :
    (∃ v, (operation f out body returned failed db).1 = .ok v ∧
        ∀ k < connectionCalls + body.calls (.opened db out), FirstFault f k → v = value k) ↔
      ∀ k < connectionCalls + body.calls (.opened db out), FirstFault f k →
        k < connectionCalls ∨ (f (k + 2) = false ∧ ¬ Found k) := by
  rcases quiet_or_firstFault f (connectionCalls + body.calls (.opened db out)) with
    hq | ⟨k, hk, hf⟩
  · have hnone : ∀ k < connectionCalls + body.calls (.opened db out), ¬ FirstFault f k :=
      fun k hk hf => absurd hf.1 (by simp [hq k hk])
    rw [operation_of_quiet hq]
    exact iff_of_true ⟨_, rfl, fun k hk hf => absurd hf (hnone k hk)⟩
      fun k hk hf => absurd hf (hnone k hk)
  · -- the first fault is the only one
    have honly : ∀ {P : ℕ → Prop}, (∀ k' < connectionCalls + body.calls (.opened db out),
        FirstFault f k' → P k') ↔ P k := fun {P} =>
      ⟨fun h => h k hk hf, fun h k' _ hf' => hf.unique hf' ▸ h⟩
    simp only [honly]
    by_cases hlt : k < connectionCalls
    · rw [operation_of_fault_connecting hf hlt]
      exact iff_of_true ⟨_, rfl, hconn k hlt⟩ (.inl hlt)
    · obtain ⟨j, rfl⟩ := Nat.exists_eq_add_of_le (Nat.le_of_not_lt hlt)
      rw [operation_of_fault hf (by omega), handleException_eq]
      rcases hset : f (connectionCalls + j + 2) with _ | _
      · rw [if_neg Bool.false_ne_true]
        simp [hbody]
      · rw [if_pos rfl]
        simp [hlt]

/-- **A database error stays inside of an operation exactly when the call after
next succeeds too.**  For every operation, argument, database and pattern of
failing calls: it fails in `getConnection`, or its `catch` block can switch
autocommit on, and it is not `getUserId` with an id in hand. -/
theorem contained_iff (op : Operation) (f : ℕ → Bool) (db : Db) :
    op.Contained dbms f db ↔ ∀ k < op.calls dbms db, FirstFault f k →
      k < connectionCalls ∨ (f (k + 2) = false ∧ ¬ op.FoundId dbms db k) := by
  cases op with
  | mutation m =>
    rcases hr : m.refused with _ | _
    · simp only [Contained, perform, Mutation.perform, calls, hr, if_neg Bool.false_ne_true]
      exact contained_operation_iff (fun _ _ => rfl) fun _ => iff_of_true rfl not_false
    · simp only [Contained, perform, Mutation.perform, calls, hr, if_true, Nat.not_lt_zero]
      exact iff_of_true ⟨_, rfl, fun _ ho => by cases ho⟩ fun _ hk => by cases hk
  | query q =>
    rcases hr : q.refused with _ | _
    · simp only [Contained, perform, Query.perform, calls, hr, if_neg Bool.false_ne_true]
      refine contained_operation_iff (fun k hk => ?_) (q.out_eq_collected_iff dbms db)
      exact (q.collected_of_lt dbms db hk).symm
    · simp only [Contained, perform, Query.perform, calls, hr, if_true, Nat.not_lt_zero]
      exact iff_of_true ⟨_, rfl, fun _ ho => by cases ho⟩ fun _ hk => by cases hk

/-- A connection that is lost after it was opened: every later call throws, and
the exception of the `catch` block escapes. -/
theorem not_contained_registerUser :
    ¬ (mutation (.registerUser (text "Alice"))).Contained counting (fun n => 5 ≤ n) 0 :=
  fun ⟨_, hv, _⟩ => nomatch hv

end Operation

end Driver
end WeakAyas
