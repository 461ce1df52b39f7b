/-
# A database that enforces its keys

A change is told by the text of its statement and performed when it is admitted; a
new row gets an id above all others.  The sort key of a string, the text of a `TIME`
value and the day are parameters, and every value suits its column.
-/

import WeakAyas.Database.Catalogue
import WeakAyas.Database.Reference

namespace WeakAyas
namespace Database

open Driver

variable {κ : Type} [DecidableEq κ] (collation : Bytes → κ) (timeOf : Bytes → Option Bytes)
  (curdate : Bytes)

/-! ### Changes -/

/-- The changes with these parameters. -/
def candidates : List (ℕ × Param) → List Mutation
  | [(1, .str username)] => [.registerUser username, .deleteUser username]
  | [(1, .int id), (2, .str title), (3, .str difficulty)] => [.insertProblem id title difficulty]
  | [(1, .int problem_id)] => [.deleteProblem problem_id]
  | [(1, .int problem_id), (2, .str problem_type)] =>
    [.insertProblemType problem_id problem_type, .deleteProblemType problem_id problem_type]
  | [(1, .int problem_id), (2, .int users_id), (3, .bool status), (4, .str time_spent), _] =>
    [.insertSubmitted users_id problem_id status time_spent]
  | [(1, .int submission_id), (2, .int users_id)] => [.deleteSubmission submission_id users_id]
  | _ => []

/-- The change of a statement. -/
def decodeUpdate (p : Stmt) : Option Mutation := (candidates p.params).find? (·.stmt == p)

/-- Changes with the same parameters have different texts. -/
theorem update_texts_ne :
    (Mutation.registerUser []).stmt.sql ≠ (Mutation.deleteUser []).stmt.sql ∧
      (Mutation.insertProblemType 0 []).stmt.sql ≠ (Mutation.deleteProblemType 0 []).stmt.sql := by
  decide +kernel

/-- A change is read off its statement. -/
theorem decodeUpdate_stmt (m : Mutation) : decodeUpdate m.stmt = some m := by
  have hfirst : ∀ (m : Mutation) (ms : List Mutation),
      (m :: ms).find? (·.stmt == m.stmt) = some m := fun m ms =>
    List.find?_cons_of_pos (by simp)
  have hsecond : ∀ (m m' : Mutation), m.stmt.sql ≠ m'.stmt.sql →
      [m, m'].find? (·.stmt == m'.stmt) = some m' := by
    intro m m' hne
    rw [List.find?_cons_of_neg (by simpa using fun heq => hne (congrArg Stmt.sql heq)), hfirst]
  cases m with
  | deleteUser username => exact hsecond (.registerUser username) _ update_texts_ne.1
  | deleteProblemType problem_id problem_type =>
    exact hsecond (.insertProblemType problem_id problem_type) _ update_texts_ne.2
  | _ => exact hfirst _ _

/-- What the database puts into the new row of a change. -/
def stampOf (db : Tables) : Mutation → Stamp
  | .registerUser _ => ⟨nextId (db.users.map User.id), none, curdate⟩
  | .insertSubmitted _ _ _ time_spent =>
    ⟨nextId (db.submissions.map Submission.id), timeOf time_spent, curdate⟩
  | _ => ⟨0, none, curdate⟩

/-- A change and the rows affected. -/
def enforcingUpdate (p : Stmt) (db : Tables) : Tables × ℕ :=
  match decodeUpdate p with
  | none => (db, 0)
  | some m =>
    if admits collation db m then (effect collation (stampOf timeOf curdate db m) m db, 1)
    else (db, 0)

/-- The next id is none of those in use. -/
theorem ne_nextId {ids : List ℤ} {i : ℤ} (h : i ∈ ids) : i ≠ nextId ids := by
  obtain ⟨j, hj⟩ := Option.isSome_iff_exists.1 (List.isSome_max?_of_mem h)
  have hle := (List.max?_le_iff hj).1 le_rfl i h
  rw [nextId, hj, Option.getD_some]
  omega

/-- What the database fills in is new in its table. -/
theorem fresh_stampOf (db : Tables) (m : Mutation) : Fresh (stampOf timeOf curdate db m) db m := by
  cases m <;> first
    | exact fun u hu => ne_nextId (List.mem_map_of_mem hu)
    | exact fun s hs => ne_nextId (List.mem_map_of_mem hs)
    | trivial

/-- A deletion that finds no row changes nothing. -/
theorem effect_of_not_admits (stamp : Stamp) {m : Mutation} {db : Tables}
    (hi : inserts m = false) (h : admits collation db m = false) :
    effect collation stamp m db = db := by
  have hfilter : ∀ {α : Type} {rows : List α} {p : α → Bool}, rows.any p = false →
      (rows.filter fun a => !p a) = rows := by
    intro α rows p hany
    refine List.filter_eq_self.2 fun a ha => ?_
    simpa using List.any_eq_false.1 hany a ha
  have hcascade : ∀ {α β : Type} {rows : List α} {parents : List β} {q : β → Bool}
      {r : α → β → Bool}, parents.any q = false →
      (rows.filter fun a => !parents.any fun b => q b && r a b) = rows := by
    intro α β rows parents q r hany
    refine List.filter_eq_self.2 fun a ha => ?_
    rw [Bool.not_eq_true', List.any_eq_false]
    intro b hb
    simp [List.any_eq_false.1 hany b hb]
  cases m with
  | deleteUser username =>
    simp only [effect, deleteUser, admits] at h ⊢
    rw [hfilter h, hcascade h]
  | deleteProblem problem_id =>
    simp only [effect, deleteProblem, admits] at h ⊢
    rw [hfilter h, hcascade h, hcascade h]
  | deleteProblemType problem_id problem_type =>
    simp only [effect, deleteProblemType, admits] at h ⊢
    rw [hfilter h]
  | deleteSubmission submission_id users_id =>
    simp only [effect, deleteSubmission, admits] at h ⊢
    exact congrArg (fun subs => { db with submissions := subs }) (hfilter h)
  | _ => simp [inserts] at hi

/-! ### Queries -/

/-- A row with an id alone. -/
def rowOfId (column : String) (id : ℤ) : Row :=
  ⟨fun c => if c = column then id else 0, fun _ => [], fun _ => false⟩

/-- The text of the row lock of `DeleteProblem`. -/
def lockProblemSql : String := "SELECT id FROM problems WHERE id = ? FOR UPDATE"

/-- The rows of a query, by its parameters where these tell it. -/
def enforcingQuery (p : Stmt) (db : Tables) : List Row :=
  match p.params with
  | [(1, .str username)] => (db.users.filter (·.named collation username)).map rowOfUser
  | [(1, .int problem_id), (2, .str problem_type)] =>
    (db.problemTypeMap.filter (·.isOf collation problem_id problem_type)).map fun t =>
      rowOfId "problem_id" t.problemId
  | [(1, .int id)] =>
    if p.sql = lockProblemSql then
      (db.problems.filter (·.id == id)).map fun p => rowOfId "id" p.id
    else referenceQuery collation p db
  | _ => referenceQuery collation p db

/-- The database. -/
def enforcing : Dbms Tables where
  query := enforcingQuery collation
  update := enforcingUpdate collation timeOf curdate
  unchanged p db := by
    unfold enforcingUpdate
    repeat' split
    · exact fun _ => rfl
    · exact fun h => absurd h (Nat.succ_ne_zero 0)
    · exact fun _ => rfl

/-! ### It enforces the keys -/

/-- The lock of a problem is neither of the statements with one number. -/
theorem lockProblemSql_ne : unitsDataSql ≠ lockProblemSql ∧ (lockUser 0).sql ≠ lockProblemSql := by
  decide +kernel

/-- The row lock of `DeleteSubmission`. -/
def lockSubmission (submission_id users_id : ℤ) : Stmt :=
  ⟨"SELECT id FROM submissions WHERE id = ? AND users_id = ? FOR UPDATE",
    [(1, .int submission_id), (2, .int users_id)]⟩

/-- The lock of a submission finds the rows of its id and user. -/
theorem query_lockSubmission (submission_id users_id : ℤ) (db : Tables) :
    (enforcing collation timeOf curdate).query (lockSubmission submission_id users_id) db =
      (db.submissions.filter (·.isOf submission_id users_id)).map fun s =>
        ⟨fun column => if column = "id" then s.id else 0, fun _ => [], fun _ => false⟩ := by
  have hne : (lockSubmission 0 0).sql ≠ unitsDataSql ∧ (lockSubmission 0 0).sql ≠ unitdetailSql ∧
      (lockSubmission 0 0).sql ≠ submissionsSql ∧
      ¬ ((lockSubmission 0 0).sql = "SELECT username FROM users WHERE id = ? FOR UPDATE" ∨
        (lockSubmission 0 0).sql = "SELECT username FROM users WHERE id = ?") := by
    decide +kernel
  show referenceQuery collation (lockSubmission submission_id users_id) db = _
  simp only [lockSubmission] at hne ⊢
  simp only [referenceQuery, hne, if_false, if_true]
  rfl

/-- A lock finds nothing where no row is the one in question. -/
theorem isEmpty_map_filter {α β : Type} (g : α → β) (p : α → Bool) (rows : List α) :
    ((rows.filter p).map g).isEmpty = !rows.any p := by
  induction rows with
  | nil => rfl
  | cons a rows ih =>
    rw [List.filter_cons, List.any_cons]
    cases p a
    · exact ih
    · rfl

/-- Other statements with one number are those of `reference`. -/
theorem enforcing_query_of_ne {sql : String} {id : ℤ} {db : Tables} (h : sql ≠ lockProblemSql) :
    (enforcing collation timeOf curdate).query ⟨sql, [(1, .int id)]⟩ db =
      (reference collation timeOf curdate).query ⟨sql, [(1, .int id)]⟩ db := if_neg h

/-- The lock of a problem finds the problem. -/
theorem enforcing_query_of_eq {sql : String} (h : sql = lockProblemSql) (id : ℤ) (db : Tables) :
    (enforcing collation timeOf curdate).query ⟨sql, [(1, .int id)]⟩ db =
      (db.problems.filter (·.id == id)).map fun p => rowOfId "id" p.id := if_pos h

/-- A change is made if the keys admit it, and is refused otherwise. -/
theorem update_enforcing (m : Mutation) (db : Tables) :
    (enforcing collation timeOf curdate).update m.stmt db =
      if admits collation db m then (effect collation (stampOf timeOf curdate db m) m db, 1)
      else (db, 0) := by
  show enforcingUpdate collation timeOf curdate m.stmt db = _
  rw [enforcingUpdate, decodeUpdate_stmt]

/-- A change takes effect as a whole or not at all. -/
theorem apply_enforcing (m : Mutation) (db : Tables) :
    m.apply (enforcing collation timeOf curdate) db = db ∨
      m.apply (enforcing collation timeOf curdate) db =
        effect collation (stampOf timeOf curdate db m) m db := by
  rw [Mutation.apply, update_enforcing]
  split_ifs
  · exact .inr rfl
  · exact .inl rfl

/-- The effect of a deletion does not depend on the stamp. -/
theorem effect_stamp {m : Mutation} (hi : inserts m = false) (stamp stamp' : Stamp) (db : Tables) :
    effect collation stamp m db = effect collation stamp' m db := by
  cases m <;> first | rfl | simp [inserts] at hi

/-- **There is a database that enforces its keys.** -/
theorem enforces_enforcing :
    Enforces collation (fun _ => True) (enforcing collation timeOf curdate) where
  unitsData := by
    obtain ⟨unit, hunits⟩ := (standard_reference collation timeOf curdate).unitsData
    refine ⟨unit, fun user_id db => ?_⟩
    have hperm := hunits user_id db
    rw [stmt_selectUnitsData] at hperm ⊢
    rwa [enforcing_query_of_ne collation timeOf curdate lockProblemSql_ne.1]
  unitdetail := (standard_reference collation timeOf curdate).unitdetail
  submissions users_id problem_id db :=
    (standard_reference collation timeOf curdate).submissions users_id problem_id db
  insertUser username db := by
    rcases apply_enforcing collation timeOf curdate (.registerUser username) db with h | h
    · exact .inl h
    · exact .inr ⟨_, _, h⟩
  insertSubmission users_id problem_id status time_spent db := by
    rcases apply_enforcing collation timeOf curdate
      (.insertSubmitted users_id problem_id status time_spent) db with h | h
    · exact .inl h
    · exact .inr ⟨_, _, _, h⟩
  deleteSubmission submission_id users_id db := by
    rw [Mutation.apply, update_enforcing]
    split_ifs with hadmits
    · rfl
    · have hadmits : admits collation db (.deleteSubmission submission_id users_id) = false := by
        simpa using hadmits
      exact (effect_of_not_admits collation ⟨0, none, []⟩ rfl hadmits).symm
  getUserId username db := by
    show (((db.users.filter (·.named collation username)).map rowOfUser).map (·.int "id")).Perm _
    rw [List.map_map]
    exact .of_eq (List.map_congr_left fun u _ => show (if "id" = "id" then u.id else 0) = u.id from
      if_pos rfl)
  lock m p db hp := by
    cases m with
    | deleteProblem problem_id =>
      obtain rfl := Option.some.inj hp
      have hquery := enforcing_query_of_eq collation timeOf curdate rfl problem_id db
      exact (congrArg List.isEmpty hquery).trans (isEmpty_map_filter _ _ _)
    | insertProblemType problem_id problem_type =>
      obtain rfl := Option.some.inj hp
      exact isEmpty_map_filter _ _ _
    | deleteProblemType problem_id problem_type =>
      obtain rfl := Option.some.inj hp
      exact isEmpty_map_filter _ _ _
    | insertSubmitted users_id problem_id status time_spent =>
      obtain rfl := Option.some.inj hp
      have hquery : (enforcing collation timeOf curdate).query (lockUser users_id) db =
          (db.users.filter (·.id == users_id)).map rowOfUser :=
        (enforcing_query_of_ne collation timeOf curdate lockProblemSql_ne.2).trans
          (query_lockUser collation timeOf curdate users_id db)
      exact (congrArg List.isEmpty hquery).trans (isEmpty_map_filter _ _ _)
    | deleteSubmission submission_id users_id =>
      obtain rfl := Option.some.inj hp
      exact (congrArg List.isEmpty (query_lockSubmission ..)).trans (isEmpty_map_filter _ _ _)
    | _ => simp [lockStmt] at hp
  insert m db _ _ hadmits :=
    ⟨_, fresh_stampOf timeOf curdate db m, by rw [update_enforcing, if_pos hadmits]⟩
  refuse m db _ hn := by
    rw [update_enforcing, if_neg fun hadmits => hn ⟨trivial, hadmits⟩]
  delete m db stamp hi := by
    rw [update_enforcing]
    split_ifs with hadmits
    · exact ⟨effect_stamp collation hi _ _ db, by simp [hadmits]⟩
    · have hadmits : admits collation db m = false := by simpa using hadmits
      exact ⟨(effect_of_not_admits collation stamp hi hadmits).symm, by simp [hadmits]⟩

end Database
end WeakAyas
