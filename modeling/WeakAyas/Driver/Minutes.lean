/-
# The minutes of a time

`SQL_Driver::getMinuteFromTime` and its place in `SQL_Driver::InsertSubmitted`
(`sql_driver.cpp`, lines 426-485).

On the text of a time whose minutes fit in an `int` they are its own
(`getMinuteFromTime_of_denotes`).  On any other text they are whatever `sscanf` has
read, wrapped to an `int`, or `-1`, and the `INSERT` takes them all the same: nothing
stands between the two but the row lock of the user (`goesOn_insertSubmitted`).
-/

import WeakAyas.Driver.Atomicity

namespace WeakAyas
namespace Driver

open Script

/-- A run of decimal digits. -/
structure IsDigits (ds : Bytes) : Prop where
  ne_nil : ds ≠ []
  digits : ds.all isDigit = true

/-- The text is `h:m:s`, with the minutes and seconds of a clock. -/
def DenotesTime (t : Bytes) (h m s : ℕ) : Prop :=
  ∃ hh mm ss : Bytes, IsDigits hh ∧ IsDigits mm ∧ IsDigits ss ∧
    t = hh ++ 58 :: (mm ++ 58 :: ss) ∧ decimal hh = h ∧ decimal mm = m ∧ decimal ss = s ∧
      m ≤ 59 ∧ s ≤ 59

/-- Digits that make an `int` are read up to a colon. -/
theorem IsDigits.scanD_colon {ds : Bytes} (h : IsDigits ds) (hfits : (decimal ds : ℤ) < 2 ^ 31)
    (rest : Bytes) : scanD (ds ++ 58 :: rest) = some ((decimal ds : ℤ), 58 :: rest) := by
  refine scanD_of_scanInt (scanInt_append h.ne_nil h.digits fun b hb => ?_) (by omega) hfits
  obtain rfl : 58 = b := by simpa using hb
  decide

/-- A digit is not the NUL. -/
theorem IsDigits.ne_zero {ds : Bytes} (h : IsDigits ds) {b : UInt8} (hb : b ∈ ds) : b ≠ 0 := by
  rintro rfl
  exact absurd (List.all_eq_true.1 h.digits 0 hb) (by decide)

/-- **The minutes of a time are its own**, when they fit in an `int`. -/
theorem getMinuteFromTime_of_denotes {t : Bytes} {h m s : ℕ} (ht : DenotesTime t h m s)
    (hfits : 60 * h + m < 2 ^ 31) : getMinuteFromTime t = 60 * h + m := by
  obtain ⟨hh, mm, ss, hhh, hmm, hss, rfl, rfl, rfl, rfl, hm, hs⟩ := ht
  -- the whole text is a C string
  have hstr : (hh ++ 58 :: (mm ++ 58 :: ss)).takeWhile (· != 0) = hh ++ 58 :: (mm ++ 58 :: ss) := by
    rw [List.takeWhile_eq_self_iff]
    intro b hb
    simp only [List.mem_append, List.mem_cons] at hb
    rw [bne_iff_ne]
    rcases hb with hb | rfl | hb | rfl | hb
    · exact hhh.ne_zero hb
    · decide
    · exact hmm.ne_zero hb
    · decide
    · exact hss.ne_zero hb
  have hseconds := scanD_of_scanInt (scanInt_digits hss.ne_nil hss.digits) (by omega) (by omega)
  rw [getMinuteFromTime, hstr, hhh.scanD_colon (by omega)]
  simp only [hmm.scanD_colon (by omega : (decimal mm : ℤ) < 2 ^ 31), hseconds]
  rw [wrapInt_of_range (by omega) (by omega)]
  omega

/-- What is bound is an `int`, whatever the text. -/
theorem getMinuteFromTime_range (t : Bytes) :
    -2 ^ 31 ≤ getMinuteFromTime t ∧ getMinuteFromTime t < 2 ^ 31 := by
  unfold getMinuteFromTime
  split
  · split
    · split
      · exact wrapInt_range _
      · decide
    · decide
  · decide

variable {Db : Type} (dbms : Dbms Db)

/-- The update of an operation is executed: the operation goes on to it, and no call
up to it fails. -/
def Mutation.Executes (m : Mutation) (f : ℕ → Bool) (db : Db) : Prop :=
  m.goesOn dbms db = true ∧ ∀ i ≤ m.updateAt, f i = false

/-- The row lock of `InsertSubmitted`. -/
def lockUser (users_id : ℤ) : Stmt :=
  ⟨"SELECT username FROM users WHERE id = ? FOR UPDATE", [(1, .int users_id)]⟩

/-- The row lock asks for the user. -/
theorem value_lock_insertSubmitted {users_id problem_id : ℤ} {status : Bool} {time_spent : Bytes}
    {db : Db} :
    ((Mutation.insertSubmitted users_id problem_id status time_spent).lock dbms).value
      (.opened db ()) = !(dbms.query (lockUser users_id) db).isEmpty := by
  have hrow := value_firstRow (dbms.query (lockUser users_id) db) true false
    (.opened db () : Conn Db Unit)
  refine Eq.trans ?_ (hrow.trans (by cases (dbms.query (lockUser users_id) db).isEmpty <;> rfl))
  rfl

/-- `InsertSubmitted` asks for the user, and for nothing else. -/
theorem goesOn_insertSubmitted {users_id problem_id : ℤ} {status : Bool} {time_spent : Bytes}
    {db : Db} :
    (Mutation.insertSubmitted users_id problem_id status time_spent).goesOn dbms db = true ↔
      users_id ≠ -1 ∧ dbms.query (lockUser users_id) db ≠ [] := by
  rw [Mutation.goesOn, value_lock_insertSubmitted, Mutation.refused]
  simp

/-- The minutes are bound last. -/
theorem params_insertSubmitted (users_id problem_id : ℤ) (status : Bool) (time_spent : Bytes) :
    (Mutation.insertSubmitted users_id problem_id status time_spent).stmt.params =
      [(1, .int problem_id), (2, .int users_id), (3, .bool status), (4, .str time_spent),
        (5, .int (getMinuteFromTime time_spent))] := rfl

/-- The parameter bound to `time_spent_min`. -/
theorem mem_params_insertSubmitted {users_id problem_id : ℤ} {status : Bool} {time_spent : Bytes}
    {v : ℤ} : (5, Param.int v) ∈
        (Mutation.insertSubmitted users_id problem_id status time_spent).stmt.params ↔
      v = getMinuteFromTime time_spent := by
  rw [params_insertSubmitted]
  simp

end Driver
end WeakAyas
