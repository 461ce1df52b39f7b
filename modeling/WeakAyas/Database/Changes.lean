/-
# What an operation does to the tables

The eight operations that change a table (`sql_driver.cpp`, lines 145-552) on a
database that enforces its keys.

The row lock, the update and the check of the affected rows together decide one
question, asked of the tables at the start: are the keys of the new row free, or is
there a row to delete (`Performs`).  An undisturbed operation answers it and does
what it says (`perform_exact`); under any faults it makes its change or none, and
`true` is the answer only to a change that was made (`perform_sound`).
-/

import WeakAyas.Database.Enforcing

namespace WeakAyas
namespace Database

open Driver Script

variable {κ : Type} [DecidableEq κ] {collation : Bytes → κ} {fits : Mutation → Prop}
  {dbms : Dbms Tables}

/-! ### The lock -/

variable (collation) in
/-- The lock lets the operation go on: `InsertProblemType` is the one that wants no
row. -/
def opens (db : Tables) : Mutation → Bool
  | .insertProblemType problem_id problem_type =>
    !locks collation db (.insertProblemType problem_id problem_type)
  | m => locks collation db m

variable (collation fits) in
/-- The database accepts the change: its values suit their columns, and its keys are
free or its row is there. -/
def Admitted (m : Mutation) (db : Tables) : Prop :=
  (inserts m = true → fits m) ∧ admits collation db m = true

variable (collation fits) in
/-- The operation is to be performed: it has a user, and the database accepts it. -/
def Performs (m : Mutation) (db : Tables) : Prop :=
  m.refused = false ∧ Admitted collation fits m db

/-- The row lock tells whether the operation goes on. -/
theorem value_lock_eq (h : Enforces collation fits dbms) (m : Mutation) (db : Tables) :
    (m.lock dbms).value (.opened db ()) = opens collation db m := by
  cases m with
  | insertSubmitted users_id problem_id status time_spent =>
    have hlock := h.lock (.insertSubmitted users_id problem_id status time_spent) _ db rfl
    exact (value_lock_insertSubmitted dbms).trans
      ((congrArg (!·) hlock).trans (Bool.not_not _))
  | insertProblemType problem_id problem_type =>
    have hlock := h.lock (.insertProblemType problem_id problem_type) _ db rfl
    exact (Bool.not_not _).trans hlock
  | deleteProblem problem_id =>
    have hlock := h.lock (.deleteProblem problem_id) _ db rfl
    exact (congrArg (!·) hlock).trans (Bool.not_not _)
  | deleteProblemType problem_id problem_type =>
    have hlock := h.lock (.deleteProblemType problem_id problem_type) _ db rfl
    exact (congrArg (!·) hlock).trans (Bool.not_not _)
  | deleteSubmission submission_id users_id =>
    have hlock := h.lock (.deleteSubmission submission_id users_id) _ db rfl
    exact (congrArg (!·) hlock).trans (Bool.not_not _)
  | _ => rfl

/-- It goes on when its own checks pass and the row is there. -/
theorem goesOn_eq (h : Enforces collation fits dbms) (m : Mutation) (db : Tables) :
    m.goesOn dbms db = (!m.refused && opens collation db m) := by
  rw [Mutation.goesOn, value_lock_eq h]

/-- What can be performed is let on by its lock. -/
theorem opens_of_admits {m : Mutation} {db : Tables} (h : admits collation db m = true) :
    opens collation db m = true := by
  cases m with
  | insertProblemType problem_id problem_type => exact (Bool.and_eq_true_iff.1 h).2
  | insertSubmitted users_id problem_id status time_spent => exact (Bool.and_eq_true_iff.1 h).1
  | _ => first | rfl | exact h

/-! ### The update -/

/-- An update that is not accepted affects no row. -/
theorem update_of_not_admitted (h : Enforces collation fits dbms) {m : Mutation} {db : Tables}
    (hn : ¬ Admitted collation fits m db) : (dbms.update m.stmt db).2 = 0 := by
  cases hi : inserts m with
  | true => rw [h.refuse m db hi fun hadmits => hn ⟨fun _ => hadmits.1, hadmits.2⟩]
  | false =>
    refine ((h.delete m db ⟨0, none, []⟩ hi).2).2 ?_
    cases hadmits : admits collation db m
    · rfl
    · exact absurd ⟨fun hins => absurd hins (by simp [hi]), hadmits⟩ hn

/-- An update that is accepted affects a row, and has its effect. -/
theorem update_of_admitted (h : Enforces collation fits dbms) {m : Mutation} {db : Tables}
    (ha : Admitted collation fits m db) :
    (dbms.update m.stmt db).2 ≠ 0 ∧
      ∃ stamp, Fresh stamp db m ∧ m.apply dbms db = effect collation stamp m db := by
  cases hi : inserts m with
  | true =>
    obtain ⟨stamp, hfresh, hupdate⟩ := h.insert m db hi (ha.1 hi) ha.2
    exact ⟨by simp [hupdate], stamp, hfresh, by rw [Mutation.apply, hupdate]⟩
  | false =>
    obtain ⟨heffect, hzero⟩ := h.delete m db ⟨0, none, []⟩ hi
    refine ⟨fun hn => ?_, ⟨0, none, []⟩, ?_, heffect⟩
    · exact absurd (hzero.1 hn) (by simp [ha.2])
    · cases m <;> trivial

/-- **A statement changes the tables by its effect or not at all.** -/
theorem apply_cases (h : Enforces collation fits dbms) (m : Mutation) (db : Tables) :
    m.apply dbms db = db ∨ Admitted collation fits m db ∧
      ∃ stamp, Fresh stamp db m ∧ m.apply dbms db = effect collation stamp m db := by
  by_cases ha : Admitted collation fits m db
  · exact .inr ⟨ha, (update_of_admitted h ha).2⟩
  · exact .inl (dbms.unchanged _ _ (update_of_not_admitted h ha))

/-- A change that meets a row is accepted. -/
theorem accepts_of_ne_zero {m : Mutation} {n : ℕ} (h : n ≠ 0) : m.accepts n = true := by
  cases hacc : m.accepts n
  · exact absurd (eq_zero_of_not_accepts hacc) h
  · rfl

/-! ### The operation -/

/-- The only fault is that of an `INSERT` that the database refuses. -/
def Undisturbed (dbms : Dbms Tables) (m : Mutation) (db : Tables) (f : ℕ → Bool) : Prop :=
  ∀ n, f n = true ↔ n = m.updateAt ∧ inserts m = true ∧ (dbms.update m.stmt db).2 = 0

/-- An `INSERT` that the database refuses throws. -/
def RefusalThrows (dbms : Dbms Tables) (m : Mutation) (db : Tables) (f : ℕ → Bool) : Prop :=
  inserts m = true → (dbms.update m.stmt db).2 = 0 → f m.updateAt = true

/-- An operation that changes nothing fails, when its `catch` block can switch
autocommit on. -/
theorem perform_of_unchanged_ok {m : Mutation} {db : Tables} {f : ℕ → Bool}
    (h : ¬ (m.goesOn dbms db = true ∧ m.accepts (dbms.update m.stmt db).2 = true))
    (hf : ∀ k, FirstFault f k → f (k + 2) = false) : m.perform dbms f db = (.ok false, db) := by
  have hdb := (perform_of_unchanged dbms f h).2
  have hne := (perform_of_unchanged dbms f h).1
  suffices hok : ∃ r, (m.perform dbms f db).1 = .ok r by
    obtain ⟨r, hr⟩ := hok
    rw [hr] at hne
    have hfalse : r = false := by
      cases r
      · rfl
      · exact absurd rfl hne
    exact Prod.ext (hfalse ▸ hr) hdb
  rw [Mutation.perform]
  split_ifs
  · exact ⟨false, rfl⟩
  · rcases quiet_or_firstFault f (connectionCalls + (mutation dbms (m.lock dbms) m.change m.accepts
      (m.report dbms)).calls (.opened db ())) with hq | ⟨k, hk, hfault⟩
    · rw [operation_of_quiet hq]
      exact ⟨_, rfl⟩
    · by_cases hconn : k < connectionCalls
      · rw [operation_of_fault_connecting hfault hconn]
        exact ⟨_, rfl⟩
      · obtain ⟨j, rfl⟩ := Nat.exists_eq_add_of_le (Nat.le_of_not_lt hconn)
        have hset : f (connectionCalls + j + 1 + 1) = false := hf _ hfault
        rw [operation_of_fault hfault (by omega), handleException_eq, hset]
        exact ⟨_, rfl⟩

/-- An accepted update that throws is answered with `false`. -/
theorem perform_of_fault_updating {m : Mutation} {db : Tables} {f : ℕ → Bool}
    (hgo : m.goesOn dbms db = true) (hacc : m.accepts (dbms.update m.stmt db).2 = true)
    (hfault : FirstFault f m.updateAt) (hset : f (m.updateAt + 2) = false) :
    m.perform dbms f db = (.ok false, db) := by
  have hrefused : m.refused = false := by simpa using (Bool.and_eq_true_iff.1 hgo).1
  obtain ⟨hcalls, -⟩ := calls_accepted dbms hgo hacc
  obtain ⟨hlt, hlt'⟩ := updateAt_lt_commitAt dbms m db
  obtain ⟨j, hj⟩ := Nat.exists_eq_add_of_le hlt.le
  have hleft := leftBehind_accepted dbms hgo hacc j (f (connectionCalls + j + 1))
  rw [if_pos (by omega)] at hleft
  rw [hj] at hfault hset
  rw [Mutation.perform, if_neg (by simp [hrefused]), operation_of_fault hfault (by omega),
    handleException_eq, hset, hleft]
  rfl

/-- An undisturbed operation succeeds when its update is accepted. -/
theorem perform_of_quiet {m : Mutation} {db : Tables} {f : ℕ → Bool}
    (hgo : m.goesOn dbms db = true) (hacc : m.accepts (dbms.update m.stmt db).2 = true)
    (hq : ∀ n, f n = false) : m.perform dbms f db = (.ok true, m.apply dbms db) := by
  have hrefused : m.refused = false := by simpa using (Bool.and_eq_true_iff.1 hgo).1
  have hf : f = fun _ => false := funext hq
  have hdb := database_of_quiet dbms hgo
  obtain ⟨-, hvalue⟩ := calls_accepted dbms hgo hacc
  refine Prod.ext ?_ (hf ▸ hdb)
  rw [Mutation.perform, if_neg (by simp [hrefused]), operation_of_quiet fun i _ => hq i, hvalue]

/-- An operation that is admitted is performed. -/
theorem perform_of_performs (h : Enforces collation fits dbms) {m : Mutation} {db : Tables}
    {f : ℕ → Bool} (hf : Undisturbed dbms m db f) (hp : Performs collation fits m db) :
    ∃ stamp, Fresh stamp db m ∧
      m.perform dbms f db = (.ok true, effect collation stamp m db) := by
  obtain ⟨hne, stamp, hfresh, heffect⟩ := update_of_admitted h hp.2
  have hgo : m.goesOn dbms db = true := by
    rw [goesOn_eq h, hp.1, opens_of_admits hp.2.2]
    rfl
  have hq : ∀ n, f n = false := by
    intro n
    cases hn : f n
    · rfl
    · exact absurd ((hf n).1 hn).2.2 hne
  exact ⟨stamp, hfresh, heffect ▸ perform_of_quiet hgo (accepts_of_ne_zero hne) hq⟩

/-- One that is not returns false and leaves the tables. -/
theorem perform_of_not_performs (h : Enforces collation fits dbms) {m : Mutation} {db : Tables}
    {f : ℕ → Bool} (hf : Undisturbed dbms m db f) (hn : ¬ Performs collation fits m db) :
    m.perform dbms f db = (.ok false, db) := by
  -- a fault is at the update only
  have hset : ∀ k, FirstFault f k → f (k + 2) = false := by
    intro k hk
    have hupdate := ((hf k).1 hk.1).1
    cases hk2 : f (k + 2)
    · rfl
    · have := ((hf (k + 2)).1 hk2).1
      omega
  by_cases hgo : m.goesOn dbms db = true ∧ m.accepts (dbms.update m.stmt db).2 = true
  · have hrefused : m.refused = false := by simpa using (Bool.and_eq_true_iff.1 hgo.1).1
    have hzero := update_of_not_admitted h fun ha => hn ⟨hrefused, ha⟩
    -- only `InsertSubmitted` accepts an update that affects no row
    have hins : inserts m = true := by
      have hacc := hgo.2
      rw [hzero] at hacc
      cases m <;> first | rfl | simp [Mutation.accepts] at hacc
    have hfault : FirstFault f m.updateAt := by
      refine ⟨(hf _).2 ⟨rfl, hins, hzero⟩, fun i hi => ?_⟩
      cases hfi : f i
      · rfl
      · have := ((hf i).1 hfi).1
        omega
    exact perform_of_fault_updating hgo.1 hgo.2 hfault (hset _ hfault)
  · exact perform_of_unchanged_ok hgo hset

/-- **An undisturbed operation does exactly what it says.**  For every operation,
its arguments and all tables: it succeeds and has its effect on the tables when it
is to be performed, and otherwise it fails and changes nothing. -/
theorem perform_exact (h : Enforces collation fits dbms) (m : Mutation) (db : Tables)
    (f : ℕ → Bool) (hf : Undisturbed dbms m db f) :
    (Performs collation fits m db → ∃ stamp, Fresh stamp db m ∧
      m.perform dbms f db = (.ok true, effect collation stamp m db)) ∧
    (¬ Performs collation fits m db → m.perform dbms f db = (.ok false, db)) :=
  ⟨perform_of_performs h hf, perform_of_not_performs h hf⟩

/-- Deleting Bob, who is there. -/
theorem perform_exact_bob :
    (Performs id (fun _ => True) (.deleteUser (text "Bob")) sample →
      ∃ stamp, Fresh stamp sample (.deleteUser (text "Bob")) ∧
        (Mutation.deleteUser (text "Bob")).perform (enforcing id some (text "2024-01-05"))
          (fun _ => false) sample =
            (.ok true, effect id stamp (.deleteUser (text "Bob")) sample)) ∧
    (¬ Performs id (fun _ => True) (.deleteUser (text "Bob")) sample →
      (Mutation.deleteUser (text "Bob")).perform (enforcing id some (text "2024-01-05"))
        (fun _ => false) sample = (.ok false, sample)) :=
  perform_exact (enforces_enforcing id some (text "2024-01-05")) (.deleteUser (text "Bob")) sample _
    (by simp [Undisturbed, inserts])

/-- After a fault nothing succeeds. -/
theorem ne_true_of_fault {m : Mutation} {db : Tables} {f : ℕ → Bool} {k : ℕ}
    (hrefused : m.refused = false) (hfault : FirstFault f k)
    (hk : k < connectionCalls + (mutation dbms (m.lock dbms) m.change m.accepts
      (m.report dbms)).calls (.opened db ())) : (m.perform dbms f db).1 ≠ .ok true := by
  rw [Mutation.perform, if_neg (by simp [hrefused])]
  by_cases hconn : k < connectionCalls
  · rw [operation_of_fault_connecting hfault hconn]
    simp
  · obtain ⟨j, rfl⟩ := Nat.exists_eq_add_of_le (Nat.le_of_not_lt hconn)
    rw [operation_of_fault hfault (by omega), handleException_eq]
    split_ifs <;> simp

/-- **Whatever fails, an operation makes its change once or not at all, and `true`
is the answer only when it was made.** -/
theorem perform_sound (h : Enforces collation fits dbms) (m : Mutation) (db : Tables)
    (f : ℕ → Bool) (hf : RefusalThrows dbms m db f) :
    ((m.perform dbms f db).2 = db ∨ Performs collation fits m db ∧
      ∃ stamp, Fresh stamp db m ∧ (m.perform dbms f db).2 = effect collation stamp m db) ∧
    ((m.perform dbms f db).1 = .ok true → Performs collation fits m db ∧
      ∃ stamp, Fresh stamp db m ∧ (m.perform dbms f db).2 = effect collation stamp m db) := by
  cases hrefused : m.refused with
  | true =>
    rw [Mutation.perform, if_pos hrefused]
    exact ⟨.inl rfl, fun htrue => by simp at htrue⟩
  | false =>
    constructor
    · rcases perform_database dbms m f db with hdb | hdb
      · exact .inl hdb
      · rw [hdb]
        rcases apply_cases h m db with hsame | ⟨ha, heffect⟩
        · exact .inl hsame
        · exact .inr ⟨⟨hrefused, ha⟩, heffect⟩
    · intro htrue
      have hgo : m.goesOn dbms db = true ∧ m.accepts (dbms.update m.stmt db).2 = true := by
        by_contra hn
        exact (perform_of_unchanged dbms f hn).1 htrue
      obtain ⟨hcalls, -⟩ := calls_accepted dbms hgo.1 hgo.2
      obtain ⟨hlt, hlt'⟩ := updateAt_lt_commitAt dbms m db
      rcases quiet_or_firstFault f (m.commitAt dbms db + 2) with hq | ⟨k, hk, hfault⟩
      · have hp : Performs collation fits m db := by
          by_contra hn
          have hzero := update_of_not_admitted h fun ha => hn ⟨hrefused, ha⟩
          have hins : inserts m = true := by
            have hacc := hgo.2
            rw [hzero] at hacc
            cases m <;> first | rfl | simp [Mutation.accepts] at hacc
          have hthrows := hf hins hzero
          rw [hq m.updateAt (by omega)] at hthrows
          exact absurd hthrows (by simp)
        obtain ⟨-, stamp, hfresh, heffect⟩ := update_of_admitted h hp.2
        refine ⟨hp, stamp, hfresh, ?_⟩
        rw [Mutation.perform, if_neg (by simp [hrefused]), operation_of_quiet (hcalls ▸ hq),
          ← stateAt_of_calls_le _ _ le_rfl, stateAt_accepted dbms hgo.1 hgo.2, hcalls,
          if_neg (by omega), if_neg (by omega), if_neg (by omega), if_neg (by omega)]
        exact heffect
      · exact absurd htrue (ne_true_of_fault hrefused hfault (hcalls ▸ hk))

/-- Deleting Bob while the eighth call to the connector throws. -/
theorem perform_sound_bob :
    (((Mutation.deleteUser (text "Bob")).perform (enforcing id some (text "2024-01-05"))
        (fun n => n == 7) sample).2 = sample ∨
      Performs id (fun _ => True) (.deleteUser (text "Bob")) sample ∧
        ∃ stamp, Fresh stamp sample (.deleteUser (text "Bob")) ∧
          ((Mutation.deleteUser (text "Bob")).perform (enforcing id some (text "2024-01-05"))
            (fun n => n == 7) sample).2 = effect id stamp (.deleteUser (text "Bob")) sample) ∧
    (((Mutation.deleteUser (text "Bob")).perform (enforcing id some (text "2024-01-05"))
        (fun n => n == 7) sample).1 = .ok true →
      Performs id (fun _ => True) (.deleteUser (text "Bob")) sample ∧
        ∃ stamp, Fresh stamp sample (.deleteUser (text "Bob")) ∧
          ((Mutation.deleteUser (text "Bob")).perform (enforcing id some (text "2024-01-05"))
            (fun n => n == 7) sample).2 = effect id stamp (.deleteUser (text "Bob")) sample) :=
  perform_sound (enforces_enforcing id some (text "2024-01-05")) (.deleteUser (text "Bob")) sample
    (fun n => n == 7) (by simp [RefusalThrows, inserts])

end Database
end WeakAyas
