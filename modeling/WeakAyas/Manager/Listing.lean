/-
# The submissions of a user, as they are listed

`SQL_Driver::getSubmissions` (`sql_driver.cpp`, lines 555-605) and
`SQLManager::get_problem_submit_table` (`SQLManager.cpp`, lines 433-465).

The query asks for the rows `ORDER BY id ASC`, and the driver stores them in a
`std::unordered_map`, which may be iterated in any order of its entries.  The ids
are keys, so no row is lost and none is listed twice (`printsSubmissions`), but two
rows can be listed either way round: the order of the query is kept only where
there is nothing to order (`printsInOrder_iff`).
-/

import WeakAyas.Manager.Delivery

namespace WeakAyas
namespace Manager

open Driver

/-- The table for a map with this order of iteration has a line for each
submission of the user for the problem, and no other. -/
structure PrintsSubmissions (users_id problem_id : ℤ) (db : Database.Tables)
    (order : Submissions) : Prop where
  lines : ∃ head : Bytes, head.length = 154 ∧
    getProblemSubmitTable order = head ++ (order.map submitCells).flatMap tableLine
  complete : ∀ x, x ∈ order ↔ x ∈ Database.getSubmissions users_id problem_id db
  once : (order.map Prod.fst).Nodup

/-- The lines are in ascending order of the submission id as well. -/
structure PrintsInOrder (users_id problem_id : ℤ) (db : Database.Tables)
    (order : Submissions) : Prop extends PrintsSubmissions users_id problem_id db order where
  ascending : order.Pairwise fun x y => x.1 < y.1

variable {κ : Type} [DecidableEq κ] {collation : Bytes → κ} {dbms : Dbms Database.Tables}
  {db : Database.Tables} {users_id problem_id : ℤ}

/-- Whatever the order, the table is complete. -/
theorem printsSubmissions (h : (db.submissions.map Database.Submission.id).Nodup)
    {order : Submissions} (horder : order.Perm (Database.getSubmissions users_id problem_id db)) :
    PrintsSubmissions users_id problem_id db order where
  lines := getProblemSubmitTable_eq order
  complete _ := horder.mem_iff
  once := (horder.map Prod.fst).nodup_iff.2
    (Database.nodup_fst_getSubmissions h users_id problem_id)

/-- Two entries at least are in ascending order one way round only. -/
theorem exists_perm_not_ascending {subs : Submissions} (h : 1 < subs.length) :
    ∃ order : Submissions, order.Perm subs ∧ ¬ order.Pairwise fun x y => x.1 < y.1 := by
  by_cases hasc : subs.Pairwise fun x y => x.1 < y.1
  · refine ⟨subs.reverse, subs.reverse_perm, fun hrev => ?_⟩
    rw [List.pairwise_reverse] at hrev
    rcases subs with _ | ⟨x, _ | ⟨y, subs⟩⟩
    · simp at h
    · simp at h
    · exact absurd (List.rel_of_pairwise_cons hasc (List.mem_cons_self ..))
        (List.rel_of_pairwise_cons hrev (List.mem_cons_self ..)).not_gt
  · exact ⟨subs, .refl _, hasc⟩

/-- **The table is complete, and in order exactly when it has one line at most.**
For every user and problem and all tables with different submission ids: for every
order in which the map can be iterated each of the user's submissions for the
problem has its line and there is no other, and all these orders are by id if and
only if there are not two of them. -/
theorem printsInOrder_iff (hdbms : Database.Standard collation dbms)
    (hids : (db.submissions.map Database.Submission.id).Nodup) (users_id problem_id : ℤ) :
    ∃ subs : Submissions,
      (Query.getSubmissions users_id problem_id).perform dbms (fun _ => false) db = .ok subs ∧
      (∀ order : Submissions, order.Perm subs → PrintsSubmissions users_id problem_id db order) ∧
      ((∀ order : Submissions, order.Perm subs → PrintsInOrder users_id problem_id db order) ↔
        (Database.getSubmissions users_id problem_id db).length ≤ 1) := by
  obtain ⟨subs, hsubs, hperm⟩ := hdbms.perform_getSubmissions hids users_id problem_id
  refine ⟨subs, hsubs, fun order horder => printsSubmissions hids (horder.trans hperm), ?_⟩
  rw [← hperm.length_eq]
  constructor
  · intro hall
    by_contra hlen
    obtain ⟨order, horder, hnot⟩ := exists_perm_not_ascending (Nat.lt_of_not_le hlen)
    exact hnot (hall order horder).ascending
  · intro hlen order horder
    refine ⟨printsSubmissions hids (horder.trans hperm), ?_⟩
    rw [← horder.length_eq] at hlen
    rcases order with _ | ⟨x, _ | ⟨y, order⟩⟩
    · exact .nil
    · exact List.pairwise_singleton _ _
    · simp at hlen

/-- Alice's submissions for problem 198 in the sample. -/
theorem printsInOrder_iff_alice :
    ∃ subs : Submissions,
      (Query.getSubmissions 1 198).perform (Database.reference id some (text "2024-01-05"))
        (fun _ => false) Database.sample = .ok subs ∧
      (∀ order : Submissions, order.Perm subs → PrintsSubmissions 1 198 Database.sample order) ∧
      ((∀ order : Submissions, order.Perm subs → PrintsInOrder 1 198 Database.sample order) ↔
        (Database.getSubmissions 1 198 Database.sample).length ≤ 1) :=
  printsInOrder_iff (Database.standard_reference id some (text "2024-01-05"))
    Database.keys_sample.submissionsId 1 198

/-- **Her two submissions can be listed 3 before 1.** -/
theorem not_printsInOrder :
    ∃ subs order : Submissions,
      (Query.getSubmissions 1 198).perform (Database.reference id some (text "2024-01-05"))
        (fun _ => false) Database.sample = .ok subs ∧
      order.Perm subs ∧ order.map Prod.fst = [3, 1] ∧
      ¬ PrintsInOrder 1 198 Database.sample order := by
  obtain ⟨subs, hsubs, hperm⟩ :=
    (Database.standard_reference id some (text "2024-01-05")).perform_getSubmissions
      Database.keys_sample.submissionsId 1 198
  refine ⟨subs, (Database.getSubmissions 1 198 Database.sample).reverse, hsubs,
    (List.reverse_perm _).trans hperm.symm, by decide, fun h => ?_⟩
  exact absurd h.ascending (by decide)

end Manager
end WeakAyas
