/-
# Bags of rows

Tables and results as lists whose order means nothing, and the clauses of a
query on them.

| clause | definition |
| --- | --- |
| `s JOIN t ON c` | `Bag.join` |
| `WHERE c` | `List.filter` |
| `GROUP BY key` | `Bag.groupBy` |
| a column beside the aggregates | `Bag.Shows` |
| `SUM(CASE WHEN c THEN 1 ELSE 0 END)` | `Bag.sumCase` |

The groups share the rows out: together they are the rows (`flatten_groupBy`), so
what is counted group by group adds up to the count over all rows
(`sum_groupBy`).

The order of the rows does not matter to a join (`join_perm`), nor to what is
selected of the groups (`groupBy_map_perm`).
-/

import Mathlib.Data.List.Dedup
import Mathlib.Data.List.MinMax
import Mathlib.Data.List.ProdSigma
import Mathlib.Data.List.Nodup
import Mathlib.Algebra.BigOperators.Group.List.Basic
import Mathlib.Algebra.Ring.Int.Defs
import Mathlib.Tactic.SplitIfs

namespace Bag

variable {α β κ : Type}

/-! ### Joins -/

/-- `s JOIN t ON c`: the pairs that meet the condition. -/
def join (s : List α) (t : List β) (c : α → β → Bool) : List (α × β) :=
  s.flatMap fun a => (t.filter (c a)).map fun b => (a, b)

/-- A row of a join is a pair that meets the condition. -/
@[simp] theorem mem_join {s : List α} {t : List β} {c : α → β → Bool} {r : α × β} :
    r ∈ join s t c ↔ r.1 ∈ s ∧ r.2 ∈ t ∧ c r.1 r.2 = true := by
  obtain ⟨a, b⟩ := r
  simp only [join, List.mem_flatMap, List.mem_map, List.mem_filter, Prod.mk.injEq]
  constructor
  · rintro ⟨a, ha, b, ⟨hb, hc⟩, rfl, rfl⟩
    exact ⟨ha, hb, hc⟩
  · rintro ⟨ha, hb, hc⟩
    exact ⟨a, ha, b, ⟨hb, hc⟩, rfl, rfl⟩

/-- A join is a filtered product. -/
theorem join_eq_filter (s : List α) (t : List β) (c : α → β → Bool) :
    join s t c = (s ×ˢ t).filter fun r => c r.1 r.2 := by
  induction s with
  | nil => rfl
  | cons a s ih =>
    have hcons : (a :: s) ×ˢ t = t.map (fun b => (a, b)) ++ s ×ˢ t := List.product_cons a s t
    rw [hcons, List.filter_append, ← ih, List.filter_map]
    rfl

/-- A join of rows without duplicates has none. -/
theorem nodup_join {s : List α} {t : List β} (hs : s.Nodup) (ht : t.Nodup) (c : α → β → Bool) :
    (join s t c).Nodup := by
  rw [join_eq_filter]
  exact (hs.product ht).filter _

/-- The order of the rows does not matter to a join. -/
theorem join_perm {s s' : List α} {t t' : List β} (hs : s.Perm s') (ht : t.Perm t')
    (c : α → β → Bool) : (join s t c).Perm (join s' t' c) := by
  rw [join_eq_filter, join_eq_filter]
  exact (hs.product ht).filter _

/-- A condition on the left rows of a join can be asked before. -/
theorem filter_join_left (s : List α) (t : List β) (c : α → β → Bool) (p : α → Bool) :
    (join s t c).filter (fun r => p r.1) = join (s.filter p) t c := by
  induction s with
  | nil => rfl
  | cons a s ih =>
    have hcons : join (a :: s) t c = (t.filter (c a)).map (fun b => (a, b)) ++ join s t c := rfl
    rw [hcons, List.filter_append, ih, List.filter_map, List.filter_cons]
    by_cases ha : p a = true
    · have : (fun r : α × β => p r.1) ∘ (fun b => (a, b)) = fun _ => true := funext fun _ => ha
      rw [if_pos ha, this, List.filter_true]
      rfl
    · have : (fun r : α × β => p r.1) ∘ (fun b => (a, b)) = fun _ => false :=
        funext fun _ => by simpa using ha
      rw [if_neg ha, this, List.filter_false]
      rfl

/-- A condition on the right rows of a join can be asked before. -/
theorem filter_join_right (s : List α) (t : List β) (c : α → β → Bool) (p : β → Bool) :
    (join s t c).filter (fun r => p r.2) = join s (t.filter p) c := by
  unfold join
  rw [List.filter_flatMap]
  congr 1
  funext a
  rw [List.filter_map, List.filter_filter, List.filter_filter]
  congr 1
  exact List.filter_congr fun b _ => Bool.and_comm _ _

/-- Rows that the condition never takes do not matter to a join. -/
theorem join_filter (s : List α) (t : List β) {c : α → β → Bool} {p : β → Bool}
    (h : ∀ a b, c a b = true → p b = true) : join s (t.filter p) c = join s t c := by
  unfold join
  congr 1
  funext a
  rw [List.filter_filter]
  congr 1
  refine List.filter_congr fun b _ => ?_
  cases hc : c a b
  · rfl
  · rw [h a b hc]
    rfl

/-! ### Groups -/

section Groups

variable [DecidableEq κ] {key : α → κ} {rows : List α}

/-- `GROUP BY key`: one row of each group, and all rows of it. -/
def groupBy (key : α → κ) (rows : List α) : List (α × List α) :=
  (rows.pwFilter fun a b => key a ≠ key b).map fun a => (a, rows.filter fun b => key b = key a)

/-- A group is the rows that have the key of one of the rows. -/
theorem of_mem_groupBy {g : α × List α} (h : g ∈ groupBy key rows) :
    g.1 ∈ rows ∧ g.2 = rows.filter fun b => key b = key g.1 := by
  obtain ⟨a, ha, rfl⟩ := List.mem_map.1 h
  exact ⟨List.pwFilter_subset _ ha, rfl⟩

/-- A group has its representative. -/
theorem mem_of_mem_groupBy {g : α × List α} (h : g ∈ groupBy key rows) : g.1 ∈ g.2 := by
  obtain ⟨hmem, hgroup⟩ := of_mem_groupBy h
  rw [hgroup]
  exact List.mem_filter.2 ⟨hmem, by simp⟩

/-- Every row has a group with its key. -/
theorem exists_mem_groupBy (key : α → κ) {b : α} (hb : b ∈ rows) :
    ∃ g ∈ groupBy key rows, key b = key g.1 := by
  by_contra h
  push Not at h
  have hall : ∀ a ∈ rows.pwFilter fun a b => key a ≠ key b, key b ≠ key a := fun a ha =>
    h _ (List.mem_map_of_mem (f := fun a => (a, rows.filter fun b => key b = key a)) ha)
  have htrans : ∀ {x y z}, key x ≠ key z → key x ≠ key y ∨ key y ≠ key z := fun {x y z} hxz => by
    by_contra hn
    push Not at hn
    exact hxz (hn.1.trans hn.2)
  exact (List.forall_mem_pwFilter (R := fun a b => key a ≠ key b) htrans b rows).1 hall b hb rfl

/-- Different groups have different keys. -/
theorem pairwise_groupBy (key : α → κ) (rows : List α) :
    (groupBy key rows).Pairwise fun g g' => key g.1 ≠ key g'.1 :=
  List.pairwise_map.2 (List.pairwise_pwFilter rows)

/-- Of rows with different keys one at most has a given key. -/
theorem length_filter_le_one (key : α → κ) (h : rows.Pairwise fun a b => key a ≠ key b) (k : κ) :
    (rows.filter fun a => key a = k).length ≤ 1 := by
  induction rows with
  | nil => simp
  | cons a rows ih =>
    obtain ⟨ha, h⟩ := List.pairwise_cons.1 h
    by_cases hk : key a = k
    · have hnil : rows.filter (fun b => key b = k) = [] := List.filter_eq_nil_iff.2 fun b hb => by
        simpa [← hk] using (ha b hb).symm
      rw [List.filter_cons_of_pos (by simpa using hk), hnil]
      exact Nat.le_refl 1
    · rw [List.filter_cons_of_neg (by simpa using hk)]
      exact ih h

/-- There is a group where there is a row. -/
theorem groupBy_eq_nil : groupBy key rows = [] ↔ rows = [] := by
  refine ⟨fun h => List.eq_nil_iff_forall_not_mem.2 fun b hb => ?_, fun h => by rw [h]; rfl⟩
  obtain ⟨g, hg, -⟩ := exists_mem_groupBy key hb
  simp [h] at hg

/-- The keys of the groups are those of the rows. -/
theorem map_key_groupBy (key : α → κ) (rows : List α) :
    ((groupBy key rows).map fun g => key g.1) = (rows.map key).dedup := by
  rw [groupBy, List.map_map, List.dedup, List.pwFilter_map]
  rfl

/-- A group is found by its key. -/
theorem find?_of_mem_groupBy {g : α × List α} (h : g ∈ groupBy key rows) :
    ∃ a, rows.find? (fun a => key a = key g.1) = some a ∧ key a = key g.1 := by
  obtain ⟨hmem, -⟩ := of_mem_groupBy h
  obtain ⟨a, ha⟩ := Option.isSome_iff_exists.1
    (List.find?_isSome.2 ⟨g.1, hmem, decide_eq_true rfl⟩ :
      (rows.find? fun a => key a = key g.1).isSome = true)
  exact ⟨a, ha, by simpa using List.find?_some ha⟩

/-- What is selected of the group of a key, when there is one. -/
def selectOf (key : α → κ) (f : α × List α → β) (rows : List α) (k : κ) : Option β :=
  (rows.find? fun a => key a = k).map fun a => f (a, rows.filter fun b => key b = k)

/-- What is selected of the groups is selected key by key. -/
theorem map_groupBy_eq {f : α × List α → β}
    (hf : ∀ g g', key g.1 = key g'.1 → g.2.Perm g'.2 → f g = f g') (rows : List α) :
    ((groupBy key rows).map f).map some = (rows.map key).dedup.map (selectOf key f rows) := by
  rw [← map_key_groupBy, List.map_map, List.map_map]
  refine List.map_congr_left fun g hg => ?_
  obtain ⟨a, ha, hkey⟩ := find?_of_mem_groupBy hg
  simp only [Function.comp_apply, selectOf, ha, Option.map_some, Option.some.injEq]
  exact hf _ _ hkey.symm (by rw [(of_mem_groupBy hg).2])

/-- The order of the rows does not matter to what is selected of a group. -/
theorem selectOf_perm {rows' : List α} {f : α × List α → β}
    (hf : ∀ g g', key g.1 = key g'.1 → g.2.Perm g'.2 → f g = f g') (h : rows.Perm rows') :
    selectOf key f rows = selectOf key f rows' := by
  funext k
  simp only [selectOf]
  rcases ha : rows.find? fun a => key a = k with _ | a <;>
    rcases ha' : rows'.find? fun a => key a = k with _ | a'
  · rfl
  · -- a row of the one is a row of the other
    have hmem := h.mem_iff.2 (List.mem_of_find?_eq_some ha')
    exact absurd (List.find?_some ha') (List.find?_eq_none.1 ha a' hmem)
  · have hmem := h.mem_iff.1 (List.mem_of_find?_eq_some ha)
    exact absurd (List.find?_some ha) (List.find?_eq_none.1 ha' a hmem)
  · have hk : key a = k := by simpa using List.find?_some ha
    have hk' : key a' = k := by simpa using List.find?_some ha'
    exact congrArg some (hf _ _ (hk.trans hk'.symm) (h.filter _))

/-- **The order of the rows does not matter to what is selected of the groups**, when
this is the same for groups of the same key and rows. -/
theorem groupBy_map_perm {rows' : List α} {f : α × List α → β}
    (hf : ∀ g g', key g.1 = key g'.1 → g.2.Perm g'.2 → f g = f g') (h : rows.Perm rows') :
    ((groupBy key rows).map f).Perm ((groupBy key rows').map f) := by
  rw [← List.map_perm_map_iff (Option.some_injective β), map_groupBy_eq hf, map_groupBy_eq hf,
    selectOf_perm hf h]
  exact (h.map key).dedup.map _

/-- Rows that are told apart by `k` as by `key` make as many groups. -/
theorem length_groupBy_congr {κ' : Type} [DecidableEq κ'] {k : α → κ'}
    (h : ∀ a ∈ rows, ∀ b ∈ rows, key a = key b ↔ k a = k b) :
    (groupBy key rows).length = (rows.map k).dedup.length := by
  have hfilter : (rows.pwFilter fun a b => key a ≠ key b) =
      rows.pwFilter fun a b => k a ≠ k b := by
    induction rows with
    | nil => rfl
    | cons a rows ih =>
      have ih := ih fun a ha b hb => h a (by simp [ha]) b (by simp [hb])
      have hkey : (∀ b ∈ rows.pwFilter fun a b => key a ≠ key b, key a ≠ key b) ↔
          ∀ b ∈ rows.pwFilter fun a b => k a ≠ k b, k a ≠ k b := by
        rw [ih]
        refine forall₂_congr fun b hb => not_congr (h a (by simp) b ?_)
        exact List.mem_cons_of_mem _ (List.pwFilter_subset _ hb)
      by_cases ha : ∀ b ∈ rows.pwFilter fun a b => key a ≠ key b, key a ≠ key b
      · rw [List.pwFilter_cons_of_pos ha, List.pwFilter_cons_of_pos (hkey.1 ha), ih]
      · rw [List.pwFilter_cons_of_neg ha, List.pwFilter_cons_of_neg (mt hkey.2 ha), ih]
  rw [groupBy, List.length_map, hfilter, List.dedup, List.pwFilter_map, List.length_map]

/-- Rows of distinct representatives that cover all keys share the rows out. -/
theorem flatMap_filter_perm {reps : List α} (rows : List α)
    (hreps : reps.Pairwise fun a b => key a ≠ key b)
    (hall : ∀ b ∈ rows, ∃ a ∈ reps, key b = key a) :
    (reps.flatMap fun a => rows.filter fun b => key b = key a).Perm rows := by
  induction reps generalizing rows with
  | nil =>
    have : rows = [] := List.eq_nil_iff_forall_not_mem.2 fun b hb => by simpa using hall b hb
    rw [this]
    rfl
  | cons a reps ih =>
    obtain ⟨ha, hreps⟩ := List.pairwise_cons.1 hreps
    -- the rows without the key of `a` are shared out among the others
    have hrest := ih (rows.filter fun b => !decide (key b = key a)) hreps fun b hb => by
      obtain ⟨hb, hne⟩ := List.mem_filter.1 hb
      obtain ⟨a', ha', hkey⟩ := hall b hb
      rcases List.mem_cons.1 ha' with rfl | ha'
      · simp [hkey] at hne
      · exact ⟨a', ha', hkey⟩
    have hsame : (reps.flatMap fun a' => (rows.filter fun b => !decide (key b = key a)).filter
        fun b => key b = key a') = reps.flatMap fun a' => rows.filter fun b => key b = key a' := by
      refine List.flatMap_congr fun a' ha' => ?_
      rw [List.filter_filter]
      refine List.filter_congr fun b _ => ?_
      by_cases hb : key b = key a'
      · simp [hb, (ha a' ha').symm]
      · simp [hb]
    rw [hsame] at hrest
    rw [List.flatMap_cons]
    exact (hrest.append_left _).trans
      (List.filter_append_perm (fun b => decide (key b = key a)) rows)

/-- **The groups together are the rows.** -/
theorem flatten_groupBy (key : α → κ) (rows : List α) :
    ((groupBy key rows).map Prod.snd).flatten.Perm rows := by
  rw [groupBy, List.map_map, ← List.flatMap_def]
  refine flatMap_filter_perm rows (List.pairwise_pwFilter rows) fun b hb => ?_
  obtain ⟨g, hg, hkey⟩ := exists_mem_groupBy key hb
  obtain ⟨a, ha, rfl⟩ := List.mem_map.1 hg
  exact ⟨a, ha, hkey⟩

end Groups

/-! ### Columns of a group -/

/-- What is shown for a group in a column beside the aggregates: the value of one of
its rows, and of the same one in whichever order they come. -/
structure Shows (column : α → β) where
  of : List α → β
  mem : ∀ {rows : List α}, rows ≠ [] → of rows ∈ rows.map column
  perm : ∀ {rows rows' : List α}, rows.Perm rows' → of rows = of rows'

/-- What all rows of the group have in the column is shown. -/
theorem Shows.apply_of {column : α → β} (shows : Shows column) (k : β → κ) {rows : List α} {c : κ}
    {a : α} (ha : a ∈ rows) (h : ∀ b ∈ rows, k (column b) = c) : k (shows.of rows) = c := by
  obtain ⟨b, hb, hshown⟩ := List.mem_map.1 (shows.mem (List.ne_nil_of_mem ha))
  rw [← hshown]
  exact h b hb

/-- The order does not matter to the value with the greatest code. -/
theorem argmax_perm [LinearOrder κ] {code : β → κ} (hcode : Function.Injective code)
    {l l' : List β} (h : l.Perm l') : l.argmax code = l'.argmax code := by
  rcases hmax : l.argmax code with _ | b
  · rw [List.argmax_eq_none.1 hmax] at h
    rw [List.nil_perm.1 h]
    rfl
  · rcases hmax' : l'.argmax code with _ | b'
    · rw [List.argmax_eq_none.1 hmax'] at h
      simp [List.perm_nil.1 h] at hmax
    · -- each is as great as the other
      have hle := List.le_of_mem_argmax (h.mem_iff.1 (List.argmax_mem hmax)) hmax'
      have hle' := List.le_of_mem_argmax (h.mem_iff.2 (List.argmax_mem hmax')) hmax
      rw [hcode (le_antisymm hle hle')]

/-- The value with the greatest code is shown. -/
def Shows.greatest [Inhabited β] [LinearOrder κ] (column : α → β) (code : β → κ)
    (hcode : Function.Injective code) : Shows column where
  of rows := ((rows.map column).argmax code).getD default
  mem {rows} hrows := by
    rcases hmax : (rows.map column).argmax code with _ | b
    · exact absurd (List.map_eq_nil_iff.1 (List.argmax_eq_none.1 hmax)) hrows
    · exact List.argmax_mem hmax
  perm h := by rw [argmax_perm hcode (h.map column)]

/-! ### Sums -/

/-- `SUM(CASE WHEN c THEN 1 ELSE 0 END)`. -/
def sumCase (c : α → Bool) (rows : List α) : ℤ := (rows.map fun a => if c a then 1 else 0).sum

/-- `COUNT(x)` of a column that is never null. -/
def count (rows : List α) : ℤ := rows.length

/-- A sum does not depend on the order. -/
theorem sumCase_perm {c : α → Bool} {rows rows' : List α} (h : rows.Perm rows') :
    sumCase c rows = sumCase c rows' := (h.map _).sum_eq

/-- Nor does a number of rows. -/
theorem count_perm {rows rows' : List α} (h : rows.Perm rows') : count rows = count rows' :=
  congrArg Nat.cast h.length_eq

/-- Nor does `MAX(x)`. -/
theorem max?_perm [LinearOrder κ] {l l' : List κ} (h : l.Perm l') : l.max? = l'.max? := by
  refine Option.ext fun a => ?_
  rw [List.max?_eq_some_iff, List.max?_eq_some_iff, h.mem_iff]
  exact and_congr_right fun _ => forall_congr' fun b => by rw [h.mem_iff]

/-- A sum over rows that are made from others. -/
theorem sumCase_map (f : α → β) (c : β → Bool) (rows : List α) :
    sumCase c (rows.map f) = sumCase (fun a => c (f a)) rows := by
  rw [sumCase, sumCase, List.map_map]
  rfl

/-- `COUNT(*)` is the sum of ones. -/
theorem count_eq_sumCase (rows : List α) : count rows = sumCase (fun _ => true) rows := by
  simp [count, sumCase]

/-- A row counts one or nothing. -/
theorem sumCase_cons (c : α → Bool) (a : α) (rows : List α) :
    sumCase c (a :: rows) = (if c a then 1 else 0) + sumCase c rows := by
  simp [sumCase]

/-- A sum of ones is not negative. -/
theorem sumCase_nonneg (c : α → Bool) (rows : List α) : 0 ≤ sumCase c rows := by
  induction rows with
  | nil => exact Int.le_refl 0
  | cons a rows ih =>
    rw [sumCase_cons]
    split_ifs <;> omega

/-- A weaker condition counts more. -/
theorem sumCase_le_sumCase {c d : α → Bool} {rows : List α}
    (h : ∀ a ∈ rows, c a = true → d a = true) : sumCase c rows ≤ sumCase d rows := by
  induction rows with
  | nil => exact Int.le_refl 0
  | cons a rows ih =>
    have ih := ih fun b hb => h b (List.mem_cons_of_mem _ hb)
    have ha := h a List.mem_cons_self
    rw [sumCase_cons, sumCase_cons]
    split_ifs with hc hd hd
    · omega
    · exact absurd (ha hc) hd
    · omega
    · omega

/-- It counts the same only when no row tells them apart. -/
theorem sumCase_eq_sumCase_iff {c d : α → Bool} {rows : List α}
    (h : ∀ a ∈ rows, c a = true → d a = true) :
    sumCase c rows = sumCase d rows ↔ ∀ a ∈ rows, d a = true → c a = true := by
  induction rows with
  | nil => simp [sumCase]
  | cons a rows ih =>
    have hrows : ∀ b ∈ rows, c b = true → d b = true := fun b hb => h b (List.mem_cons_of_mem _ hb)
    have ha := h a List.mem_cons_self
    have hle := sumCase_le_sumCase hrows
    rw [sumCase_cons, sumCase_cons, List.forall_mem_cons, ← ih hrows]
    cases hc : c a <;> cases hd : d a
    · simp
    · simp
      omega
    · exact absurd (ha hc) (by simp [hd])
    · simp

/-- **Complements share the rows out.** -/
theorem sumCase_add_sumCase {c d : α → Bool} {rows : List α} (h : ∀ a ∈ rows, d a = !c a) :
    sumCase c rows + sumCase d rows = count rows := by
  induction rows with
  | nil => rfl
  | cons a rows ih =>
    have ih := ih fun b hb => h b (List.mem_cons_of_mem _ hb)
    rw [sumCase_cons, sumCase_cons, h a List.mem_cons_self]
    simp only [count, List.length_cons, Nat.cast_succ] at ih ⊢
    cases c a <;> simp <;> omega

/-- **What is counted group by group adds up.** -/
theorem sum_groupBy [DecidableEq κ] (key : α → κ) (c : α → Bool) (rows : List α) :
    ((groupBy key rows).map fun g => sumCase c g.2).sum = sumCase c rows := by
  rw [← sumCase_perm (flatten_groupBy key rows), sumCase, List.map_flatten,
    List.sum_flatten, List.map_map, List.map_map]
  rfl

end Bag
