/-
# The fields are the runs between the separators

`SQLManager::getdata` (`SQLManager.cpp`, lines 142-154) on any package, and on what
`ConsoleClient::run` joins (`ConsoleClient.cpp`, lines 139-141).

The loop of `getdata` is a scan for the runs of the payload (`getlines_eq_map_part`).
Before a `#` and after it the loop does the same as on the two parts alone
(`getlines_append_separator`), so a `#` more beside another, or at an end, is not
seen (`SplitsExactly.separators`), and a list of fields is read back from its
encoding (`getlines_payload`).
-/

import WeakAyas.Client.Typed
import WeakAyas.Library.Runs

namespace WeakAyas
namespace Client

open Manager Runs

/-- `b` is the separator. -/
def isSeparator (b : UInt8) : Bool := b == fieldSeparator

/-- A separator between `u` and `v` that is at an end or beside another one. -/
def Redundant (u v : Bytes) : Prop :=
  u = [] ∨ v = [] ∨ u.getLast? = some fieldSeparator ∨ v.head? = some fieldSeparator

/-- What an exact splitting does. -/
structure SplitsExactly (split : SocketPackage → List Bytes) : Prop where
  /-- The fields are the runs of the first `nLen` bytes, in order. -/
  runs : ∀ pkg : SocketPackage, ∃ rs : List (ℕ × ℕ), rs.Pairwise (fun r r' => r.2 < r'.1) ∧
    (∀ r, r ∈ rs ↔ IsRun isSeparator (pkg.pDataBuf.take pkg.nLen) r.1 r.2) ∧
    split pkg = rs.map (part (pkg.pDataBuf.take pkg.nLen))
  /-- The bytes after the first `nLen` do not matter. -/
  beyond : ∀ pkg pkg' : SocketPackage, pkg'.nLen = pkg.nLen →
    pkg'.pDataBuf.take pkg.nLen = pkg.pDataBuf.take pkg.nLen → split pkg' = split pkg
  /-- Fields that are joined are read back. -/
  joined : ∀ fs : List Bytes, (∀ f ∈ fs, f ≠ [] ∧ fieldSeparator ∉ f) →
    ∀ pkg : SocketPackage, pkg.payload = payload fs → split pkg = fs
  /-- One more separator, at an end or beside another, does not matter. -/
  separators : ∀ u v : Bytes, Redundant u v → ∀ pkg pkg' : SocketPackage,
    pkg.payload = u ++ v → pkg'.payload = u ++ fieldSeparator :: v → split pkg' = split pkg
  /-- What was split is joined in at most one byte more, and split as before. -/
  again : ∀ pkg : SocketPackage, (payload (split pkg)).length ≤ pkg.nLen + 1 ∧
    ∀ pkg' : SocketPackage, pkg'.payload = payload (split pkg) → split pkg' = split pkg

/-! ### The loop is a scan -/

/-- An open range is pushed as the scan closes it. -/
theorem pushField_part {w : Bytes} {i j : ℕ} (h : OpenRange isSeparator w i j) (rs : List (ℕ × ℕ)) :
    pushField (part w (i, j)) (rs.map (part w)) = (close i j rs).map (part w) := by
  unfold pushField close
  rcases Nat.eq_or_lt_of_le h.start_le with rfl | hlt
  · rw [part_self, if_neg (Nat.lt_irrefl i)]
    rfl
  · have hne : part w (i, j) ≠ [] := by
      rw [← List.length_pos_iff, length_part h.le]
      exact Nat.sub_pos_of_lt hlt
    rw [if_pos hlt, if_neg (by simpa using hne), List.map_cons]

/-- **The loop is the scan for the runs**, with the open run as its item. -/
theorem getlines_eq_map_part {w rest : Bytes} {i j : ℕ} (h : OpenRange isSeparator w i j)
    (hrest : w.drop j = rest) :
    getlines (part w (i, j)) rest = (scan isSeparator i j rest).map (part w) := by
  induction rest generalizing i j with
  | nil => exact pushField_part h []
  | cons b rest ih =>
    have hrest' := drop_succ_of_drop_eq_cons hrest
    rw [getlines, scan, show (b == fieldSeparator) = isSeparator b from rfl]
    by_cases hb : isSeparator b = true
    · have hopen := openRange_after ((separatorAt_iff (q := isSeparator) hrest).2 hb)
      have hnil := ih hopen hrest'
      rw [part_self] at hnil
      rw [if_pos hb, if_pos hb, hnil, pushField_part h]
    · have hopen := h.succ (lt_of_drop_eq_cons hrest) ((separatorAt_iff hrest).not.2 hb)
      rw [if_neg hb, if_neg hb, ← part_succ hrest h.start_le, ih hopen hrest']

/-! ### The loop at a separator -/

/-- A separator parts the loop. -/
theorem getlines_append_separator (item u v : Bytes) :
    getlines item (u ++ fieldSeparator :: v) = getlines item u ++ getlines [] v := by
  have hpush : ∀ (item : Bytes) (fs gs : List Bytes),
      pushField item (fs ++ gs) = pushField item fs ++ gs := by
    intro item fs gs
    unfold pushField
    split_ifs <;> rfl
  induction u generalizing item with
  | nil =>
    have hstep : getlines item (fieldSeparator :: v) = pushField item (getlines [] v) := by
      rw [getlines, if_pos (by simp)]
    rw [List.nil_append, hstep, getlines, ← hpush, List.nil_append]
  | cons b u ih =>
    rw [List.cons_append, getlines, getlines]
    split_ifs
    · rw [ih, hpush]
    · exact ih _

/-- A separator that is redundant is not seen. -/
theorem getlines_redundant {u v : Bytes} (h : Redundant u v) :
    getlines [] (u ++ fieldSeparator :: v) = getlines [] (u ++ v) := by
  have hnil : getlines [] [] = [] := rfl
  rw [getlines_append_separator]
  rcases h with rfl | rfl | hu | hv
  · rw [hnil, List.nil_append, List.nil_append]
  · rw [hnil, List.append_nil, List.append_nil]
  · obtain ⟨u, rfl⟩ : ∃ u', u = u' ++ [fieldSeparator] := List.getLast?_eq_some_iff.1 hu
    rw [List.append_assoc, List.singleton_append, getlines_append_separator,
      getlines_append_separator, hnil, List.append_nil]
  · obtain ⟨v, rfl⟩ : ∃ v', v = fieldSeparator :: v' := List.head?_eq_some_iff.1 hv
    rw [getlines_append_separator, ← List.nil_append (fieldSeparator :: v),
      getlines_append_separator, hnil, List.nil_append]

/-- Joining what the loop found takes at most one byte more than it read. -/
theorem length_payload_getlines_le (item s : Bytes) :
    (payload (getlines item s)).length ≤ item.length + s.length + 1 := by
  have hpush : ∀ (item : Bytes) (fs : List Bytes),
      (payload (pushField item fs)).length ≤ item.length + 1 + (payload fs).length := by
    intro item fs
    unfold pushField
    split_ifs
    · omega
    · rw [payload, List.flatMap_cons, List.length_append, List.length_cons, payload]
  induction s generalizing item with
  | nil => exact hpush item []
  | cons b s ih =>
    rw [getlines]
    split_ifs
    · have h := hpush item (getlines [] s)
      have hs := ih []
      simp only [List.length_cons, List.length_nil] at hs ⊢
      omega
    · have hs := ih (item ++ [b])
      simp only [List.length_append, List.length_cons, List.length_nil] at hs ⊢
      omega

/-! ### The splitting -/

/-- **`getdata` splits exactly.**  On any package the fields are the maximal
non-empty runs of bytes other than `#` among the first `nLen`, in order, so that
joining and splitting lose nothing. -/
theorem splitsExactly_getdata : SplitsExactly getdata where
  runs pkg := by
    have hopen : OpenRange isSeparator pkg.payload 0 0 := openRange_zero
    refine ⟨scan isSeparator 0 0 pkg.payload, pairwise_scan hopen rfl, fun r => ?_, ?_⟩
    · exact (mem_scan hopen rfl).trans (and_iff_left (Nat.zero_le _))
    · exact getlines_eq_map_part hopen rfl
  beyond pkg pkg' hlen hbuf := by
    have hpayload : pkg'.payload = pkg.payload := by
      rw [SocketPackage.payload, hlen, hbuf, SocketPackage.payload]
    rw [getdata, hpayload, getdata]
  joined fs hfs pkg hp :=
    getdata_payload_answers hp (fun f hf => (hfs f hf).1) fun f hf => (hfs f hf).2
  separators u v h pkg pkg' hp hp' := by
    rw [getdata, hp', getlines_redundant h, ← hp, getdata]
  again pkg := by
    constructor
    · have h := length_payload_getlines_le [] pkg.payload
      rw [SocketPackage.length_payload, List.length_nil, Nat.zero_add] at h
      exact h
    · intro pkg' hp
      have hfield : ∀ f ∈ getdata pkg, IsField f := fun f hf => isField_of_mem_getdata hf
      exact getdata_payload_answers hp (fun f hf => (hfield f hf).1) fun f hf => (hfield f hf).2.1

end Client
end WeakAyas
