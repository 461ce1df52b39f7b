/-
# The fields of a request

`SQLManager::getdata` and `SQLManager::string_to_bool` (`SQLManager.cpp`, lines
135-154).

A payload is split at every `#` and empty fields are dropped, so a field is a
non-empty string without `#` that fits in the buffer (`IsField`,
`isField_of_mem_getdata`), and every such string is the one field of the package
that carries it (`getdata_payload`).
-/

import WeakAyas.Wire.Package

namespace WeakAyas
namespace Manager

/-- The separator `'#'`. -/
def fieldSeparator : UInt8 := 35

/-- `if (!item.empty()) fields.push_back(item)`. -/
def pushField (item : Bytes) (fields : List Bytes) : List Bytes :=
  if item.isEmpty then fields else item :: fields

/-- The loop `while (std::getline(ss, item, '#'))` with `item` read so far: a
separator or the end of the stream ends the item. -/
def getlines (item : Bytes) : Bytes → List Bytes
  | [] => pushField item []
  | b :: rest =>
    if b == fieldSeparator then pushField item (getlines [] rest) else getlines (item ++ [b]) rest

/-- `SQLManager::getdata`. -/
def getdata (pkg : SocketPackage) : List Bytes := getlines [] pkg.payload

/-- What a field can be: non-empty, without the separator, within the buffer. -/
def IsField (f : Bytes) : Prop := f ≠ [] ∧ fieldSeparator ∉ f ∧ f.length ≤ maxBuffersize

instance (f : Bytes) : Decidable (IsField f) := inferInstanceAs (Decidable (_ ∧ _ ∧ _))

theorem mem_pushField {item f : Bytes} {fields : List Bytes} (h : f ∈ pushField item fields) :
    (f = item ∧ item ≠ []) ∨ f ∈ fields := by
  unfold pushField at h
  split_ifs at h with he
  · exact .inr h
  · rcases List.mem_cons.1 h with rfl | h
    · exact .inl ⟨rfl, fun hn => he (by simp [hn])⟩
    · exact .inr h

/-- Every item that the loop pushes is non-empty, free of separators, and no
longer than what was read. -/
theorem of_mem_getlines {item s f : Bytes} (hitem : fieldSeparator ∉ item)
    (hf : f ∈ getlines item s) :
    f ≠ [] ∧ fieldSeparator ∉ f ∧ f.length ≤ item.length + s.length := by
  induction s generalizing item with
  | nil =>
    rcases mem_pushField hf with ⟨rfl, hne⟩ | h
    · exact ⟨hne, hitem, by simp⟩
    · simp at h
  | cons b s ih =>
    rw [getlines] at hf
    split_ifs at hf with hb
    · rcases mem_pushField hf with ⟨rfl, hne⟩ | h
      · exact ⟨hne, hitem, by simp⟩
      · obtain ⟨h₁, h₂, h₃⟩ := ih (by simp) h
        simp only [List.length_nil, List.length_cons] at h₃ ⊢
        exact ⟨h₁, h₂, by omega⟩
    · have hb' : fieldSeparator ≠ b := fun h => hb (by simp [h])
      obtain ⟨h₁, h₂, h₃⟩ := ih (by simp [hitem, hb']) hf
      simp only [List.length_append, List.length_cons, List.length_nil] at h₃ ⊢
      exact ⟨h₁, h₂, by omega⟩

theorem isField_of_mem_getdata {pkg : SocketPackage} {f : Bytes} (hf : f ∈ getdata pkg) :
    IsField f := by
  obtain ⟨h₁, h₂, h₃⟩ := of_mem_getlines (List.not_mem_nil (a := fieldSeparator)) hf
  have := pkg.nLen_le
  rw [SocketPackage.length_payload, List.length_nil] at h₃
  exact ⟨h₁, h₂, by omega⟩

/-- Bytes without a separator go to the item. -/
theorem getlines_append {item a s : Bytes} (ha : fieldSeparator ∉ a) :
    getlines item (a ++ s) = getlines (item ++ a) s := by
  induction a generalizing item with
  | nil => simp
  | cons b a ih =>
    rw [List.mem_cons, not_or] at ha
    rw [List.cons_append, getlines, if_neg (by simpa using Ne.symm ha.1), ih ha.2,
      List.append_assoc, List.singleton_append]

/-- Without a separator the whole rest belongs to the item. -/
theorem getlines_of_notMem {item s : Bytes} (hs : fieldSeparator ∉ s) :
    getlines item s = pushField (item ++ s) [] := by
  rw [← List.append_nil s, getlines_append hs, getlines, List.append_nil]

/-- A field sent alone is the one field of its package. -/
theorem getdata_payload {pkg : SocketPackage} {f : Bytes} (hf : IsField f)
    (hp : pkg.payload = f) : getdata pkg = [f] := by
  rw [getdata, hp, getlines_of_notMem hf.2.1, List.nil_append, pushField,
    if_neg (by simpa using hf.1)]

/-! ### Conversions -/

/-- `::tolower` on one byte in the C locale. -/
def toLower (b : UInt8) : UInt8 := if 65 ≤ b ∧ b ≤ 90 then b + 32 else b

/-- `SQLManager::string_to_bool`. -/
def stringToBool (s : Bytes) : Bool :=
  let lower := s.map toLower
  lower == text "true" || lower == text "1"

end Manager
end WeakAyas
