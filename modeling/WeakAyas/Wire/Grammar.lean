/-
# The grammar of a frame

What `EpollWorker::parse_sockpackage` (`EpollWorker.cpp`, lines 330-375) accepts,
said on the indices of the string (`FrameAt`): the first start byte that leaves
room, the signed length after it, and the end byte where the length says.

The length is an `int32_t` and is compared with a `size_t`, so a negative one is
a huge size and refused before the `memcpy` (`bounds_of_parseHeader`); what is
accepted is the frames and nothing else, and no index leaves the string on the way
(`parseSockpackage_grammar`).
-/

import WeakAyas.Wire.Package

namespace WeakAyas

open BigEndian

/-- A frame of `L` payload bytes stands at the first start byte, index `i`. -/
structure FrameAt (data : Bytes) (i L : ℕ) : Prop where
  size : minPkgSize ≤ data.length
  start_le : i ≤ data.length - minPkgSize
  start : data[i]? = some packageStartByte
  first : ∀ j < i, data[j]? ≠ some packageStartByte
  length : ∃ b₀ b₁ b₂ b₃, data[i + 2]? = some b₀ ∧ data[i + 3]? = some b₁ ∧
    data[i + 4]? = some b₂ ∧ data[i + 5]? = some b₃ ∧ int32 (be32 b₀ b₁ b₂ b₃) = L
  length_le : L ≤ maxBuffersize
  fits : i + 6 + L < data.length
  ends : data[i + 6 + L]? = some packageEndByte

/-! ### The copy -/

/-- What the parser has read when it comes to its `memcpy`. -/
structure Header where
  cStartByte : UInt8
  cType : UInt8
  offset : ℕ
  nLen : ℕ

/-- The parser up to its `memcpy`, `none` where it returns before. -/
def parseHeader (data : Bytes) : Except OutOfRange (Option Header) :=
  if data.length < minPkgSize then .ok none
  else match scanStart data with
    | none => .ok none
    | some startPos =>
      if startPos + 1 + 4 ≥ data.length then .ok none
      else do
        let cStartByte ← byteAt data startPos
        let cType ← byteAt data (startPos + 1)
        let b₀ ← byteAt data (startPos + 2)
        let b₁ ← byteAt data (startPos + 2 + 1)
        let b₂ ← byteAt data (startPos + 2 + 2)
        let b₃ ← byteAt data (startPos + 2 + 3)
        let nLen := int32 (be32 b₀ b₁ b₂ b₃)
        let offset := startPos + 6
        if sizeT nLen > maxBuffersize then .ok none
        else if offset + sizeT nLen ≥ data.length then .ok none
        else .ok (some ⟨cStartByte, cType, offset, sizeT nLen⟩)

/-- The parser from its `memcpy` on. -/
def parsePayload (data : Bytes) : Option Header → Except OutOfRange (Option SocketPackage)
  | none => .ok none
  | some header => do
    let payload ← slice data header.offset header.nLen
    let cEndByte ← byteAt data (header.offset + header.nLen)
    if cEndByte != packageEndByte then .ok none
    else if h : payload.length ≤ maxBuffersize then
      .ok (some (SocketPackage.filled header.cStartByte header.cType payload cEndByte h))
    else .error ⟨payload.length⟩

theorem parseSockpackage_eq_bind (data : Bytes) :
    parseSockpackage data = parseHeader data >>= parsePayload data := by
  unfold parseSockpackage parseHeader
  split_ifs
  · rfl
  · rcases scanStart data with _ | startPos
    · rfl
    · dsimp only
      split_ifs
      · rfl
      · simp only [bind_assoc]
        refine bind_congr fun cStartByte => bind_congr fun cType => bind_congr fun b₀ =>
          bind_congr fun b₁ => bind_congr fun b₂ => bind_congr fun b₃ => ?_
        split_ifs <;> rfl

/-- **The copy stays inside of the string and of `pDataBuf`**, also where the end
byte is missing afterwards. -/
theorem bounds_of_parseHeader {data : Bytes} {header : Header}
    (h : parseHeader data = .ok (some header)) :
    header.nLen ≤ maxBuffersize ∧ header.offset + header.nLen < data.length := by
  unfold parseHeader at h
  split_ifs at h
  · cases h
  split at h
  · cases h
  split_ifs at h
  · cases h
  simp only [bind, Except.bind] at h
  repeat' split at h
  all_goals cases h
  rename_i hmax hfits
  exact ⟨not_lt.1 hmax, not_le.1 hfits⟩

/-! ### Frames are accepted -/

/-- The scan stops at the frame. -/
theorem FrameAt.scanStart_eq {data : Bytes} {i L : ℕ} (h : FrameAt data i L) :
    scanStart data = some i := by
  rw [scanStart, List.find?_range_eq_some]
  refine ⟨by simp [h.start], ?_, fun j hj => by simpa using h.first j hj⟩
  have := h.start_le
  rw [List.mem_range]
  omega

/-- **A frame is accepted**, with its type and its payload. -/
theorem FrameAt.parseSockpackage {data : Bytes} {i L : ℕ} (h : FrameAt data i L) :
    ∃ pkg, WeakAyas.parseSockpackage data = .ok (some pkg) ∧ data[i + 1]? = some pkg.cType ∧
      pkg.nLen = L ∧ pkg.pDataBuf.take L = (data.drop (i + 6)).take L := by
  obtain ⟨g, t, b₀, b₁, b₂, b₃, tail, rfl, rfl, hg, htail⟩ :=
    exists_header_of_scanStart h.scanStart_eq h.size
  obtain ⟨c₀, c₁, c₂, c₃, h₀, h₁, h₂, h₃, hlen⟩ := h.length
  simp only [List.getElem?_append_right, Nat.le_add_right, Nat.add_sub_cancel_left,
    List.getElem?_cons_succ, List.getElem?_cons_zero, Option.some.injEq] at h₀ h₁ h₂ h₃
  obtain ⟨rfl, rfl, rfl, rfl⟩ : b₀ = c₀ ∧ b₁ = c₁ ∧ b₂ = c₂ ∧ b₃ = c₃ := ⟨h₀, h₁, h₂, h₃⟩
  have hL := h.length_le
  have hsize : sizeT (int32 (be32 b₀ b₁ b₂ b₃)) = L := by
    rw [hlen]
    exact sizeT_natCast (by simp only [maxBuffersize] at hL; omega)
  have hdrop := drop_header g tail t b₀ b₁ b₂ b₃
  have hend : tail[L]? = some packageEndByte := by
    rw [← hdrop, List.getElem?_drop]
    exact h.ends
  have htake : (tail.take L).length = L := by
    rw [List.length_take]
    have := (List.getElem?_eq_some_iff.1 hend).1
    omega
  have hparse : WeakAyas.parseSockpackage
      (g ++ packageStartByte :: t :: b₀ :: b₁ :: b₂ :: b₃ :: tail) = _ :=
    parseSockpackage_append hg htail
  simp only [hsize] at hparse
  rw [dif_pos hL, if_pos hend] at hparse
  refine ⟨_, hparse, by simp [SocketPackage.filled], htake, ?_⟩
  rw [hdrop]
  simp [SocketPackage.filled, htake]

/-! ### Only frames are accepted -/

/-- A frame behind bytes without a start byte. -/
theorem frameAt_append {g p s : Bytes} {t : UInt8} (hg : packageStartByte ∉ g)
    (hp : p.length ≤ maxBuffersize) : FrameAt (g ++ frame t p ++ s) g.length p.length := by
  have hp' : p.length ≤ 2048 := hp
  have hlen := length_frame t p
  simp only [minPkgSize] at hlen
  have hat : ∀ k < (frame t p).length,
      (g ++ frame t p ++ s)[g.length + k]? = (frame t p)[k]? := by
    intro k hk
    rw [List.getElem?_append_left (by rw [List.length_append]; omega),
      List.getElem?_append_right (by omega), Nat.add_sub_cancel_left]
  have hword := congrArg int32 (be32_beBytes (n := p.length) (by omega))
  rw [int32_of_lt (n := p.length) (by omega)] at hword
  constructor
  case size => simp only [List.length_append, minPkgSize]; omega
  case start_le => simp only [List.length_append, minPkgSize]; omega
  case start => exact hat 0 (by omega)
  case first =>
    intro j hj h
    rw [List.append_assoc, List.getElem?_append_left hj] at h
    exact hg (List.mem_of_getElem? h)
  case length =>
    exact ⟨_, _, _, _, hat 2 (by omega), hat 3 (by omega), hat 4 (by omega), hat 5 (by omega),
      hword⟩
  case length_le => exact hp
  case fits => simp only [List.length_append]; omega
  case ends =>
    rw [Nat.add_assoc, hat (6 + p.length) (by omega)]
    simp [frame, beBytes, Nat.add_comm 6]

/-- The two halves of the parser end without an index out of range. -/
theorem exists_header (data : Bytes) :
    ∃ header res, parseHeader data = .ok header ∧ parsePayload data header = .ok res ∧
      parseSockpackage data = .ok res := by
  have htotal : ∃ res, parseSockpackage data = .ok res := by
    rcases parseSockpackage_eq data with h | ⟨g, t, p, s, hp, -, -, h⟩
    · exact ⟨_, h⟩
    · exact ⟨_, h⟩
  obtain ⟨res, hres⟩ := htotal
  have hbind := parseSockpackage_eq_bind data
  rcases hheader : parseHeader data with e | header <;> rw [hheader, hres] at hbind
  · cases hbind
  · exact ⟨header, res, rfl, hbind.symm, hres⟩

/-- **The parser accepts exactly the frames and never leaves its buffers.**  For
every string: the scan, what is read up to the copy and what follows it end without
an index out of range, and the copy has at most `MAX_BUFFERSIZE` bytes of the string;
the string is accepted if and only if a frame stands at its first start byte, and
then the package has the type and the payload of that frame. -/
theorem parseSockpackage_grammar (data : Bytes) :
    (minPkgSize ≤ data.length →
      scanLoop data 0 (data.length - minPkgSize + 1) = .ok (scanStart data)) ∧
    (∃ header res, parseHeader data = .ok header ∧ parsePayload data header = .ok res ∧
      parseSockpackage data = .ok res ∧
      ∀ h ∈ header, h.nLen ≤ maxBuffersize ∧ h.offset + h.nLen < data.length) ∧
    ((∃ pkg, parseSockpackage data = .ok (some pkg)) ↔ ∃ i L, FrameAt data i L) ∧
    ∀ pkg i L, parseSockpackage data = .ok (some pkg) → FrameAt data i L →
      data[i + 1]? = some pkg.cType ∧ pkg.nLen = L ∧
        pkg.pDataBuf.take L = (data.drop (i + 6)).take L := by
  refine ⟨scanLoop_eq_scanStart, ?_, ⟨?_, ?_⟩, ?_⟩
  · obtain ⟨header, res, hheader, hpayload, hres⟩ := exists_header data
    refine ⟨header, res, hheader, hpayload, hres, fun h hh => ?_⟩
    exact bounds_of_parseHeader (hheader.trans (congrArg Except.ok hh))
  · rintro ⟨pkg, hpkg⟩
    rcases parseSockpackage_eq data with h | ⟨g, t, p, s, hp, hg, rfl, -⟩
    · simp [h] at hpkg
    · exact ⟨_, _, frameAt_append hg hp⟩
  · rintro ⟨i, L, h⟩
    obtain ⟨pkg, hpkg, -⟩ := h.parseSockpackage
    exact ⟨pkg, hpkg⟩
  · intro pkg i L hpkg h
    obtain ⟨pkg', hpkg', hfields⟩ := h.parseSockpackage
    obtain rfl : pkg = pkg' := by simpa [hpkg] using hpkg'
    exact hfields

end WeakAyas
