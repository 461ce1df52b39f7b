/-
# The socket package: `build_package` and `parse_sockpackage`

`protocol.hpp` (`SocketPackage`, the request types, the start and end bytes),
`SQLManager::build_package` (`SQLManager.cpp`, lines 16-37) and
`EpollWorker::parse_sockpackage` (`EpollWorker.cpp`, lines 330-375).

| bytes | field |
| --- | --- |
| 1 | `PACKAGE_START_BYTE`, `*` |
| 1 | `cType` |
| 4 | `nLen`, big-endian `int32_t` |
| `nLen` | payload |
| 1 | `PACKAGE_END_BYTE`, `CR` |

A `std::string` is its list of bytes.  Every index the parser uses goes through
`byteAt` or `slice`, which fail outside the string, so that it never reads
there is a theorem (`parseSockpackage_eq`) and not an assumption.  A package
that the parser rejects is discarded by both callers, so the parser returns a
package only when it accepts, and `SocketPackage` carries the bound on `nLen`
that it has checked.
-/

import WeakAyas.Wire.BigEndian
import Mathlib.Data.List.Infix

namespace WeakAyas

open BigEndian

/-- A `std::string`: its bytes. -/
abbrev Bytes := List UInt8

/-- The bytes of an ASCII literal. -/
def text (s : String) : Bytes := s.toList.map fun c => UInt8.ofNat c.toNat

/-- A literal has as many bytes as letters. -/
theorem length_text_ofList (cs : List Char) : (text (String.ofList cs)).length = cs.length := by
  rw [text, List.length_map, String.toList_ofList]

/-- A text has as many bytes as characters, here. -/
theorem length_text_le {cs : List Char} {n : ℕ} (h : cs.length ≤ n) :
    (text (String.ofList cs)).length ≤ n := by
  rwa [length_text_ofList]

/-- `protocol::MAX_BUFFERSIZE`. -/
def maxBuffersize : ℕ := 2048

/-- `protocol::PACKAGE_START_BYTE`, `*`. -/
def packageStartByte : UInt8 := 42

/-- `protocol::PACKAGE_END_BYTE`, carriage return. -/
def packageEndByte : UInt8 := 13

/-- `min_pkg_size`: start byte, type, length and end byte. -/
def minPkgSize : ℕ := 1 + 1 + 4 + 1

/-- `protocol::SocketPackage`, as the parser leaves it when it accepts: `nLen`
has passed the check against the buffer. -/
structure SocketPackage where
  cStartByte : UInt8
  cType : UInt8
  nLen : ℕ
  pDataBuf : Bytes
  cEndByte : UInt8
  nLen_le : nLen ≤ maxBuffersize
  size_eq : pDataBuf.length = maxBuffersize

/-- The first `nLen` bytes of `pDataBuf`. -/
def SocketPackage.payload (pkg : SocketPackage) : Bytes := pkg.pDataBuf.take pkg.nLen

/-- The payload has the length that the header says. -/
@[simp] theorem SocketPackage.length_payload (pkg : SocketPackage) :
    pkg.payload.length = pkg.nLen := by
  have := pkg.nLen_le
  simp [SocketPackage.payload, pkg.size_eq, this]

/-- The request types of `protocol::sql_protocol`. -/
inductive SqlProtocol where
  | registerUser | login | selectUnitsData | selectUnitDetail | getProblemSubmissions
  | insertSubmitted | deleteSubmitted | deleteUser | insertProblem | deleteProblem
  | insertProblemType | deleteProblemType
  deriving DecidableEq, Repr

/-- The byte of a request type; 4 is not used. -/
def SqlProtocol.toByte : SqlProtocol → UInt8
  | .registerUser => 0
  | .login => 1
  | .selectUnitsData => 2
  | .selectUnitDetail => 3
  | .getProblemSubmissions => 5
  | .insertSubmitted => 6
  | .deleteSubmitted => 7
  | .deleteUser => 8
  | .insertProblem => 9
  | .deleteProblem => 10
  | .insertProblemType => 11
  | .deleteProblemType => 12

/-- The request type of a byte, `none` where `handle_request` takes `default`. -/
def SqlProtocol.ofByte : UInt8 → Option SqlProtocol
  | 0 => some .registerUser
  | 1 => some .login
  | 2 => some .selectUnitsData
  | 3 => some .selectUnitDetail
  | 5 => some .getProblemSubmissions
  | 6 => some .insertSubmitted
  | 7 => some .deleteSubmitted
  | 8 => some .deleteUser
  | 9 => some .insertProblem
  | 10 => some .deleteProblem
  | 11 => some .insertProblemType
  | 12 => some .deleteProblemType
  | _ => none

/-- A type is read back from its byte. -/
@[simp] theorem SqlProtocol.ofByte_toByte (t : SqlProtocol) :
    SqlProtocol.ofByte t.toByte = some t := by
  cases t <;> rfl

/-! ### Encoding -/

/-- `SQLManager::build_package`. -/
def buildPackage (type : UInt8) (payload : Bytes) : Bytes :=
  if payload.length > maxBuffersize - 7 then []
  else [packageStartByte, type] ++ beBytes payload.length ++ payload ++ [packageEndByte]

/-- A payload that fits is framed. -/
theorem buildPackage_of_le {t : UInt8} {p : Bytes} (hp : p.length ≤ maxBuffersize - 7) :
    buildPackage t p =
      [packageStartByte, t] ++ beBytes p.length ++ p ++ [packageEndByte] := by
  rw [buildPackage, if_neg (by omega)]

/-- One that does not gives no bytes. -/
theorem buildPackage_of_gt {t : UInt8} {p : Bytes} (hp : maxBuffersize - 7 < p.length) :
    buildPackage t p = [] := by
  rw [buildPackage, if_pos hp]

/-- A package has seven bytes beside its payload. -/
theorem length_buildPackage {t : UInt8} {p : Bytes} (hp : p.length ≤ maxBuffersize - 7) :
    (buildPackage t p).length = minPkgSize + p.length := by
  rw [buildPackage_of_le hp]
  simp only [List.length_append, List.length_cons, List.length_nil, length_beBytes, minPkgSize]
  omega

/-! ### Decoding -/

/-- An index outside a string: undefined behaviour in the source. -/
structure OutOfRange where
  index : ℕ
  deriving DecidableEq, Repr

/-- `data[i]`. -/
def byteAt (data : Bytes) (i : ℕ) : Except OutOfRange UInt8 :=
  match data[i]? with
  | some b => .ok b
  | none => .error ⟨i⟩

/-- The source of a `memcpy` of `n` bytes from `data.data() + offset`. -/
def slice (data : Bytes) (offset n : ℕ) : Except OutOfRange Bytes :=
  if offset + n ≤ data.length then .ok ((data.drop offset).take n) else .error ⟨offset + n⟩

/-- The scan for the start byte: the first `i ≤ data.size() - min_pkg_size`
with `data[i] == PACKAGE_START_BYTE`. -/
def scanStart (data : Bytes) : Option ℕ :=
  (List.range (data.length - minPkgSize + 1)).find? fun i => data[i]? == some packageStartByte

/-- The loop `for (size_t i = 0; i <= data.size() - min_pkg_size; ++i)` with its
reads, from index `i` on for `n` turns. -/
def scanLoop (data : Bytes) (i : ℕ) : ℕ → Except OutOfRange (Option ℕ)
  | 0 => .ok none
  | n + 1 => do
    let b ← byteAt data i
    if b == packageStartByte then .ok (some i) else scanLoop data (i + 1) n

/-- The scan finds the first start byte. -/
theorem scanLoop_eq_find? {data : Bytes} {i n : ℕ} (h : i + n ≤ data.length) :
    scanLoop data i n =
      .ok ((List.range' i n).find? fun j => data[j]? == some packageStartByte) := by
  induction n generalizing i with
  | zero => rfl
  | succ n ih =>
    have hi : data[i]? = some data[i] := List.getElem?_eq_getElem (by omega)
    have hbyte : byteAt data i = .ok data[i] := by rw [byteAt, hi]
    rw [scanLoop, hbyte, List.range'_succ, List.find?_cons, hi]
    by_cases hb : data[i] = packageStartByte
    · simp [bind, Except.bind, hb]
    · have hne : (data[i] == packageStartByte) = false := beq_false_of_ne hb
      simp only [bind, Except.bind, hne, Option.some_beq_some, Bool.false_eq_true, if_false]
      exact ih (by omega)

/-- **The scan reads inside of the string only.** -/
theorem scanLoop_eq_scanStart {data : Bytes} (h : minPkgSize ≤ data.length) :
    scanLoop data 0 (data.length - minPkgSize + 1) = .ok (scanStart data) := by
  rw [scanLoop_eq_find? (by simp only [minPkgSize] at h ⊢; omega), scanStart, List.range_eq_range']

/-- The package `memcpy` leaves: the payload over the zero-initialised buffer. -/
def SocketPackage.filled (cStartByte cType : UInt8) (payload : Bytes) (cEndByte : UInt8)
    (h : payload.length ≤ maxBuffersize) : SocketPackage where
  cStartByte := cStartByte
  cType := cType
  nLen := payload.length
  pDataBuf := payload ++ List.replicate (maxBuffersize - payload.length) 0
  cEndByte := cEndByte
  nLen_le := h
  size_eq := by simp; omega

/-- The payload is what was copied into the buffer. -/
@[simp] theorem SocketPackage.payload_filled (a t : UInt8) (p : Bytes) (e : UInt8)
    (h : p.length ≤ maxBuffersize) : (SocketPackage.filled a t p e h).payload = p := by
  simp [SocketPackage.payload, SocketPackage.filled]

/-- `EpollWorker::parse_sockpackage`: `none` where the source returns `false`. -/
def parseSockpackage (data : Bytes) : Except OutOfRange (Option SocketPackage) :=
  if data.length < minPkgSize then .ok none
  else match scanStart data with
    | none => .ok none
    | some startPos =>
      if startPos + 1 + 4 ≥ data.length then .ok none
      else do
        let cStartByte ← byteAt data startPos
        let cType ← byteAt data (startPos + 1)
        let b₀ ← byteAt data (startPos + 2)
        let b₁ ← byteAt data (startPos + 2 + 1)
        let b₂ ← byteAt data (startPos + 2 + 2)
        let b₃ ← byteAt data (startPos + 2 + 3)
        let nLen := int32 (be32 b₀ b₁ b₂ b₃)
        let offset := startPos + 6
        -- `nLen` is an `int32_t` and the bound a `size_t`: the comparison is unsigned
        if sizeT nLen > maxBuffersize then .ok none
        else if offset + sizeT nLen ≥ data.length then .ok none
        else do
          let payload ← slice data offset (sizeT nLen)
          let cEndByte ← byteAt data (offset + sizeT nLen)
          if cEndByte != packageEndByte then .ok none
          else if h : payload.length ≤ maxBuffersize then
            .ok (some (SocketPackage.filled cStartByte cType payload cEndByte h))
          else .error ⟨payload.length⟩

/-! ### What the decoder accepts -/

/-- The scan stops at the first start byte that leaves room for a package. -/
theorem scanStart_append {g rest : Bytes} (hg : packageStartByte ∉ g) (hr : 6 ≤ rest.length) :
    scanStart (g ++ packageStartByte :: rest) = some g.length := by
  rw [scanStart, List.find?_range_eq_some]
  refine ⟨by simp, ?_, fun j hj => ?_⟩
  · simp only [List.mem_range, List.length_append, List.length_cons, minPkgSize]
    omega
  · rw [List.getElem?_append_left hj, List.getElem?_eq_getElem hj]
    have : g[j] ≠ packageStartByte := fun h => hg (h ▸ List.getElem_mem hj)
    simp [this]

/-- Where the scan stops the string splits, with no start byte before. -/
theorem exists_of_scanStart {data : Bytes} {i : ℕ} (hi : scanStart data = some i)
    (hlen : minPkgSize ≤ data.length) :
    ∃ g rest, data = g ++ packageStartByte :: rest ∧ g.length = i ∧
      packageStartByte ∉ g ∧ 6 ≤ rest.length := by
  rw [scanStart, List.find?_range_eq_some] at hi
  obtain ⟨hb, hm, hmin⟩ := hi
  rw [List.mem_range] at hm
  simp only [minPkgSize] at hm hlen
  have hid : i < data.length := by omega
  have hdi : data[i] = packageStartByte := by
    simpa [List.getElem?_eq_getElem hid] using hb
  refine ⟨data.take i, data.drop (i + 1), ?_, ?_, fun hmem => ?_, ?_⟩
  · rw [← hdi, ← List.drop_eq_getElem_cons hid, List.take_append_drop]
  · rw [List.length_take]; omega
  · obtain ⟨j, hj, hjb⟩ := List.getElem_of_mem hmem
    rw [List.length_take] at hj
    have := hmin j (by omega)
    rw [List.getElem_take] at hjb
    simp [List.getElem?_eq_getElem (show j < data.length by omega), hjb] at this
  · rw [List.length_drop]; omega

/-- Where the scan stops there is a header, and a byte after it. -/
theorem exists_header_of_scanStart {data : Bytes} {i : ℕ} (hi : scanStart data = some i)
    (hlen : minPkgSize ≤ data.length) :
    ∃ g t b₀ b₁ b₂ b₃ tail, data = g ++ packageStartByte :: t :: b₀ :: b₁ :: b₂ :: b₃ :: tail ∧
      g.length = i ∧ packageStartByte ∉ g ∧ tail ≠ [] := by
  obtain ⟨g, rest, rfl, hgi, hg, hr⟩ := exists_of_scanStart hi hlen
  match rest, hr with
  | t :: b₀ :: b₁ :: b₂ :: b₃ :: c :: tail, _ =>
    exact ⟨g, t, b₀, b₁, b₂, b₃, c :: tail, rfl, hgi, hg, by simp⟩

/-- Bytes after a prefix. -/
theorem byteAt_append (g rest : Bytes) (k : ℕ) (b : UInt8) (h : rest[k]? = some b) :
    byteAt (g ++ rest) (g.length + k) = .ok b := by
  rw [byteAt, List.getElem?_append_right (by omega), Nat.add_sub_cancel_left, h]

section Header

variable (g tail : Bytes) (t b₀ b₁ b₂ b₃ : UInt8)

/-- The length of a frame with its header. -/
theorem length_header : (g ++ packageStartByte :: t :: b₀ :: b₁ :: b₂ :: b₃ :: tail).length =
    g.length + tail.length + 6 := by
  simp only [List.length_append, List.length_cons]
  omega

/-- What comes after the header. -/
theorem drop_header : (g ++ packageStartByte :: t :: b₀ :: b₁ :: b₂ :: b₃ :: tail).drop
    (g.length + 6) = tail := by
  rw [List.drop_length_add_append]
  rfl

/-- A byte behind the header. -/
theorem byteAt_tail {n : ℕ} (hn : n < tail.length) :
    byteAt (g ++ packageStartByte :: t :: b₀ :: b₁ :: b₂ :: b₃ :: tail) (g.length + (n + 6)) =
      .ok tail[n] :=
  byteAt_append g _ (n + 6) _ (by simp [List.getElem?_eq_getElem hn])

end Header

/-- What the parser does from the first start byte on. -/
theorem parseSockpackage_append {g tail : Bytes} {t b₀ b₁ b₂ b₃ : UInt8}
    (hg : packageStartByte ∉ g) (htail : tail ≠ []) :
    parseSockpackage (g ++ packageStartByte :: t :: b₀ :: b₁ :: b₂ :: b₃ :: tail) =
      if h : sizeT (int32 (be32 b₀ b₁ b₂ b₃)) ≤ maxBuffersize then
        if tail[sizeT (int32 (be32 b₀ b₁ b₂ b₃))]? = some packageEndByte then
          .ok (some (SocketPackage.filled packageStartByte t
            (tail.take (sizeT (int32 (be32 b₀ b₁ b₂ b₃)))) packageEndByte
            ((List.length_take_le _ _).trans h)))
        else .ok none
      else .ok none := by
  have hpos : 0 < tail.length := List.length_pos_iff.2 htail
  have hlen := length_header g tail t b₀ b₁ b₂ b₃
  have hbyte := byteAt_append g (packageStartByte :: t :: b₀ :: b₁ :: b₂ :: b₃ :: tail)
  have h₀ : byteAt _ g.length = .ok packageStartByte := hbyte 0 _ rfl
  generalize hn : sizeT (int32 (be32 b₀ b₁ b₂ b₃)) = n
  unfold parseSockpackage
  rw [if_neg (by rw [hlen, minPkgSize]; omega),
    scanStart_append hg (by simp only [List.length_cons]; omega)]
  simp only [hlen]
  rw [if_neg (by omega), h₀, hbyte 1 t rfl, hbyte 2 b₀ rfl]
  simp only [Nat.add_assoc, Nat.reduceAdd, hbyte 3 b₁ rfl, hbyte 4 b₂ rfl, hbyte 5 b₃ rfl,
    bind, Except.bind, hn]
  by_cases hmax : n ≤ maxBuffersize
  · rw [if_neg (by omega), dif_pos hmax]
    by_cases hfit : tail.length ≤ n
    · rw [if_pos (by omega), List.getElem?_eq_none hfit]
      simp
    · have hnt : n < tail.length := by omega
      have hend := byteAt_tail g tail t b₀ b₁ b₂ b₃ hnt
      have htake : (tail.take n).length = n := by rw [List.length_take]; omega
      rw [if_neg (by omega), slice, if_pos (by omega), drop_header, Nat.add_comm 6 n, hend]
      simp only [List.getElem?_eq_getElem hnt, htake, Option.some.injEq, bne_iff_ne, ne_eq]
      by_cases he : tail[n] = packageEndByte
      · simp [he, hmax]
      · simp [he]
  · rw [if_pos (by omega), dif_neg hmax]

/-- The bytes of a package, without the bound that `buildPackage` checks. -/
def frame (t : UInt8) (p : Bytes) : Bytes :=
  [packageStartByte, t] ++ beBytes p.length ++ p ++ [packageEndByte]

/-- A frame has seven bytes beside its payload. -/
theorem length_frame (t : UInt8) (p : Bytes) : (frame t p).length = minPkgSize + p.length := by
  simp only [frame, List.length_append, List.length_cons, List.length_nil, length_beBytes,
    minPkgSize]
  omega

/-- `build_package` makes a frame. -/
theorem buildPackage_eq_frame {t : UInt8} {p : Bytes} (hp : p.length ≤ maxBuffersize - 7) :
    buildPackage t p = frame t p := buildPackage_of_le hp

/-- **A package is read back**, whatever follows it and whatever precedes it
without a start byte. -/
theorem parseSockpackage_frame {g s p : Bytes} {t : UInt8} (hg : packageStartByte ∉ g)
    (hp : p.length ≤ maxBuffersize) :
    parseSockpackage (g ++ frame t p ++ s) =
      .ok (some (SocketPackage.filled packageStartByte t p packageEndByte hp)) := by
  have hp' : p.length ≤ 2048 := hp
  have hword := be32_beBytes (n := p.length) (by omega)
  have hsize : sizeT (int32 p.length) = p.length := by
    rw [int32_of_lt (by omega), sizeT_natCast (by omega)]
  have hdata : g ++ frame t p ++ s = g ++ packageStartByte :: t ::
      UInt8.ofNat (p.length >>> 24 &&& 0xFF) :: UInt8.ofNat (p.length >>> 16 &&& 0xFF) ::
      UInt8.ofNat (p.length >>> 8 &&& 0xFF) :: UInt8.ofNat (p.length &&& 0xFF) ::
      (p ++ packageEndByte :: s) := by
    simp [frame, beBytes]
  rw [hdata, parseSockpackage_append hg (by simp)]
  simp only [hword, hsize]
  simp [hp]

/-- **The parser never reads outside the string, and accepts only packages**:
it rejects, or the string is a prefix without a start byte, a package and a
rest. -/
theorem parseSockpackage_eq (data : Bytes) :
    parseSockpackage data = .ok none ∨
      ∃ g t p s, ∃ hp : p.length ≤ maxBuffersize, packageStartByte ∉ g ∧
        data = g ++ frame t p ++ s ∧
        parseSockpackage data =
          .ok (some (SocketPackage.filled packageStartByte t p packageEndByte hp)) := by
  by_cases hlen : data.length < minPkgSize
  · exact .inl (by rw [parseSockpackage, if_pos hlen])
  rcases hs : scanStart data with _ | i
  · exact .inl (by rw [parseSockpackage, if_neg hlen, hs])
  obtain ⟨g, t, b₀, b₁, b₂, b₃, tail, rfl, -, hg, htail⟩ :=
    exists_header_of_scanStart hs (by omega)
  have hparse : parseSockpackage (g ++ packageStartByte :: t :: b₀ :: b₁ :: b₂ :: b₃ :: tail) = _ :=
    parseSockpackage_append hg htail
  generalize hn : sizeT (int32 (be32 b₀ b₁ b₂ b₃)) = n at hparse
  by_cases hmax : n ≤ maxBuffersize
  · by_cases hend : tail[n]? = some packageEndByte
    · refine .inr ⟨g, t, tail.take n, tail.drop (n + 1), (List.length_take_le _ _).trans hmax, hg,
        ?_, ?_⟩
      · obtain ⟨hnt, hne⟩ := List.getElem?_eq_some_iff.1 hend
        have hword : be32 b₀ b₁ b₂ b₃ = n := by
          have h31 : n < 2 ^ 31 := lt_of_le_of_lt hmax (by decide)
          rw [← hn, eq_of_sizeT_int32_lt (be32_lt ..) (hn ▸ h31)]
        have htl : (tail.take n).length = n := by rw [List.length_take]; omega
        have hsplit : tail = tail.take n ++ packageEndByte :: tail.drop (n + 1) := by
          rw [← hne, ← List.drop_eq_getElem_cons hnt, List.take_append_drop]
        have hbytes : beBytes n = [b₀, b₁, b₂, b₃] := by rw [← hword, beBytes_be32]
        rw [frame, htl, hbytes]
        conv_lhs => rw [hsplit]
        simp
      · rw [hparse, dif_pos hmax, if_pos hend]
    · exact .inl (by rw [hparse, dif_pos hmax, if_neg hend])
  · exact .inl (by rw [hparse, dif_neg hmax])

/-- An accepted string holds the package it was read from. -/
theorem length_le_of_parseSockpackage {data : Bytes} {pkg : SocketPackage}
    (h : parseSockpackage data = .ok (some pkg)) :
    minPkgSize + pkg.payload.length ≤ data.length := by
  rcases parseSockpackage_eq data with h' | ⟨g, t, p, s, hp, -, hd, h'⟩
  · rw [h'] at h; simp at h
  · obtain rfl : SocketPackage.filled packageStartByte t p packageEndByte hp = pkg := by
      rw [h'] at h; simpa using h
    rw [hd, SocketPackage.payload_filled]
    simp only [List.length_append, length_frame]
    omega

/-- **Decoding undoes encoding.**  A payload that fits is framed in at most
`MAX_BUFFERSIZE` bytes and read back with its type, whatever bytes follow and
whatever bytes without a start byte precede; a longer payload is not framed. -/
theorem parseSockpackage_buildPackage (t : UInt8) (p : Bytes) :
    (p.length ≤ maxBuffersize - 7 →
      buildPackage t p ≠ [] ∧ (buildPackage t p).length ≤ maxBuffersize ∧
        ∀ g s : Bytes, packageStartByte ∉ g →
          ∃ pkg, parseSockpackage (g ++ buildPackage t p ++ s) = .ok (some pkg) ∧
            pkg.cType = t ∧ pkg.nLen = p.length ∧ pkg.pDataBuf.take pkg.nLen = p) ∧
      (maxBuffersize - 7 < p.length → buildPackage t p = []) := by
  refine ⟨fun hp => ?_, buildPackage_of_gt⟩
  have hlen := length_buildPackage (t := t) hp
  have hpm : p.length ≤ maxBuffersize := hp.trans (Nat.sub_le _ _)
  refine ⟨fun h => ?_, ?_, fun g s hg => ?_⟩
  · rw [h, minPkgSize, List.length_nil] at hlen
    omega
  · simp only [maxBuffersize, minPkgSize] at hp hlen ⊢
    omega
  · rw [buildPackage_eq_frame hp]
    exact ⟨_, parseSockpackage_frame hg hpm, rfl, rfl,
      SocketPackage.payload_filled _ _ _ _ hpm⟩

/-- The payload `*#CR NUL` between noise is read back. -/
theorem parseSockpackage_buildPackage_delimiters :
    ∃ pkg, parseSockpackage ([35, 13] ++ buildPackage 6 [42, 35, 13, 0] ++ [42]) = .ok (some pkg) ∧
      pkg.cType = 6 ∧ pkg.nLen = 4 ∧ pkg.pDataBuf.take pkg.nLen = [42, 35, 13, 0] :=
  ((parseSockpackage_buildPackage 6 [42, 35, 13, 0]).1 (by decide)).2.2 [35, 13] [42] (by decide)

end WeakAyas
