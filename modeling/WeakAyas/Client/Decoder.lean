/-
# The decoder of the client

`ClientTCP::get_start_payload` (`TCPClient.cpp`, lines 190-224).

The client has a decoder of its own, which returns where the payload starts.  It
makes the checks of `EpollWorker::parse_sockpackage` with an index arithmetic of
its own: `start_pos + 1 + 4 + nLen + 1` for the end byte, where the server runs
an offset.  Both accept the same strings and mean the same payload, and neither
reads outside the string (`getStartPayload_agrees`).
-/

import WeakAyas.Wire.Package

namespace WeakAyas
namespace Client

open BigEndian

/-- `ClientTCP::get_start_payload`: `none` where the source returns `-1`. -/
def getStartPayload (data : Bytes) : Except OutOfRange (Option ℕ) :=
  if data.length < minPkgSize then .ok none
  else match scanStart data with
    | none => .ok none
    | some startPos =>
      if startPos + 1 + 4 ≥ data.length then .ok none
      else do
        let offset := startPos + 2
        let b₀ ← byteAt data offset
        let b₁ ← byteAt data (offset + 1)
        let b₂ ← byteAt data (offset + 2)
        let b₃ ← byteAt data (offset + 3)
        let nLen := int32 (be32 b₀ b₁ b₂ b₃)
        -- as in the server, the comparison is unsigned
        if sizeT nLen > maxBuffersize then .ok none
        else
          let endPos := startPos + 1 + 4 + sizeT nLen + 1
          if endPos ≥ data.length then .ok none
          else do
            let b ← byteAt data endPos
            if b != packageEndByte then .ok none
            else .ok (some (startPos + 1 + 4 + 1))

/-- There is a header before the payload. -/
theorem getStartPayload_bounds {data : Bytes} {q : ℕ} (h : getStartPayload data = .ok (some q)) :
    6 ≤ q ∧ q ≤ data.length := by
  unfold getStartPayload at h
  simp only [bind, Except.bind] at h
  repeat' split at h
  all_goals first
    | (cases h; done)
    | (cases h; omega)

/-- What the decoder does from the first start byte on. -/
theorem getStartPayload_append {g tail : Bytes} {t b₀ b₁ b₂ b₃ : UInt8}
    (hg : packageStartByte ∉ g) (htail : tail ≠ []) :
    getStartPayload (g ++ packageStartByte :: t :: b₀ :: b₁ :: b₂ :: b₃ :: tail) =
      .ok (if sizeT (int32 (be32 b₀ b₁ b₂ b₃)) ≤ maxBuffersize ∧
          tail[sizeT (int32 (be32 b₀ b₁ b₂ b₃))]? = some packageEndByte
        then some (g.length + 6) else none) := by
  have hpos : 0 < tail.length := List.length_pos_iff.2 htail
  have hlen := length_header g tail t b₀ b₁ b₂ b₃
  have hbyte := byteAt_append g (packageStartByte :: t :: b₀ :: b₁ :: b₂ :: b₃ :: tail)
  generalize hn : sizeT (int32 (be32 b₀ b₁ b₂ b₃)) = n
  unfold getStartPayload
  rw [if_neg (by rw [hlen, minPkgSize]; omega),
    scanStart_append hg (by simp only [List.length_cons]; omega)]
  simp only [hlen]
  rw [if_neg (by omega), hbyte 2 b₀ rfl]
  simp only [Nat.add_assoc, Nat.reduceAdd, hbyte 3 b₁ rfl, hbyte 4 b₂ rfl, hbyte 5 b₃ rfl,
    bind, Except.bind, hn]
  by_cases hmax : n ≤ maxBuffersize
  · rw [if_neg (by omega)]
    by_cases hfit : tail.length ≤ n
    · rw [if_pos (by omega), List.getElem?_eq_none hfit]
      simp
    · have hnt : n < tail.length := by omega
      have hend := byteAt_tail g tail t b₀ b₁ b₂ b₃ hnt
      rw [if_neg (by omega), show 5 + (n + 1) = n + 6 by omega, hend]
      simp only [List.getElem?_eq_getElem hnt, Option.some.injEq, bne_iff_ne, ne_eq, hmax,
        true_and]
      by_cases he : tail[n] = packageEndByte
      · simp [he]
      · simp [he]
  · rw [if_pos (by omega), if_neg (by simp [hmax])]

/-- The decoder never reads outside the string. -/
theorem exists_getStartPayload (data : Bytes) : ∃ pos, getStartPayload data = .ok pos := by
  by_cases hlen : data.length < minPkgSize
  · exact ⟨none, by rw [getStartPayload, if_pos hlen]⟩
  rcases hs : scanStart data with _ | i
  · exact ⟨none, by rw [getStartPayload, if_neg hlen, hs]⟩
  obtain ⟨g, t, b₀, b₁, b₂, b₃, tail, rfl, -, hg, htail⟩ :=
    exists_header_of_scanStart hs (by omega)
  exact ⟨_, getStartPayload_append hg htail⟩

/-- The payload of a package stands behind its header. -/
theorem getStartPayload_frame {t : UInt8} {p : Bytes} (hp : p.length ≤ maxBuffersize) :
    getStartPayload (frame t p) = .ok (some 6) := by
  have hp' : p.length ≤ 2048 := hp
  have hword := be32_beBytes (n := p.length) (by omega)
  have hsize : sizeT (int32 p.length) = p.length := by
    rw [int32_of_lt (by omega), sizeT_natCast (by omega)]
  have hdata : frame t p = [] ++ packageStartByte :: t ::
      UInt8.ofNat (p.length >>> 24 &&& 0xFF) :: UInt8.ofNat (p.length >>> 16 &&& 0xFF) ::
      UInt8.ofNat (p.length >>> 8 &&& 0xFF) :: UInt8.ofNat (p.length &&& 0xFF) ::
      (p ++ [packageEndByte]) := by
    simp [frame, beBytes]
  rw [hdata, getStartPayload_append (by simp) (by simp)]
  simp only [hword, hsize]
  simp [hp]

/-- Behind the scan the two decoders make of a string the same. -/
theorem exists_agree (data : Bytes) :
    ∃ pos res, getStartPayload data = .ok pos ∧ parseSockpackage data = .ok res ∧
      (pos.isSome ↔ res.isSome) ∧
      ∀ q pkg, pos = some q → res = some pkg →
        (data.drop q).take pkg.nLen = pkg.pDataBuf.take pkg.nLen ∧
          data[q + pkg.nLen]? = some packageEndByte := by
  by_cases hlen : data.length < minPkgSize
  · exact ⟨none, none, by rw [getStartPayload, if_pos hlen], by rw [parseSockpackage, if_pos hlen],
      Iff.rfl, nofun⟩
  rcases hs : scanStart data with _ | i
  · exact ⟨none, none, by rw [getStartPayload, if_neg hlen, hs],
      by rw [parseSockpackage, if_neg hlen, hs], Iff.rfl, nofun⟩
  obtain ⟨g, t, b₀, b₁, b₂, b₃, tail, rfl, -, hg, htail⟩ :=
    exists_header_of_scanStart hs (by omega)
  have hclient : getStartPayload (g ++ packageStartByte :: t :: b₀ :: b₁ :: b₂ :: b₃ :: tail) = _ :=
    getStartPayload_append hg htail
  have hserver :
      parseSockpackage (g ++ packageStartByte :: t :: b₀ :: b₁ :: b₂ :: b₃ :: tail) = _ :=
    parseSockpackage_append hg htail
  generalize sizeT (int32 (be32 b₀ b₁ b₂ b₃)) = n at hclient hserver
  by_cases hmax : n ≤ maxBuffersize
  · rw [dif_pos hmax] at hserver
    by_cases hend : tail[n]? = some packageEndByte
    · rw [if_pos ⟨hmax, hend⟩] at hclient
      rw [if_pos hend] at hserver
      refine ⟨_, _, hclient, hserver, by simp, ?_⟩
      rintro q pkg ⟨⟩ ⟨⟩
      have hnt := (List.getElem?_eq_some_iff.1 hend).1
      have htake : (tail.take n).length = n := by rw [List.length_take]; omega
      have hdrop := drop_header g tail t b₀ b₁ b₂ b₃
      constructor
      · rw [hdrop]
        simp [SocketPackage.filled]
      · rw [← List.getElem?_drop, hdrop]
        simpa [SocketPackage.filled, htake] using hend
    · rw [if_neg (by simp [hend])] at hclient
      rw [if_neg hend] at hserver
      exact ⟨none, none, hclient, hserver, Iff.rfl, nofun⟩
  · rw [if_neg (by simp [hmax])] at hclient
    rw [dif_neg hmax] at hserver
    exact ⟨none, none, hclient, hserver, Iff.rfl, nofun⟩

/-- **The two decoders agree.**  On every string both end without reading
outside of it, in their scan and behind it; they accept the same strings, and where they
do, the position of the client is that of the payload of the server, with the end byte
behind it. -/
theorem getStartPayload_agrees (data : Bytes) :
    (minPkgSize ≤ data.length →
      scanLoop data 0 (data.length - minPkgSize + 1) = .ok (scanStart data)) ∧
    ∃ pos res, getStartPayload data = .ok pos ∧ parseSockpackage data = .ok res ∧
      (pos.isSome ↔ res.isSome) ∧
      ∀ q pkg, pos = some q → res = some pkg →
        (data.drop q).take pkg.nLen = pkg.pDataBuf.take pkg.nLen ∧
          data[q + pkg.nLen]? = some packageEndByte :=
  ⟨scanLoop_eq_scanStart, exists_agree data⟩

end Client
end WeakAyas
