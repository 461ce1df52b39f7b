/-
# What the client prints

`ClientTCP::recv_loop` (`TCPClient.cpp`, lines 133-183).

The loop decodes what each `read` returns on its own, prints the text from the
payload to the next NUL, and keeps nothing for the next read.  A payload printed
with its end byte takes `7 + |p|` bytes of its read, so the responses can only be
printed one by one when every read returns exactly one package
(`recvLoop_eq_payloads_iff`).
-/

import WeakAyas.Client.Decoder
import WeakAyas.Dispatch.Serial

namespace WeakAyas
namespace Client

open Dispatch (packages lengths_packages)
open BigEndian

/-- What `read(sock, buf, sizeof(buf))` returns; `retry` stands for `EINTR`,
`EAGAIN` and `EWOULDBLOCK`. -/
inductive ReadResult where
  | data (msg : Bytes)
  | eof
  | retry
  | error
  deriving DecidableEq, Repr

/-- The C string that starts at `pos`. -/
def cString (msg : Bytes) (pos : ℕ) : Bytes := (msg.drop pos).takeWhile (· != 0)

/-- What is printed after `Received: ` for one read, `none` for `continue`. -/
def received (msg : Bytes) : Except OutOfRange (Option Bytes) :=
  (getStartPayload msg).map (Option.map (cString msg))

/-- `ClientTCP::recv_loop`: the texts printed, in order. -/
def recvLoop : List ReadResult → Except OutOfRange (List Bytes)
  | [] => .ok []
  | .data msg :: reads => do
    let shown ← received msg
    let texts ← recvLoop reads
    return shown.toList ++ texts
  | .retry :: reads => recvLoop reads
  | .eof :: _ | .error :: _ => .ok []  -- `running = false`

/-- What is printed leaves room in its read for a header. -/
theorem received_cases (msg : Bytes) :
    received msg = .ok none ∨
      ∃ shown, received msg = .ok (some shown) ∧ 6 + shown.length ≤ msg.length := by
  obtain ⟨pos, hpos⟩ := exists_getStartPayload msg
  rcases pos with _ | q
  · exact .inl (by rw [received, hpos]; rfl)
  · obtain ⟨hq, hlen⟩ := getStartPayload_bounds hpos
    refine .inr ⟨cString msg q, by rw [received, hpos]; rfl, ?_⟩
    have hle := (List.takeWhile_sublist (l := msg.drop q) (· != 0)).length_le
    rw [List.length_drop] at hle
    rw [cString]
    omega

/-- A read that is one package is printed from its payload on. -/
theorem received_package {t : UInt8} {p : Bytes} (hp : p.length ≤ maxBuffersize - 7) :
    received (buildPackage t p) = .ok (some ((p ++ [packageEndByte]).takeWhile (· != 0))) := by
  have hpos : getStartPayload (buildPackage t p) = .ok (some 6) := by
    rw [buildPackage_eq_frame hp]
    exact getStartPayload_frame (hp.trans (Nat.sub_le _ _))
  have hdrop : (buildPackage t p).drop 6 = p ++ [packageEndByte] := by
    simp [buildPackage_of_le hp, beBytes]
  rw [received, hpos, Except.map, Option.map_some, cString, hdrop]

/-- A read that is one package without NUL in its payload is printed to its end
byte. -/
theorem received_buildPackage {t : UInt8} {p : Bytes} (hp : p.length ≤ maxBuffersize - 7)
    (hnul : 0 ∉ p) : received (buildPackage t p) = .ok (some (p ++ [packageEndByte])) := by
  have hprinted : ∀ b ∈ p, (b != 0) = true := fun b hb => by
    simpa using ne_of_mem_of_not_mem hb hnul
  rw [received_package hp, List.takeWhile_append_of_pos hprinted]
  rfl

/-- **What is printed fits into what is read**, a header for each text; and when
nothing is left over, every read was printed and was no longer. -/
theorem recvLoop_sizes (reads : List Bytes) (hpos : ∀ msg ∈ reads, 1 ≤ msg.length) :
    ∃ texts, recvLoop (reads.map .data) = .ok texts ∧
      (texts.map fun shown => 6 + shown.length).sum ≤ (reads.map List.length).sum ∧
      ((reads.map List.length).sum ≤ (texts.map fun shown => 6 + shown.length).sum →
        reads.map List.length = texts.map fun shown => 6 + shown.length) := by
  induction reads with
  | nil => exact ⟨[], rfl, le_rfl, fun _ => rfl⟩
  | cons msg reads ih =>
    obtain ⟨texts, hloop, hle, heq⟩ := ih fun m hm => hpos m (by simp [hm])
    have hmsg := hpos msg (by simp)
    rcases received_cases msg with h | ⟨shown, h, hshown⟩
    · refine ⟨texts, ?_, ?_, fun hall => ?_⟩
      · simp [recvLoop, h, hloop, bind, Except.bind, pure, Except.pure]
      · simp only [List.map_cons, List.sum_cons]
        omega
      · simp only [List.map_cons, List.sum_cons] at hall
        omega
    · refine ⟨shown :: texts, ?_, ?_, fun hall => ?_⟩
      · simp [recvLoop, h, hloop, bind, Except.bind, pure, Except.pure]
      · simp only [List.map_cons, List.sum_cons]
        omega
      · simp only [List.map_cons, List.sum_cons] at hall ⊢
        rw [heq (by omega), show msg.length = 6 + shown.length by omega]

/-- Reads that are exactly the packages are printed one by one. -/
theorem recvLoop_packages (frames : List (UInt8 × Bytes))
    (hframes : ∀ r ∈ frames, r.2.length ≤ maxBuffersize - 7 ∧ 0 ∉ r.2) :
    recvLoop ((packages frames).map .data) =
      .ok (frames.map fun r => r.2 ++ [packageEndByte]) := by
  induction frames with
  | nil => rfl
  | cons r frames ih =>
    obtain ⟨hle, hnul⟩ := hframes r (by simp)
    have ih := ih fun r hr => hframes r (by simp [hr])
    simp only [packages, List.map_cons, recvLoop] at ih ⊢
    rw [received_buildPackage hle hnul, ih]
    rfl

/-- **The responses are printed one by one exactly when every read returns one
package.**  For every list of responses without NUL that fit and every cutting
of their bytes into reads, the loop ends without reading outside a read, and it
has printed these payloads, each with its end byte, in order, iff the cuts are
the package boundaries. -/
theorem recvLoop_eq_payloads_iff (frames : List (UInt8 × Bytes))
    (hframes : ∀ r ∈ frames, r.2.length ≤ maxBuffersize - 7 ∧ 0 ∉ r.2) (reads : List Bytes)
    (hcut : reads.flatten = (packages frames).flatten)
    (hpos : ∀ msg ∈ reads, 1 ≤ msg.length ∧ msg.length ≤ maxBuffersize) :
    ∃ texts, recvLoop (reads.map .data) = .ok texts ∧
      (texts = frames.map (fun r => r.2 ++ [packageEndByte]) ↔ reads = packages frames) := by
  obtain ⟨texts, hloop, -, heq⟩ := recvLoop_sizes reads fun msg hm => (hpos msg hm).1
  refine ⟨texts, hloop, fun htexts => ?_, fun h => ?_⟩
  · -- each text with its header is as long as its package, so no byte is left over
    have hsizes : (texts.map fun shown => 6 + shown.length) =
        (packages frames).map List.length := by
      rw [lengths_packages fun r hr => (hframes r hr).1, htexts, List.map_map]
      refine List.map_congr_left fun r _ => ?_
      simp [minPkgSize]
      omega
    have htotal := congrArg List.length hcut
    simp only [List.length_flatten] at htotal
    exact List.eq_iff_flatten_eq.2 ⟨hcut, (heq (by rw [hsizes]; omega)).trans hsizes⟩
  · rw [h, recvLoop_packages frames hframes] at hloop
    exact (Except.ok.inj hloop).symm

/-- Two responses in two reads are printed as sent. -/
theorem recvLoop_eq_payloads_iff_two :
    ∃ texts, recvLoop ([buildPackage 1 [65], buildPackage 2 [66]].map .data) = .ok texts ∧
      (texts = [[65, 13], [66, 13]] ↔
        [buildPackage 1 [65], buildPackage 2 [66]] = packages [(1, [65]), (2, [66])]) :=
  recvLoop_eq_payloads_iff [(1, [65]), (2, [66])] (by decide) _ rfl (by decide)

/-- Two responses coalesced in one read: the second is not printed, and bytes of
its header are. -/
theorem recvLoop_coalesced :
    ∃ (frames : List (UInt8 × Bytes)) (reads texts : List Bytes),
      (∀ r ∈ frames, r.2.length ≤ maxBuffersize - 7 ∧ 0 ∉ r.2) ∧
      reads.flatten = (packages frames).flatten ∧
      (∀ msg ∈ reads, 1 ≤ msg.length ∧ msg.length ≤ maxBuffersize) ∧
      recvLoop (reads.map .data) = .ok texts ∧
      ¬ List.Forall₂ (fun shown r => shown = r.2 ∨ shown = r.2 ++ [packageEndByte]) texts frames :=
  ⟨[(1, [65]), (2, [66])], [buildPackage 1 [65] ++ buildPackage 2 [66]], [[65, 13, 42, 2]],
    by decide, rfl, by decide, by rfl, fun h => absurd h.length_eq (by decide)⟩

end Client
end WeakAyas
