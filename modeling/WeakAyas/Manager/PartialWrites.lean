/-
# Frames under partial writes

`SQLManager::SendData` (`SQLManager.cpp`, lines 40-64), call by call of `write`.

A call is passed the range from `total` to the end of the message, its length
computed in `size_t` from the signed `total`, and takes a part of it, none, or
fails (`calls`).  As long as no call takes more than it was passed, `total` stays
within the message, so the length does not wrap (`count_of_mem_calls`), the ranges
that are taken lie end to end (`consecutive_calls`), and what is written is the
message, or a proper prefix of it when a call fails (`loop_of_true`,
`loop_of_false`).
-/

import WeakAyas.Manager.SendData

namespace WeakAyas
namespace Manager

open BigEndian

/-- `write(fd, msg.data() + offset, count)` and its answer. -/
structure WriteCall where
  offset : ℕ
  count : ℕ
  answer : WriteAnswer

namespace WriteCall

/-- `write` takes no more than it is passed. -/
def Possible (c : WriteCall) : Prop := c.answer.accepted ≤ c.count

instance : DecidablePred Possible := fun _ => inferInstanceAs (Decidable (_ ≤ _))

/-- The bytes of the message that the call takes. -/
def accepted (msg : Bytes) (c : WriteCall) : Bytes :=
  ((msg.drop c.offset).take c.count).take c.answer.accepted

/-- The range that the call is passed lies inside the message. -/
def Inside (msg : Bytes) (c : WriteCall) : Prop := c.offset + c.count ≤ msg.length

/-- Every call starts where the calls before it, from `total` on, have ended. -/
def Consecutive : ℕ → List WriteCall → Prop
  | _, [] => True
  | total, c :: cs => c.offset = total ∧ Consecutive (total + c.answer.accepted) cs

end WriteCall

namespace SendData

/-- The calls of `write` in the loop, for the answers that they get. -/
def loopCalls (msg : Bytes) : ℕ → List WriteAnswer → List WriteCall
  | _, [] => []
  | total, answer :: answers =>
    if total < msg.length then
      ⟨total, sizeT (msg.length - total), answer⟩ ::
        match answer with
        | .took n => loopCalls msg (total + n) answers
        | .eintr | .eagain => loopCalls msg total answers
        | .error => []
    else []

/-- The calls of `write` in `SendData`. -/
def calls (type : UInt8) (payload : Bytes) (answers : List WriteAnswer) : List WriteCall :=
  let msg := buildPackage type payload
  if msg.isEmpty then [] else loopCalls msg 0 answers

/-! ### The calls of the loop -/

variable {msg : Bytes} {total : ℕ} {answer : WriteAnswer} {answers : List WriteAnswer}

/-- Nothing is left to write. -/
theorem loopCalls_of_not_lt (h : ¬ total < msg.length) : loopCalls msg total answers = [] := by
  cases answers with
  | nil => rfl
  | cons answer answers => cases answer <;> rw [loopCalls, if_neg h]

/-- A failing write is the last. -/
theorem loopCalls_error (h : total < msg.length) :
    loopCalls msg total (.error :: answers) =
      [⟨total, sizeT (msg.length - total), .error⟩] := by
  rw [loopCalls, if_pos h]

/-- After any other answer the loop goes on behind what was taken. -/
theorem loopCalls_cons (h : total < msg.length) (hanswer : answer ≠ .error) :
    loopCalls msg total (answer :: answers) = ⟨total, sizeT (msg.length - total), answer⟩ ::
      loopCalls msg (total + answer.accepted) answers := by
  cases answer with
  | took n => rw [loopCalls, if_pos h, WriteAnswer.accepted]
  | eintr => rw [loopCalls, if_pos h]; rfl
  | eagain => rw [loopCalls, if_pos h]; rfl
  | error => exact absurd rfl hanswer

/-- The length passed does not wrap while `total` is within the message. -/
theorem sizeT_sub (hmsg : msg.length < 2 ^ 64) (h : total ≤ msg.length) :
    sizeT (msg.length - total) = msg.length - total := by
  rw [← Int.ofNat_sub h, sizeT_natCast (by omega)]

/-- The ranges lie end to end. -/
theorem consecutive_loopCalls (msg : Bytes) (total : ℕ) (answers : List WriteAnswer) :
    WriteCall.Consecutive total (loopCalls msg total answers) := by
  induction total, answers using loop_induction msg with
  | stop total answers hlt =>
    rw [loopCalls_of_not_lt hlt]
    trivial
  | wait => trivial
  | error total answers hlt =>
    rw [loopCalls_error hlt]
    exact ⟨rfl, trivial⟩
  | step total answer answers hlt hanswer ih =>
    rw [loopCalls_cons hlt hanswer]
    exact ⟨rfl, ih⟩

/-- **Every range passed to `write` lies inside the message.** -/
theorem inside_of_mem_loopCalls (hmsg : msg.length < 2 ^ 64) (hle : total ≤ msg.length)
    (hpossible : ∀ c ∈ loopCalls msg total answers, c.Possible) :
    ∀ c ∈ loopCalls msg total answers, c.Inside msg := by
  induction total, answers using loop_induction msg with
  | stop total answers hlt =>
    rw [loopCalls_of_not_lt hlt]
    exact List.forall_mem_nil _
  | wait => exact List.forall_mem_nil _
  | error total answers hlt =>
    rw [loopCalls_error hlt, List.forall_mem_singleton, WriteCall.Inside, sizeT_sub hmsg hle]
    exact (Nat.add_sub_cancel' hle).le
  | step total answer answers hlt hanswer ih =>
    rw [loopCalls_cons hlt hanswer, List.forall_mem_cons] at hpossible ⊢
    have hcount : answer.accepted ≤ msg.length - total := sizeT_sub hmsg hle ▸ hpossible.1
    refine ⟨?_, ih (by omega) hpossible.2⟩
    rw [WriteCall.Inside, sizeT_sub hmsg hle]
    exact (Nat.add_sub_cancel' hle).le

/-- What the loop writes is what its calls take. -/
theorem loop_eq_flatMap (hmsg : msg.length < 2 ^ 64) :
    (loop msg total answers).1 = (loopCalls msg total answers).flatMap (·.accepted msg) := by
  have haccepted : ∀ (total : ℕ) (answer : WriteAnswer), total < msg.length →
      WriteCall.accepted msg ⟨total, sizeT (msg.length - total), answer⟩ =
        (msg.drop total).take answer.accepted := by
    intro total answer hlt
    have hall : (msg.drop total).take (msg.length - total) = msg.drop total :=
      List.take_of_length_le (List.length_drop ..).le
    rw [sizeT_sub hmsg hlt.le, WriteCall.accepted, hall]
  induction total, answers using loop_induction msg with
  | stop total answers hlt =>
    rw [loop_of_not_lt hlt, loopCalls_of_not_lt hlt]
    rfl
  | wait => rfl
  | error total answers hlt =>
    rw [loop_error hlt, loopCalls_error hlt, List.flatMap_singleton, haccepted total _ hlt]
    rfl
  | step total answer answers hlt hanswer ih =>
    rw [loop_cons hlt hanswer, loopCalls_cons hlt hanswer, List.flatMap_cons,
      haccepted total _ hlt, ih]

/-- **A loop that fails has written a proper prefix of the rest.** -/
theorem loop_of_false (hmsg : msg.length < 2 ^ 64) (hle : total ≤ msg.length)
    (hpossible : ∀ c ∈ loopCalls msg total answers, c.Possible)
    (h : (loop msg total answers).2 = some false) :
    ∃ rest, rest ≠ [] ∧ msg.drop total = (loop msg total answers).1 ++ rest := by
  induction total, answers using loop_induction msg with
  | stop total answers hlt => simp [loop_of_not_lt hlt] at h
  | wait total hlt => simp [loop, hlt] at h
  | error total answers hlt =>
    refine ⟨msg.drop total, fun hnil => ?_, ?_⟩
    · exact absurd (List.drop_eq_nil_iff.1 hnil) (Nat.not_le.2 hlt)
    · rw [loop_error hlt, List.nil_append]
  | step total answer answers hlt hanswer ih =>
    rw [loopCalls_cons hlt hanswer, List.forall_mem_cons] at hpossible
    rw [loop_cons hlt hanswer] at h ⊢
    have hcount : answer.accepted ≤ msg.length - total := sizeT_sub hmsg hle ▸ hpossible.1
    obtain ⟨rest, hne, hrest⟩ := ih (by omega) hpossible.2 h
    refine ⟨rest, hne, ?_⟩
    rw [List.append_assoc, ← hrest, ← List.drop_drop, List.take_append_drop]

/-! ### The frame -/

/-- A package fits the buffer. -/
theorem length_buildPackage_le (type : UInt8) (payload : Bytes) :
    (buildPackage type payload).length ≤ maxBuffersize := by
  rcases Nat.lt_or_ge (maxBuffersize - 7) payload.length with hgt | hle
  · rw [buildPackage_of_gt hgt]
    exact Nat.zero_le _
  · rw [length_buildPackage hle, minPkgSize]
    simp only [maxBuffersize] at hle ⊢
    omega

/-- A payload that is too long is not written at all. -/
theorem run_of_gt (type : UInt8) {payload : Bytes} (h : maxBuffersize - 7 < payload.length)
    (answers : List WriteAnswer) :
    run type payload answers = ([], some false) ∧ calls type payload answers = [] := by
  rw [run, calls, buildPackage_of_gt h]
  exact ⟨rfl, rfl⟩

/-- A payload that fits goes through the loop. -/
theorem run_of_le (type : UInt8) {payload : Bytes} (h : payload.length ≤ maxBuffersize - 7)
    (answers : List WriteAnswer) :
    run type payload answers = loop (buildPackage type payload) 0 answers ∧
      calls type payload answers = loopCalls (buildPackage type payload) 0 answers := by
  have hne : (buildPackage type payload).isEmpty = false := by
    rw [List.isEmpty_eq_false_iff, ← List.length_pos_iff, length_buildPackage h, minPkgSize]
    omega
  rw [run, calls]
  simp only [hne, Bool.false_eq_true, if_false, and_self]

/-- **`SendData` writes whole frames.**  For every payload and all answers of
`write` that take no more than they are passed, every range passed lies inside the
message and starts where the last one ended; when `SendData` returns `true` the
bytes taken are the message, and when it returns `false` they are a part of it
that stops before its end, nothing at all for a payload that is too long. -/
theorem writes_whole_frames (type : UInt8) (payload : Bytes) (answers : List WriteAnswer)
    (hpossible : ∀ c ∈ calls type payload answers, c.Possible) :
    (∀ c ∈ calls type payload answers, c.Inside (buildPackage type payload)) ∧
      WriteCall.Consecutive 0 (calls type payload answers) ∧
      (run type payload answers).1 =
        (calls type payload answers).flatMap (·.accepted (buildPackage type payload)) ∧
      ((run type payload answers).2 = some true →
        (run type payload answers).1 = buildPackage type payload) ∧
      ((run type payload answers).2 = some false →
        (run type payload answers).1 <+: buildPackage type payload ∧
          (payload.length ≤ maxBuffersize - 7 →
            (run type payload answers).1 ≠ buildPackage type payload)) ∧
      (maxBuffersize - 7 < payload.length →
        run type payload answers = ([], some false) ∧ calls type payload answers = []) := by
  rcases Nat.lt_or_ge (maxBuffersize - 7) payload.length with hgt | hle
  · obtain ⟨hrun, hcalls⟩ := run_of_gt type hgt answers
    rw [hrun, hcalls]
    exact ⟨List.forall_mem_nil _, trivial, rfl, fun h => absurd h (by simp),
      fun _ => ⟨List.nil_prefix, fun hle => absurd hgt (Nat.not_lt.2 hle)⟩, fun _ => ⟨rfl, rfl⟩⟩
  · obtain ⟨hrun, hcalls⟩ := run_of_le type hle answers
    have hmsg : (buildPackage type payload).length < 2 ^ 64 :=
      (length_buildPackage_le type payload).trans_lt (by decide)
    rw [hcalls] at hpossible ⊢
    rw [hrun]
    refine ⟨inside_of_mem_loopCalls hmsg (Nat.zero_le _) hpossible, consecutive_loopCalls _ 0 _,
      loop_eq_flatMap hmsg, fun h => ?_, fun h => ?_, fun hgt => absurd hgt (Nat.not_lt.2 hle)⟩
    · rw [loop_of_true h, List.drop_zero]
    · obtain ⟨rest, hne, hrest⟩ := loop_of_false hmsg (Nat.zero_le _) hpossible h
      rw [List.drop_zero] at hrest
      refine ⟨⟨rest, hrest.symm⟩, fun _ hwhole => hne ?_⟩
      rw [hwhole] at hrest
      exact List.append_right_eq_self.1 hrest.symm

/-- A frame of ten bytes that is interrupted, taken in parts, and blocked in
between. -/
theorem writes_whole_frames_parts :
    (run 0 [35, 79, 107] [.eintr, .took 4, .eagain, .took 0, .took 6]).1 =
      buildPackage 0 [35, 79, 107] :=
  (writes_whole_frames 0 [35, 79, 107] [.eintr, .took 4, .eagain, .took 0, .took 6]
    (by decide)).2.2.2.1 (by decide)

end SendData
end Manager
end WeakAyas
