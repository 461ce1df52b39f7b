/-
# What a handler puts on the socket

`SQLManager::SendData` (`SQLManager.cpp`, lines 40-64): a package that
`build_package` refuses is not written, any other is written until every byte is
taken.  A loop that ends in success has written the package, whatever pieces
`write` took it in (`loop_of_true`), so what a request leaves on the socket is read
off its calls of `SendData` (`Outcome.sent`).
-/

import WeakAyas.Manager.Handlers

namespace WeakAyas
namespace Manager

/-- What one call of `write` answers. -/
inductive WriteAnswer where
  | took (n : ℕ)
  | eintr
  | eagain
  | error

/-- The bytes that a call takes. -/
def WriteAnswer.accepted : WriteAnswer → ℕ
  | took n => n
  | eintr | eagain | error => 0

namespace SendData

/-- The loop `while (total < msg.size())` on the answers of `write`: the bytes
taken, and the value returned, `none` while the loop still goes on. -/
def loop (msg : Bytes) : ℕ → List WriteAnswer → Bytes × Option Bool
  | total, [] => ([], if total < msg.length then none else some true)
  | total, answer :: answers =>
    if total < msg.length then
      match answer with
      | .took n =>
        let rest := loop msg (total + n) answers
        ((msg.drop total).take n ++ rest.1, rest.2)
      | .eintr | .eagain => loop msg total answers
      | .error => ([], some false)
    else ([], some true)

/-- `SQLManager::SendData`. -/
def run (type : UInt8) (payload : Bytes) (answers : List WriteAnswer) : Bytes × Option Bool :=
  let msg := buildPackage type payload
  if msg.isEmpty then ([], some false) else loop msg 0 answers

variable {msg : Bytes} {total : ℕ} {answer : WriteAnswer} {answers : List WriteAnswer}

/-- Nothing is left to write. -/
theorem loop_of_not_lt (h : ¬ total < msg.length) : loop msg total answers = ([], some true) := by
  cases answers with
  | nil => rw [loop, if_neg h]
  | cons answer answers => cases answer <;> rw [loop, if_neg h]

/-- A failing write ends the loop. -/
theorem loop_error (h : total < msg.length) :
    loop msg total (.error :: answers) = ([], some false) := by
  rw [loop, if_pos h]

/-- A call that does not fail moves the loop on by what it takes. -/
theorem loop_cons (h : total < msg.length) (hanswer : answer ≠ .error) :
    loop msg total (answer :: answers) =
      ((msg.drop total).take answer.accepted ++ (loop msg (total + answer.accepted) answers).1,
        (loop msg (total + answer.accepted) answers).2) := by
  cases answer with
  | took n => rw [loop, if_pos h, WriteAnswer.accepted]
  | eintr => rw [loop, if_pos h]; rfl
  | eagain => rw [loop, if_pos h]; rfl
  | error => exact absurd rfl hanswer

/-- The steps of the loop: it is at its end, it waits for an answer, a call fails,
or it goes on. -/
theorem loop_induction (msg : Bytes) {P : ℕ → List WriteAnswer → Prop}
    (stop : ∀ total answers, ¬ total < msg.length → P total answers)
    (wait : ∀ total, total < msg.length → P total [])
    (error : ∀ total answers, total < msg.length → P total (.error :: answers))
    (step : ∀ total answer answers, total < msg.length → answer ≠ .error →
      P (total + answer.accepted) answers → P total (answer :: answers))
    (total : ℕ) (answers : List WriteAnswer) : P total answers := by
  induction answers generalizing total with
  | nil =>
    by_cases hlt : total < msg.length
    · exact wait total hlt
    · exact stop total [] hlt
  | cons answer answers ih =>
    by_cases hlt : total < msg.length
    · by_cases hanswer : answer = .error
      · exact hanswer ▸ error total answers hlt
      · exact step total answer answers hlt hanswer (ih _)
    · exact stop total _ hlt

/-- **A loop that succeeds has written the rest of the message.** -/
theorem loop_of_true (h : (loop msg total answers).2 = some true) :
    (loop msg total answers).1 = msg.drop total := by
  induction total, answers using loop_induction msg with
  | stop total answers hlt =>
    rw [loop_of_not_lt hlt, List.drop_eq_nil_of_le (Nat.le_of_not_lt hlt)]
  | wait total hlt => simp [loop, hlt] at h
  | error total answers hlt => simp [loop_error hlt] at h
  | step total answer answers hlt hanswer ih =>
    rw [loop_cons hlt hanswer] at h ⊢
    rw [ih h, ← List.drop_drop, List.take_append_drop]

end SendData

/-! ### The frames of a request -/

/-- The package that a call leaves on the socket when the writes succeed. -/
def Action.sent : Action → Option (Fd × Bytes)
  | .sendData fd type payload =>
    if (buildPackage type payload).isEmpty then none else some (fd, buildPackage type payload)
  | _ => none

/-- The packages that a handler leaves on its sockets when the writes succeed. -/
def Outcome.sent (o : Outcome) : List (Fd × Bytes) := o.log.filterMap Action.sent

/-- What `SendData` has written when it returns `true` is what it sends. -/
theorem Action.sent_of_run {fd : Fd} {type : UInt8} {payload : Bytes} {answers : List WriteAnswer}
    (h : (SendData.run type payload answers).2 = some true) :
    (Action.sendData fd type payload).sent = some (fd, (SendData.run type payload answers).1) := by
  unfold SendData.run at h ⊢
  dsimp only at h ⊢
  split_ifs at h ⊢ with hempty
  · simp at h
  · rw [SendData.loop_of_true h, Action.sent, if_neg hempty, List.drop_zero]

/-- A payload within the limit is sent as its frame, a longer one not at all. -/
theorem Action.sent_sendData (fd : Fd) (type : UInt8) (payload : Bytes) :
    (Action.sendData fd type payload).sent =
      if payload.length ≤ maxBuffersize - 7 then some (fd, frame type payload) else none := by
  rw [Action.sent]
  split_ifs with hempty hle hle
  · rw [buildPackage_eq_frame hle, frame] at hempty
    simp at hempty
  · rfl
  · rw [buildPackage_eq_frame hle]
  · exact absurd (by simp [buildPackage_of_gt (Nat.lt_of_not_le hle)]) hempty

variable {mgr : SQLManager} {fd : Fd}

@[simp] theorem sent_finish : (finish mgr).sent = [] := rfl

/-- A call of the driver sends nothing itself. -/
theorem Outcome.sent_after {o : Outcome} {a : Action} (ha : a.sent = none) :
    (o.after a).sent = o.sent := by
  rw [Outcome.sent, Outcome.after, List.filterMap_cons_none ha]
  rfl

/-- A text is sent as one package when it fits. -/
theorem sent_sendData (type : UInt8) (payload : Bytes) :
    (sendData mgr fd type payload).sent =
      if payload.length ≤ maxBuffersize - 7 then [(fd, frame type payload)] else [] := by
  have hlog : (sendData mgr fd type payload).sent =
      [Action.sendData fd type payload].filterMap Action.sent := rfl
  rw [hlog, List.filterMap_cons, Action.sent_sendData]
  split_ifs <;> rfl

/-- A call that throws sends nothing. -/
theorem sent_call {α : Type} {a : Action} (ha : a.sent = none)
    {answer : Except Driver.SqlException α} {k : α → Outcome} :
    (call mgr a answer k).sent = match answer with
      | .ok r => (k r).sent
      | .error _ => [] := by
  rcases answer with e | r
  · exact List.filterMap_cons_none ha
  · exact Outcome.sent_after ha

end Manager
end WeakAyas
