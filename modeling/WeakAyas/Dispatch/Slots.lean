/-
# How a connection is handed around

One open descriptor on the level of whole chunks.  Its slot says which
connection it is, who drives it, and who is in charge of its next chunk.

The driver is the thread that may read the socket: the epoll thread while it
treats an event of a connection without an active thread, or the active thread.
The `Bool` beside it is `thread_running`.  The owner of the chunk goes through

| owner | `fd_inthreadpool` | |
| --- | --- | --- |
| `free` | `false` | nothing is read |
| `taken`, `got` | `false` | the driver may read, has read |
| `flagged`, `queued` | `true` | the epoll thread enqueues, the task waits |
| `executing`, `handling` | `true` | a worker runs the task |
| `frozen` | `true` | the task is gone, and the flag stays |

and from `handling` back to `free`, or to `frozen` when the chunk is rejected or
its handler throws.
-/

import WeakAyas.Dispatch.Threads

namespace WeakAyas
namespace Dispatch

/-- How far the thread in charge of a descriptor and its chunk is. -/
inductive Stage where
  | accepted
  | taken
  | got (d : Bytes)
  | flagged (d : Bytes)
  | executing (d : Bytes)
  | handling
  | erased
  deriving DecidableEq

/-- Who is in charge. -/
inductive Owner where
  | free
  | queued (d : Bytes)
  | frozen
  | thread (t : Tid) (stage : Stage)
  deriving DecidableEq

namespace Stage

/-- The chunk read and not finished. -/
def pending : Stage → List Bytes
  | got d | flagged d | executing d => [d]
  | _ => []

/-- `fd_inthreadpool`. -/
def flag : Stage → Bool
  | flagged _ | executing _ | handling => true
  | _ => false

/-- `fd_infos` has the descriptor. -/
def registered : Stage → Bool
  | accepted | erased => false
  | _ => true

/-- A stage of the driver. -/
def reading : Stage → Bool
  | taken | got _ | flagged _ | erased => true
  | _ => false

end Stage

namespace Owner

def pending : Owner → List Bytes
  | queued d => [d]
  | thread _ stage => stage.pending
  | _ => []

def flag : Owner → Bool
  | free => false
  | queued _ | frozen => true
  | thread _ stage => stage.flag

def registered : Owner → Bool
  | thread _ stage => stage.registered
  | _ => true

/-- The thread in charge and its stage. -/
def holder : Owner → Option (Tid × Stage)
  | thread t stage => some (t, stage)
  | _ => none

end Owner

/-- An open descriptor. -/
structure Slot where
  conn : ConnId
  driver : Option (Tid × Bool)
  owner : Owner

/-- What a thread does with a slot. -/
inductive Move where
  | register
  | drive
  | mark
  | hand (i : ℕ)
  | retire (i : ℕ)
  | take (t : Tid)
  | release (i : ℕ)
  | leave
  | read (t : Tid) (d : Bytes)
  | flag (d : Bytes)
  | enqueue (d : Bytes)
  | dequeue (i : ℕ) (d : Bytes)
  | handle (i : ℕ) (d : Bytes)
  | reject (i : ℕ) (d : Bytes)
  | clear (i : ℕ)
  | throw (i : ℕ)
  | erase (t : Tid)
  deriving DecidableEq

namespace Move

/-- The chunk that the move reads. -/
def reads : Move → List Bytes
  | read _ d => [d]
  | _ => []

/-- The chunk that the move finishes. -/
def finishes : Move → List Bytes
  | handle _ d | reject _ d => [d]
  | _ => []

/-- A move that leaves the flag behind. -/
def freezes : Move → Bool
  | reject _ _ | throw _ => true
  | _ => false

/-- The owners before and after; the moves of the driver have none. -/
def owners : Move → Option (Owner × Owner)
  | register => some (.thread .acceptor .accepted, .free)
  | take t => some (.free, .thread t .taken)
  | release i => some (.thread (.active i) .taken, .free)
  | leave => some (.thread .loop .taken, .free)
  | read t d => some (.thread t .taken, .thread t (.got d))
  | flag d => some (.thread .loop (.got d), .thread .loop (.flagged d))
  | enqueue d => some (.thread .loop (.flagged d), .queued d)
  | dequeue i d => some (.queued d, .thread (.pool i) (.executing d))
  | handle i d => some (.thread (.pool i) (.executing d), .thread (.pool i) .handling)
  | reject i d => some (.thread (.pool i) (.executing d), .frozen)
  | clear i => some (.thread (.pool i) .handling, .free)
  | throw i => some (.thread (.pool i) .handling, .frozen)
  | erase t => some (.thread t .taken, .thread t .erased)
  | drive | mark | hand _ | retire _ => none

/-- The driver after the move. -/
def driver : Move → Option (Tid × Bool) → Option (Tid × Bool)
  | drive, _ => some (.loop, false)
  | mark, _ => some (.loop, true)
  | hand i, _ => some (.active i, true)
  | retire _, _ | leave, _ | enqueue _, _ => none
  | _, driver => driver

/-- The owner after the move. -/
def owner (m : Move) (o : Owner) : Owner := (m.owners.map Prod.snd).getD o

end Move

namespace Slot

variable (σ : Slot)

/-- The thread drives the slot. -/
def DrivenBy (t : Tid) : Prop := σ.driver.map Prod.fst = some t

/-- The thread is in charge of the slot. -/
def HeldBy (t : Tid) : Prop := σ.owner.holder.map Prod.fst = some t

instance (t : Tid) : Decidable (σ.DrivenBy t) := inferInstanceAs (Decidable (_ = _))

instance (t : Tid) : Decidable (σ.HeldBy t) := inferInstanceAs (Decidable (_ = _))

/-- What the move asks of the driver. -/
def Guard : Move → Prop
  | .drive => σ.driver = none ∧ σ.owner.registered = true
  | .mark | .leave | .enqueue _ => σ.driver = some (.loop, false)
  | .hand _ => σ.driver = some (.loop, true) ∧ ¬ σ.HeldBy .loop
  | .retire i => σ.driver = some (.active i, true) ∧ ¬ σ.HeldBy (.active i)
  | .take t => σ.DrivenBy t
  | _ => True

instance : (m : Move) → Decidable (σ.Guard m)
  | .drive | .hand _ | .retire _ => inferInstanceAs (Decidable (_ ∧ _))
  | .mark | .leave | .enqueue _ | .take _ => inferInstanceAs (Decidable (_ = _))
  | .register | .release _ | .read _ _ | .flag _ | .dequeue _ _ | .handle _ _ | .reject _ _
  | .clear _ | .throw _ | .erase _ => .isTrue trivial

/-- The move is possible. -/
def Allows (m : Move) : Prop := (∀ o ∈ m.owners, σ.owner = o.1) ∧ σ.Guard m

instance (m : Move) : Decidable (σ.Allows m) := inferInstanceAs (Decidable (_ ∧ _))

/-- The slot after a move. -/
def after (m : Move) : Slot :=
  { σ with driver := m.driver σ.driver, owner := m.owner σ.owner }

/-- Only the epoll thread and active threads drive, and only the driver reads. -/
structure Ok : Prop where
  driver : ∀ t b, σ.driver = some (t, b) → t = .loop ∨ (b = true ∧ ∃ i, t = .active i)
  accepted : ∀ t, σ.owner = .thread t .accepted → σ.driver = none
  reading : ∀ t stage, σ.owner = .thread t stage → stage.reading = true → σ.DrivenBy t

variable {σ}

/-- Every chunk that is read is finished once, in the order of reading. -/
theorem pending_after {m : Move} (h : σ.Allows m) :
    σ.owner.pending ++ m.reads = m.finishes ++ (σ.after m).owner.pending := by
  rcases hm : m.owners with _ | ⟨o, o'⟩
  · cases m <;> first
      | (cases hm; done)
      | simp [after, Move.owner, Move.owners, Move.reads, Move.finishes]
  · have ho : σ.owner = o := h.1 _ hm
    rw [ho]
    cases m <;> cases hm <;> rfl

/-- A thread that drives alone in the slot is not in charge of its chunk. -/
theorem Ok.not_reading (hσ : σ.Ok) {t : Tid} (hdriver : σ.DrivenBy t) (hheld : ¬ σ.HeldBy t)
    {t' : Tid} {stage : Stage} (ho : σ.owner = .thread t' stage) : stage.reading = false := by
  by_contra hreading
  have ht' : σ.DrivenBy t' := hσ.reading t' stage ho (by simpa using hreading)
  obtain rfl : t = t' := Option.some.inj (hdriver.symm.trans ht')
  exact hheld (by rw [HeldBy, ho]; rfl)

/-- A slot that is driven is registered when its driver is not in charge of the
chunk. -/
theorem Ok.registered (hσ : σ.Ok) {t : Tid} (hdriver : σ.DrivenBy t) (hheld : ¬ σ.HeldBy t) :
    σ.owner.registered = true := by
  rcases ho : σ.owner with _ | d | _ | ⟨t', stage⟩
  · rfl
  · rfl
  · rfl
  · have hreading := hσ.not_reading hdriver hheld ho
    cases stage with
    | accepted =>
      rw [DrivenBy, hσ.accepted t' ho] at hdriver
      cases hdriver
    | erased => cases hreading
    | _ => rfl

/-- **Every move keeps the order.** -/
theorem Ok.after {m : Move} (hσ : σ.Ok) (h : σ.Allows m) : (σ.after m).Ok := by
  obtain ⟨howner, hguard⟩ := h
  cases m with
  | drive =>
    obtain ⟨hdriver, hregistered⟩ := hguard
    refine ⟨fun t b ht => ?_, fun t ho => ?_, fun t stage ho hr => ?_⟩
    · cases ht
      exact .inl rfl
    · change σ.owner = _ at ho
      rw [ho] at hregistered
      cases hregistered
    · have := hσ.reading t stage ho hr
      rw [DrivenBy, hdriver] at this
      cases this
  | mark =>
    change σ.driver = _ at hguard
    refine ⟨fun t b ht => ?_, fun t ho => ?_, fun t stage ho hr => ?_⟩
    · cases ht
      exact .inl rfl
    · have := hσ.accepted t ho
      rw [hguard] at this
      cases this
    · have := hσ.reading t stage ho hr
      rw [DrivenBy, hguard] at this
      exact this
  | hand i =>
    obtain ⟨hdriver, hheld⟩ := hguard
    have hdriven : σ.DrivenBy .loop := by rw [DrivenBy, hdriver]; rfl
    refine ⟨fun t b ht => ?_, fun t ho => ?_, fun t stage ho hr => ?_⟩
    · cases ht
      exact .inr ⟨rfl, i, rfl⟩
    · have := hσ.accepted t ho
      rw [hdriver] at this
      cases this
    · rw [hσ.not_reading hdriven hheld ho] at hr
      cases hr
  | retire i =>
    obtain ⟨hdriver, hheld⟩ := hguard
    have hdriven : σ.DrivenBy (.active i) := by rw [DrivenBy, hdriver]; rfl
    refine ⟨nofun, fun _ _ => rfl, fun t stage ho hr => ?_⟩
    rw [hσ.not_reading hdriven hheld ho] at hr
    cases hr
  | take t =>
    refine ⟨hσ.driver, nofun, fun t' stage ho _ => ?_⟩
    cases ho
    exact hguard
  | read t d =>
    have ho : σ.owner = .thread t .taken := howner _ rfl
    refine ⟨hσ.driver, nofun, fun t' stage ho' _ => ?_⟩
    cases ho'
    exact hσ.reading t .taken ho rfl
  | flag d =>
    have ho : σ.owner = .thread .loop (.got d) := howner _ rfl
    refine ⟨hσ.driver, nofun, fun t' stage ho' _ => ?_⟩
    cases ho'
    exact hσ.reading .loop (.got d) ho rfl
  | erase t =>
    have ho : σ.owner = .thread t .taken := howner _ rfl
    refine ⟨hσ.driver, nofun, fun t' stage ho' _ => ?_⟩
    cases ho'
    exact hσ.reading t .taken ho rfl
  | leave => exact ⟨nofun, nofun, nofun⟩
  | enqueue d => exact ⟨nofun, nofun, nofun⟩
  | _ =>
    refine ⟨hσ.driver, nofun, fun t stage ho hr => ?_⟩
    cases ho <;> cases hr

end Slot

end Dispatch
end WeakAyas
