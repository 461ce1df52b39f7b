/-
# The protocol of a worker

The slots of all open descriptors, and of every connection the chunks read and
the chunks finished.  A descriptor is accepted, its slot moves, and its driver
closes it.  In every state at most one chunk of a connection is read and not
finished, and the finished chunks are those read before it (`Protocol.Inv`).
-/

import WeakAyas.Dispatch.Slots

namespace WeakAyas
namespace Dispatch

/-- The open descriptors, and of every connection its descriptor, the chunks
read and the chunks finished. -/
structure Protocol where
  slot : Fd → Option Slot
  fdOf : ConnId → Fd
  nextConn : ConnId
  reads : ConnId → List Bytes
  finished : ConnId → List Bytes

/-- What happens to a descriptor. -/
inductive Act where
  | accept (fd : Fd)
  | move (fd : Fd) (m : Move)
  | close (fd : Fd) (t : Tid)

namespace Protocol

/-- Before the first connection. -/
def start : Protocol where
  slot _ := none
  fdOf _ := 0
  nextConn := 0
  reads _ := []
  finished _ := []

variable (P : Protocol)

/-- A descriptor without a slot is accepted. -/
def accept (fd : Fd) : Protocol :=
  { P with
    slot := Function.update P.slot fd (some ⟨P.nextConn, none, .thread .acceptor .accepted⟩)
    fdOf := Function.update P.fdOf P.nextConn fd
    nextConn := P.nextConn + 1 }

/-- The slot `σ` of `fd` after a move. -/
def move (fd : Fd) (σ : Slot) (m : Move) : Protocol :=
  { P with
    slot := Function.update P.slot fd (some (σ.after m))
    reads := Function.update P.reads σ.conn (P.reads σ.conn ++ m.reads)
    finished := Function.update P.finished σ.conn (P.finished σ.conn ++ m.finishes) }

/-- A descriptor is closed. -/
def close (fd : Fd) : Protocol := { P with slot := Function.update P.slot fd none }

def next : Act → Option Protocol
  | .accept fd => if P.slot fd = none then some (P.accept fd) else none
  | .move fd m => (P.slot fd).bind fun σ => if σ.Allows m then some (P.move fd σ m) else none
  | .close fd t => (P.slot fd).bind fun σ =>
    if σ.owner = .thread t .erased then some (P.close fd) else none

/-- The chunk of a connection that is read and not finished. -/
def pending (c : ConnId) : List Bytes :=
  match P.slot (P.fdOf c) with
  | some σ => if σ.conn = c then σ.owner.pending else []
  | none => []

/-- The slots are in order, each connection has one descriptor, and what is
read is finished up to the pending chunk. -/
structure Inv : Prop where
  ok : ∀ fd σ, P.slot fd = some σ → σ.Ok
  fdOf : ∀ fd σ, P.slot fd = some σ → P.fdOf σ.conn = fd
  lt : ∀ fd σ, P.slot fd = some σ → σ.conn < P.nextConn
  reads : ∀ c, P.reads c = P.finished c ++ P.pending c

variable {P}

/-- At most one chunk of a connection is on its way. -/
theorem length_pending_le_one (c : ConnId) : (P.pending c).length ≤ 1 := by
  unfold pending
  split
  · split_ifs
    · rename_i σ _ _
      rcases σ.owner with _ | d | _ | ⟨t, stage⟩ <;> (try cases stage) <;>
        simp [Owner.pending, Stage.pending]
    · simp
  · simp

/-- It is with the owner of the slot. -/
theorem pending_of_slot (h : P.Inv) {fd : Fd} {σ : Slot} (hσ : P.slot fd = some σ) :
    P.pending σ.conn = σ.owner.pending := by
  rw [pending, h.fdOf fd σ hσ, hσ]
  exact if_pos rfl

/-- A slot after an update is the new one, or one of the others. -/
theorem slot_update {fd fd' : Fd} {x : Option Slot} {σ' : Slot}
    (h : Function.update P.slot fd x fd' = some σ') :
    (fd' = fd ∧ x = some σ') ∨ (fd' ≠ fd ∧ P.slot fd' = some σ') := by
  rcases eq_or_ne fd' fd with rfl | hne
  · exact .inl ⟨rfl, by rwa [Function.update_self] at h⟩
  · exact .inr ⟨hne, by rwa [Function.update_of_ne hne] at h⟩

/-- A connection has one slot. -/
theorem Inv.conn_injective (h : P.Inv) {fd fd' : Fd} {σ σ' : Slot} (hσ : P.slot fd = some σ)
    (hσ' : P.slot fd' = some σ') (hconn : σ.conn = σ'.conn) : fd = fd' := by
  rw [← h.fdOf fd σ hσ, ← h.fdOf fd' σ' hσ', hconn]

/-- At the start no descriptor has a slot. -/
theorem slot_start (fd : Fd) (σ : Slot) : start.slot fd ≠ some σ := by
  simp [start]

/-- The invariant holds at the start. -/
theorem inv_start : start.Inv where
  ok fd σ hσ := absurd hσ (slot_start fd σ)
  fdOf fd σ hσ := absurd hσ (slot_start fd σ)
  lt fd σ hσ := absurd hσ (slot_start fd σ)
  reads _ := rfl

/-- A new connection gets a free slot. -/
theorem Inv.accept (h : P.Inv) {fd : Fd} (hfd : P.slot fd = none) : (P.accept fd).Inv := by
  refine ⟨fun fd' σ hσ => ?_, fun fd' σ hσ => ?_, fun fd' σ hσ => ?_, fun c => ?_⟩
  · rcases slot_update hσ with ⟨-, ⟨⟩⟩ | ⟨-, hσ⟩
    · exact ⟨nofun, fun _ _ => rfl, fun t stage ho hr => by cases ho; cases hr⟩
    · exact h.ok fd' σ hσ
  · rcases slot_update hσ with ⟨rfl, ⟨⟩⟩ | ⟨-, hσ⟩
    · exact Function.update_self ..
    · exact (Function.update_of_ne (h.lt fd' σ hσ).ne ..).trans (h.fdOf fd' σ hσ)
  · rcases slot_update hσ with ⟨-, ⟨⟩⟩ | ⟨-, hσ⟩
    · exact Nat.lt_succ_self _
    · exact Nat.lt_succ_of_lt (h.lt fd' σ hσ)
  · -- the new slot has nothing pending, and no slot had its connection before
    refine (h.reads c).trans (congrArg (P.finished c ++ ·) ?_)
    rcases eq_or_ne c P.nextConn with rfl | hc
    · have hnone : P.pending P.nextConn = [] := by
        unfold pending
        split
        · rename_i σ hσ
          exact if_neg (h.lt _ σ hσ).ne
        · rfl
      rw [hnone]
      simp [pending, Protocol.accept, Owner.pending, Stage.pending]
    · unfold pending
      simp only [Protocol.accept, Function.update_of_ne hc]
      rcases eq_or_ne (P.fdOf c) fd with hfd' | hfd'
      · rw [hfd', hfd, Function.update_self]
        exact (if_neg (Ne.symm hc)).symm
      · rw [Function.update_of_ne hfd']

/-- The slot of a connection changes its owner. -/
theorem Inv.move (h : P.Inv) {fd : Fd} {σ : Slot} (hσ : P.slot fd = some σ) {m : Move}
    (hm : σ.Allows m) : (P.move fd σ m).Inv := by
  refine ⟨fun fd' σ' hσ' => ?_, fun fd' σ' hσ' => ?_, fun fd' σ' hσ' => ?_, fun c => ?_⟩
  · rcases slot_update hσ' with ⟨-, ⟨⟩⟩ | ⟨-, hσ'⟩
    · exact (h.ok fd σ hσ).after hm
    · exact h.ok fd' σ' hσ'
  · rcases slot_update hσ' with ⟨rfl, ⟨⟩⟩ | ⟨-, hσ'⟩
    · exact h.fdOf fd' σ hσ
    · exact h.fdOf fd' σ' hσ'
  · rcases slot_update hσ' with ⟨-, ⟨⟩⟩ | ⟨-, hσ'⟩
    · exact h.lt fd σ hσ
    · exact h.lt fd' σ' hσ'
  · rcases eq_or_ne c σ.conn with rfl | hc
    · have hpending : (P.move fd σ m).pending σ.conn = (σ.after m).owner.pending := by
        unfold pending
        simp only [Protocol.move, h.fdOf fd σ hσ, Function.update_self]
        exact if_pos rfl
      rw [hpending]
      simp only [Protocol.move, Function.update_self, List.append_assoc]
      rw [← Slot.pending_after hm, h.reads, pending_of_slot h hσ, List.append_assoc]
    · have hpending : (P.move fd σ m).pending c = P.pending c := by
        unfold pending
        simp only [Protocol.move]
        rcases eq_or_ne (P.fdOf c) fd with hfd | hfd
        · rw [hfd, hσ, Function.update_self]
          exact (if_neg (Ne.symm hc)).trans (if_neg (Ne.symm hc)).symm
        · rw [Function.update_of_ne hfd]
      rw [hpending]
      simp only [Protocol.move, Function.update_of_ne hc]
      exact h.reads c

/-- A connection is closed. -/
theorem Inv.close (h : P.Inv) {fd : Fd} {t : Tid} {σ : Slot} (hσ : P.slot fd = some σ)
    (ho : σ.owner = .thread t .erased) : (P.close fd).Inv := by
  have hslot : ∀ fd' σ', (P.close fd).slot fd' = some σ' → P.slot fd' = some σ' := by
    intro fd' σ' hσ'
    rcases slot_update hσ' with ⟨-, hx⟩ | ⟨-, hσ'⟩
    · cases hx
    · exact hσ'
  refine ⟨fun fd' σ' hσ' => h.ok fd' σ' (hslot fd' σ' hσ'),
    fun fd' σ' hσ' => h.fdOf fd' σ' (hslot fd' σ' hσ'),
    fun fd' σ' hσ' => h.lt fd' σ' (hslot fd' σ' hσ'), fun c => ?_⟩
  -- nothing is pending on a descriptor about to be closed
  refine (h.reads c).trans (congrArg (P.finished c ++ ·) ?_)
  unfold pending
  simp only [Protocol.close]
  rcases eq_or_ne (P.fdOf c) fd with hfd | hfd
  · rw [hfd, hσ, Function.update_self]
    simp [ho, Owner.pending, Stage.pending]
  · rw [Function.update_of_ne hfd]

/-- A step is an accept, a move or a close. -/
theorem next_cases {a : Act} {P' : Protocol} (hn : P.next a = some P') :
    (∃ fd, a = .accept fd ∧ P.slot fd = none ∧ P' = P.accept fd) ∨
    (∃ fd m σ, a = .move fd m ∧ P.slot fd = some σ ∧ σ.Allows m ∧ P' = P.move fd σ m) ∨
    ∃ fd t σ, a = .close fd t ∧ P.slot fd = some σ ∧ σ.owner = .thread t .erased ∧
      P' = P.close fd := by
  cases a with
  | accept fd =>
    simp only [Protocol.next] at hn
    split_ifs at hn with hfd
    exact .inl ⟨fd, rfl, hfd, (Option.some.inj hn).symm⟩
  | move fd m =>
    obtain ⟨σ, hσ, hn⟩ := Option.bind_eq_some_iff.1 hn
    split_ifs at hn with hm
    exact .inr (.inl ⟨fd, m, σ, rfl, hσ, hm, (Option.some.inj hn).symm⟩)
  | close fd t =>
    obtain ⟨σ, hσ, hn⟩ := Option.bind_eq_some_iff.1 hn
    split_ifs at hn with ho
    exact .inr (.inr ⟨fd, t, σ, rfl, hσ, ho, (Option.some.inj hn).symm⟩)

/-- **Every step keeps the invariant.** -/
theorem Inv.next (h : P.Inv) {a : Act} {P' : Protocol} (hn : P.next a = some P') : P'.Inv := by
  rcases next_cases hn with ⟨fd, -, hfd, rfl⟩ | ⟨fd, m, σ, -, hσ, hm, rfl⟩ |
    ⟨fd, t, σ, -, hσ, ho, rfl⟩
  · exact h.accept hfd
  · exact h.move hσ hm
  · exact h.close hσ ho

end Protocol

/-- The protocol as a system. -/
def protocol : TransitionSystem Protocol Act where
  init P := P = .start
  next := Protocol.next

open TransitionSystem

/-- **The protocol keeps its invariant.** -/
theorem inv_of_reachable {ok : Protocol → Act → Prop} {P : Protocol}
    (hP : protocol.Reachable ok P) : P.Inv :=
  hP.invariant (fun _ h => h ▸ Protocol.inv_start) fun _ _ _ h _ hn => h.next hn

/-- Only moves that meet `ok`. -/
def Only (ok : Move → Prop) (_ : Protocol) (a : Act) : Prop := ∀ fd m, a = .move fd m → ok m

/-- **An owner that no allowed move brings about is never there.** -/
theorem owner_avoids {ok : Move → Prop} {B : Owner → Prop}
    (haccepted : ¬ B (.thread .acceptor .accepted))
    (hmove : ∀ m o o', m.owners = some (o, o') → ok m → ¬ B o')
    {P : Protocol} (hP : protocol.Reachable (Only ok) P) :
    ∀ fd σ, P.slot fd = some σ → ¬ B σ.owner := by
  refine hP.invariant (I := fun P => ∀ fd σ, P.slot fd = some σ → ¬ B σ.owner)
    (fun P h => ?_) fun P P' a h hok hn => ?_
  · obtain rfl : P = .start := h
    exact fun fd σ hσ => absurd hσ (Protocol.slot_start fd σ)
  · intro fd' σ' hσ' hbad
    rcases Protocol.next_cases hn with ⟨fd, -, -, rfl⟩ | ⟨fd, m, σ, rfl, hσ, -, rfl⟩ |
      ⟨fd, t, σ, -, -, -, rfl⟩
    · rcases Protocol.slot_update hσ' with ⟨-, hx⟩ | ⟨-, hσ'⟩
      · cases hx
        exact haccepted hbad
      · exact h fd' σ' hσ' hbad
    · rcases Protocol.slot_update hσ' with ⟨-, hx⟩ | ⟨-, hσ'⟩
      · cases hx
        rcases hmo : m.owners with _ | ⟨o, o'⟩
        · refine h fd σ hσ ?_
          rwa [Slot.after, Move.owner, hmo] at hbad
        · refine hmove m o o' hmo (hok fd m rfl) ?_
          rwa [Slot.after, Move.owner, hmo] at hbad
      · exact h fd' σ' hσ' hbad
    · rcases Protocol.slot_update hσ' with ⟨-, hx⟩ | ⟨-, hσ'⟩
      · cases hx
      · exact h fd' σ' hσ' hbad

/-- No connection is frozen when no task ends on a path that leaves the flag
behind. -/
theorem not_frozen {P : Protocol}
    (hP : protocol.Reachable (Only fun m => m.freezes = false) P) {fd : Fd} {σ : Slot}
    (hσ : P.slot fd = some σ) : σ.owner ≠ .frozen := by
  refine owner_avoids (B := (· = .frozen)) nofun (fun m o o' hmo hm => ?_) hP fd σ hσ
  rintro rfl
  cases m <;> cases hmo <;> cases hm

/-- No active thread has a chunk when none reads one. -/
theorem not_activeGot {P : Protocol}
    (hP : protocol.Reachable (Only fun m => ∀ i d, m ≠ .read (.active i) d) P) {fd : Fd} {σ : Slot}
    (hσ : P.slot fd = some σ) (i : ℕ) (d : Bytes) : σ.owner ≠ .thread (.active i) (.got d) := by
  refine owner_avoids (B := (· = .thread (.active i) (.got d))) nofun (fun m o o' hmo hm => ?_) hP
    fd σ hσ
  rintro rfl
  cases m <;> cases hmo
  exact hm i d rfl

end Dispatch
end WeakAyas
