/-
# How the client ends

A client that `main` starts and stops (`final_main.cpp`, lines 252-263) never hangs:
from every state it reaches, its two threads come to the end of `stop` without
anything from outside (`client_stops`), with every descriptor closed.  `stop` cannot
miss `recv_loop`: `running` is false before `notify_fd` is written, and `notify_fd`
stays readable until the loop has read it.  Only `SIGPIPE` comes before the end: a
`send` on a connection that the server has reset kills the process.

Until then it has sent the messages of `ConsoleClient::run` in their order, all of them
when the server has stayed up, and it has printed what `recv_loop` prints for the
results of its reads (`client_says`).
-/

import WeakAyas.Client.Descriptors

namespace WeakAyas
namespace Client

open TransitionSystem

/-! ### The work that is left -/

/-- The steps of `main` to the end of `stop`, with `n` lines to read. -/
def OwnerPc.work (n : ℕ) : OwnerPc → ℕ
  | stopped | killed => 0
  | closeEpoll => 1
  | closeNotify => 2
  | closeSock => 3
  | join => 4
  | notify => 10
  | clearRunning => 11
  | setCloseAll => 12
  | test => 13
  | setStopAll => 14
  | command => 15 + 2 * n
  | check => 16 + 2 * n
  | closeFailed => 17 + 2 * n
  | thread => 20 + 2 * n
  | eventfd => 21 + 2 * n
  | epoll => 22 + 2 * n
  | connect => 23 + 2 * n
  | socket => 24 + 2 * n

def RecvPc.work (notified : Bool) : RecvPc → ℕ
  | ended => 0
  | waiting => if notified then 5 else 1
  | test => 2
  | batch events => 3 + events.length

/-- `start` has not made the thread yet. -/
def OwnerPc.starting : OwnerPc → Bool
  | socket | connect | closeFailed | epoll | eventfd | thread => true
  | _ => false

/-- `ConsoleClient::run` is not over. -/
def OwnerPc.typing (pc : OwnerPc) : Bool := pc.starting || pc == .check || pc == .command

namespace ClientTCP

variable {s t : ClientTCP} {l : ClientStep} {lines : List Bytes}

/-- The work that is left without anything from outside. -/
def work (s : ClientTCP) : ℕ := s.owner.work s.lines.length + s.recv.work s.notified

/-- Whoever has written to `notify_fd` has cleared `running` before. -/
theorem Control.not_running_of_notified (h : Control s) (hrecv : s.recv ≠ .ended)
    (hnotified : s.notified = true) : s.running = false := by
  have htold := h.notified hnotified
  have hholds := h.owner
  cases hs : s.owner <;> simp_all [OwnerPc.told, OwnerPc.Holds]

/-- The owner goes on. -/
theorem work_ownerNext (hc : Control s) (hn : s.ownerNext = some t) : t.work < s.work := by
  cases hs : s.owner <;> simp only [ownerNext, hs, Option.some.injEq, reduceCtorEq,
    Option.ite_none_right_eq_some] at hn
  case command =>
    obtain ⟨-, rfl⟩ := hn
    simp only [work, hs, OwnerPc.work]
    omega
  case thread =>
    subst hn
    simp only [work, hs, OwnerPc.work, RecvPc.work]
    omega
  case check =>
    subst hn
    simp only [work, hs]
    split <;> simp only [OwnerPc.work] <;> omega
  case test =>
    subst hn
    have hclose : s.closeAll = false := by rw [hc.closeAll (by simp [hs]), hs]; rfl
    simp [work, hs, OwnerPc.work, hclose]
  case notify =>
    subst hn
    have hle : s.recv.work (s.notified || s.notifyFd.isSome) ≤ s.recv.work s.notified + 4 := by
      cases s.recv <;> grind -ring -linarith [RecvPc.work]
    simp only [work, hs, OwnerPc.work]
    omega
  case join =>
    obtain ⟨-, rfl⟩ := hn
    simp [work, hs, OwnerPc.work]
  all_goals
    subst hn
    simp only [work, hs, OwnerPc.work]
    omega

/-- A command costs its line. -/
theorem work_typedNext (hn : s.typedNext = some t) : t.work < s.work := by
  obtain ⟨hs, -, ⟨-, rfl⟩ | ⟨msg, rest, hturn, rfl⟩⟩ := typedNext_cases hn
  · simp only [work, hs, OwnerPc.work]
    omega
  · have hlt := length_of_turn hturn
    simp only [work, hs, OwnerPc.work]
    omega

/-- The receiver goes on, between its calls. -/
theorem work_recvNext (hc : Control s) (hn : s.recvNext = some t) : t.work < s.work := by
  have hnotified := hc.not_running_of_notified
  unfold recvNext at hn
  split at hn <;> cases hn <;> rename_i hrecv
  · have hnotified := hnotified (by simp [hrecv])
    cases hrunning : s.running <;> cases hstop : s.stopAll <;> cases hn : s.notified <;>
      simp_all [work, RecvPc.work]
  · simp [work, hrecv, RecvPc.work]
  · simp [work, hrecv, RecvPc.work]

/-- A `read` returns. -/
theorem work_readNext {r : ReadResult} (hn : s.readNext r = some t) : t.work < s.work := by
  obtain ⟨events, shown, hrecv, -, rfl⟩ := readNext_eq hn
  simp [work, hrecv, RecvPc.work]

/-- Without the socket `epoll_wait` reports `notify_fd`. -/
theorem eq_notify {events : List Event} (hl : (ClientStep.wake events).external = false)
    (hne : events ≠ []) (hnodup : events.Nodup) : events = [.notify] := by
  have hall : ∀ e ∈ events, e = .notify := by
    intro e he
    cases e with
    | notify => rfl
    | sock => simp [ClientStep.external, he] at hl
  rw [List.eq_replicate_of_mem hall, List.nodup_replicate] at hnodup
  have hpos := List.length_pos_of_ne_nil hne
  rw [List.eq_replicate_of_mem hall, show events.length = 1 by omega]
  rfl

/-- **A step without anything from outside costs work.** -/
theorem work_lt (hc : Control s) (hl : l.external = false) (hn : s.next l = some t) :
    t.work < s.work := by
  cases l with
  | owner => exact work_ownerNext hc hn
  | typed => exact work_typedNext hn
  | recv => exact work_recvNext hc hn
  | read r => exact work_readNext hn
  | socket fd | epoll fd | eventfd fd =>
    simp only [next, Option.ite_none_right_eq_some, Option.map_eq_some_iff] at hn
    obtain ⟨hs, table, -, rfl⟩ := hn
    cases fd <;> simp [work, hs, OwnerPc.work]
  | connect ok =>
    simp only [next, Option.ite_none_right_eq_some, Option.some.injEq] at hn
    obtain ⟨hs, rfl⟩ := hn
    cases ok <;> simp [work, hs, OwnerPc.work]
  | wake events =>
    simp only [next, Option.ite_none_right_eq_some, Option.some.injEq] at hn
    obtain ⟨⟨hrecv, hne, hnodup, hiff⟩, rfl⟩ := hn
    obtain rfl := eq_notify hl hne hnodup
    have hnotified : s.notified = true := hiff.1 (by simp)
    simp [work, hrecv, hnotified, RecvPc.work]
  | sigpipe own | stopAgain | interrupted | epollFails | opens fd | closes fd => cases hl

/-! ### The standstill -/

/-- Neither of the two threads can go on. -/
def Standstill (s : ClientTCP) : Prop := ∀ l : ClientStep, l.external = false → s.next l = none

/-- `recv_loop` has ended, or waits for its server. -/
def RecvRests (s : ClientTCP) : Prop := s.recv = .ended ∨ s.recv = .waiting ∧ s.notified = false

/-- The step is one of `recv_loop`. -/
def byRecv : ClientStep → Bool
  | .recv | .wake _ | .read _ => true
  | _ => false

/-- Where `recv_loop` does not rest it can go on by itself. -/
theorem recvRests_of_none
    (h : ∀ l : ClientStep, byRecv l = true → l.external = false → s.next l = none) :
    RecvRests s := by
  have hrecv : s.recvNext = none := h .recv rfl rfl
  cases hs : s.recv with
  | ended => exact .inl hs
  | test => simp [recvNext, hs] at hrecv
  | waiting =>
    refine .inr ⟨hs, ?_⟩
    by_contra hnotified
    have hwake : s.next (.wake [.notify]) = none := h (.wake [.notify]) rfl rfl
    rw [next, if_pos ⟨hs, by simp, by simp, by simpa using hnotified⟩] at hwake
    cases hwake
  | batch events =>
    cases events with
    | nil => simp [recvNext, hs] at hrecv
    | cons e events =>
      cases e with
      | notify => simp [recvNext, hs] at hrecv
      | sock =>
        have hread : s.readNext .retry = none := h (.read .retry) rfl rfl
        simp [readNext, hs] at hread

/-- What `recv_loop` does where it rests comes from outside. -/
theorem RecvRests.next_eq_none (h : RecvRests s) (hl : byRecv l = true)
    (hint : l.external = false) : s.next l = none := by
  cases l with
  | recv => rcases h with hs | ⟨hs, -⟩ <;> simp [next, recvNext, hs]
  | read r => rcases h with hs | ⟨hs, -⟩ <;> simp [next, readNext, hs]
  | wake events =>
    refine if_neg ?_
    rintro ⟨hwaiting, hne, hnodup, hiff⟩
    rcases h with hs | ⟨-, hnotified⟩
    · simp [hs] at hwaiting
    · rw [eq_notify hint hne hnodup, hnotified] at hiff
      simp at hiff
  | _ => cases hl

/-- **The client stands still only at the end of `stop`**, or killed. -/
theorem standstill_iff (hc : Control s) :
    Standstill s ↔ s.owner = .stopped ∨ s.owner = .killed := by
  have hholds := hc.owner
  constructor
  · intro hstill
    have howner : s.ownerNext = none := hstill .owner rfl
    cases hs : s.owner with
    | stopped => exact .inl rfl
    | killed => exact .inr rfl
    | socket => simpa [next, hs] using hstill (.socket none) rfl
    | connect => simpa [next, hs] using hstill (.connect true) rfl
    | epoll => simpa [next, hs] using hstill (.epoll none) rfl
    | eventfd => simpa [next, hs] using hstill (.eventfd none) rfl
    | command =>
      have htyped : s.typedNext = none := hstill .typed rfl
      have hlines : s.lines ≠ [] := fun hlines => by simp [ownerNext, hs, hlines] at howner
      rw [typedNext, if_pos ⟨hs, hlines⟩] at htyped
      split at htyped <;> cases htyped
    | join =>
      simp only [hs, OwnerPc.Holds] at hholds
      rcases recvRests_of_none fun l _ hl => hstill l hl with hended | ⟨hwaiting, hnotified⟩
      · simp [ownerNext, hs, hended] at howner
      · simp [hholds.2 hwaiting] at hnotified
    | _ => simp [ownerNext, hs] at howner
  · intro hs l hl
    have hended : s.recv = .ended := by
      rcases hs with hs | hs <;> simp only [hs, OwnerPc.Holds] at hholds
      · exact hholds.2
      · exact hholds
    cases l with
    | recv | wake events | read r => exact RecvRests.next_eq_none (.inl hended) rfl hl
    | socket fd | connect ok | epoll fd | eventfd fd => rcases hs with hs | hs <;> simp [next, hs]
    | owner => rcases hs with hs | hs <;> simp [next, ownerNext, hs]
    | typed => rcases hs with hs | hs <;> simp [next, typedNext, hs]
    | sigpipe own | stopAgain | interrupted | epollFails | opens fd | closes fd => cases hl

/-- At the end of `stop` no descriptor is left open. -/
theorem table_of_stopped (hs : (clientLife lines).Reachable anyStep s)
    (hstopped : s.owner = .stopped) (fd : ℕ) : s.table fd ≠ some .mine := by
  intro hmine
  have hmem := ((ledger_of_reachable hs (by simp [hstopped])).mem fd).1 hmine
  simp [held, sockOpen, notifyOpen, epollOpen, hstopped] at hmem

/-- Without anything from outside no process is killed. -/
theorem owner_ne_killed_of_next (halive : s.owner ≠ .killed) (hl : l.external = false)
    (hn : s.next l = some t) : t.owner ≠ .killed := by
  cases l with
  | sigpipe own => cases hl
  | owner =>
    cases hs : s.owner <;> simp only [next, ownerNext, hs, Option.some.injEq, reduceCtorEq,
      Option.ite_none_right_eq_some] at hn <;> grind -ring -linarith
  | typed =>
    obtain ⟨-, -, ⟨-, rfl⟩ | ⟨msg, rest, -, rfl⟩⟩ := typedNext_cases hn <;> simp
  | recv =>
    simp only [next, recvNext] at hn
    split at hn <;> cases hn <;> exact halive
  | read r =>
    obtain ⟨events, shown, -, -, rfl⟩ := readNext_eq hn
    exact halive
  | socket fd | epoll fd | eventfd fd =>
    simp only [next, Option.ite_none_right_eq_some, Option.map_eq_some_iff] at hn
    obtain ⟨-, table, -, rfl⟩ := hn
    cases fd <;> simp
  | connect ok =>
    simp only [next, Option.ite_none_right_eq_some, Option.some.injEq] at hn
    obtain ⟨-, rfl⟩ := hn
    cases ok <;> simp
  | wake events =>
    simp only [next, Option.ite_none_right_eq_some, Option.some.injEq] at hn
    obtain ⟨-, rfl⟩ := hn
    exact halive
  | stopAgain | interrupted | epollFails | opens fd | closes fd => cases hl

/-- **A client always comes to the end of `stop`**, wherever `start` fails and whatever
its server does, unless `SIGPIPE` kills it: from every state it reaches the two threads
take no more steps than there is work left, they stand still only there, and no
descriptor is left open. -/
theorem client_stops (hs : (clientLife lines).Reachable anyStep s) :
    (∀ ls t, (∀ l ∈ ls, l.external = false) → (clientLife lines).run s ls = some t →
      ls.length ≤ s.work ∧ (Standstill t ↔ t.owner = .stopped ∨ t.owner = .killed) ∧
        (t.owner = .stopped → t.recv = .ended ∧ ∀ fd, t.table fd ≠ some .mine)) ∧
    (s.owner ≠ .killed → ∃ ls t, (∀ l ∈ ls, l.external = false) ∧
      (clientLife lines).run s ls = some t ∧ t.owner = .stopped) := by
  have hc := control_of_reachable hs
  have hnext : ∀ s t l, Control s → (clientLife lines).next s l = some t → Control t :=
    fun _ _ _ h hn => control_next h hn
  have hwork : ∀ s t l, Control s → l.external = false → (clientLife lines).next s l = some t →
      t.work < s.work := fun _ _ _ h hl hn => work_lt h hl hn
  constructor
  · intro ls t hls hrun
    have hlen := length_le_of_run hnext hwork hc hls hrun
    have hct := invariant_run hnext hc hrun
    refine ⟨by omega, standstill_iff hct, fun hstopped => ⟨?_, ?_⟩⟩
    · have hholds := hct.owner
      rw [hstopped] at hholds
      exact hholds.2
    · exact table_of_stopped (hs.of_run ls hrun) hstopped
  · intro halive
    obtain ⟨ls, t, hls, hrun, hstill⟩ := exists_standstill hnext hwork hc
    refine ⟨ls, t, hls, hrun, ?_⟩
    have halive : t.owner ≠ .killed :=
      invariant_run_of (P := fun s => s.owner ≠ .killed)
        (fun _ _ _ h hl hn => owner_ne_killed_of_next h hl hn) halive hls hrun
    exact ((standstill_iff (invariant_run hnext hc hrun)).1 hstill).resolve_right halive

/-- The lines of a session with two messages. -/
def aliceAsks : List Bytes := [text "login", text "Alice", text "query_units_data", text "exit"]

/-- The client connects, says its first command, and is back at its console. -/
def saysOne : List ClientStep :=
  [.socket (some 3), .connect true, .epoll (some 4), .eventfd (some 5), .owner, .owner, .typed,
    .owner]

/-- Alice has asked for her units: a `SIGPIPE` ends the process there, and without one it
comes to the end of `stop`. -/
theorem client_stops_aliceAsks : ∃ s : ClientTCP, s.sent.length = 1 ∧ s.owner = .command ∧
    (∃ t, s.next (.sigpipe true) = some t ∧ t.owner = .killed ∧ Standstill t) ∧
    (∀ ls t, (∀ l ∈ ls, l.external = false) → (clientLife aliceAsks).run s ls = some t →
      ls.length ≤ s.work ∧ (Standstill t ↔ t.owner = .stopped ∨ t.owner = .killed) ∧
        (t.owner = .stopped → t.recv = .ended ∧ ∀ fd, t.table fd ≠ some .mine)) ∧
    ∃ ls t, (∀ l ∈ ls, l.external = false) ∧
      (clientLife aliceAsks).run s ls = some t ∧ t.owner = .stopped := by
  have hstart : (clientLife aliceAsks).Reachable anyStep (blank aliceAsks) :=
    .init (isStart_blank aliceAsks)
  obtain ⟨s, hs, hp⟩ := hstart.exists_of_run saysOne
    (fun s => s.sent.length = 1 ∧ s.owner = .command ∧ s.sends = true) (fun _ _ _ => trivial)
    (by decide +kernel)
  obtain ⟨hsent, howner, hsends⟩ : s.sent.length = 1 ∧ s.owner = .command ∧ s.sends = true := by
    simpa using hp
  have hkilled : (clientLife aliceAsks).next s (.sigpipe true) =
      some { s with owner := .killed, recv := .ended } :=
    if_pos ⟨by simp [howner], fun _ => hsends⟩
  have hstill := (client_stops (hs.step trivial hkilled)).1 [] _ (by simp) rfl
  have hstops := client_stops hs
  exact ⟨s, hsent, howner, ⟨_, hkilled, rfl, hstill.2.1.2 (.inr rfl)⟩, hstops.1,
    hstops.2 (by simp [howner])⟩

/-! ### What it sends -/

/-- The messages are those of the lines read, and all of them if the console was not
left because of the server. -/
structure Typed (lines : List Bytes) (s : ClientTCP) : Prop where
  during : s.owner.typing = true → s.sent ++ run s.lines = run lines
  after : s.owner.typing = false →
    s.sent <+: run lines ∧ (s.owner ≠ .killed → s.serverOn = true → s.sent = run lines)

/-- Nothing is sent before `start_client`. -/
theorem typed_start (h : IsStart lines s) : Typed lines s := by
  obtain ⟨-, -, ⟨hlines, hsent, -⟩, -, howner, -⟩ := h
  exact ⟨fun _ => by rw [hsent, hlines]; rfl, by simp [howner, OwnerPc.typing, OwnerPc.starting]⟩

/-- A step beside the console. -/
theorem Typed.of_eq (h : Typed lines s) (hlines : t.lines = s.lines) (hsent : t.sent = s.sent)
    (howner : t.owner.typing = s.owner.typing) (halive : s.owner ≠ .killed)
    (hserver : s.owner.typing = false → t.serverOn = true → s.serverOn = true) :
    Typed lines t := by
  constructor
  · rw [hlines, hsent, howner]
    exact h.during
  · rw [hsent, howner]
    intro hs
    obtain ⟨hfirst, hall⟩ := h.after hs
    exact ⟨hfirst, fun _ ht => hall halive (hserver hs ht)⟩

/-- The console breaks off with nothing more to say. -/
theorem Typed.of_break (h : Typed lines s) (hs : s.owner = .command)
    (hrest : run s.lines = []) : Typed lines { s with owner := .setStopAll } := by
  have hduring := h.during (by rw [hs]; rfl)
  rw [hrest, List.append_nil] at hduring
  exact ⟨fun ht => (by cases ht), fun _ => ⟨by simp [hduring], fun _ _ => hduring⟩⟩

/-- A turn of the console sends its messages in order. -/
theorem typed_typedNext (hc : Control s) (h : Typed lines s) (hn : s.typedNext = some t) :
    Typed lines t := by
  obtain ⟨hs, -, ⟨hturn, rfl⟩ | ⟨msg, rest, hturn, rfl⟩⟩ := typedNext_cases hn
  · exact h.of_break hs (run_of_turn_eq_none hturn)
  · have hsock : s.sock.isSome = true := by
      have hholds := hc.owner
      rw [hs] at hholds
      exact hholds.elim hc.serverOn hc.epollFd
    have hduring := h.during (by rw [hs]; rfl)
    rw [run_of_turn hturn, ← List.append_assoc] at hduring
    exact ⟨fun _ => by simpa [hsock] using hduring, fun ht => by cases ht⟩

/-- The owner sends nothing beside the turns of the console. -/
theorem typed_ownerNext (h : Typed lines s) (hn : s.ownerNext = some t) : Typed lines t := by
  cases hs : s.owner <;> simp only [ownerNext, hs, Option.some.injEq, reduceCtorEq,
    Option.ite_none_right_eq_some] at hn
  case command =>
    obtain ⟨hlines, rfl⟩ := hn
    exact h.of_break hs (by rw [hlines]; exact run_of_turn_eq_none rfl)
  case check =>
    have hduring := h.during (by rw [hs]; rfl)
    subst hn
    cases hserver : s.serverOn with
    | true => exact ⟨fun _ => hduring, fun ht => by cases ht⟩
    | false =>
      exact ⟨fun ht => (by cases ht), fun _ => ⟨⟨_, hduring⟩, fun _ hon => by simp at hon⟩⟩
  case join =>
    obtain ⟨-, rfl⟩ := hn
    exact h.of_eq rfl rfl (by rw [hs]; rfl) (by simp [hs]) fun _ ht => ht
  case test =>
    subst hn
    refine h.of_eq rfl rfl ?_ (by simp [hs]) fun _ ht => ht
    cases s.closeAll <;> rw [hs] <;> rfl
  all_goals
    subst hn
    exact h.of_eq rfl rfl (by rw [hs]; rfl) (by simp [hs]) fun _ ht => ht

/-- **Every step keeps what was sent a prefix of what `run` says.** -/
theorem typed_next (hc : Control s) (h : Typed lines s) (hn : s.next l = some t) :
    Typed lines t := by
  have halive := hc.owner_ne_killed hn
  cases l with
  | owner => exact typed_ownerNext h hn
  | typed => exact typed_typedNext hc h hn
  | sigpipe own =>
    simp only [next, Option.ite_none_right_eq_some, Option.some.injEq] at hn
    obtain ⟨-, rfl⟩ := hn
    refine ⟨fun ht => (by cases ht), fun _ => ⟨?_, fun hne => absurd rfl hne⟩⟩
    cases hs : s.owner.typing with
    | true => exact ⟨_, h.during hs⟩
    | false => exact (h.after hs).1
  | recv =>
    simp only [next, recvNext] at hn
    split at hn <;> cases hn <;> exact h.of_eq rfl rfl rfl halive fun _ ht => ht
  | read r =>
    obtain ⟨events, shown, -, -, rfl⟩ := readNext_eq hn
    exact h.of_eq rfl rfl rfl halive fun _ ht => (Bool.and_eq_true_iff.1 ht).1
  | socket fd | epoll fd | eventfd fd =>
    simp only [next, Option.ite_none_right_eq_some, Option.map_eq_some_iff] at hn
    obtain ⟨hs, table, -, rfl⟩ := hn
    refine h.of_eq rfl rfl ?_ halive fun _ ht => ht
    cases fd <;> rw [hs] <;> rfl
  | connect ok =>
    simp only [next, Option.ite_none_right_eq_some, Option.some.injEq] at hn
    obtain ⟨hs, rfl⟩ := hn
    cases ok <;> refine h.of_eq rfl rfl (by rw [hs]; rfl) halive (by simp [hs, OwnerPc.typing,
      OwnerPc.starting])
  | stopAgain =>
    simp only [next, Option.ite_none_right_eq_some, Option.some.injEq] at hn
    obtain ⟨hs, rfl⟩ := hn
    refine h.of_eq rfl rfl ?_ halive fun _ ht => ht
    cases s.closeAll <;> rw [hs] <;> rfl
  | wake events | interrupted | epollFails | opens fd | closes fd =>
    simp only [next, Option.ite_none_right_eq_some, Option.some.injEq] at hn
    obtain ⟨-, rfl⟩ := hn
    exact h.of_eq rfl rfl rfl halive fun _ ht => ht

/-- What was sent is what `run` says of the lines that were typed. -/
theorem typed_of_reachable (hs : (clientLife lines).Reachable anyStep s) : Typed lines s :=
  hs.invariant_with (fun _ hr => control_of_reachable hr) (fun _ hinit => typed_start hinit)
    fun _ _ _ hc h _ hn => typed_next hc h hn

/-! ### What it prints -/

/-- After a read that ends the loop nothing is read. -/
def Over (s : ClientTCP) : Prop :=
  (∃ r ∈ s.reads, r = .eof ∨ r = .error) →
    s.running = false ∧ s.recv ≠ .waiting ∧ ∀ events, s.recv = .batch events → .sock ∉ events

/-- What is printed is what the loop prints for the reads. -/
structure Printed (s : ClientTCP) : Prop where
  printed : recvLoop s.reads = .ok s.printed
  starting : s.owner.starting = true → s.reads = []
  nodup : ∀ events, s.recv = .batch events → events.Nodup
  ending : Over s

/-- A read after others that end nothing adds its texts to theirs. -/
theorem recvLoop_concat {reads : List ReadResult} {r : ReadResult} {texts shown : List Bytes}
    (hreads : ∀ r ∈ reads, r ≠ .eof ∧ r ≠ .error) (htexts : recvLoop reads = .ok texts)
    (hshown : recvLoop [r] = .ok shown) : recvLoop (reads ++ [r]) = .ok (texts ++ shown) := by
  induction reads generalizing texts with
  | nil =>
    obtain rfl : [] = texts := Except.ok.inj htexts
    exact hshown
  | cons a reads ih =>
    have ih : ∀ texts, recvLoop reads = .ok texts →
        recvLoop (reads ++ [r]) = .ok (texts ++ shown) :=
      fun texts => @ih texts fun r hr => hreads r (.tail a hr)
    cases a with
    | data msg =>
      rcases hmsg : received msg with e | first
      · simp [recvLoop, hmsg, bind, Except.bind] at htexts
      · rcases hrest : recvLoop reads with e | rest
        · simp [recvLoop, hmsg, hrest, bind, Except.bind] at htexts
        · obtain rfl : first.toList ++ rest = texts := by
            simpa [recvLoop, hmsg, hrest, bind, Except.bind, pure, Except.pure] using htexts
          rw [List.cons_append, recvLoop, hmsg, ih rest hrest, List.append_assoc]
          rfl
    | retry => exact ih texts htexts
    | eof => exact absurd rfl (hreads .eof List.mem_cons_self).1
    | error => exact absurd rfl (hreads .error List.mem_cons_self).2

/-- Nothing is printed before the first read. -/
theorem printed_start (h : IsStart lines s) : Printed s := by
  obtain ⟨-, -, ⟨-, -, hreads, hprinted⟩, -, howner, hrecv⟩ := h
  refine ⟨by rw [hreads, hprinted]; rfl, fun _ => hreads, by simp [hrecv], ?_⟩
  simp [Over, hreads]

/-- A step of `main` does not read. -/
theorem Printed.of_owner (h : Printed s) (hreads : t.reads = s.reads)
    (hprinted : t.printed = s.printed) (hrecv : t.recv = s.recv)
    (howner : t.owner.starting = true → s.owner.starting = true)
    (hrunning : s.running = false → t.running = false) : Printed t := by
  refine ⟨by rw [hreads, hprinted]; exact h.printed, ?_, by rw [hrecv]; exact h.nodup, ?_⟩
  · rw [hreads]
    exact fun ht => h.starting (howner ht)
  · rw [Over, hreads, hrecv]
    intro hover
    obtain ⟨hs, hrest⟩ := h.ending hover
    exact ⟨hrunning hs, hrest⟩

/-- The owner prints nothing. -/
theorem printed_ownerNext (h : Printed s) (hn : s.ownerNext = some t) : Printed t := by
  cases hs : s.owner <;> simp only [ownerNext, hs, Option.some.injEq, reduceCtorEq,
    Option.ite_none_right_eq_some] at hn
  case thread =>
    have hreads := h.starting (by rw [hs]; rfl)
    subst hn
    exact ⟨h.printed, fun ht => (by cases ht), fun _ he => (by cases he), by simp [Over, hreads]⟩
  case check =>
    subst hn
    refine h.of_owner rfl rfl rfl ?_ id
    cases s.serverOn <;> exact fun ht => by cases ht
  case test =>
    subst hn
    refine h.of_owner rfl rfl rfl ?_ id
    cases s.closeAll <;> exact fun ht => by cases ht
  case command | join =>
    obtain ⟨-, rfl⟩ := hn
    exact h.of_owner rfl rfl rfl (fun ht => by cases ht) id
  case clearRunning =>
    subst hn
    exact h.of_owner rfl rfl rfl (fun ht => by cases ht) fun _ => rfl
  all_goals
    subst hn
    exact h.of_owner rfl rfl rfl (fun ht => by cases ht) id

/-- Between two reads nothing is printed. -/
theorem printed_recvNext (h : Printed s) (hn : s.recvNext = some t) : Printed t := by
  have hover := h.ending
  unfold recvNext at hn
  split at hn <;> cases hn <;> rename_i hrecv
  · refine ⟨h.printed, h.starting, ?_, ?_⟩
    · intro events he
      cases hrunning : s.running <;> cases hstop : s.stopAll <;> simp_all
    · intro hex
      obtain ⟨hrunning, -⟩ := hover hex
      simp [hrunning]
  · refine ⟨h.printed, h.starting, fun _ he => (by cases he), ?_⟩
    intro hex
    exact ⟨(hover hex).1, by simp, fun _ he => by cases he⟩
  · rename_i events
    refine ⟨h.printed, h.starting, ?_, ?_⟩
    · intro events' he
      cases he
      exact (List.nodup_cons.1 (h.nodup _ hrecv)).2
    · intro hex
      obtain ⟨hrunning, -, hsock⟩ := hover hex
      refine ⟨hrunning, by simp, ?_⟩
      intro events' he hmem
      cases he
      exact hsock _ hrecv (.tail _ hmem)

/-- A read prints what `recv_loop` makes of it. -/
theorem printed_readNext (hc : Control s) (h : Printed s) {r : ReadResult}
    (hn : s.readNext r = some t) : Printed t := by
  obtain ⟨events, shown, hrecv, hshown, rfl⟩ := readNext_eq hn
  obtain ⟨hsock, hnodup⟩ := List.nodup_cons.1 (h.nodup _ hrecv)
  have hgo : ∀ r ∈ s.reads, r ≠ .eof ∧ r ≠ .error := by
    intro r hr
    by_contra hends
    rw [not_and_or, not_not, not_not] at hends
    exact (h.ending ⟨r, hr, hends⟩).2.2 _ hrecv List.mem_cons_self
  refine ⟨recvLoop_concat hgo h.printed hshown, ?_, ?_, ?_⟩
  · intro hstart
    have hholds := hc.owner
    cases hs : s.owner <;> simp_all [OwnerPc.starting, OwnerPc.Holds]
  · intro events' he
    cases he
    exact hnodup
  · rintro ⟨r', hr', hends⟩
    have hr : r = .eof ∨ r = .error := by
      rcases List.mem_append.1 hr' with hr' | hr'
      · exact absurd hends (not_or.2 (hgo r' hr'))
      · rwa [List.mem_singleton.1 hr'] at hends
    refine ⟨?_, by simp, ?_⟩
    · rcases hr with rfl | rfl <;> simp
    · intro events' he
      cases he
      exact hsock

/-- **Every step keeps the printed texts those of the reads.** -/
theorem printed_next (hc : Control s) (h : Printed s) (hn : s.next l = some t) : Printed t := by
  cases l with
  | owner => exact printed_ownerNext h hn
  | typed =>
    obtain ⟨-, -, ⟨-, rfl⟩ | ⟨msg, rest, -, rfl⟩⟩ := typedNext_cases hn <;>
      exact h.of_owner rfl rfl rfl (fun ht => by cases ht) id
  | sigpipe own =>
    simp only [next, Option.ite_none_right_eq_some, Option.some.injEq] at hn
    obtain ⟨-, rfl⟩ := hn
    exact ⟨h.printed, fun ht => (by cases ht), fun _ he => (by cases he),
      fun hex => ⟨(h.ending hex).1, by simp, fun _ he => by cases he⟩⟩
  | recv => exact printed_recvNext h hn
  | read r => exact printed_readNext hc h hn
  | socket fd | epoll fd | eventfd fd =>
    simp only [next, Option.ite_none_right_eq_some, Option.map_eq_some_iff] at hn
    obtain ⟨hs, table, -, rfl⟩ := hn
    exact h.of_owner rfl rfl rfl (fun _ => by rw [hs]; rfl) id
  | connect ok =>
    simp only [next, Option.ite_none_right_eq_some, Option.some.injEq] at hn
    obtain ⟨hs, rfl⟩ := hn
    cases ok <;> exact h.of_owner rfl rfl rfl (fun _ => by rw [hs]; rfl) id
  | stopAgain =>
    simp only [next, Option.ite_none_right_eq_some, Option.some.injEq] at hn
    obtain ⟨hs, rfl⟩ := hn
    refine h.of_owner rfl rfl rfl ?_ id
    cases s.closeAll <;> exact fun ht => by cases ht
  | wake events =>
    simp only [next, Option.ite_none_right_eq_some, Option.some.injEq] at hn
    obtain ⟨⟨hrecv, -, hnodup, -⟩, rfl⟩ := hn
    refine ⟨h.printed, h.starting, ?_, fun hex => absurd hrecv (h.ending hex).2.1⟩
    intro events' he
    cases he
    exact hnodup
  | interrupted =>
    simp only [next, Option.ite_none_right_eq_some, Option.some.injEq] at hn
    obtain ⟨hrecv, rfl⟩ := hn
    exact ⟨h.printed, h.starting, fun _ he => (by cases he),
      fun hex => absurd hrecv (h.ending hex).2.1⟩
  | epollFails =>
    simp only [next, Option.ite_none_right_eq_some, Option.some.injEq] at hn
    obtain ⟨hrecv, rfl⟩ := hn
    exact ⟨h.printed, h.starting, fun _ he => (by cases he),
      fun hex => absurd hrecv (h.ending hex).2.1⟩
  | opens fd | closes fd =>
    simp only [next, Option.ite_none_right_eq_some, Option.some.injEq] at hn
    obtain ⟨-, rfl⟩ := hn
    exact h.of_owner rfl rfl rfl id id

/-- What is printed is what `recv_loop` makes of the reads. -/
theorem printed_of_reachable (hs : (clientLife lines).Reachable anyStep s) : Printed s :=
  hs.invariant_with (fun _ hr => control_of_reachable hr) (fun _ hinit => printed_start hinit)
    fun _ _ _ hc h _ hn => printed_next hc h hn

/-- A server that is down was never there, or has closed the connection. -/
def Down (s : ClientTCP) : Prop := s.serverOn = false → s.epollFd = none ∨ .eof ∈ s.reads

/-- **`server_on` falls with a failed connection or an end of the input.** -/
theorem down_next (hc : Control s) (h : Down s) (hn : s.next l = some t) : Down t := by
  have hholds := hc.owner
  cases l with
  | owner =>
    cases hs : s.owner <;> simp only [next, ownerNext, hs, Option.some.injEq, reduceCtorEq,
      Option.ite_none_right_eq_some] at hn
    case command | join =>
      obtain ⟨-, rfl⟩ := hn
      exact h
    all_goals
      subst hn
      exact h
  | recv =>
    simp only [next, recvNext] at hn
    split at hn <;> cases hn <;> exact h
  | read r =>
    obtain ⟨events, shown, -, -, rfl⟩ := readNext_eq hn
    intro hdown
    cases hserver : s.serverOn with
    | false => exact (h hserver).imp_right fun hmem => List.mem_append_left _ hmem
    | true =>
      obtain rfl : r = .eof := by simpa [hserver] using hdown
      exact .inr (by simp)
  | socket fd | epoll fd | eventfd fd =>
    simp only [next, Option.ite_none_right_eq_some, Option.map_eq_some_iff] at hn
    obtain ⟨hs, table, -, rfl⟩ := hn
    simp only [hs, OwnerPc.Holds] at hholds
    simp_all [Down]
  | connect ok =>
    simp only [next, Option.ite_none_right_eq_some, Option.some.injEq] at hn
    obtain ⟨hs, rfl⟩ := hn
    cases ok <;> first | exact h | exact fun ht => by cases ht
  | typed =>
    obtain ⟨-, -, ⟨-, rfl⟩ | ⟨msg, rest, -, rfl⟩⟩ := typedNext_cases hn <;> exact h
  | sigpipe own | stopAgain | wake events | interrupted | epollFails | opens fd | closes fd =>
    simp only [next, Option.ite_none_right_eq_some, Option.some.injEq] at hn
    obtain ⟨-, rfl⟩ := hn
    exact h

/-- Where `server_on` is off, one of the two has been. -/
theorem down_of_reachable (hs : (clientLife lines).Reachable anyStep s) : Down s :=
  hs.invariant_with (fun _ hr => control_of_reachable hr)
    (fun _ hinit _ => .inl hinit.fds.2.1) fun _ _ _ hc h _ hn => down_next hc h hn

/-- **What the client says**: at every moment its messages are the first ones of
`ConsoleClient::run` on its lines, at the end all of them unless the server has closed
the connection or was never there, and it has printed what `recv_loop` prints for its
reads. -/
theorem client_says (hs : (clientLife lines).Reachable anyStep s) :
    s.sent <+: run lines ∧
      (s.owner = .stopped → s.serverOn = true → s.sent = run lines) ∧
      (s.serverOn = false → s.epollFd = none ∨ .eof ∈ s.reads) ∧
      recvLoop s.reads = .ok s.printed := by
  have htyped := typed_of_reachable hs
  refine ⟨?_, ?_, down_of_reachable hs, (printed_of_reachable hs).printed⟩
  · cases hs : s.owner.typing with
    | true => exact ⟨_, htyped.during hs⟩
    | false => exact (htyped.after hs).1
  · intro hstopped
    exact (htyped.after (by rw [hstopped]; rfl)).2 (by simp [hstopped])

/-- The lines of a session, of which the client sends one message. -/
def aliceLogsIn : List Bytes := [text "login", text "Alice", text "exit"]

/-- The server answers `aliceLogsIn` with nothing and goes down. -/
def serverGoesDown : List ClientStep :=
  [.socket (some 3), .connect true, .epoll (some 4), .eventfd (some 5), .owner, .owner, .typed,
    .recv, .wake [.sock], .read .eof, .owner]

/-- Alice has logged in and is on her way out. -/
theorem client_says_alice : ∃ s : ClientTCP, s.sent.length = 1 ∧ s.owner = .setStopAll ∧
    s.sent <+: run aliceLogsIn ∧
      (s.owner = .stopped → s.serverOn = true → s.sent = run aliceLogsIn) ∧
      (s.serverOn = false → s.epollFd = none ∨ .eof ∈ s.reads) ∧
      recvLoop s.reads = .ok s.printed := by
  have hstart : (clientLife aliceLogsIn).Reachable anyStep (blank aliceLogsIn) :=
    .init (isStart_blank aliceLogsIn)
  obtain ⟨s, hs, hp⟩ := hstart.exists_of_run serverGoesDown
    (fun s => s.sent.length = 1 ∧ s.owner = .setStopAll) (fun _ _ _ => trivial) (by decide +kernel)
  obtain ⟨hsent, howner⟩ : s.sent.length = 1 ∧ s.owner = .setStopAll := by simpa using hp
  exact ⟨s, hsent, howner, client_says hs⟩

end ClientTCP

end Client
end WeakAyas
