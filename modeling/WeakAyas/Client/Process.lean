/-
# The client as a process

`main` of `Weak_ayas_client` (`Weak_ayas_client.cpp`, lines 64-124): a loop around a
`ClientTCP` and its console, which waits for the ready flag of the server, connects,
runs the console, stops, and starts over.  The standard input goes on from one
connection to the next, and `stop_all` of the client is `g_stop_flag`.

Over all connections every command is sent once, in the order of the input, and of the
commands of a connection at most the last one after the client has read that its server
is gone (`says_once`).  Neither `exit` nor the end of the input ends the process: it
ends with a signal, `SIGPIPE` included, or where `start` fails (`process_ends`).  Else it
rests only in `getline`, for lines that are still to come: a signal does not wake it.
-/

import WeakAyas.Client.Ending

namespace WeakAyas
namespace Client

open TransitionSystem

/-! ### The input over several consoles -/

/-- The lines that `ConsoleClient::run` leaves where it breaks off. -/
def afterBreak : List Bytes → List Bytes
  | [] => []
  | cmd :: lines =>
    if cmd == text "exit" then lines
    else match Command.all.find? (·.name == cmd) with
      | none => lines
      | some c => (ask c.prompts lines).2

/-- A break uses up a line. -/
theorem length_afterBreak_lt {cmd : Bytes} {lines : List Bytes} :
    (afterBreak (cmd :: lines)).length < (cmd :: lines).length := by
  rw [afterBreak]
  split
  · exact Nat.lt_succ_self _
  · split
    · exact Nat.lt_succ_self _
    · exact Nat.lt_succ_of_le (length_ask_le _ lines)

/-- The messages of consoles that go on with the input where the last one broke off. -/
def conversation : List Bytes → List Bytes
  | [] => []
  | cmd :: lines => match _h : turn (cmd :: lines) with
    | none => conversation (afterBreak (cmd :: lines))
    | some (msg, rest) => msg.toList ++ conversation rest
termination_by lines => lines.length
decreasing_by
  · exact length_afterBreak_lt
  · exact length_of_turn _h

/-- A command's message comes before the rest of the conversation. -/
theorem conversation_of_turn {lines rest : List Bytes} {msg : Option Bytes}
    (h : turn lines = some (msg, rest)) :
    conversation lines = msg.toList ++ conversation rest := by
  cases lines with
  | nil => cases h
  | cons cmd lines =>
    rw [conversation]
    split
    · rename_i hnone
      rw [h] at hnone
      cases hnone
    · rename_i hsome
      rw [h] at hsome
      cases hsome
      rfl

/-- Where a console breaks off, the conversation goes on behind the break. -/
theorem conversation_afterBreak {lines : List Bytes} (h : turn lines = none) :
    conversation (afterBreak lines) = conversation lines := by
  cases lines with
  | nil => rfl
  | cons cmd lines =>
    rw [conversation.eq_def (cmd :: lines)]
    simp only
    split
    · rfl
    · rename_i hsome
      rw [h] at hsome
      cases hsome

/-! ### The process -/

/-- `main` outside of its client: the test of the loop, the wait for the ready flag, the
test behind the console, and the end with its result. -/
inductive ProcessPc where
  | test
  | ready
  | client
  | again
  | returned (ok : Bool)
  deriving DecidableEq, Repr

/-- A connection that is over: its messages, and those of them that were sent after the
client had read that the server is gone. -/
structure Connection where
  sent : List Bytes
  late : List Bytes
  deriving DecidableEq, Repr

/-- The process: its client, whether `start` has failed, the late messages of the
connection, and the connections that are over. -/
structure ClientProcess where
  pc : ProcessPc
  tcp : ClientTCP
  failed : Bool
  late : List Bytes
  past : List Connection

/-- The steps: of `main` outside of its client, the end of the wait for the ready flag
with what `remove` returned last, the steps in the client, and a signal. -/
inductive ProcessStep where
  | main
  | ready (removed : Bool)
  | client (l : ClientStep)
  | signal
  deriving DecidableEq, Repr

/-- The step comes from outside of the process, as do the lines of its console. -/
def ProcessStep.external : ProcessStep → Bool
  | .ready removed => removed
  | .client .typed => true
  | .client l => l.external
  | .signal => true
  | .main => false

/-- The step is a call of `start` that fails. -/
def ProcessStep.failing : ProcessStep → Bool
  | .client (.socket none) | .client (.connect false) | .client (.epoll none)
  | .client (.eventfd none) => true
  | _ => false

namespace ClientTCP

/-- Another client of the same process. -/
def another (s : ClientTCP) : ClientTCP :=
  { s with
    sock := none, epollFd := none, notifyFd := none
    running := false, serverOn := false, closeAll := false, notified := false
    sent := [], reads := [], printed := []
    owner := .socket, recv := .ended }

end ClientTCP

namespace ClientProcess

/-- A step of `main` in its client.  Without a thread `start` has returned false, and
`main` leaves through the destructor; `run` leaves to `stop`. -/
def ownerNext (p : ClientProcess) : Option ClientProcess :=
  match p.tcp.owner with
  | .check =>
    if p.tcp.notifyFd.isNone then
      some { p with failed := true, tcp := { p.tcp with owner := .test } }
    else
      some { p with
        tcp := { p.tcp with owner := if p.tcp.serverOn then .command else .test } }
  | .command =>
    if p.tcp.lines = [] then some { p with tcp := { p.tcp with owner := .test } } else none
  | .stopped =>
    some { p with
      pc := if p.failed then .returned false else .again
      tcp := p.tcp.another
      late := []
      past := p.past ++ [⟨p.tcp.sent, p.late⟩] }
  | _ => p.tcp.ownerNext.map fun tcp => { p with tcp := tcp }

/-- The command that `run` has read. -/
def typedNext (p : ClientProcess) : Option ClientProcess :=
  if p.tcp.owner = .command ∧ p.tcp.lines ≠ [] then
    match turn p.tcp.lines with
    | none =>
      some { p with tcp := { p.tcp with lines := afterBreak p.tcp.lines, owner := .test } }
    | some (msg, _) => p.tcp.typedNext.map fun tcp =>
      { p with tcp := tcp, late := p.late ++ if p.tcp.serverOn then [] else msg.toList }
  else none

def next (p : ClientProcess) : ProcessStep → Option ClientProcess
  | .main => match p.pc with
    | .test => some { p with pc := if p.tcp.stopAll then .returned true else .ready }
    | .again => some { p with pc := if p.tcp.stopAll then .returned true else .test }
    | .ready | .client | .returned _ => none
  | .ready _ => if p.pc = .ready then some { p with pc := .client } else none
  | .client .owner => if p.pc = .client then p.ownerNext else none
  | .client .typed => if p.pc = .client then p.typedNext else none
  | .client (.sigpipe false) => none  -- no other thread writes
  | .client l =>
    if p.pc = .client then (p.tcp.next l).map fun tcp => { p with tcp := tcp } else none
  | .signal =>
    if p.tcp.owner = .killed then none else some { p with tcp := { p.tcp with stopAll := true } }

/-- A process before `main`. -/
structure IsStart (lines : List Bytes) (p : ClientProcess) : Prop where
  tcp : p.tcp.IsStart lines
  stopAll : p.tcp.stopAll = false
  data : p.pc = .test ∧ p.failed = false ∧ p.late = [] ∧ p.past = []

end ClientProcess

/-- The runs of a client process with these lines on its standard input. -/
def clientProcess (lines : List Bytes) : TransitionSystem ClientProcess ProcessStep where
  init := ClientProcess.IsStart lines
  next := ClientProcess.next

namespace ClientTCP

variable {s t : ClientTCP} {l : ClientStep}

/-- Without a command nothing is said or typed, the console opens while the server is
there only, and a server that is gone does not come back. -/
theorem frame_next (hn : s.next l = some t) (htyped : l ≠ .typed) :
    t.sent = s.sent ∧ t.lines = s.lines ∧ (t.owner.starting = true → s.owner.starting = true) ∧
      (t.owner = .command → s.owner = .command ∨ s.serverOn = true) ∧
      (s.owner.starting = false → t.serverOn = true → s.serverOn = true) := by
  cases l with
  | owner =>
    cases hs : s.owner <;> simp only [next, ownerNext, hs, Option.some.injEq, reduceCtorEq,
      Option.ite_none_right_eq_some] at hn
    all_goals
      try obtain ⟨hguard, rfl⟩ := hn
      try subst hn
      refine ⟨rfl, rfl, ?_, ?_, fun _ ht => ht⟩ <;> grind -ring -linarith [OwnerPc.starting]
  | typed => exact absurd rfl htyped
  | sigpipe own =>
    simp only [next, Option.ite_none_right_eq_some, Option.some.injEq] at hn
    obtain ⟨-, rfl⟩ := hn
    exact ⟨rfl, rfl, fun hs => (by cases hs), fun hs => (by cases hs), fun _ => id⟩
  | recv =>
    simp only [next, recvNext] at hn
    split at hn <;> cases hn <;> exact ⟨rfl, rfl, id, .inl, fun _ => id⟩
  | read r =>
    obtain ⟨events, shown, -, -, rfl⟩ := readNext_eq hn
    exact ⟨rfl, rfl, id, .inl, fun _ ht => (Bool.and_eq_true_iff.1 ht).1⟩
  | socket fd | epoll fd | eventfd fd =>
    simp only [next, Option.ite_none_right_eq_some, Option.map_eq_some_iff] at hn
    obtain ⟨hs, table, -, rfl⟩ := hn
    have hstarting : s.owner.starting = true := by rw [hs]; rfl
    refine ⟨rfl, rfl, fun _ => hstarting, ?_, fun hfalse => absurd hstarting (by simp [hfalse])⟩
    cases fd <;> simp
  | connect ok =>
    simp only [next, Option.ite_none_right_eq_some, Option.some.injEq] at hn
    obtain ⟨hs, rfl⟩ := hn
    have hstarting : s.owner.starting = true := by rw [hs]; rfl
    cases ok <;>
      exact ⟨rfl, rfl, fun _ => hstarting, by simp,
        fun hfalse => absurd hstarting (by simp [hfalse])⟩
  | stopAgain =>
    simp only [next, Option.ite_none_right_eq_some, Option.some.injEq] at hn
    obtain ⟨hs, rfl⟩ := hn
    refine ⟨rfl, rfl, ?_, ?_, fun _ ht => ht⟩ <;> cases s.closeAll <;> simp [OwnerPc.starting]
  | wake events | interrupted | epollFails | opens fd | closes fd =>
    simp only [next, Option.ite_none_right_eq_some, Option.some.injEq] at hn
    obtain ⟨-, rfl⟩ := hn
    exact ⟨rfl, rfl, id, .inl, fun _ => id⟩

end ClientTCP

namespace ClientProcess

variable {p q : ClientProcess} {l : ProcessStep} {lines : List Bytes}

/-- The other steps in the client are its own. -/
theorem next_client {k : ClientStep} (hk : k ≠ .owner ∧ k ≠ .typed ∧ k ≠ .sigpipe false) :
    p.next (.client k) =
      if p.pc = .client then (p.tcp.next k).map fun tcp => { p with tcp := tcp } else none := by
  obtain ⟨howner, htyped, hother⟩ := hk
  cases k with
  | owner => exact absurd rfl howner
  | typed => exact absurd rfl htyped
  | sigpipe own => cases own <;> first | exact absurd rfl hother | rfl
  | _ => rfl

/-- What a step of `main` in its client does. -/
theorem ownerNext_cases (hn : p.ownerNext = some q) :
    (p.tcp.owner = .check ∧ p.tcp.notifyFd = none ∧
      q = { p with failed := true, tcp := { p.tcp with owner := .test } }) ∨
    (p.tcp.owner = .check ∧ p.tcp.notifyFd.isSome = true ∧
      q = { p with tcp := { p.tcp with owner := if p.tcp.serverOn then .command else .test } }) ∨
    (p.tcp.owner = .command ∧ p.tcp.lines = [] ∧
      q = { p with tcp := { p.tcp with owner := .test } }) ∨
    (p.tcp.owner = .stopped ∧
      q = { p with
        pc := if p.failed then .returned false else .again
        tcp := p.tcp.another
        late := []
        past := p.past ++ [⟨p.tcp.sent, p.late⟩] }) ∨
    (p.tcp.owner ≠ .check ∧ p.tcp.owner ≠ .command ∧
      ∃ t, p.tcp.next .owner = some t ∧ q = { p with tcp := t }) := by
  cases hs : p.tcp.owner <;> simp only [ownerNext, hs] at hn
  case check =>
    split at hn <;> cases hn
    · rename_i hnone
      exact .inl ⟨rfl, Option.isNone_iff_eq_none.1 hnone, rfl⟩
    · rename_i hsome
      exact .inr (.inl ⟨rfl, by simpa [Option.isSome_iff_ne_none] using hsome, rfl⟩)
  case command =>
    simp only [Option.ite_none_right_eq_some, Option.some.injEq] at hn
    exact .inr (.inr (.inl ⟨rfl, hn.1, hn.2.symm⟩))
  case stopped =>
    cases hn
    exact .inr (.inr (.inr (.inl ⟨rfl, rfl⟩)))
  all_goals
    obtain ⟨t, ht, rfl⟩ := Option.map_eq_some_iff.1 hn
    exact .inr (.inr (.inr (.inr ⟨by simp, by simp, t, ht, rfl⟩)))

/-- What a command does: the console is left for `stop`, or `main` goes on as in its
client. -/
theorem typedNext_cases (hn : p.typedNext = some q) : p.tcp.owner = .command ∧
    ((turn p.tcp.lines = none ∧
      q = { p with tcp := { p.tcp with lines := afterBreak p.tcp.lines, owner := .test } }) ∨
    ∃ msg rest t, turn p.tcp.lines = some (msg, rest) ∧ p.tcp.next .typed = some t ∧
      t = { p.tcp with
        sent := p.tcp.sent ++ (if p.tcp.sock.isSome then msg.toList else [])
        lines := rest
        owner := .check } ∧
      q = { p with tcp := t, late := p.late ++ if p.tcp.serverOn then [] else msg.toList }) := by
  rw [typedNext, Option.ite_none_right_eq_some] at hn
  obtain ⟨⟨hs, hlines⟩, hn⟩ := hn
  refine ⟨hs, ?_⟩
  split at hn
  · rename_i hturn
    cases hn
    exact .inl ⟨hturn, rfl⟩
  · rename_i msg rest hturn
    obtain ⟨t, ht, rfl⟩ := Option.map_eq_some_iff.1 hn
    have heq := ht
    rw [ClientTCP.typedNext, if_pos ⟨hs, hlines⟩, hturn] at heq
    exact .inr ⟨msg, rest, t, hturn, ht, (Option.some.inj heq).symm, rfl⟩

/-- What a step does: `main` outside of its client, in it, a command, its client, or the
flag. -/
theorem next_cases (hn : p.next l = some q) :
    (p.pc ≠ .client ∧ (q.pc = .returned true → p.tcp.stopAll = true) ∧
      (∀ ok, p.pc ≠ .returned ok) ∧ q.pc ≠ .returned false ∧ q = { p with pc := q.pc }) ∨
    (l = .client .owner ∧ p.pc = .client ∧ p.ownerNext = some q) ∨
    (l = .client .typed ∧ p.pc = .client ∧ p.typedNext = some q) ∨
    (∃ k t, l = .client k ∧ (k ≠ .owner ∧ k ≠ .typed ∧ k ≠ .sigpipe false) ∧ p.pc = .client ∧
      p.tcp.next k = some t ∧ q = { p with tcp := t }) ∨
    (l = .signal ∧ p.tcp.owner ≠ .killed ∧
      q = { p with tcp := { p.tcp with stopAll := true } }) := by
  cases l with
  | main =>
    cases hpc : p.pc <;> simp only [next, hpc, reduceCtorEq, Option.some.injEq] at hn <;>
      subst hn <;> cases p.tcp.stopAll <;> simp
  | ready removed =>
    simp only [next, Option.ite_none_right_eq_some, Option.some.injEq] at hn
    obtain ⟨hpc, rfl⟩ := hn
    exact .inl ⟨by simp [hpc], by simp, by simp [hpc], by simp, rfl⟩
  | client k =>
    by_cases hk : k = .owner ∨ k = .typed ∨ k = .sigpipe false
    · rcases hk with rfl | rfl | rfl
      · rw [next, Option.ite_none_right_eq_some] at hn
        exact .inr (.inl ⟨rfl, hn⟩)
      · rw [next, Option.ite_none_right_eq_some] at hn
        exact .inr (.inr (.inl ⟨rfl, hn⟩))
      · cases hn
    · rw [not_or, not_or] at hk
      rw [next_client hk, Option.ite_none_right_eq_some, Option.map_eq_some_iff] at hn
      obtain ⟨hpc, t, ht, rfl⟩ := hn
      exact .inr (.inr (.inr (.inl ⟨k, t, rfl, hk, hpc, ht, rfl⟩)))
  | signal =>
    simp only [next, Option.ite_none_left_eq_some, Option.some.injEq] at hn
    exact .inr (.inr (.inr (.inr ⟨rfl, hn.1, hn.2.symm⟩)))

/-! ### What holds of its clients -/

/-- The client is in order, and outside of `client` there is a new one. -/
structure Ordered (p : ClientProcess) : Prop where
  control : p.tcp.Control
  ledger : p.tcp.owner ≠ .killed → p.tcp.Ledger
  outside : p.pc ≠ .client → p.tcp.owner = .socket

/-- A client that `main` leaves for `stop` is in order. -/
theorem control_leave {s : ClientTCP} (lines : List Bytes) (hc : s.Control) (hs : s.Ledger)
    (howner : s.owner = .check ∨ s.owner = .command) :
    ({ s with lines := lines, owner := .test } : ClientTCP).Control ∧
      ({ s with lines := lines, owner := .test } : ClientTCP).Ledger := by
  have hstopping : s.owner.stopping = false := by rcases howner with h | h <;> rw [h] <;> rfl
  have htold : s.owner.told = false := by rcases howner with h | h <;> rw [h] <;> rfl
  refine ⟨⟨hc.notifyFd, hc.epollFd, hc.serverOn, hc.recv, ?_, ?_, trivial⟩, hs.of_eq rfl ?_⟩
  · have halive : s.owner ≠ .killed := by rcases howner with h | h <;> simp [h]
    exact fun _ => (hc.closeAll halive).trans hstopping
  · intro hnotified
    have hnow := hc.notified hnotified
    rw [htold] at hnow
    cases hnow
  · rcases howner with h | h <;>
      simp [ClientTCP.held, ClientTCP.sockOpen, ClientTCP.notifyOpen, ClientTCP.epollOpen,
        ClientTCP.refused, h]

/-- The client after one that is stopped has no descriptor. -/
theorem another_of_stopped {s : ClientTCP} (hs : s.Ledger) (hstopped : s.owner = .stopped) :
    s.another.IsStart s.lines where
  fds := ⟨rfl, rfl, rfl⟩
  flags := ⟨rfl, rfl, rfl, rfl⟩
  data := ⟨rfl, rfl, rfl, rfl⟩
  table := fun fd hmine => by
    have hmem := (hs.mem fd).1 hmine
    simp [ClientTCP.held, ClientTCP.sockOpen, ClientTCP.notifyOpen, ClientTCP.epollOpen,
      hstopped] at hmem
  pcs := ⟨rfl, rfl⟩

/-- It holds at the start. -/
theorem ordered_start (h : IsStart lines p) : Ordered p where
  control := ClientTCP.control_start h.tcp
  ledger _ := ClientTCP.ledger_start h.tcp
  outside _ := h.tcp.pcs.1

/-- Its client takes a step. -/
theorem Ordered.of_next (h : Ordered p) (hpc : p.pc = .client) {k : ClientStep} {t : ClientTCP}
    (ht : p.tcp.next k = some t) (late : List Bytes) :
    Ordered { p with tcp := t, late := late } where
  control := ClientTCP.control_next h.control ht
  ledger := ClientTCP.ledger_next h.control (h.ledger (h.control.owner_ne_killed ht)) ht
  outside hne := absurd hpc hne

/-- `main` leaves its client for `stop`. -/
theorem Ordered.of_leave (h : Ordered p) (hpc : p.pc = .client)
    (howner : p.tcp.owner = .check ∨ p.tcp.owner = .command) (lines : List Bytes) (failed : Bool) :
    Ordered { p with failed := failed, tcp := { p.tcp with lines := lines, owner := .test } } := by
  have halive : p.tcp.owner ≠ .killed := by rcases howner with hs | hs <;> simp [hs]
  obtain ⟨hct, hlt⟩ := control_leave lines h.control (h.ledger halive) howner
  exact ⟨hct, fun _ => hlt, fun hne => absurd hpc hne⟩

/-- A step of the client's own thread keeps it. -/
theorem ordered_ownerNext (h : Ordered p) (hpc : p.pc = .client) (hn : p.ownerNext = some q) :
    Ordered q := by
  rcases ownerNext_cases hn with ⟨hs, -, rfl⟩ | ⟨hs, -, rfl⟩ | ⟨hs, -, rfl⟩ | ⟨hs, rfl⟩ |
    ⟨-, -, t, ht, rfl⟩
  · exact h.of_leave hpc (.inl hs) p.tcp.lines true
  · cases hserver : p.tcp.serverOn with
    | false => exact h.of_leave hpc (.inl hs) p.tcp.lines p.failed
    | true =>
      have ht : p.tcp.next .owner = some { p.tcp with owner := .command } := by
        simp [ClientTCP.next, ClientTCP.ownerNext, hs, hserver]
      exact h.of_next hpc ht p.late
  · exact h.of_leave hpc (.inr hs) p.tcp.lines p.failed
  · have hstart := another_of_stopped (h.ledger (by simp [hs])) hs
    exact ⟨ClientTCP.control_start hstart, fun _ => ClientTCP.ledger_start hstart, fun _ => rfl⟩
  · exact h.of_next hpc ht p.late

/-- Every step keeps it. -/
theorem ordered_next (h : Ordered p) (hn : p.next l = some q) : Ordered q := by
  rcases next_cases hn with ⟨hpc, -, -, -, hq⟩ | ⟨-, hpc, hn⟩ | ⟨-, hpc, hn⟩ |
    ⟨k, t, -, -, hpc, ht, rfl⟩ | ⟨-, halive, rfl⟩
  · rw [hq]
    exact ⟨h.control, h.ledger, fun _ => h.outside hpc⟩
  · exact ordered_ownerNext h hpc hn
  · obtain ⟨hs, ⟨-, rfl⟩ | ⟨msg, rest, t, -, ht, -, rfl⟩⟩ := typedNext_cases hn
    · exact h.of_leave hpc (.inr hs) (afterBreak p.tcp.lines) p.failed
    · exact h.of_next hpc ht _
  · exact h.of_next hpc ht p.late
  · obtain ⟨hc, hledger, houtside⟩ := h
    have hheld : ({ p.tcp with stopAll := true } : ClientTCP).held = p.tcp.held := rfl
    refine ⟨⟨hc.notifyFd, hc.epollFd, hc.serverOn, hc.recv, hc.closeAll, hc.notified, ?_⟩,
      fun _ => (hledger halive).of_eq rfl hheld, houtside⟩
    have hholds := hc.owner
    cases hs : p.tcp.owner <;> simp only [hs, OwnerPc.Holds] at hholds ⊢ <;> exact hholds

/-- So it holds in every state reached. -/
theorem ordered_of_reachable (hp : (clientProcess lines).Reachable anyStep p) : Ordered p :=
  hp.invariant (I := Ordered) (fun _ hinit => ordered_start hinit)
    fun _ _ _ h _ hn => ordered_next h hn

/-! ### What it says -/

/-- The messages sent and those that the rest of the input stands for are those of the
input, and a connection has a late message at its end at most. -/
structure Said (lines : List Bytes) (p : ClientProcess) : Prop where
  said : p.past.flatMap (·.sent) ++ p.tcp.sent ++ conversation p.tcp.lines = conversation lines
  past : ∀ c ∈ p.past, c.late <:+ c.sent ∧ c.late.length ≤ 1
  late : p.late <:+ p.tcp.sent ∧ p.late.length ≤ 1
  onTime : p.tcp.owner.starting = true ∨ p.tcp.serverOn = true ∨ p.tcp.owner = .command →
    p.late = []

/-- Nothing is said at the start. -/
theorem said_start (h : IsStart lines p) : Said lines p := by
  obtain ⟨⟨-, -, ⟨hlines, hsent, -⟩, -, -⟩, -, -, -, hlate, hpast⟩ := h
  refine ⟨by simp [hlines, hsent, hpast], by simp [hpast], ?_, fun _ => hlate⟩
  rw [hlate]
  exact ⟨List.nil_suffix, Nat.zero_le 1⟩

/-- A step without a command or a new client says nothing. -/
theorem Said.of_eq (h : Said lines p) (hpast : q.past = p.past) (hlate : q.late = p.late)
    (hsent : q.tcp.sent = p.tcp.sent)
    (hlines : conversation q.tcp.lines = conversation p.tcp.lines)
    (hontime : q.tcp.owner.starting = true ∨ q.tcp.serverOn = true ∨ q.tcp.owner = .command →
      p.tcp.owner.starting = true ∨ p.tcp.serverOn = true ∨ p.tcp.owner = .command) :
    Said lines q := by
  refine ⟨?_, by rw [hpast]; exact h.past, by rw [hlate, hsent]; exact h.late, fun hq => ?_⟩
  · rw [hpast, hsent, hlines]
    exact h.said
  · rw [hlate]
    exact h.onTime (hontime hq)

/-- A step of its client without a command says nothing. -/
theorem Said.of_next (h : Said lines p) {k : ClientStep} {t : ClientTCP}
    (ht : p.tcp.next k = some t) (htyped : k ≠ .typed) : Said lines { p with tcp := t } := by
  obtain ⟨hsent, hlines, hstarting, hconsole, hserver⟩ := ClientTCP.frame_next ht htyped
  refine h.of_eq rfl rfl hsent (by rw [hlines]) fun hq => ?_
  rcases hq with hq | hq | hq
  · exact .inl (hstarting hq)
  · cases hs : p.tcp.owner.starting with
    | true => exact .inl rfl
    | false => exact .inr (.inl (hserver hs hq))
  · rcases hconsole hq with hs | hs
    · exact .inr (.inr hs)
    · exact .inr (.inl hs)

/-- The console is left with lines that stand for the same messages. -/
theorem Said.of_leave (h : Said lines p) {rest : List Bytes} (failed : Bool)
    (hrest : conversation rest = conversation p.tcp.lines) :
    Said lines
      { p with failed := failed, tcp := { p.tcp with lines := rest, owner := .test } } := by
  refine h.of_eq rfl rfl rfl hrest fun hq => ?_
  rcases hq with hq | hq | hq
  · cases hq
  · exact .inr (.inl hq)
  · cases hq

/-- A step of the client's own thread outside its console says nothing. -/
theorem said_ownerNext (h : Said lines p) (hn : p.ownerNext = some q) : Said lines q := by
  rcases ownerNext_cases hn with ⟨hs, -, rfl⟩ | ⟨hs, -, rfl⟩ | ⟨hs, -, rfl⟩ | ⟨hs, rfl⟩ |
    ⟨-, -, t, ht, rfl⟩
  · exact h.of_leave true rfl
  · refine h.of_eq rfl rfl rfl rfl fun hq => .inr (.inl ?_)
    cases hserver : p.tcp.serverOn with
    | true => rfl
    | false => simp [hserver, OwnerPc.starting] at hq
  · exact h.of_leave p.failed rfl
  · refine ⟨by simpa [ClientTCP.another] using h.said, ?_, ⟨List.nil_suffix, Nat.zero_le 1⟩,
      fun _ => rfl⟩
    intro c hc
    rcases List.mem_append.1 hc with hc | hc
    · exact h.past c hc
    · rw [List.mem_singleton.1 hc]
      exact h.late
  · exact h.of_next ht (by simp)

/-- A command says its message. -/
theorem said_typedNext (hp : Ordered p) (h : Said lines p) (hn : p.typedNext = some q) :
    Said lines q := by
  obtain ⟨hs, ⟨hturn, rfl⟩ | ⟨msg, rest, t, hturn, -, rfl, rfl⟩⟩ := typedNext_cases hn
  · exact h.of_leave p.failed (conversation_afterBreak hturn)
  · -- the console opens only where the client has a socket, and nothing is late yet
    have hholds := hp.control.owner
    rw [hs] at hholds
    have hsock : p.tcp.sock.isSome = true :=
      hholds.elim hp.control.serverOn hp.control.epollFd
    have hlate : p.late = [] := h.onTime (.inr (.inr hs))
    have hone : msg.toList.length ≤ 1 := by cases msg <;> simp
    have hsaid := h.said
    rw [conversation_of_turn hturn] at hsaid
    rw [hsock, if_pos rfl, hlate, List.nil_append]
    refine ⟨by simpa using hsaid, h.past, ?_, ?_⟩
    · cases p.tcp.serverOn with
      | true => exact ⟨List.nil_suffix, Nat.zero_le 1⟩
      | false => exact ⟨List.suffix_append _ _, hone⟩
    · rintro (hq | hq | hq)
      · cases hq
      · simp only at hq
        rw [hq, if_pos rfl]
      · cases hq

/-- Every step keeps what is said and what is left to say together. -/
theorem said_next (hp : Ordered p) (h : Said lines p) (hn : p.next l = some q) :
    Said lines q := by
  rcases next_cases hn with ⟨-, -, -, -, hq⟩ | ⟨-, -, hn⟩ | ⟨-, -, hn⟩ | ⟨k, t, -, hk, -, ht, rfl⟩ |
    ⟨-, -, rfl⟩
  · rw [hq]
    exact h.of_eq rfl rfl rfl rfl id
  · exact said_ownerNext h hn
  · exact said_typedNext hp h hn
  · exact h.of_next ht hk.2.1
  · exact h.of_eq rfl rfl rfl rfl id

/-- **Over all its connections the process says everything once**, in the order of the
input: its messages and those that are left to say are those of the input, and of a
connection only the last message can come after the client has read that its server is
gone. -/
theorem says_once (hp : (clientProcess lines).Reachable anyStep p) :
    p.past.flatMap (·.sent) ++ p.tcp.sent ++ conversation p.tcp.lines = conversation lines ∧
      p.late <:+ p.tcp.sent ∧ p.late.length ≤ 1 ∧
      ∀ c ∈ p.past, c.late <:+ c.sent ∧ c.late.length ≤ 1 := by
  have hsaid : Said lines p := hp.invariant_with (I := Said lines)
    (fun _ hr => ordered_of_reachable hr) (fun _ hinit => said_start hinit)
    fun _ _ _ ho h _ hn => said_next ho h hn
  exact ⟨hsaid.said, hsaid.late.1, hsaid.late.2, hsaid.past⟩

/-- No signal comes, `SIGPIPE` included, and `start` does not fail. -/
def Undisturbed (_ : ClientProcess) (l : ProcessStep) : Prop :=
  l ≠ .signal ∧ l ≠ .client (.sigpipe true) ∧ l.failing = false

/-- A process with the blank client. -/
def atMain (lines : List Bytes) : ClientProcess := ⟨.test, .blank lines, false, [], []⟩

/-- The process before its first step. -/
theorem isStart_atMain (lines : List Bytes) : IsStart lines (atMain lines) :=
  ⟨ClientTCP.isStart_blank lines, rfl, rfl, rfl, rfl, rfl⟩

/-- Two consoles, with an `exit` between them. -/
def exitBetween : List Bytes :=
  [text "login", text "Alice", text "exit", text "login", text "Bob"]

/-- From the wait for the ready flag to the console. -/
def connects : List ProcessStep :=
  [.main, .ready true, .client (.socket (some 3)), .client (.connect true),
    .client (.epoll (some 4)), .client (.eventfd (some 5)), .client .owner]

/-- Two commands, with `stop` behind the second. -/
def leaves : List ProcessStep :=
  [.client .owner, .client .typed, .client .owner, .client .typed] ++
    List.replicate 4 (.client .owner) ++ .client .recv :: List.replicate 5 (.client .owner)

/-- The client says a command on a second connection. -/
def saysAgain : List ProcessStep :=
  connects ++ leaves ++ .main :: connects ++ [.client .owner, .client .typed, .client .owner]

/-- The run has no signal, no SIGPIPE and no failing start. -/
theorem undisturbed_saysAgain :
    ∀ l ∈ saysAgain, ∀ p : ClientProcess, Undisturbed p l := by
  have hall : ∀ l ∈ saysAgain, l ≠ .signal ∧ l ≠ .client (.sigpipe true) ∧
      l.failing = false := by decide
  exact fun l hl _ => hall l hl

/-- The run comes to a second connection with a message sent on it. -/
theorem exists_saysAgain : ∃ p, (clientProcess exitBetween).Reachable Undisturbed p ∧
    p.past.length = 1 ∧ p.tcp.sent.length = 1 := by
  obtain ⟨p, hp, hpast⟩ := Reachable.exists_of_run (M := clientProcess exitBetween)
    (.init (isStart_atMain exitBetween)) saysAgain
    (fun p => p.past.length = 1 ∧ p.tcp.sent.length = 1) undisturbed_saysAgain
    (by decide +kernel)
  exact ⟨p, hp, by simpa using hpast⟩

/-- There what is said and what is left to say are the whole conversation. -/
theorem says_once_exitBetween : ∃ p : ClientProcess, p.past.length = 1 ∧ p.tcp.sent.length = 1 ∧
    p.past.flatMap (·.sent) ++ p.tcp.sent ++ conversation p.tcp.lines = conversation exitBetween ∧
    p.late <:+ p.tcp.sent ∧ p.late.length ≤ 1 ∧
    ∀ c ∈ p.past, c.late <:+ c.sent ∧ c.late.length ≤ 1 := by
  obtain ⟨p, hp, hpast, hsent⟩ := exists_saysAgain
  exact ⟨p, hpast, hsent, says_once hp.any⟩

/-! ### How it ends -/

/-- No step of the process itself is left. -/
def Standstill (p : ClientProcess) : Prop := ∀ l : ProcessStep, l.external = false → p.next l = none

/-- The console waits in `getline` for a line that is still to come. -/
def Waits (p : ClientProcess) : Prop :=
  p.pc = .client ∧ p.tcp.owner = .command ∧ p.tcp.lines ≠ [] ∧ p.tcp.RecvRests

/-- A step in the client that is not typed is from outside where it is for the client. -/
theorem external_client {k : ClientStep} (hk : k ≠ .typed) :
    (ProcessStep.client k).external = k.external := by
  cases k <;> first | exact absurd rfl hk | rfl

/-- Where its client does not rest, `main` or `recv_loop` can go on. -/
theorem exists_client_step (hp : Ordered p) (hpc : p.pc = .client) (hs : p.tcp.owner ≠ .killed)
    (hlines : p.tcp.owner = .command → p.tcp.lines = []) :
    ∃ l : ProcessStep, l.external = false ∧ p.next l ≠ none := by
  by_cases hstopped : p.tcp.owner = .stopped
  · exact ⟨.client .owner, rfl, by simp [next, hpc, ownerNext, hstopped]⟩
  · have hstill := mt (ClientTCP.standstill_iff hp.control).1 (not_or.2 ⟨hstopped, hs⟩)
    simp only [ClientTCP.Standstill, not_forall] at hstill
    obtain ⟨k, hk, hne⟩ := hstill
    obtain ⟨t, ht⟩ := Option.ne_none_iff_exists'.1 hne
    have htyped : k ≠ .typed := by
      rintro rfl
      obtain ⟨hcommand, hmore, -⟩ := ClientTCP.typedNext_cases ht
      exact hmore (hlines hcommand)
    refine ⟨.client k, (external_client htyped).trans hk, ?_⟩
    by_cases howner : k = .owner
    · subst howner
      have ht : p.tcp.ownerNext = some t := ht
      rw [next, if_pos hpc]
      cases howner : p.tcp.owner <;> simp only [ownerNext, howner, ht, Option.map_some, ne_eq,
        reduceCtorEq, not_false_eq_true]
      case check => split <;> simp
      case command => simp [hlines howner]
    · have hother : k ≠ .sigpipe false := by
        rintro rfl
        cases hk
      simp [next_client ⟨howner, htyped, hother⟩, hpc, ht]

/-- At the console the rest of `main` waits for the input. -/
theorem next_of_command {s : ClientTCP} (hs : s.owner = .command) {k : ClientStep}
    (hrecv : ClientTCP.byRecv k = false) (hk : k ≠ .owner ∧ k ≠ .typed)
    (hint : k.external = false) :
    s.next k = none := by
  cases k with
  | owner => exact absurd rfl hk.1
  | typed => exact absurd rfl hk.2
  | recv | wake events | read r => cases hrecv
  | sigpipe own | stopAgain | interrupted | epollFails | opens fd | closes fd => cases hint
  | socket fd | connect ok | epoll fd | eventfd fd => simp [ClientTCP.next, hs]

/-- In its client the process rests with it. -/
theorem standstill_of_client (hpc : p.pc = .client) (howner : p.ownerNext = none)
    (h : ∀ k : ClientStep, k ≠ .owner ∧ k ≠ .typed → k.external = false → p.tcp.next k = none) :
    Standstill p := by
  intro l hl
  cases l with
  | main => simp [next, hpc]
  | ready removed => simp [next, hpc]
  | signal => cases hl
  | client k =>
    by_cases hk : k = .owner
    · subst hk
      rw [next, if_pos hpc, howner]
    · have htyped : k ≠ .typed := by
        rintro rfl
        cases hl
      have hint := (external_client htyped).symm.trans hl
      have hother : k ≠ .sigpipe false := by
        rintro rfl
        cases hint
      simp [next_client ⟨hk, htyped, hother⟩, h k ⟨hk, htyped⟩ hint]

/-- **The process rests in three ways**: at its end, killed, or in `getline`. -/
theorem process_standstill_iff (hp : Ordered p) :
    Standstill p ↔ (∃ ok, p.pc = .returned ok) ∨ p.tcp.owner = .killed ∨ Waits p := by
  constructor
  · intro hstill
    cases hpc : p.pc with
    | returned ok => exact .inl ⟨ok, rfl⟩
    | test => simpa [next, hpc] using hstill .main rfl
    | again => simpa [next, hpc] using hstill .main rfl
    | ready => simpa [next, hpc] using hstill (.ready false) rfl
    | client =>
      by_cases hkilled : p.tcp.owner = .killed
      · exact .inr (.inl hkilled)
      · by_cases hlines : p.tcp.owner = .command → p.tcp.lines = []
        · obtain ⟨l, hl, hne⟩ := exists_client_step hp hpc hkilled hlines
          exact absurd (hstill l hl) hne
        · rw [Classical.not_imp] at hlines
          refine .inr (.inr ⟨hpc, hlines.1, hlines.2, ClientTCP.recvRests_of_none ?_⟩)
          intro k hk hint
          have hne : k ≠ .owner ∧ k ≠ .typed ∧ k ≠ .sigpipe false := by
            refine ⟨?_, ?_, ?_⟩ <;> rintro rfl <;> cases hk
          have hnone := hstill (.client k) ((external_client hne.2.1).trans hint)
          simpa [next_client hne, hpc] using hnone
  · rintro (⟨ok, hpc⟩ | hs | ⟨hpc, hs, hlines, hrecv⟩)
    · intro l hl
      cases l with
      | main => simp [next, hpc]
      | ready removed => simp [next, hpc]
      | client k => cases k with
        | sigpipe own => cases own <;> simp [next, hpc]
        | _ => simp [next, hpc]
      | signal => cases hl
    · have hpc : p.pc = .client := by
        by_contra hpc
        simp [hp.outside hpc] at hs
      have hstill := (ClientTCP.standstill_iff hp.control).2 (.inr hs)
      exact standstill_of_client hpc (by simp [ownerNext, hs, ClientTCP.ownerNext])
        fun k _ hint => hstill k hint
    · refine standstill_of_client hpc (by simp [ownerNext, hs, hlines]) fun k hk hint => ?_
      cases hbyRecv : ClientTCP.byRecv k with
      | true => exact hrecv.next_eq_none hbyRecv hint
      | false => exact next_of_command hs hbyRecv hk hint

/-- Why the process has ended. -/
structure Ended (p : ClientProcess) : Prop where
  stopped : p.pc = .returned true → p.tcp.stopAll = true
  failed : p.pc = .returned false → p.failed = true

/-- An ended process stays ended. -/
theorem ended_next (h : Ended p) (hn : p.next l = some q) : Ended q := by
  rcases next_cases hn with ⟨-, hstop, -, hfalse, hq⟩ | ⟨-, hpc, hn⟩ | ⟨-, hpc, hn⟩ |
    ⟨k, t, -, -, hpc, -, rfl⟩ | ⟨-, -, rfl⟩
  · refine ⟨fun ht => ?_, fun ht => absurd ht hfalse⟩
    rw [hq]
    exact hstop ht
  · rcases ownerNext_cases hn with ⟨-, -, rfl⟩ | ⟨-, -, rfl⟩ | ⟨-, -, rfl⟩ | ⟨-, rfl⟩ |
      ⟨-, -, t, -, rfl⟩
    case inr.inr.inr.inl =>
      cases p.failed <;> constructor <;> simp
    all_goals exact ⟨fun ht => by simp [hpc] at ht, fun ht => by simp [hpc] at ht⟩
  · obtain ⟨-, ⟨-, rfl⟩ | ⟨msg, rest, t, -, -, -, rfl⟩⟩ := typedNext_cases hn <;>
      exact ⟨fun ht => by simp [hpc] at ht, fun ht => by simp [hpc] at ht⟩
  · exact ⟨fun ht => by simp [hpc] at ht, fun ht => by simp [hpc] at ht⟩
  · exact ⟨fun _ => rfl, h.failed⟩

/-- What an undisturbed process is like: its clients start, and nothing tells it to
stop. -/
structure Running (p : ClientProcess) : Prop where
  stopAll : p.tcp.stopAll = false
  failed : p.failed = false
  pc : ∀ ok, p.pc ≠ .returned ok
  owner : p.tcp.owner ≠ .setStopAll ∧ p.tcp.owner ≠ .closeFailed ∧ p.tcp.owner ≠ .killed
  notifyFd : p.tcp.owner.starting = false → p.tcp.notifyFd.isSome = true

/-- The process runs at its start. -/
theorem running_start (h : IsStart lines p) : Running p := by
  obtain ⟨htcp, hstop, hpc, hfailed, -⟩ := h
  have howner := htcp.pcs.1
  exact ⟨hstop, hfailed, by simp [hpc], by simp [howner], by simp [howner, OwnerPc.starting]⟩

/-- A step of its client keeps it so. -/
theorem Running.of_next (hp : Ordered p) (h : Running p) {k : ClientStep} {t : ClientTCP}
    (ht : p.tcp.next k = some t) (hk : (ProcessStep.client k).failing = false)
    (hne : k ≠ .typed ∧ ∀ own, k ≠ .sigpipe own)
    (howner : k = .owner → p.tcp.owner ≠ .check ∧ p.tcp.owner ≠ .command) :
    Running { p with tcp := t } := by
  obtain ⟨hstop, hfailed, hpc, hplaces, hnotify⟩ := h
  obtain ⟨hset, hclose, halive⟩ := id hplaces
  have hholds := hp.control.owner
  suffices hsuff : t.stopAll = false ∧
      (t.owner ≠ .setStopAll ∧ t.owner ≠ .closeFailed ∧ t.owner ≠ .killed) ∧
      (t.owner.starting = false → t.notifyFd.isSome = true) from
    ⟨hsuff.1, hfailed, hpc, hsuff.2.1, hsuff.2.2⟩
  cases k with
  | owner =>
    obtain ⟨hcheck, hcommand⟩ := howner rfl
    cases hs : p.tcp.owner <;> simp only [ClientTCP.next, ClientTCP.ownerNext, hs,
      Option.some.injEq, reduceCtorEq, Option.ite_none_right_eq_some, OwnerPc.Holds] at ht hholds
    case check => exact absurd hs hcheck
    case command => exact absurd hs hcommand
    case setStopAll => exact absurd hs hset
    case closeFailed => exact absurd hs hclose
    case test =>
      subst ht
      have hsome := hnotify (by rw [hs]; rfl)
      cases p.tcp.closeAll <;> simp [hstop, hsome]
    case thread =>
      subst ht
      simp [hstop, hholds.1]
    all_goals
      have hsome := hnotify (by rw [hs]; rfl)
      try obtain ⟨hguard, rfl⟩ := ht
      try subst ht
      simp [hstop, hsome]
  | typed => exact absurd rfl hne.1
  | sigpipe own => exact absurd rfl (hne.2 own)
  | recv =>
    simp only [ClientTCP.next, ClientTCP.recvNext] at ht
    split at ht <;> cases ht <;> exact ⟨hstop, hplaces, hnotify⟩
  | read r =>
    obtain ⟨events, shown, -, -, rfl⟩ := ClientTCP.readNext_eq ht
    exact ⟨hstop, hplaces, hnotify⟩
  | socket fd | epoll fd | eventfd fd =>
    simp only [ClientTCP.next, Option.ite_none_right_eq_some, Option.map_eq_some_iff] at ht
    obtain ⟨-, table, -, rfl⟩ := ht
    cases fd with
    | none => cases hk
    | some fd => simp [hstop, OwnerPc.starting]
  | connect ok =>
    simp only [ClientTCP.next, Option.ite_none_right_eq_some, Option.some.injEq] at ht
    obtain ⟨-, rfl⟩ := ht
    cases ok with
    | false => cases hk
    | true => simp [hstop, OwnerPc.starting]
  | stopAgain =>
    simp only [ClientTCP.next, Option.ite_none_right_eq_some, Option.some.injEq] at ht
    obtain ⟨hs, rfl⟩ := ht
    have hsome := hnotify (by rw [hs]; rfl)
    cases p.tcp.closeAll <;> simp [hstop, hsome]
  | wake events | interrupted | epollFails | opens fd | closes fd =>
    simp only [ClientTCP.next, Option.ite_none_right_eq_some, Option.some.injEq] at ht
    obtain ⟨-, rfl⟩ := ht
    exact ⟨hstop, hplaces, hnotify⟩

/-- An undisturbed step keeps it running. -/
theorem running_next (hp : Ordered p) (h : Running p) (hl : Undisturbed p l)
    (hn : p.next l = some q) : Running q := by
  have hsome : p.tcp.owner = .check ∨ p.tcp.owner = .command → p.tcp.notifyFd.isSome = true := by
    rintro (hs | hs) <;> exact h.notifyFd (by rw [hs]; rfl)
  rcases next_cases hn with ⟨hpc, hstop, -, hfalse, hq⟩ | ⟨-, -, hn⟩ | ⟨-, -, hn⟩ |
    ⟨k, t, rfl, hk, -, ht, rfl⟩ | ⟨rfl, -⟩
  · rw [hq]
    refine ⟨h.stopAll, h.failed, fun ok hok => ?_, h.owner, h.notifyFd⟩
    cases ok with
    | false => exact hfalse hok
    | true => simpa [h.stopAll] using hstop hok
  · rcases ownerNext_cases hn with ⟨hs, hnone, -⟩ | ⟨hs, -, rfl⟩ | ⟨hs, -, rfl⟩ | ⟨-, rfl⟩ |
      ⟨hcheck, hcommand, t, ht, rfl⟩
    · simpa [hnone] using hsome (.inl hs)
    · refine ⟨h.stopAll, h.failed, h.pc, ?_, fun _ => hsome (.inl hs)⟩
      cases p.tcp.serverOn <;> simp
    · exact ⟨h.stopAll, h.failed, h.pc, by simp, fun _ => hsome (.inr hs)⟩
    · refine ⟨h.stopAll, h.failed, ?_, by simp [ClientTCP.another], fun hs => by cases hs⟩
      simp [h.failed]
    · exact h.of_next hp ht rfl (by simp) fun _ => ⟨hcheck, hcommand⟩
  · obtain ⟨hs, ⟨-, rfl⟩ | ⟨msg, rest, t, -, -, rfl, rfl⟩⟩ := typedNext_cases hn <;>
      exact ⟨h.stopAll, h.failed, h.pc, by simp, fun _ => hsome (.inr hs)⟩
  · refine h.of_next hp ht hl.2.2 ⟨hk.2.1, fun own => ?_⟩ fun ho => absurd ho hk.1
    rintro rfl
    cases own with
    | false => exact hk.2.2 rfl
    | true => exact hl.2.1 rfl
  · exact absurd rfl hl.1

/-- **How the process ends**: it comes to rest at its end, killed by `SIGPIPE` in a
`send`, or in `getline` for a line that is still to come.  It returns 0 only with
`g_stop_flag` set and 1 only where `start` has failed, and between its clients it has no
descriptor.  So undisturbed it runs on whatever is typed, to the end of the input and
beyond. -/
theorem process_ends (hp : (clientProcess lines).Reachable anyStep p) :
    (Standstill p ↔ (∃ ok, p.pc = .returned ok) ∨ p.tcp.owner = .killed ∨ Waits p) ∧
      (p.pc = .returned true → p.tcp.stopAll = true) ∧
      (p.pc = .returned false → p.failed = true) ∧
      (p.pc ≠ .client → ∀ fd, p.tcp.table fd ≠ some .mine) ∧
      ((clientProcess lines).Reachable Undisturbed p → Standstill p → Waits p) := by
  have hordered := ordered_of_reachable hp
  have hended : Ended p := hp.invariant (I := Ended)
    (fun s hinit => ⟨fun h => by simp [hinit.data.1] at h, fun h => by simp [hinit.data.1] at h⟩)
    fun _ _ _ h _ hn => ended_next h hn
  refine ⟨process_standstill_iff hordered, hended.stopped, hended.failed, ?_, ?_⟩
  · intro hpc fd hmine
    have hsocket := hordered.outside hpc
    have hmem := ((hordered.ledger (by simp [hsocket])).mem fd).1 hmine
    have hholds := hordered.control.owner
    rw [hsocket] at hholds
    obtain ⟨hsock, hepoll, hnotify, -⟩ := hholds
    simp [ClientTCP.held, hsock, hepoll, hnotify] at hmem
  · intro hundisturbed hstill
    have hrunning : Running p := hundisturbed.invariant_with (I := Running)
      (fun _ hr => ordered_of_reachable hr.any) (fun _ hinit => running_start hinit)
      fun _ _ _ ho h hl hn => running_next ho h hl hn
    rcases (process_standstill_iff hordered).1 hstill with ⟨ok, hok⟩ | hkilled | hwaits
    · exact absurd hok (hrunning.pc ok)
    · exact absurd hkilled hrunning.owner.2.2
    · exact hwaits

/-- On its second connection the console waits for a command. -/
def comesBack : List ProcessStep :=
  connects ++ leaves ++ .main :: connects ++ [.client .owner, .client .recv]

/-- After the `exit` it waits in `getline` of the second connection. -/
theorem process_ends_exitBetween : ∃ p : ClientProcess, p.past.length = 1 ∧ Waits p ∧
    (clientProcess exitBetween).Reachable Undisturbed p ∧
    (Standstill p ↔ (∃ ok, p.pc = .returned ok) ∨ p.tcp.owner = .killed ∨ Waits p) ∧
      (p.pc = .returned true → p.tcp.stopAll = true) ∧
      (p.pc = .returned false → p.failed = true) ∧
      (p.pc ≠ .client → ∀ fd, p.tcp.table fd ≠ some .mine) ∧
      ((clientProcess exitBetween).Reachable Undisturbed p → Standstill p → Waits p) := by
  have hall : ∀ l ∈ comesBack, l ≠ .signal ∧ l ≠ .client (.sigpipe true) ∧
      l.failing = false := by decide
  obtain ⟨p, hp, hstate⟩ := Reachable.exists_of_run (M := clientProcess exitBetween)
    (.init (isStart_atMain exitBetween)) comesBack
    (fun p => p.past.length = 1 ∧ p.pc = .client ∧ p.tcp.owner = .command ∧ p.tcp.lines ≠ [] ∧
      p.tcp.recv = .waiting ∧ p.tcp.notified = false) (fun l hl _ => hall l hl)
    (by decide +kernel)
  obtain ⟨hpast, hpc, howner, hlines, hrecv⟩ : p.past.length = 1 ∧ p.pc = .client ∧
      p.tcp.owner = .command ∧ p.tcp.lines ≠ [] ∧ p.tcp.recv = .waiting ∧
      p.tcp.notified = false := by simpa using hstate
  exact ⟨p, hpast, ⟨hpc, howner, hlines, .inr hrecv⟩, hp, process_ends hp.any⟩

end ClientProcess

end Client
end WeakAyas
