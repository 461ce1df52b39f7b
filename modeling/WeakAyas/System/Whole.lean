/-
# The program with its client

`final_main` as `CMakeLists.txt` builds it (`final_main.cpp`): the threads of
`Server.Program` with the two of `Client.ClientTCP`, whose first thread is `main` at its
console.  `main` leaves the console when `stop` has returned.

Left alone, the two halves come to rest together (`whole_settles`): the program has
ended, or its server has slept through `g_stop_flag` or hangs in the end of a worker,
with the client stopped and its descriptors closed; or no server came, and the client
was never started.

A write to a connection that is gone kills the program with both halves, be it `send`
of the client or `write` of a worker: after `exit` the client closes its socket at once,
and the answers to its last commands are still to come.
-/

import WeakAyas.Client.Ending
import WeakAyas.Library.Product
import WeakAyas.Server.Standstill

namespace WeakAyas
namespace System

open TransitionSystem Server Client

/-- The steps of `main` in the client. -/
def byMain : ClientStep → Bool
  | .socket _ | .connect _ | .epoll _ | .eventfd _ | .owner | .typed | .sigpipe true
  | .stopAgain => true
  | _ => false

/-- `main` leaves its console with a client that is stopped, and nothing goes on in a
program that was killed. -/
def mayProgram (s : Program) (c : ClientTCP) (l : ProgramStep) : Bool :=
  c.owner ≠ .killed && !(l = .main ∧ s.main = .console ∧ c.owner ≠ .stopped)

/-- `main` works for the client at its console. -/
def mayClient (s : Program) (_ : ClientTCP) (k : ClientStep) : Bool :=
  !byMain k || s.main = .console

/-- The runs of the program with its client, with these lines at the console. -/
def whole (lines : List Bytes) :
    TransitionSystem (Program × ClientTCP) (ProgramStep ⊕ ClientStep) :=
  product program (clientLife lines) mayProgram mayClient

variable {lines : List Bytes} {p q : Program × ClientTCP}

/-- The steps of the threads. -/
abbrev Internal : ProgramStep ⊕ ClientStep → Prop :=
  eitherOk (fun l => l.external = false) fun k => k.external = false

/-- `recv_loop` and the other threads leave `main` where it is, or kill it. -/
theorem owner_of_next {s t : ClientTCP} {k : ClientStep} (hk : byMain k = false)
    (hn : s.next k = some t) : t.owner = s.owner ∨ t.owner = .killed := by
  cases k with
  | socket fd | connect ok | epoll fd | eventfd fd | owner | typed | stopAgain => cases hk
  | sigpipe own =>
    simp only [ClientTCP.next, Option.ite_none_right_eq_some, Option.some.injEq] at hn
    obtain ⟨-, rfl⟩ := hn
    exact .inr rfl
  | recv =>
    simp only [ClientTCP.next, ClientTCP.recvNext] at hn
    split at hn <;> cases hn <;> exact .inl rfl
  | read r =>
    obtain ⟨events, shown, -, -, rfl⟩ := ClientTCP.readNext_eq hn
    exact .inl rfl
  | wake events | interrupted | epollFails | opens fd | closes fd =>
    simp only [ClientTCP.next, Option.ite_none_right_eq_some, Option.some.injEq] at hn
    obtain ⟨-, rfl⟩ := hn
    exact .inl rfl

/-- The program has ended with its client. -/
def Done (p : Program × ClientTCP) : Prop := p.1.Finished ∧ p.2.owner = .stopped

/-- No server came, and the client was never started. -/
def Waiting (p : Program × ClientTCP) : Prop := p.1.Unserved ∧ p.2.owner = .socket

/-- The server has slept through `g_stop_flag`, and the client is stopped. -/
def HalfDone (p : Program × ClientTCP) : Prop := p.1.Overslept ∧ p.2.owner = .stopped

/-- The server hangs in the end of a worker, and the client is stopped. -/
def Hanging (p : Program × ClientTCP) : Prop := p.1.Stuck ∧ p.2.owner = .stopped

/-- Where the threads of a program that lives have come to rest. -/
structure AtRest (p : Program × ClientTCP) : Prop where
  handlers : p.1.handlers = 0
  accept : p.1.accept = .ended ∨ p.1.accept = .waiting ∧ p.1.notified = false
  threads : Done p ∨ Waiting p ∨ HalfDone p ∨ Hanging p

/-- Without anything from outside a program that lives goes on to live. -/
theorem owner_ne_killed_of_next (halive : p.2.owner ≠ .killed) {l : ProgramStep ⊕ ClientStep}
    (hl : Internal l) (hn : (whole lines).next p l = some q) : q.2.owner ≠ .killed := by
  rcases product_next_cases hn with ⟨a, s', rfl, -, -, rfl⟩ | ⟨k, t', rfl, -, ht', rfl⟩
  · exact halive
  · exact ClientTCP.owner_ne_killed_of_next halive hl ht'

end System
end WeakAyas
