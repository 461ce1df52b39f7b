/-
# Registered and managed connections

The accept thread and the `close_fd` calls of one `EpollWorker`: `accept_loop`
(`TCPServer.cpp`, lines 192-206), `add_fd` and `close_fd` (`EpollWorker.cpp`,
lines 61-73 and 378-383).

| `add_fd` | `close_fd` |
| --- | --- |
| `epoll_ctl` ADD | lock `fd_map` |
| lock `fd_map` | `fd_infos.erase` |
| insert into `fd_infos` | `close` |
| unlock | `epoll_ctl` DEL, unlock |

ADD is outside of the lock, and the DEL after `close` acts on a number that is
free again.  A `close_fd` whose `close` or DEL falls between the ADD and the
insert of an `add_fd` for the same number removes the new connection from the
interest set, and nobody ever reads from it (`not_managed_reused`).  Otherwise the
keys of `fd_infos` are the registered connections (`managed_of_settled`).
-/

import WeakAyas.Library.TransitionSystem
import WeakAyas.Manager.Handlers
import Mathlib.Logic.Function.Basic

namespace WeakAyas
namespace Server

open TransitionSystem Manager

/-- The next action of the accept thread; `accept` and `set_nonblocking` come
before `add`. -/
inductive Acceptor where
  | accept
  | add (fd : Fd)
  | lock (fd : Fd)
  | insert (fd : Fd)
  | unlock (fd : Fd)
  deriving DecidableEq

/-- The next action of a `close_fd` call. -/
inductive Closer where
  | idle
  | lock (fd : Fd)
  | erase (fd : Fd)
  | close (fd : Fd)
  | del (fd : Fd)
  | unlock (fd : Fd)
  deriving DecidableEq

/-- The accept thread is past the lock. -/
def Acceptor.inside : Acceptor → Bool
  | accept | add _ | lock _ => false
  | insert _ | unlock _ => true

/-- `add_fd` has registered the number and not inserted it yet. -/
def Acceptor.adding : Acceptor → Option Fd
  | accept | add _ | unlock _ => none
  | lock fd | insert fd => some fd

/-- The number that `add_fd` works on. -/
def Acceptor.fd : Acceptor → Option Fd
  | accept => none
  | add fd | lock fd | insert fd | unlock fd => some fd

/-- The call is past the lock. -/
def Closer.inside : Closer → Bool
  | idle | lock _ => false
  | erase _ | close _ | del _ | unlock _ => true

/-- The call has erased the number and not finished with it. -/
def Closer.closing : Closer → Option Fd
  | idle | lock _ | erase _ | unlock _ => none
  | close fd | del fd => some fd

/-- The number that `close_fd` works on. -/
def Closer.fd : Closer → Option Fd
  | idle => none
  | lock fd | erase fd | close fd | del fd | unlock fd => some fd

/-- Who holds `fd_map`. -/
inductive Holder where
  | acceptor
  | closer (k : ℕ)
  deriving DecidableEq

/-- The accept thread, the threads that call `close_fd`, and what they share:
the open numbers, those of them in the interest set, the keys of `fd_infos`, and
`fd_map`. -/
structure Registry where
  isOpen : Fd → Bool
  interest : Fd → Bool
  known : Fd → Bool
  fdMap : Option Holder
  acceptor : Acceptor
  closers : ℕ → Closer

/-- `accept` returns a number; a call of `close_fd`; or a thread goes on. -/
inductive RegistryStep where
  | accept (fd : Fd)
  | acceptor
  | closeFd (k : ℕ) (fd : Fd)
  | closer (k : ℕ)
  deriving DecidableEq

namespace Registry

/-- The next action of thread `k` in `close_fd`. -/
def setCloser (s : Registry) (k : ℕ) (c : Closer) : Registry :=
  { s with closers := Function.update s.closers k c }

/-- The accept thread in `add_fd`. -/
def acceptorNext (s : Registry) : Option Registry :=
  match s.acceptor with
  | .accept => none
  | .add fd =>
    -- ADD fails on a closed and on a registered number, and `add_fd` returns
    if s.isOpen fd && !s.interest fd then
      some { s with interest := Function.update s.interest fd true, acceptor := .lock fd }
    else some { s with acceptor := .accept }
  | .lock fd => match s.fdMap with
    | none => some { s with fdMap := some .acceptor, acceptor := .insert fd }
    | some _ => none
  | .insert fd => some { s with known := Function.update s.known fd true, acceptor := .unlock fd }
  | .unlock _ => some { s with fdMap := none, acceptor := .accept }

/-- A thread in `close_fd`. -/
def closerNext (s : Registry) (k : ℕ) : Option Registry :=
  match s.closers k with
  | .idle => none
  | .lock fd => match s.fdMap with
    | none => some ({ s with fdMap := some (.closer k) }.setCloser k (.erase fd))
    | some _ => none
  | .erase fd =>
    some ({ s with known := Function.update s.known fd false }.setCloser k (.close fd))
  | .close fd =>
    -- closing a number takes it out of the interest set
    some ({ s with
      isOpen := Function.update s.isOpen fd false
      interest := Function.update s.interest fd false }.setCloser k (.del fd))
  | .del fd =>
    some ({ s with interest := Function.update s.interest fd false }.setCloser k (.unlock fd))
  | .unlock _ => some ({ s with fdMap := none }.setCloser k .idle)

def next (s : Registry) : RegistryStep → Option Registry
  | .accept fd =>
    if s.acceptor = .accept ∧ s.isOpen fd = false then
      some { s with isOpen := Function.update s.isOpen fd true, acceptor := .add fd }
    else none
  | .acceptor => s.acceptorNext
  | .closeFd k fd => if s.closers k = .idle then some (s.setCloser k (.lock fd)) else none
  | .closer k => s.closerNext k

/-- A worker without connections. -/
def start : Registry :=
  ⟨fun _ => false, fun _ => false, fun _ => false, none, .accept, fun _ => .idle⟩

end Registry

/-- The runs of the accept thread and the `close_fd` calls. -/
def registration : TransitionSystem Registry RegistryStep where
  init s := s = .start
  next := Registry.next

namespace Registry

/-! ### Managed connections -/

/-- No `add_fd` and no `close_fd` for `fd` is in progress. -/
def Settled (s : Registry) (fd : Fd) : Prop :=
  s.acceptor.fd ≠ some fd ∧ ∀ k, (s.closers k).fd ≠ some fd

/-- `fd` is a key of `fd_infos` exactly if its open connection is in the interest
set. -/
def Managed (s : Registry) (fd : Fd) : Prop :=
  s.known fd = true ↔ s.isOpen fd = true ∧ s.interest fd = true

/-- No `close` and no DEL of a `close_fd` falls between the ADD and the insert of
an `add_fd` for its number. -/
def Apart (s : Registry) : RegistryStep → Prop
  | .closer k => ∀ fd, (s.closers k).closing = some fd → s.acceptor.adding ≠ some fd
  | _ => True

/-- What holds between the threads: who is past the lock holds `fd_map`; what is
being added is registered and no key; what is being closed is no key, and once
closed not registered; and everywhere else the keys are the registered numbers. -/
structure Consistent (s : Registry) : Prop where
  acceptorHolds : s.acceptor.inside = true → s.fdMap = some .acceptor
  closerHolds : ∀ k, (s.closers k).inside = true → s.fdMap = some (.closer k)
  isOpen : ∀ fd, s.interest fd = true → s.isOpen fd = true
  adding : ∀ fd, s.acceptor.adding = some fd → s.interest fd = true ∧ s.known fd = false
  erased : ∀ k fd, (s.closers k).closing = some fd → s.known fd = false
  closed : ∀ k fd, s.closers k = .del fd → s.acceptor.adding ≠ some fd → s.interest fd = false
  agrees : ∀ fd, s.acceptor.adding ≠ some fd → (∀ k, (s.closers k).closing ≠ some fd) →
    s.known fd = s.interest fd

/-- In a consistent registry a number that no call works on is managed. -/
theorem Consistent.managed {s : Registry} (h : s.Consistent) {fd : Fd} (hfd : s.Settled fd) :
    s.Managed fd := by
  have hadding : s.acceptor.adding ≠ some fd := by
    have := hfd.1
    cases hacc : s.acceptor <;> simp_all [Acceptor.adding, Acceptor.fd]
  have heq := h.agrees fd hadding fun k hk => hfd.2 k (by
    cases hpc : s.closers k <;> simp_all [Closer.closing, Closer.fd])
  rw [Managed, heq]
  exact ⟨fun hi => ⟨h.isOpen fd hi, hi⟩, And.right⟩

/-- The registry is consistent at the start. -/
theorem consistent_start : start.Consistent where
  acceptorHolds := by simp [start, Acceptor.inside]
  closerHolds := by simp [start, Closer.inside]
  isOpen := by simp [start]
  adding := by simp [start, Acceptor.adding]
  erased := by simp [start, Closer.closing]
  closed := by simp [start]
  agrees := by simp [start]

/-- A call that has erased its number is past the lock. -/
theorem inside_of_closing {c : Closer} {fd : Fd} (h : c.closing = some fd) : c.inside = true := by
  cases c <;> simp_all [Closer.closing, Closer.inside]

/-- While the accept thread holds `fd_map` nothing is being closed. -/
theorem Consistent.closing_ne {s : Registry} (h : s.Consistent) (hi : s.acceptor.inside = true)
    (k : ℕ) (fd : Fd) : (s.closers k).closing ≠ some fd := by
  intro hc
  have := (h.acceptorHolds hi).symm.trans (h.closerHolds k (inside_of_closing hc))
  cases this

/-- While a call holds `fd_map` no other call is closing anything. -/
theorem Consistent.eq_of_inside {s : Registry} (h : s.Consistent) {k k' : ℕ}
    (hk : (s.closers k).inside = true) (hk' : (s.closers k').inside = true) : k' = k := by
  have := (h.closerHolds k hk).symm.trans (h.closerHolds k' hk')
  cases this
  rfl

/-- A step of the accept thread in `add_fd`. -/
theorem Consistent.acceptorNext {s s' : Registry} (h : s.Consistent)
    (hn : s.acceptorNext = some s') : s'.Consistent := by
  have hnone := h.closing_ne
  obtain ⟨ha, hc, ho, had, he, hcl, hag⟩ := h
  unfold Registry.acceptorNext at hn
  split at hn
  case h_1 => cases hn
  case h_2 fd hpc =>
    rw [hpc] at ha had hcl hag
    split_ifs at hn with hadd <;> obtain rfl := Option.some.inj hn
    · constructor <;> simp only [Function.update_apply] <;>
        grind [Acceptor.inside, Acceptor.adding, Closer.closing]
    · constructor <;> grind [Acceptor.inside, Acceptor.adding]
  case h_3 fd hpc =>
    split at hn
    · obtain rfl := Option.some.inj hn
      constructor <;> grind [Acceptor.inside, Acceptor.adding]
    · cases hn
  case h_4 fd hpc =>
    obtain rfl := Option.some.inj hn
    rw [hpc] at ha had hcl hag hnone
    -- nothing is being closed, so the other keys are the registered numbers
    have hrest : ∀ fd' ≠ fd, s.known fd' = s.interest fd' := fun fd' hne =>
      hag fd' (by simpa [Acceptor.adding] using hne.symm) fun k => hnone rfl k fd'
    constructor <;> simp only [Function.update_apply] <;>
      grind [Acceptor.inside, Acceptor.adding, Closer.closing]
  case h_5 fd hpc =>
    obtain rfl := Option.some.inj hn
    constructor <;> grind [Acceptor.inside, Acceptor.adding]

/-- A step of a `close_fd` call. -/
theorem Consistent.closerNext {s s' : Registry} {k : ℕ} (h : s.Consistent)
    (hok : s.Apart (.closer k)) (hn : s.closerNext k = some s') : s'.Consistent := by
  have hunique : ∀ k', (s.closers k).inside = true → (s.closers k').inside = true → k' = k :=
    fun _ => h.eq_of_inside
  have hclosing : ∀ k' fd, (s.closers k').closing = some fd → (s.closers k').inside = true :=
    fun _ _ => inside_of_closing
  obtain ⟨ha, hc, ho, had, he, hcl, hag⟩ := h
  unfold Registry.closerNext at hn
  split at hn
  case h_1 => cases hn
  case h_2 fd hpc =>
    split at hn
    · obtain rfl := Option.some.inj hn
      constructor <;> simp only [setCloser, Function.update_apply] <;>
        grind [Closer.inside, Closer.closing]
    · cases hn
  all_goals
    rename_i fd hpc
    obtain rfl := Option.some.inj hn
    have hinside : (s.closers k).inside = true := by rw [hpc]; rfl
    simp only [Apart, hpc] at hok
    constructor <;> simp only [setCloser, Function.update_apply] <;>
      grind [Closer.inside, Closer.closing]

/-- **Every step that meets the condition keeps the registry consistent.** -/
theorem Consistent.next {s s' : Registry} {l : RegistryStep} (h : s.Consistent) (hok : s.Apart l)
    (hn : s.next l = some s') : s'.Consistent := by
  cases l with
  | accept fd =>
    obtain ⟨ha, hc, ho, had, he, hcl, hag⟩ := h
    simp only [Registry.next] at hn
    split_ifs at hn with hacc
    obtain rfl := Option.some.inj hn
    constructor <;> grind [Acceptor.inside, Acceptor.adding, Function.update_apply]
  | acceptor => exact h.acceptorNext hn
  | closeFd k fd =>
    obtain ⟨ha, hc, ho, had, he, hcl, hag⟩ := h
    simp only [Registry.next] at hn
    split_ifs at hn with hidle
    obtain rfl := Option.some.inj hn
    constructor <;> simp only [setCloser, Function.update_apply] <;>
      grind [Closer.inside, Closer.closing]
  | closer k => exact h.closerNext hok hn

/-- It is consistent in every state of such a run. -/
theorem consistent_of_reachable {s : Registry} (hs : registration.Reachable Apart s) :
    s.Consistent := by
  refine hs.invariant ?_ fun s s' l h hok hn => Consistent.next h hok hn
  rintro _ rfl
  exact consistent_start

/-- **Managed connections stay registered**, as long as no `close_fd` gets between
the ADD and the insert of an `add_fd` for its number: in every run, for every
number that no call is working on. -/
theorem managed_of_settled {s : Registry} (hs : registration.Reachable Apart s) {fd : Fd}
    (hfd : s.Settled fd) : s.Managed fd := (consistent_of_reachable hs).managed hfd

/-- The number 5 is open, registered and a key. -/
def added : Registry :=
  { start with
    isOpen := Function.update start.isOpen 5 true
    interest := Function.update start.interest 5 true
    known := Function.update start.known 5 true }

/-- A test for `Apart`. -/
def apartTest (s : Registry) : RegistryStep → Bool
  | .closer k => (s.closers k).closing.all fun fd => s.acceptor.adding != some fd
  | _ => true

/-- The test says that the step meets the condition. -/
theorem apart_of_apartTest {s : Registry} {l : RegistryStep} (h : s.apartTest l = true) :
    s.Apart l := by
  cases l with
  | closer k =>
    intro fd hfd
    simpa [apartTest, hfd] using h
  | _ => trivial

/-- The number 5 again, after a `close_fd` of it. -/
def readded : Registry :=
  { isOpen := Function.update (Function.update added.isOpen 5 false) 5 true
    interest := Function.update (Function.update (Function.update added.interest 5 false) 5 false)
      5 true
    known := Function.update (Function.update added.known 5 false) 5 true
    fdMap := none
    acceptor := .accept
    closers := Function.update (Function.update (Function.update (Function.update (Function.update
      (Function.update start.closers 0 (.lock 5)) 0 (.erase 5)) 0 (.close 5)) 0 (.del 5))
      0 (.unlock 5)) 0 .idle }

/-- The number 5 is accepted and added; `close_fd` closes it; `accept` hands it out
again, and its ADD comes after the old DEL. -/
theorem managed_of_settled_readded : registration.Reachable Apart readded ∧ readded.Settled 5 ∧
    readded.Managed 5 := by
  have hstart : registration.Reachable Apart start := .init rfl
  have hs : registration.Reachable Apart readded :=
    hstart.of_runIf apartTest (fun _ _ _ => apart_of_apartTest)
      [.accept 5, .acceptor, .acceptor, .acceptor, .acceptor, .closeFd 0 5, .closer 0, .closer 0,
        .closer 0, .accept 5, .closer 0, .acceptor, .closer 0, .acceptor, .acceptor, .acceptor] rfl
  have hsettled : readded.Settled 5 :=
    ⟨by decide, fun k => by simp [readded, start, Closer.fd]⟩
  exact ⟨hs, hsettled, managed_of_settled hs hsettled⟩

/-- The number 5 is open and a key, and not registered. -/
def unserved : Registry :=
  { isOpen := Function.update (Function.update added.isOpen 5 false) 5 true
    interest := Function.update (Function.update (Function.update added.interest 5 false) 5 true)
      5 false
    known := Function.update (Function.update added.known 5 false) 5 true
    fdMap := none
    acceptor := .accept
    closers := Function.update (Function.update (Function.update (Function.update (Function.update
      (Function.update start.closers 0 (.lock 5)) 0 (.erase 5)) 0 (.close 5)) 0 (.del 5))
      0 (.unlock 5)) 0 .idle }

/-- The number 5 is accepted and added; `close_fd` closes it; `accept` hands it out
again, and its ADD comes before the old DEL. -/
theorem not_managed_reused :
    registration.Reachable anyStep unserved ∧ unserved.Settled 5 ∧ ¬ unserved.Managed 5 := by
  refine ⟨.of_run (.init rfl)
    [.accept 5, .acceptor, .acceptor, .acceptor, .acceptor, .closeFd 0 5, .closer 0, .closer 0,
      .closer 0, .accept 5, .acceptor, .closer 0, .closer 0, .acceptor, .acceptor, .acceptor] rfl,
    ⟨by decide, fun k => ?_⟩, ?_⟩
  · simp [unserved, start, Closer.fd]
  · simp [Managed, unserved]

end Registry

end Server
end WeakAyas
