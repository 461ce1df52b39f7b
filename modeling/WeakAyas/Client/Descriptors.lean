/-
# The descriptors of the client

Which of the numbers of the process are the client's at each moment (`held`), for
`ClientTCP::start`, `send_msg`, `stop` and `recv_loop` (`TCPClient.cpp`, lines 20-92,
123-126 and 133-183) among other threads that open and close descriptors.

Whatever the client uses is its own, whether `start` succeeds or fails on the way, with
one exception (`uses_iff`): after a `connect` that fails, `start` closes the socket and
keeps its number, and `stop` closes this number again, whoever has it by then.
-/

import WeakAyas.Client.Lifecycle

namespace WeakAyas
namespace Client

open TransitionSystem Handles

namespace ClientTCP

variable {s t : ClientTCP} {l : ClientStep} {lines : List Bytes}

/-! ### The numbers of the client -/

/-- `connect` has failed, and `start` has closed the socket. -/
def refused (s : ClientTCP) : Bool := !s.serverOn && s.epollFd.isNone

/-- The socket is open: not before `socket`, not after `refused`, and until `stop`. -/
def sockOpen (s : ClientTCP) : Bool :=
  match s.owner with
  | .connect | .closeFailed => true
  | .closeNotify | .closeEpoll | .stopped => false
  | _ => !s.refused

def notifyOpen (s : ClientTCP) : Bool :=
  match s.owner with
  | .closeEpoll | .stopped => false
  | _ => true

def epollOpen (s : ClientTCP) : Bool :=
  match s.owner with
  | .stopped => false
  | _ => true

/-- The numbers of the descriptors that are open. -/
def held (s : ClientTCP) : List ℕ :=
  (if s.sockOpen then s.sock.toList else []) ++
    (if s.notifyOpen then s.notifyFd.toList else []) ++
    (if s.epollOpen then s.epollFd.toList else [])

/-- The table agrees with the members. -/
def Ledger (s : ClientTCP) : Prop := Owns s.table s.held

/-- Before `start` nothing is open. -/
theorem ledger_start (h : IsStart lines s) : Ledger s := by
  obtain ⟨⟨hsock, hepoll, hnotify⟩, -, -, htable, -⟩ := h
  have hheld : s.held = [] := by simp [held, hsock, hepoll, hnotify]
  rw [Ledger, hheld]
  exact ⟨List.nodup_nil, fun n => by simp [htable n]⟩

/-- A step that opens and closes nothing. -/
theorem Ledger.of_eq (h : Ledger s) (htable : t.table = s.table) (hheld : t.held = s.held) :
    Ledger t := by
  rw [Ledger, htable, hheld]
  exact h

/-- A client that was refused has no other descriptor. -/
theorem Control.of_refused (hc : Control s) (h : s.refused = true) :
    s.epollFd = none ∧ s.notifyFd = none := by
  have hepoll : s.epollFd = none := by
    rw [refused, Bool.and_eq_true] at h
    exact Option.isNone_iff_eq_none.1 h.2
  refine ⟨hepoll, ?_⟩
  by_contra hnotify
  have := hc.notifyFd (Option.isSome_iff_ne_none.2 hnotify)
  simp [hepoll] at this

/-- The owner: `start` creates, and what fails there or in `stop` is closed. -/
theorem ledger_ownerNext (hc : Control s) (h : Ledger s) (hn : s.ownerNext = some t) :
    Ledger t := by
  have hholds := hc.owner
  cases hs : s.owner <;> simp only [ownerNext, hs, OwnerPc.Holds, Option.some.injEq,
    reduceCtorEq, Option.ite_none_right_eq_some] at hn hholds
  case closeFailed =>
    subst hn
    obtain ⟨-, hepoll, hnotify, hserver, -⟩ := hholds
    simp only [Ledger, held, sockOpen, hs, hepoll, hnotify, notifyOpen, epollOpen, refused,
      hserver] at h ⊢
    exact h.close (by simp)
  case closeSock =>
    subst hn
    simp only [Ledger, held, sockOpen, notifyOpen, epollOpen, hs] at h ⊢
    cases hrefused : s.refused with
    | true =>
      obtain ⟨hepoll, hnotify⟩ := hc.of_refused hrefused
      simp only [hrefused, hepoll, hnotify] at h ⊢
      rcases hsock : s.sock with _ | n
      · exact h
      · exact h.update (by simp) (by simp)
    | false =>
      simp only [hrefused] at h ⊢
      exact h.close (by simp)
  case closeNotify =>
    subst hn
    simp only [Ledger, held, sockOpen, notifyOpen, epollOpen, hs] at h ⊢
    exact h.close (by simp)
  case closeEpoll =>
    subst hn
    simp only [Ledger, held, sockOpen, notifyOpen, epollOpen, hs] at h ⊢
    exact h.close (by simp)
  case command | join =>
    obtain ⟨-, rfl⟩ := hn
    exact h.of_eq rfl (by simp [held, sockOpen, notifyOpen, epollOpen, refused, hs])
  case check =>
    subst hn
    refine h.of_eq rfl ?_
    cases hserver : s.serverOn <;>
      simp [held, sockOpen, notifyOpen, epollOpen, refused, hs, hserver]
  case test =>
    subst hn
    refine h.of_eq rfl ?_
    have hclose : s.closeAll = false := by rw [hc.closeAll (by simp [hs]), hs]; rfl
    simp [held, sockOpen, notifyOpen, epollOpen, refused, hs, hclose]
  all_goals
    subst hn
    exact h.of_eq rfl (by simp [held, sockOpen, notifyOpen, epollOpen, refused, hs])

/-- `recv_loop` opens and closes nothing, and with it the client is not refused. -/
theorem Ledger.of_recv (h : Ledger s) (hc : Control s) (hrecv : s.recv ≠ .ended)
    (hsock : t.sock = s.sock) (hepoll : t.epollFd = s.epollFd) (hnotify : t.notifyFd = s.notifyFd)
    (howner : t.owner = s.owner) (htable : t.table = s.table) : Ledger t := by
  have hsome := hc.notifyFd (hc.recv hrecv)
  have hrefused : ∀ u : ClientTCP, u.epollFd = s.epollFd → u.refused = false := by
    intro u hu
    cases hfd : s.epollFd <;> simp_all [refused]
  have hopen : t.sockOpen = s.sockOpen := by
    simp only [sockOpen, hrefused t hepoll, hrefused s rfl, howner]
  have hopen' : t.notifyOpen = s.notifyOpen ∧ t.epollOpen = s.epollOpen := by
    simp only [notifyOpen, epollOpen, howner, and_self]
  refine h.of_eq htable ?_
  rw [held, held, hopen, hopen'.1, hopen'.2, hsock, hepoll, hnotify]

/-- `recv_loop` opens and closes nothing. -/
theorem ledger_recvNext (h : Ledger s) (hc : Control s) (hn : s.recvNext = some t) :
    Ledger t := by
  unfold recvNext at hn
  split at hn <;> cases hn <;> rename_i hrecv <;>
    exact h.of_recv hc (by simp [hrecv]) rfl rfl rfl rfl rfl

/-- Nor does the console. -/
theorem ledger_typedNext (h : Ledger s) (hn : s.typedNext = some t) : Ledger t := by
  obtain ⟨hs, -, ⟨-, rfl⟩ | ⟨msg, rest, -, rfl⟩⟩ := typedNext_cases hn <;>
    exact h.of_eq rfl (by simp [held, sockOpen, notifyOpen, epollOpen, refused, hs])

/-- **Every step keeps the table in agreement with the members**, in a process that is
not killed. -/
theorem ledger_next (hc : Control s) (h : Ledger s) (hn : s.next l = some t)
    (halive : t.owner ≠ .killed) : Ledger t := by
  have hholds := hc.owner
  cases l with
  | owner => exact ledger_ownerNext hc h hn
  | typed => exact ledger_typedNext h hn
  | sigpipe own =>
    simp only [next, Option.ite_none_right_eq_some, Option.some.injEq] at hn
    obtain ⟨-, rfl⟩ := hn
    exact absurd rfl halive
  | recv => exact ledger_recvNext h hc hn
  | read r =>
    obtain ⟨events, shown, hrecv, -, rfl⟩ := readNext_eq hn
    exact h.of_recv hc (by simp [hrecv]) rfl rfl rfl rfl rfl
  | socket fd | epoll fd | eventfd fd =>
    simp only [next, Option.ite_none_right_eq_some, Option.map_eq_some_iff] at hn
    obtain ⟨hs, table, htable, rfl⟩ := hn
    simp only [hs, OwnerPc.Holds] at hholds
    refine Owns.create h htable ?_
    cases fd <;> simp [held, sockOpen, notifyOpen, epollOpen, refused, hs, hholds]
  | connect ok =>
    simp only [next, Option.ite_none_right_eq_some, Option.some.injEq] at hn
    obtain ⟨hs, rfl⟩ := hn
    cases ok <;> exact h.of_eq rfl (by simp [held, sockOpen, notifyOpen, epollOpen, refused, hs])
  | stopAgain =>
    simp only [next, Option.ite_none_right_eq_some, Option.some.injEq] at hn
    obtain ⟨hs, rfl⟩ := hn
    have hclose : s.closeAll = true := by rw [hc.closeAll (by simp [hs]), hs]; rfl
    rw [if_pos hclose, ← hs]
    exact h
  | wake events =>
    simp only [next, Option.ite_none_right_eq_some, Option.some.injEq] at hn
    obtain ⟨⟨hrecv, -⟩, rfl⟩ := hn
    exact h.of_recv hc (by simp [hrecv]) rfl rfl rfl rfl rfl
  | interrupted | epollFails =>
    simp only [next, Option.ite_none_right_eq_some, Option.some.injEq] at hn
    obtain ⟨hrecv, rfl⟩ := hn
    exact h.of_recv hc (by simp [hrecv]) rfl rfl rfl rfl rfl
  | opens fd | closes fd =>
    simp only [next, Option.ite_none_right_eq_some, Option.some.injEq] at hn
    obtain ⟨⟨-, hfd⟩, rfl⟩ := hn
    refine Owns.update h (fun hmem => ?_) (by simp)
    simp [(h.mem fd).2 hmem] at hfd

/-- The table agrees with the client for as long as it is not killed. -/
theorem ledger_of_reachable (hs : (clientLife lines).Reachable anyStep s)
    (halive : s.owner ≠ .killed) : Ledger s :=
  hs.invariant_with (I := fun s => s.owner ≠ .killed → Ledger s)
    (fun _ hr => control_of_reachable hr) (fun _ hinit _ => ledger_start hinit)
    (fun _ _ _ hc h _ hn => ledger_next hc (h (hc.owner_ne_killed hn)) hn) halive

/-! ### What a step uses -/

/-- The numbers that a step gives to a call. -/
def uses (s : ClientTCP) : ClientStep → List ℕ
  | .connect _ => s.sock.toList
  | .epoll _ => s.sock.toList  -- `set_nonblocking` comes first
  | .eventfd _ => s.epollFd.toList ++ s.sock.toList  -- `epoll_ctl` for the socket
  | .owner => match s.owner with
    | .closeFailed | .closeSock => s.sock.toList
    | .thread => s.epollFd.toList ++ s.notifyFd.toList  -- `epoll_ctl` for `notify_fd`
    | .notify | .closeNotify => s.notifyFd.toList
    | .closeEpoll => s.epollFd.toList
    | _ => []
  | .typed | .sigpipe true => s.sock.toList
  | .wake _ | .interrupted | .epollFails => s.epollFd.toList
  | .read _ => s.sock.toList
  | .recv => match s.recv with
    | .batch (.notify :: _) => s.notifyFd.toList
    | _ => []
  | .socket _ | .sigpipe false | .stopAgain | .opens _ | .closes _ => []

/-- `stop` closes the socket of a client that was refused. -/
def Stale (s : ClientTCP) (l : ClientStep) : Prop :=
  l = .owner ∧ s.owner = .closeSock ∧ s.refused = true

/-- `recv_loop` runs only while everything is open. -/
theorem mem_held_of_recv (hc : Control s) (hrecv : s.recv ≠ .ended) :
    s.sock.toList ⊆ s.held ∧ s.notifyFd.toList ⊆ s.held ∧ s.epollFd.toList ⊆ s.held := by
  have hholds := hc.owner
  have hsome := hc.notifyFd (hc.recv hrecv)
  have hrefused : s.refused = false := by
    cases hfd : s.epollFd <;> simp_all [refused]
  cases hs : s.owner <;>
    simp_all [held, sockOpen, notifyOpen, epollOpen, OwnerPc.Holds, List.subset_def]

/-- At the console the socket is open. -/
theorem mem_held_of_command (hc : Control s) (hs : s.owner = .command) :
    s.sock.toList ⊆ s.held := by
  have hholds := hc.owner
  have hrefused : s.refused = false := by
    simp only [hs, OwnerPc.Holds] at hholds
    rcases hholds with hserver | hepoll
    · simp [refused, hserver]
    · simp [refused, Option.isNone_eq_false_iff.2 hepoll]
  simp [held, sockOpen, hs, hrefused]

/-- What a step uses is open, unless it is stale. -/
theorem mem_held_of_uses (hc : Control s) (hn : s.next l = some t) (hstale : ¬ Stale s l) :
    s.uses l ⊆ s.held := by
  have hholds := hc.owner
  cases l with
  | socket fd | stopAgain | opens fd | closes fd => simp [uses]
  | epoll fd =>
    simp only [next, Option.ite_none_right_eq_some] at hn
    simp only [hn.1, OwnerPc.Holds] at hholds
    simp [uses, held, sockOpen, refused, hn.1, hholds]
  | connect ok =>
    simp only [next, Option.ite_none_right_eq_some] at hn
    simp [uses, held, sockOpen, hn.1]
  | eventfd fd =>
    simp only [next, Option.ite_none_right_eq_some] at hn
    simp only [hn.1, OwnerPc.Holds] at hholds
    simp [uses, held, sockOpen, epollOpen, refused, hn.1, hholds]
  | owner =>
    cases hs : s.owner <;> simp only [uses, hs, List.nil_subset]
    case closeFailed => simp [held, sockOpen, hs]
    case thread | notify | closeNotify | closeEpoll =>
      simp [held, notifyOpen, epollOpen, hs]
    case closeSock =>
      have hrefused : s.refused = false := by
        by_contra hrefused
        exact hstale ⟨rfl, hs, by simpa using hrefused⟩
      simp [held, sockOpen, hs, hrefused]
  | typed => exact mem_held_of_command hc (typedNext_cases hn).1
  | sigpipe own =>
    cases own with
    | false => simp [uses]
    | true =>
      simp only [next, Option.ite_none_right_eq_some, sends, Bool.and_eq_true,
        decide_eq_true_eq] at hn
      exact mem_held_of_command hc (hn.1.2 trivial).1.1
  | wake events =>
    simp only [next, Option.ite_none_right_eq_some] at hn
    exact (mem_held_of_recv hc (by simp [hn.1.1])).2.2
  | interrupted | epollFails =>
    simp only [next, Option.ite_none_right_eq_some] at hn
    exact (mem_held_of_recv hc (by simp [hn.1])).2.2
  | read r =>
    obtain ⟨events, shown, hrecv, -⟩ := readNext_eq hn
    exact (mem_held_of_recv hc (by simp [hrecv])).1
  | recv =>
    rw [uses]
    split
    · rename_i hrecv
      exact (mem_held_of_recv hc (by simp [hrecv])).2.1
    · simp

/-- A number that the client was refused is not its own any more. -/
theorem not_mem_held_of_stale (hc : Control s) (hstale : Stale s l) : s.held = [] := by
  obtain ⟨-, hs, hrefused⟩ := hstale
  obtain ⟨hepoll, hnotify⟩ := hc.of_refused hrefused
  simp [held, sockOpen, hs, hrefused, hepoll, hnotify]

/-- Only a `close` takes a number from the table, and it is one of those used. -/
theorem table_of_next (hn : s.next l = some t) {fd : ℕ} (hother : s.table fd = some .other)
    (hlost : t.table fd ≠ some .other) : l = .closes fd ∨ fd ∈ s.uses l := by
  cases l with
  | socket n | epoll n | eventfd n =>
    simp only [next, Option.ite_none_right_eq_some, Option.map_eq_some_iff] at hn
    obtain ⟨-, table, htable, rfl⟩ := hn
    exact absurd (create_other htable hother) hlost
  | connect ok =>
    simp only [next, Option.ite_none_right_eq_some, Option.some.injEq] at hn
    obtain ⟨-, rfl⟩ := hn
    cases ok <;> exact absurd hother hlost
  | sigpipe own | stopAgain | wake events | interrupted | epollFails =>
    simp only [next, Option.ite_none_right_eq_some, Option.some.injEq] at hn
    obtain ⟨-, rfl⟩ := hn
    exact absurd hother hlost
  | typed =>
    obtain ⟨-, -, ⟨-, rfl⟩ | ⟨msg, rest, -, rfl⟩⟩ := typedNext_cases hn <;>
      exact absurd hother hlost
  | read r =>
    obtain ⟨events, shown, -, -, rfl⟩ := readNext_eq hn
    exact absurd hother hlost
  | recv =>
    simp only [next, recvNext] at hn
    split at hn <;> cases hn <;> exact absurd hother hlost
  | opens n =>
    simp only [next, Option.ite_none_right_eq_some, Option.some.injEq] at hn
    obtain ⟨⟨-, hfree⟩, rfl⟩ := hn
    have hne : fd ≠ n := fun heq => by simp [← heq, hother] at hfree
    exact absurd ((Function.update_of_ne hne _ _).trans hother) hlost
  | closes n =>
    simp only [next, Option.ite_none_right_eq_some, Option.some.injEq] at hn
    obtain ⟨-, rfl⟩ := hn
    rcases eq_or_ne fd n with rfl | hne
    · exact .inl rfl
    · exact absurd ((Function.update_of_ne hne _ _).trans hother) hlost
  | owner =>
    cases hs : s.owner <;> simp only [next, ownerNext, hs, Option.some.injEq, reduceCtorEq,
      Option.ite_none_right_eq_some] at hn
    case closeFailed | closeSock | closeNotify | closeEpoll =>
      subst hn
      exact .inr (by simpa only [uses, hs] using mem_of_close hother hlost)
    case command | join =>
      obtain ⟨-, rfl⟩ := hn
      exact absurd hother hlost
    all_goals
      subst hn
      exact absurd hother hlost

/-- **The client uses its own descriptors and takes nobody's**, in every interleaving
with the rest of the process and wherever `start` fails: a number that a step gives to a
call is the client's, and another thread loses a descriptor to it, only not where `stop`
closes the socket of a client that was refused. -/
theorem uses_iff (hs : (clientLife lines).Reachable anyStep s)
    (hn : (clientLife lines).next s l = some t) :
    (∀ fd ∈ s.uses l, s.table fd = some .mine ↔ ¬ Stale s l) ∧
      ∀ fd, s.table fd = some .other → t.table fd ≠ some .other →
        l = .closes fd ∨ Stale s l ∧ s.sock = some fd := by
  have hc := control_of_reachable hs
  have hledger := ledger_of_reachable hs (hc.owner_ne_killed hn)
  constructor
  · intro fd hfd
    rw [hledger.mem]
    constructor
    · intro hmem hstale
      simp [not_mem_held_of_stale hc hstale] at hmem
    · exact fun hstale => mem_held_of_uses hc hn hstale hfd
  · intro fd hother hlost
    rcases table_of_next hn hother hlost with rfl | hfd
    · exact .inl rfl
    · by_cases hstale : Stale s l
      · obtain ⟨rfl, hs, -⟩ := id hstale
        exact .inr ⟨hstale, by simpa [uses, hs] using hfd⟩
      · have hmine := (hledger.mem fd).2 (mem_held_of_uses hc hn hstale hfd)
        simp [hother] at hmine

/-- A client in a process without descriptors. -/
def blank (lines : List Bytes) : ClientTCP :=
  ⟨none, none, none, false, false, false, false, false, lines, [], [], [], fun _ => none,
    .socket, .ended⟩

/-- Nothing has been started. -/
theorem isStart_blank (lines : List Bytes) : IsStart lines (blank lines) where
  fds := ⟨rfl, rfl, rfl⟩
  flags := ⟨rfl, rfl, rfl, rfl⟩
  data := ⟨rfl, rfl, rfl, rfl⟩
  table := fun _ hfd => by cases hfd
  pcs := ⟨rfl, rfl⟩

/-- The client has its socket. -/
def connecting : ClientTCP :=
  { blank [] with
    sock := some 3
    table := Function.update (fun _ => none) 3 (some .mine)
    owner := .connect }

/-- The socket is there, and the connection is being made. -/
theorem reachable_connecting : (clientLife []).Reachable anyStep connecting :=
  .step (.init (isStart_blank [])) (l := .socket (some 3)) trivial rfl

/-- The connection is refused. -/
theorem uses_iff_connecting :
    (∀ fd ∈ connecting.uses (.connect false), connecting.table fd = some .mine ↔
        ¬ Stale connecting (.connect false)) ∧
      ∀ fd, connecting.table fd = some .other →
        ({ connecting with owner := .closeFailed } : ClientTCP).table fd ≠ some .other →
        ClientStep.connect false = .closes fd ∨
          Stale connecting (.connect false) ∧ connecting.sock = some fd :=
  uses_iff reachable_connecting (l := .connect false) rfl

/-- A client that was refused closes a socket of another thread. -/
example : ((clientLife []).run (blank []) [.socket (some 3), .connect false, .owner, .opens 3,
    .owner, .owner, .owner, .owner, .owner, .owner, .owner]).any (fun s =>
      s.owner = .closeSock ∧ s.refused = true ∧ s.table 3 = some .other) ∧
    ((clientLife []).run (blank []) [.socket (some 3), .connect false, .owner, .opens 3,
      .owner, .owner, .owner, .owner, .owner, .owner, .owner, .owner]).any (fun s =>
        s.table 3 = none) := by
  decide

end ClientTCP

end Client
end WeakAyas
