/-
# The descriptors of the server

Which of the numbers of the process are the server's at each moment (`held`): the three
of `TCPServer::start` and its connections, for `start`, `accept_loop` and `stop`
(`TCPServer.cpp`, lines 31-147 and 192-226) with the closes of the workers.

Whatever the server uses is its own, wherever `start` fails, with one exception
(`server_uses_iff`): `stop` calls `shutdown` and `close` also for the numbers of
`client_sockets` whose connection a worker has closed.  At its end nothing is left open.
The connections are dealt to the workers in turn (`dealt_evenly`).  What the workers do
with a number beside its `close` is in `Server.Registration`.
-/

import Mathlib.Data.Int.CardIntervalMod
import WeakAyas.Server.Lifecycle

namespace WeakAyas
namespace Server

open TransitionSystem Handles

namespace TCPServerPc

/-- `stop` closes `server_sock` first, `notify_fd` and `accept_epoll_fd` after it. -/
def sockOpen : TCPServerPc → Bool
  | closeNotify | closeEpoll | stopped => false
  | _ => true

def notifyOpen : TCPServerPc → Bool
  | closeEpoll | stopped => false
  | _ => true

def epollOpen : TCPServerPc → Bool
  | stopped => false
  | _ => true

end TCPServerPc

namespace TCPServer

variable {s t : TCPServer} {l : TCPServerStep} {n : ℕ}

/-! ### The numbers of the server -/

/-- The numbers of the descriptors that are open. -/
def held (s : TCPServer) : List ℕ :=
  (if s.owner.sockOpen then s.serverSock.toList else []) ++
    (if s.owner.notifyOpen then s.notifyFd.toList else []) ++
    (if s.owner.epollOpen then s.acceptEpollFd.toList else []) ++ s.connections

/-- The numbers that are members. -/
def members (s : TCPServer) : List ℕ :=
  s.serverSock.toList ++ s.notifyFd.toList ++ s.acceptEpollFd.toList

/-- The table agrees with the members and the connections, and `stop` has every
connection on its list, and none of the members. -/
structure Ledger (s : TCPServer) : Prop where
  owns : Owns s.table s.held
  listed : ∀ fd ∈ s.connections, fd ∈ s.listed
  accepted : ∀ fd ∈ s.accepted, fd ∈ s.connections
  apart : ∀ fd ∈ s.listed, fd ∉ s.members

/-- What is open are members and connections. -/
theorem held_subset : s.held ⊆ s.members ++ s.connections := by
  intro fd hfd
  simp only [held, members, List.mem_append] at hfd ⊢
  rcases hfd with ((h | h) | h) | h
  · exact .inl (.inl (.inl (by split at h <;> first | exact h | cases h)))
  · exact .inl (.inl (.inr (by split at h <;> first | exact h | cases h)))
  · exact .inl (.inr (by split at h <;> first | exact h | cases h))
  · exact .inr h

/-- Before `start` nothing is open. -/
theorem ledger_start (h : IsStart n s) : Ledger s := by
  obtain ⟨⟨hsock, hepoll, hnotify⟩, -, ⟨-, -, -, hclients, hconn⟩, htable, howner, haccept⟩ := h
  have hheld : s.held = [] := by simp [held, hsock, hepoll, hnotify, hconn]
  have hlisted : s.listed = [] := by simp [listed, pending, howner, haccept, hclients]
  refine ⟨?_, by simp [hconn], by simp [accepted, haccept], by simp [hlisted]⟩
  rw [hheld]
  exact ⟨List.nodup_nil, fun fd => by simp [htable fd]⟩

/-- A step that opens and closes nothing. -/
theorem Ledger.of_eq (h : Ledger s) (htable : t.table = s.table) (hheld : t.held = s.held)
    (hmembers : t.members = s.members) (hconn : t.connections = s.connections)
    (hlisted : t.listed = s.listed) (haccepted : ∀ fd ∈ t.accepted, fd ∈ s.accepted) :
    Ledger t := by
  refine ⟨?_, ?_, ?_, ?_⟩
  · rw [htable, hheld]
    exact h.owns
  · rw [hconn, hlisted]
    exact h.listed
  · rw [hconn]
    exact fun fd hfd => h.accepted fd (haccepted fd hfd)
  · rw [hlisted, hmembers]
    exact h.apart

/-- No two connections have one number. -/
theorem nodup_connections (h : Ledger s) : s.connections.Nodup :=
  (List.nodup_append.1 h.owns.nodup).2.1

/-- A number that is not a connection's is not the server's either, where `stop` has it
on its list. -/
theorem Ledger.not_held (h : Ledger s) {fd : ℕ} (hlisted : fd ∈ s.listed)
    (hfd : fd ∉ s.connections) : fd ∉ s.held := by
  intro hmem
  rcases List.mem_append.1 (held_subset hmem) with hmem | hmem
  · exact h.apart fd hlisted hmem
  · exact hfd hmem

/-- The number of a connection becomes free, or one that is not the server's. -/
theorem Ledger.owns_erase (h : Ledger s) {fd : ℕ} (hfd : fd ∉ s.connections → fd ∉ s.held)
    (hopen : t.owner.sockOpen = s.owner.sockOpen ∧ t.owner.notifyOpen = s.owner.notifyOpen ∧
      t.owner.epollOpen = s.owner.epollOpen)
    (hfds : t.serverSock = s.serverSock ∧ t.notifyFd = s.notifyFd ∧
      t.acceptEpollFd = s.acceptEpollFd) (hconn : t.connections = s.connections.erase fd) :
    Owns (Handles.close s.table (some fd)) t.held := by
  have hheld : t.held = (if s.owner.sockOpen then s.serverSock.toList else []) ++
      (if s.owner.notifyOpen then s.notifyFd.toList else []) ++
      (if s.owner.epollOpen then s.acceptEpollFd.toList else []) ++ s.connections.erase fd := by
    simp only [held, hopen, hfds, hconn]
  rw [hheld]
  by_cases hmem : fd ∈ s.connections
  · exact h.owns.close
      ((List.Perm.append_left _ (List.perm_cons_erase hmem)).trans List.perm_middle)
  · rw [List.erase_of_not_mem hmem]
    exact h.owns.update (hfd hmem) (by simp)

/-- The owner: `start` creates, `stop` closes the connections of its list, then the members.
-/
theorem ledger_ownerNext (hc : Control s) (h : Ledger s) (hn : s.ownerNext = some t) :
    Ledger t := by
  have hended := hc.joined
  cases hs : s.owner <;> simp only [ownerNext, hs, Option.some.injEq, reduceCtorEq,
    Option.ite_none_right_eq_some] at hn
  case thread =>
    subst hn
    have haccept := (hc.starting (by rw [hs]; rfl)).1
    refine h.of_eq rfl ?_ rfl rfl ?_ (by simp [accepted])
    · simp [held, TCPServerPc.sockOpen, TCPServerPc.notifyOpen, TCPServerPc.epollOpen, hs]
    · simp [listed, pending, hs, haccept]
  case test =>
    subst hn
    have hclose : s.closeAll = false := by rw [hc.closeAll, hs]; rfl
    refine h.of_eq rfl ?_ rfl rfl ?_ fun _ => id
    · simp [held, TCPServerPc.sockOpen, TCPServerPc.notifyOpen, TCPServerPc.epollOpen, hs, hclose]
    · simp [listed, pending, hs, hclose]
  case join =>
    obtain ⟨haccept, rfl⟩ := hn
    refine h.of_eq rfl ?_ rfl rfl ?_ fun _ => id
    · simp [held, TCPServerPc.sockOpen, TCPServerPc.notifyOpen, TCPServerPc.epollOpen, hs]
    · simp [listed, pending, hs, haccept]
  case shutdown todo =>
    cases todo <;> obtain rfl := Option.some.inj hn <;> refine h.of_eq rfl ?_ rfl rfl ?_ fun _ => id
    · simp [held, TCPServerPc.sockOpen, TCPServerPc.notifyOpen, TCPServerPc.epollOpen, hs]
    · simp [listed, hs]
    · simp [held, TCPServerPc.sockOpen, TCPServerPc.notifyOpen, TCPServerPc.epollOpen, hs]
    · simp [listed, hs]
  case close fd todo =>
    subst hn
    have hlisted : s.listed = fd :: todo := by simp [listed, hs]
    have haccept : s.accepted = [] := by simp [accepted, hended (by rw [hs]; rfl)]
    refine ⟨?_, fun c hfd => ?_, ?_, fun c hmem => h.apart c ?_⟩
    · refine h.owns_erase (h.not_held (by simp [hlisted])) ?_ ⟨rfl, rfl, rfl⟩ rfl
      simp [TCPServerPc.sockOpen, TCPServerPc.notifyOpen, TCPServerPc.epollOpen, hs]
    · obtain ⟨hne, hmem⟩ := (nodup_connections h).mem_erase_iff.1 hfd
      exact (List.mem_cons.1 (hlisted ▸ h.listed c hmem)).resolve_left hne
    · intro c hmem
      have hmem : c ∈ s.accepted := hmem
      simp [haccept] at hmem
    · rw [hlisted]
      exact List.mem_cons_of_mem _ hmem
  case closeSock | closeNotify | closeEpoll =>
    subst hn
    have hlisted : s.listed = [] := by simp [listed, hs]
    have haccept : s.accepted = [] := by simp [accepted, hended (by rw [hs]; rfl)]
    have howns := h.owns
    refine ⟨?_, fun c hmem => ?_, fun c hmem => ?_, fun c hmem => ?_⟩
    · simp only [held, TCPServerPc.sockOpen, TCPServerPc.notifyOpen, TCPServerPc.epollOpen,
        hs] at howns ⊢
      exact howns.close (by simp)
    · simpa [hlisted] using h.listed c hmem
    · exact h.accepted c hmem
    · cases hmem
  all_goals
    subst hn
    refine h.of_eq rfl ?_ rfl rfl ?_ fun _ => id
    · simp [held, TCPServerPc.sockOpen, TCPServerPc.notifyOpen, TCPServerPc.epollOpen, hs]
    · simp [listed, pending, hs]

/-- A call of `start` that creates nothing. -/
theorem ledger_callNext (h : Ledger s) {ok : Bool} (hn : s.callNext ok = some t) :
    Ledger t := by
  cases hs : s.owner <;> simp only [callNext, hs, Option.some.injEq, reduceCtorEq] at hn <;>
    subst hn <;> refine h.of_eq rfl ?_ rfl rfl ?_ (fun _ => id) <;>
    cases ok <;> simp [held, TCPServerPc.sockOpen, TCPServerPc.notifyOpen, TCPServerPc.epollOpen,
      listed, pending, hs]

/-- `accept_loop` runs before `stop` has joined it. -/
theorem Control.not_joined (hc : Control s) (haccept : s.acceptLoop ≠ .ended) :
    s.owner.joined = false :=
  Bool.eq_false_iff.2 (mt hc.joined haccept)

/-- Before the join the list is `client_sockets`, with the connection that is not recorded
yet. -/
theorem listed_of_not_joined (h : s.owner.joined = false) :
    s.listed = s.clientSockets ++ s.pending := by
  cases hs : s.owner <;> simp_all [TCPServerPc.joined, listed]

/-- Before the join all members are open. -/
theorem held_of_not_joined (h : s.owner.joined = false) : s.held = s.members ++ s.connections := by
  cases hs : s.owner <;> simp_all [TCPServerPc.joined, held, members, TCPServerPc.sockOpen,
    TCPServerPc.notifyOpen, TCPServerPc.epollOpen]

/-- A step of `accept_loop` that opens and closes nothing. -/
theorem Ledger.of_acceptLoop (h : Ledger s) (hc : Control s) (haccept : s.acceptLoop ≠ .ended)
    (htable : t.table = s.table) (hfds : t.serverSock = s.serverSock ∧ t.notifyFd = s.notifyFd ∧
      t.acceptEpollFd = s.acceptEpollFd) (hconn : t.connections = s.connections)
    (howner : t.owner = s.owner)
    (hlisted : t.clientSockets ++ t.pending = s.clientSockets ++ s.pending)
    (haccepted : ∀ fd ∈ t.accepted, fd ∈ s.accepted) : Ledger t := by
  have hjoined := hc.not_joined haccept
  obtain ⟨hsock, hnotify, hepoll⟩ := hfds
  refine h.of_eq htable ?_ ?_ hconn ?_ haccepted
  · simp only [held, hsock, hnotify, hepoll, hconn, howner]
  · simp only [members, hsock, hnotify, hepoll]
  · rw [listed_of_not_joined hjoined, listed_of_not_joined (by rw [howner]; exact hjoined), hlisted]

/-- `accept_loop` beside `accept`: it opens and closes nothing. -/
theorem ledger_acceptNext (hc : Control s) (h : Ledger s) (hn : s.acceptNext = some t) :
    Ledger t := by
  unfold acceptNext at hn
  split at hn <;> rename_i haccept
  case h_1 =>
    cases hn
    refine h.of_acceptLoop hc (by simp [haccept]) rfl ⟨rfl, rfl, rfl⟩ rfl rfl ?_ ?_ <;>
      cases s.running <;> cases s.stopAll <;> simp [pending, accepted, haccept]
  case h_5 fd events =>
    obtain ⟨-, hn⟩ := Option.ite_none_left_eq_some.1 hn
    cases hn
    refine h.of_acceptLoop hc (by simp [haccept]) rfl ⟨rfl, rfl, rfl⟩ rfl rfl ?_ ?_ <;>
      simp [pending, accepted, haccept]
  all_goals
    cases hn <;>
      refine h.of_acceptLoop hc (by simp [haccept]) rfl ⟨rfl, rfl, rfl⟩ rfl rfl ?_ ?_ <;>
        simp [pending, accepted, haccept]

/-- The number of a new connection is none of the members. -/
theorem Ledger.of_accept (h : Ledger s) (hc : Control s) {events : List AcceptEvent} {fd : ℕ}
    {table : Table} (haccept : s.acceptLoop = .accept events)
    (htable : create s.table (some fd) = some table) :
    Ledger { s with
      table := table, connections := fd :: s.connections, acceptLoop := .addFd fd events } := by
  have hjoined := hc.not_joined (by simp [haccept])
  have hheld := held_of_not_joined hjoined
  have hlisted : s.listed = s.clientSockets := by
    simp [listed_of_not_joined hjoined, pending, haccept]
  have hfree : fd ∉ s.members := fun hmem => by
    have hmine := (h.owns.mem fd).2 (hheld ▸ List.mem_append_left _ hmem)
    simp [create, hmine] at htable
  obtain ⟨t, ht⟩ : ∃ t : TCPServer, t = { s with
      table := table, connections := fd :: s.connections, acceptLoop := .addFd fd events } :=
    ⟨_, rfl⟩
  have hnewHeld : t.held = s.members ++ fd :: s.connections := by
    rw [ht]
    exact held_of_not_joined hjoined
  have hnewListed : t.listed = s.clientSockets ++ [fd] := by
    rw [ht]
    exact listed_of_not_joined hjoined
  rw [← ht]
  refine ⟨?_, fun c hmem => ?_, fun c hmem => ?_, fun c hmem => ?_⟩
  · rw [hnewHeld, show t.table = table by rw [ht]]
    refine Owns.create h.owns htable ?_
    rw [hheld]
    exact List.perm_middle
  · rw [ht] at hmem
    rw [hnewListed, List.mem_append, List.mem_singleton]
    rcases List.mem_cons.1 hmem with rfl | hmem
    · exact .inr rfl
    · exact .inl (hlisted ▸ h.listed c hmem)
  · rw [ht] at hmem ⊢
    rw [List.mem_singleton.1 hmem]
    exact List.mem_cons_self
  · rw [hnewListed, List.mem_append, List.mem_singleton] at hmem
    rw [ht]
    rcases hmem with hmem | rfl
    · exact h.apart c (hlisted ▸ hmem)
    · exact hfree

/-- **Every step keeps the table in agreement with the server.** -/
theorem ledger_next (hc : Control s) (h : Ledger s) (hn : s.next l = some t) : Ledger t := by
  cases l with
  | owner => exact ledger_ownerNext hc h hn
  | call ok => exact ledger_callNext h hn
  | acceptLoop => exact ledger_acceptNext hc h hn
  | socket fd | epoll fd | eventfd fd =>
    have hholds := hc.owner
    simp only [next, Option.ite_none_right_eq_some, Option.map_eq_some_iff] at hn
    obtain ⟨hs, table, htable, rfl⟩ := hn
    simp only [hs, TCPServerPc.Holds] at hholds
    obtain ⟨haccept, hclients⟩ := hc.starting (by rw [hs]; rfl)
    have hlisted : s.listed = [] := by simp [listed, pending, hs, haccept, hclients]
    refine ⟨Owns.create h.owns htable ?_, fun c hmem => ?_, fun c hmem => ?_, fun c hmem => ?_⟩
    · cases fd <;> simp [held, TCPServerPc.sockOpen, TCPServerPc.notifyOpen,
        TCPServerPc.epollOpen, hs, hholds]
    · have hmem := h.listed c hmem
      simp [hlisted] at hmem
    · exact h.accepted c hmem
    · cases fd <;> simp [listed, pending, haccept, hclients] at hmem
  | accept fd =>
    simp only [next] at hn
    split at hn
    · rename_i events haccept
      obtain ⟨table, htable, rfl⟩ := Option.map_eq_some_iff.1 hn
      cases fd with
      | none =>
        obtain rfl : s.table = table := Option.some.inj htable
        refine h.of_acceptLoop hc (by simp [haccept]) rfl ⟨rfl, rfl, rfl⟩ rfl rfl ?_ ?_ <;>
          simp [pending, accepted, haccept]
      | some fd => exact h.of_accept hc haccept htable
    · cases hn
  | stopAgain =>
    simp only [next, Option.ite_none_right_eq_some, Option.some.injEq] at hn
    obtain ⟨hs, rfl⟩ := hn
    have hclose : s.closeAll = true := by rw [hc.closeAll, hs]; rfl
    rw [if_pos hclose, ← hs]
    exact h
  | wake events =>
    simp only [next, Option.ite_none_right_eq_some, Option.some.injEq] at hn
    obtain ⟨⟨haccept, -⟩, rfl⟩ := hn
    refine h.of_acceptLoop hc (by simp [haccept]) rfl ⟨rfl, rfl, rfl⟩ rfl rfl ?_ ?_ <;>
      simp [pending, accepted, haccept]
  | interrupted | epollFails =>
    simp only [next, Option.ite_none_right_eq_some, Option.some.injEq] at hn
    obtain ⟨haccept, rfl⟩ := hn
    refine h.of_acceptLoop hc (by simp [haccept]) rfl ⟨rfl, rfl, rfl⟩ rfl rfl ?_ ?_ <;>
      simp [pending, accepted, haccept]
  | workerCloses fd =>
    simp only [next, Option.ite_none_right_eq_some, Option.some.injEq] at hn
    obtain ⟨⟨hmem, haccepted⟩, rfl⟩ := hn
    refine ⟨h.owns_erase (fun hnot => absurd hmem hnot) ⟨rfl, rfl, rfl⟩ ⟨rfl, rfl, rfl⟩ rfl,
      fun c hc => h.listed c (List.mem_of_mem_erase hc), fun c hc => ?_, h.apart⟩
    have hne : c ≠ fd := fun heq => haccepted (heq ▸ hc)
    exact (nodup_connections h).mem_erase_iff.2 ⟨hne, h.accepted c hc⟩
  | stopAll =>
    obtain rfl := Option.some.inj hn
    exact h.of_eq rfl rfl rfl rfl rfl fun _ => id
  | opens fd | closes fd =>
    simp only [next, Option.ite_none_right_eq_some, Option.some.injEq] at hn
    obtain ⟨hfd, rfl⟩ := hn
    refine ⟨Owns.update h.owns (fun hmem => ?_) (by simp), h.listed, h.accepted, h.apart⟩
    simp [(h.owns.mem fd).2 hmem] at hfd

/-- The table agrees with the server in every state. -/
theorem ledger_of_reachable (hs : (serverLife n).Reachable anyStep s) : Ledger s :=
  hs.invariant_with (I := Ledger) (fun _ hr => control_of_reachable hr)
    (fun _ hinit => ledger_start hinit) fun _ _ _ hc h _ hn => ledger_next hc h hn

/-! ### What a step uses -/

/-- The numbers that a step gives to a call; `epoll_create1` comes after the `fcntl` of
`set_nonblocking(server_sock)`, and `add_fd` after that of the connection. -/
def uses (s : TCPServer) : TCPServerStep → List ℕ
  | .epoll _ => s.serverSock.toList
  | .call _ => match s.owner with
    | .addSock => s.acceptEpollFd.toList ++ s.serverSock.toList
    | .addNotify => s.acceptEpollFd.toList ++ s.notifyFd.toList
    | _ => s.serverSock.toList
  | .owner => match s.owner with
    | .notify | .closeNotify => s.notifyFd.toList
    | .shutdown (fd :: _) | .close fd _ => [fd]
    | .closeSock => s.serverSock.toList
    | .closeEpoll => s.acceptEpollFd.toList
    | _ => []
  | .acceptLoop => match s.acceptLoop with
    | .batch (.notify :: _) => s.notifyFd.toList
    | .addFd fd _ => [fd]
    | _ => []
  | .wake _ | .interrupted | .epollFails => s.acceptEpollFd.toList
  | .accept _ => s.serverSock.toList
  | .workerCloses fd => [fd]
  | .socket _ | .eventfd _ | .stopAgain | .stopAll | .opens _ | .closes _ => []

/-- `stop` comes to a number whose connection a worker has closed. -/
def Stale (s : TCPServer) (l : TCPServerStep) (fd : ℕ) : Prop :=
  l = .owner ∧ (∃ todo, s.owner = .shutdown (fd :: todo) ∨ s.owner = .close fd todo) ∧
    fd ∉ s.connections

/-- What a step uses is open, unless it is stale. -/
theorem mem_held_of_uses (hc : Control s) (h : Ledger s) (hn : s.next l = some t) {fd : ℕ}
    (hfd : fd ∈ s.uses l) (hstale : ¬ Stale s l fd) : fd ∈ s.held := by
  have hholds := hc.owner
  have hconn : ∀ fd ∈ s.connections, fd ∈ s.held := fun fd hmem => List.mem_append_right _ hmem
  have hmembers : s.owner.joined = false → ∀ fd ∈ s.members, fd ∈ s.held := by
    intro hjoined fd hmem
    rw [held_of_not_joined hjoined]
    exact List.mem_append_left _ hmem
  cases l with
  | socket fd | eventfd fd | stopAgain | stopAll | opens fd | closes fd => cases hfd
  | epoll fd' =>
    simp only [next, Option.ite_none_right_eq_some] at hn
    exact hmembers (by rw [hn.1]; rfl) fd (by simp_all [uses, members])
  | call ok =>
    simp only [next, callNext] at hn
    split at hn <;> cases hn <;> rename_i hs <;>
      exact hmembers (by rw [hs]; rfl) fd (by simp_all [uses, members] <;> tauto)
  | owner =>
    cases hs : s.owner <;> simp only [uses, hs, List.not_mem_nil] at hfd
    case notify => exact hmembers (by rw [hs]; rfl) fd (by simp_all [members])
    case closeSock | closeNotify | closeEpoll =>
      simp [held, hs, TCPServerPc.sockOpen, TCPServerPc.notifyOpen, TCPServerPc.epollOpen, hfd]
    case shutdown todo =>
      cases todo with
      | nil => cases hfd
      | cons fd' todo =>
        obtain rfl := List.mem_singleton.1 hfd
        exact hconn fd (by_contra fun hnot => hstale ⟨rfl, ⟨todo, .inl hs⟩, hnot⟩)
    case close fd' todo =>
      obtain rfl := List.mem_singleton.1 hfd
      exact hconn fd (by_contra fun hnot => hstale ⟨rfl, ⟨todo, .inr hs⟩, hnot⟩)
  | acceptLoop =>
    rw [uses] at hfd
    split at hfd
    · rename_i haccept
      exact hmembers (hc.not_joined (by simp [haccept])) fd (by simp_all [members])
    · rename_i fd' events haccept
      exact hconn fd (h.accepted fd (by rw [accepted, haccept]; exact hfd))
    · cases hfd
  | wake events =>
    simp only [next, Option.ite_none_right_eq_some] at hn
    exact hmembers (hc.not_joined (by simp [hn.1.1])) fd (by simp_all [uses, members])
  | interrupted | epollFails =>
    simp only [next, Option.ite_none_right_eq_some] at hn
    exact hmembers (hc.not_joined (by simp [hn.1])) fd (by simp_all [uses, members])
  | accept fd =>
    simp only [next] at hn
    split at hn
    · rename_i events haccept
      exact hmembers (hc.not_joined (by simp [haccept])) _ (by simp_all [uses, members])
    · cases hn
  | workerCloses fd' =>
    simp only [next, Option.ite_none_right_eq_some] at hn
    rw [List.mem_singleton.1 hfd]
    exact hconn fd' hn.1.1

/-- A stale number is not the server's. -/
theorem not_mem_held_of_stale (h : Ledger s) {fd : ℕ} (hstale : Stale s l fd) :
    fd ∉ s.held := by
  obtain ⟨-, ⟨todo, hs | hs⟩, hfd⟩ := hstale <;>
    exact h.not_held (by simp [listed, hs]) hfd

/-- Only a `close` takes a number from the table, and it is one of those used. -/
theorem table_of_next (hn : s.next l = some t) {fd : ℕ} (hother : s.table fd = some .other)
    (hlost : t.table fd ≠ some .other) : l = .closes fd ∨ fd ∈ s.uses l := by
  cases l with
  | socket m | epoll m | eventfd m =>
    simp only [next, Option.ite_none_right_eq_some, Option.map_eq_some_iff] at hn
    obtain ⟨-, table, htable, rfl⟩ := hn
    exact absurd (create_other htable hother) hlost
  | accept m =>
    simp only [next] at hn
    split at hn
    · obtain ⟨table, htable, rfl⟩ := Option.map_eq_some_iff.1 hn
      exact absurd (create_other htable hother) hlost
    · cases hn
  | call ok =>
    simp only [next, callNext] at hn
    split at hn <;> cases hn <;> exact absurd hother hlost
  | acceptLoop =>
    simp only [next, acceptNext] at hn
    split at hn
    case h_5 =>
      obtain ⟨-, hn⟩ := Option.ite_none_left_eq_some.1 hn
      cases hn
      exact absurd hother hlost
    all_goals cases hn <;> exact absurd hother hlost
  | owner =>
    cases hs : s.owner <;> simp only [next, ownerNext, hs, Option.some.injEq, reduceCtorEq,
      Option.ite_none_right_eq_some] at hn
    case join =>
      obtain ⟨-, rfl⟩ := hn
      exact absurd hother hlost
    case shutdown todo =>
      cases todo <;> obtain rfl := Option.some.inj hn <;> exact absurd hother hlost
    case close fd' todo =>
      subst hn
      have hmem : fd ∈ (some fd').toList := mem_of_close hother hlost
      exact .inr (by simpa [uses, hs] using hmem)
    case closeSock | closeNotify | closeEpoll =>
      subst hn
      exact .inr (by simpa [uses, hs] using mem_of_close hother hlost)
    all_goals
      subst hn
      exact absurd hother hlost
  | workerCloses fd' =>
    simp only [next, Option.ite_none_right_eq_some, Option.some.injEq] at hn
    obtain ⟨-, rfl⟩ := hn
    have hmem : fd ∈ (some fd').toList := mem_of_close hother hlost
    exact .inr (by simpa [uses] using hmem)
  | stopAll =>
    obtain rfl := Option.some.inj hn
    exact absurd hother hlost
  | stopAgain | wake events | interrupted | epollFails =>
    simp only [next, Option.ite_none_right_eq_some, Option.some.injEq] at hn
    obtain ⟨-, rfl⟩ := hn
    exact absurd hother hlost
  | opens m =>
    simp only [next, Option.ite_none_right_eq_some, Option.some.injEq] at hn
    obtain ⟨hfree, rfl⟩ := hn
    have hne : fd ≠ m := fun heq => by simp [← heq, hother] at hfree
    exact absurd ((Function.update_of_ne hne _ _).trans hother) hlost
  | closes m =>
    simp only [next, Option.ite_none_right_eq_some, Option.some.injEq] at hn
    obtain ⟨-, rfl⟩ := hn
    refine .inl (by_contra fun hne => hlost ?_)
    have hne : fd ≠ m := fun heq => hne (heq ▸ rfl)
    exact (Function.update_of_ne hne _ _).trans hother

/-- **The server uses its own descriptors and takes nobody's**, wherever `start` fails:
the one exception are the numbers of `client_sockets` whose connection a worker has
closed.  At the end of `stop` nothing is left open. -/
theorem server_uses_iff (hs : (serverLife n).Reachable anyStep s) (hn : s.next l = some t) :
    (∀ fd ∈ s.uses l, s.table fd = some .mine ↔ ¬ Stale s l fd) ∧
      (∀ fd, s.table fd = some .other → t.table fd ≠ some .other →
        l = .closes fd ∨ Stale s l fd) ∧
      (s.owner = .stopped → ∀ fd, s.table fd ≠ some .mine) := by
  have hc := control_of_reachable hs
  have hledger := ledger_of_reachable hs
  refine ⟨fun fd hfd => ⟨?_, ?_⟩, fun fd hother hlost => ?_, fun hstopped fd hmine => ?_⟩
  · intro hmine hstale
    exact not_mem_held_of_stale hledger hstale ((hledger.owns.mem fd).1 hmine)
  · exact fun hstale => (hledger.owns.mem fd).2 (mem_held_of_uses hc hledger hn hfd hstale)
  · rcases table_of_next hn hother hlost with hcloses | hfd
    · exact .inl hcloses
    · refine .inr (by_contra fun hstale => ?_)
      have hmine := (hledger.owns.mem fd).2 (mem_held_of_uses hc hledger hn hfd hstale)
      simp [hother] at hmine
  · have hlisted : s.listed = [] := by simp [listed, hstopped]
    have hmem := (hledger.owns.mem fd).1 hmine
    have hconn : fd ∈ s.connections := by
      simpa [held, hstopped, TCPServerPc.sockOpen, TCPServerPc.notifyOpen,
        TCPServerPc.epollOpen] using hmem
    simpa [hlisted] using hledger.listed fd hconn

/-- A server of two workers in a process without descriptors. -/
def unstarted : TCPServer :=
  ⟨none, none, none, false, false, false, false, 2, 0, [], [], [], fun _ => none, .socket, .ended⟩

/-- It has not been started. -/
theorem isStart_unstarted : IsStart 2 unstarted where
  fds := ⟨rfl, rfl, rfl⟩
  flags := ⟨rfl, rfl, rfl⟩
  data := ⟨rfl, rfl, rfl, rfl, rfl⟩
  table := fun _ hfd => by cases hfd
  pcs := ⟨rfl, rfl⟩

/-- `start` succeeds, and three connections are accepted. -/
def accepts : List TCPServerStep :=
  [.socket (some 3), .call true, .call true, .call true, .epoll (some 4), .call true,
    .eventfd (some 5), .call true, .owner, .acceptLoop, .wake [.sock], .acceptLoop,
    .accept (some 6), .acceptLoop, .acceptLoop, .accept (some 7), .acceptLoop, .acceptLoop,
    .accept (some 8), .acceptLoop, .acceptLoop, .accept none]

/-- A worker closes a connection, and `stop` comes to its number. -/
def stops : List TCPServerStep :=
  [.workerCloses 7, .owner, .owner, .owner, .owner, .owner, .acceptLoop, .acceptLoop, .owner,
    .owner, .owner]

/-- `stop` comes to a number whose connection a worker has closed. -/
theorem server_uses_iff_stops : ∃ s t : TCPServer, s.next .owner = some t ∧
    s.uses .owner = [7] ∧ s.connections = [8] ∧
    (∀ fd ∈ s.uses .owner, s.table fd = some .mine ↔ ¬ Stale s .owner fd) ∧
      (∀ fd, s.table fd = some .other → t.table fd ≠ some .other →
        TCPServerStep.owner = .closes fd ∨ Stale s .owner fd) ∧
      (s.owner = .stopped → ∀ fd, s.table fd ≠ some .mine) := by
  obtain ⟨s, hs, hp⟩ := Reachable.exists_of_run (M := serverLife 2) (.init isStart_unstarted)
    (accepts ++ stops)
    (fun s => (s.next .owner).isSome ∧ s.uses .owner = [7] ∧ s.connections = [8])
    (fun _ _ _ => trivial) (by decide +kernel)
  obtain ⟨hnext, huses, hconn⟩ : (s.next .owner).isSome ∧ s.uses .owner = [7] ∧
      s.connections = [8] := by simpa using hp
  obtain ⟨t, ht⟩ := Option.isSome_iff_exists.1 hnext
  exact ⟨s, t, ht, huses, hconn, server_uses_iff hs ht⟩

/-! ### How the connections are dealt -/

/-- The calls of `add_fd` go round the workers, and what they were given is recorded. -/
structure Dealt (n : ℕ) (s : TCPServer) : Prop where
  workers : s.workers = n
  nextWorker : s.nextWorker = s.added.length % n
  turns : s.added.map Prod.fst = (List.range s.added.length).map (· % n)
  recorded : s.owner.joined = false →
    s.added.map Prod.snd ++ s.accepted = s.clientSockets ++ s.pending

/-- Before `start` no connection has been dealt. -/
theorem dealt_start (h : IsStart n s) : Dealt n s := by
  obtain ⟨-, -, ⟨hworkers, hnext, hadded, hclients, -⟩, -, -, haccept⟩ := h
  exact ⟨hworkers, by simp [hnext, hadded], by simp [hadded],
    by simp [hadded, hclients, accepted, pending, haccept]⟩

/-- A step that deals nothing. -/
theorem Dealt.of_eq (h : Dealt n s) (hworkers : t.workers = s.workers)
    (hnext : t.nextWorker = s.nextWorker) (hadded : t.added = s.added)
    (hrecorded : t.owner.joined = false → s.owner.joined = false ∧
      (s.added.map Prod.snd ++ s.accepted = s.clientSockets ++ s.pending →
        s.added.map Prod.snd ++ t.accepted = t.clientSockets ++ t.pending)) : Dealt n t := by
  refine ⟨hworkers.trans h.workers, ?_, by rw [hadded]; exact h.turns, fun ht => ?_⟩
  · rw [hnext, hadded]
    exact h.nextWorker
  · obtain ⟨hs, hstep⟩ := hrecorded ht
    rw [hadded]
    exact hstep (h.recorded hs)

/-- `accept_loop`: an `add_fd` is the next turn. -/
theorem dealt_acceptNext (h : Dealt n s) (hn : s.acceptNext = some t) : Dealt n t := by
  have hrecorded := h.recorded
  unfold acceptNext at hn
  split at hn <;> rename_i haccept
  case h_1 =>
    cases hn
    refine h.of_eq rfl rfl rfl fun hs => ⟨hs, ?_⟩
    cases s.running <;> cases s.stopAll <;> simp [accepted, pending, haccept]
  case h_5 fd events =>
    obtain ⟨-, hn⟩ := Option.ite_none_left_eq_some.1 hn
    cases hn
    refine ⟨h.workers, ?_, ?_, fun hs => ?_⟩
    · simp [h.workers, h.nextWorker, Nat.add_mod]
    · simp [h.turns, h.nextWorker, List.range_succ]
    · simpa [accepted, pending, haccept] using hrecorded hs
  all_goals
    cases hn <;>
      exact h.of_eq rfl rfl rfl fun hs => ⟨hs, by simp [accepted, pending, haccept]⟩

/-- **Every step deals in turn, or deals nothing.** -/
theorem dealt_next (hc : Control s) (h : Dealt n s) (hn : s.next l = some t) : Dealt n t := by
  cases l with
  | acceptLoop => exact dealt_acceptNext h hn
  | owner =>
    cases hs : s.owner <;> simp only [next, ownerNext, hs, Option.some.injEq, reduceCtorEq,
      Option.ite_none_right_eq_some] at hn
    case thread =>
      subst hn
      have haccept := (hc.starting (by rw [hs]; rfl)).1
      exact h.of_eq rfl rfl rfl fun _ => ⟨by rw [hs]; rfl, by simp [accepted, pending, haccept]⟩
    case join =>
      obtain ⟨-, rfl⟩ := hn
      exact h.of_eq rfl rfl rfl fun hj => by cases hj
    case shutdown todo =>
      cases todo <;> obtain rfl := Option.some.inj hn <;>
        exact h.of_eq rfl rfl rfl fun hj => by cases hj
    case close | closeSock | closeNotify | closeEpoll =>
      subst hn
      exact h.of_eq rfl rfl rfl fun hj => by cases hj
    all_goals
      subst hn
      exact h.of_eq rfl rfl rfl fun _ => ⟨by rw [hs]; rfl, id⟩
  | call ok =>
    simp only [next, callNext] at hn
    split at hn <;> cases hn <;> rename_i hs <;>
      exact h.of_eq rfl rfl rfl fun _ => ⟨by rw [hs]; rfl, id⟩
  | socket fd | epoll fd | eventfd fd =>
    simp only [next, Option.ite_none_right_eq_some, Option.map_eq_some_iff] at hn
    obtain ⟨hs, table, -, rfl⟩ := hn
    exact h.of_eq rfl rfl rfl fun _ => ⟨by rw [hs]; rfl, id⟩
  | accept fd =>
    simp only [next] at hn
    split at hn
    · rename_i events haccept
      obtain ⟨table, -, rfl⟩ := Option.map_eq_some_iff.1 hn
      refine h.of_eq rfl rfl rfl fun hs => ⟨hs, ?_⟩
      cases fd <;> simp [accepted, pending, haccept]
    · cases hn
  | stopAgain =>
    simp only [next, Option.ite_none_right_eq_some, Option.some.injEq] at hn
    obtain ⟨hs, rfl⟩ := hn
    have hclose : s.closeAll = true := by rw [hc.closeAll, hs]; rfl
    rw [if_pos hclose, ← hs]
    exact h
  | wake events =>
    simp only [next, Option.ite_none_right_eq_some, Option.some.injEq] at hn
    obtain ⟨⟨haccept, -⟩, rfl⟩ := hn
    exact h.of_eq rfl rfl rfl fun hs => ⟨hs, by simp [accepted, pending, haccept]⟩
  | interrupted | epollFails =>
    simp only [next, Option.ite_none_right_eq_some, Option.some.injEq] at hn
    obtain ⟨haccept, rfl⟩ := hn
    exact h.of_eq rfl rfl rfl fun hs => ⟨hs, by simp [accepted, pending, haccept]⟩
  | stopAll =>
    obtain rfl := Option.some.inj hn
    exact h.of_eq rfl rfl rfl fun hs => ⟨hs, id⟩
  | workerCloses fd | opens fd | closes fd =>
    simp only [next, Option.ite_none_right_eq_some, Option.some.injEq] at hn
    obtain ⟨-, rfl⟩ := hn
    exact h.of_eq rfl rfl rfl fun hs => ⟨hs, id⟩

/-- Of the first `m` turns the worker `w` has one in `n`. -/
theorem count_turns {w : ℕ} (hw : w < n) (m : ℕ) :
    ((List.range m).map (· % n)).count w = m / n + if w < m % n then 1 else 0 := by
  have hcount : ((List.range m).map (· % n)).count w = Nat.count (· ≡ w [MOD n]) m := by
    induction m with
    | zero => rfl
    | succ m ih =>
      rw [List.range_succ, List.map_append, List.count_append, ih, Nat.count_succ]
      simp [Nat.ModEq, Nat.mod_eq_of_lt hw, List.count_singleton]
  rw [hcount, Nat.count_modEq_card m (Nat.zero_lt_of_lt hw) w, Nat.mod_eq_of_lt hw]

/-- **The connections are dealt to the workers in turn**: of `m` connections the worker
`w` has been given `m / n`, and one more if it comes before `m % n`; until `stop` has
joined `accept_loop` they are what `client_sockets` lists.  Without workers `add_fd` is
not called, since `workers[next_worker]` is not defined. -/
theorem dealt_evenly (hs : (serverLife n).Reachable anyStep s) :
    (∀ w < n, (s.added.map Prod.fst).count w =
        s.added.length / n + if w < s.added.length % n then 1 else 0) ∧
      (s.owner.joined = false →
        s.added.map Prod.snd ++ s.accepted = s.clientSockets ++ s.pending) := by
  have hdealt : Dealt n s := hs.invariant_with (I := Dealt n)
    (fun _ hr => control_of_reachable hr) (fun _ hinit => dealt_start hinit)
    fun _ _ _ hc h _ hn => dealt_next hc h hn
  refine ⟨fun w hw => ?_, hdealt.recorded⟩
  rw [hdealt.turns]
  exact count_turns hw _

/-- Three connections for two workers. -/
theorem dealt_evenly_accepts : ∃ s : TCPServer, s.added = [(0, 6), (1, 7), (0, 8)] ∧
    (∀ w < 2, (s.added.map Prod.fst).count w =
        s.added.length / 2 + if w < s.added.length % 2 then 1 else 0) ∧
      (s.owner.joined = false →
        s.added.map Prod.snd ++ s.accepted = s.clientSockets ++ s.pending) := by
  obtain ⟨s, hs, hp⟩ := Reachable.exists_of_run (M := serverLife 2) (.init isStart_unstarted)
    accepts (fun s => s.added = [(0, 6), (1, 7), (0, 8)]) (fun _ _ _ => trivial)
    (by decide +kernel)
  exact ⟨s, by simpa using hp, dealt_evenly hs⟩

end TCPServer

end Server
end WeakAyas
