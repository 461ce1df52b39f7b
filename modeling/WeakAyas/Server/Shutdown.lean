/-
# What `stop` closes

`TCPServer::accept_loop` and `TCPServer::stop` (`TCPServer.cpp`, lines 98-147 and
192-215) with the closes of the `EpollWorker`s (`EpollWorker.cpp`, lines 378-383).

`accept_loop` appends every accepted number to `client_sockets`; `close_fd` takes
none out.  `stop` joins the accept thread and calls `shutdown` and `close` on
every entry.  So an entry for a connection that a worker has closed is stale: its
number is free, or has been handed out again, to another client or to anything
else that opens a descriptor.  `stop` closes each open connection once and
nothing else exactly when no worker has closed any (`onceEach_iff`).
-/

import WeakAyas.Library.TransitionSystem
import WeakAyas.Manager.Handlers
import Mathlib.Data.List.Range
import Mathlib.Data.List.Nodup

namespace WeakAyas
namespace Server

open TransitionSystem Manager

/-- The accept thread: before `accept`, with a number to append, or joined. -/
inductive AcceptLoop where
  | accept
  | push (fd : Fd)
  | ended
  deriving DecidableEq

/-- `TCPServer::stop`: not called, at the join, at `shutdown` of the next entry, at
`close` of an entry, or over with the clients. -/
inductive Stop where
  | idle
  | join
  | shutdown (todo : List Fd)
  | close (fd : Fd) (todo : List Fd)
  | done
  deriving DecidableEq

/-- The server and its descriptors.  A connection has a serial number of its own;
`shutdowns` and `closes` are the connections that the calls of `stop` hit, `none`
for a call on a number that no client has. -/
structure Descriptors where
  clients : List (Fd × ℕ)
  others : List Fd
  accepted : ℕ
  closedByWorkers : List ℕ
  clientSockets : List Fd
  acceptLoop : AcceptLoop
  stop : Stop
  shutdowns : List (Option ℕ)
  closes : List (Option ℕ)
  deriving DecidableEq

/-- The steps: `accept` returns a number, the accept thread appends it; a worker
closes a connection; something else opens or closes a descriptor; `stop` goes on. -/
inductive DescriptorStep where
  | accept (fd : Fd)
  | push
  | workerClose (fd : Fd)
  | openOther (fd : Fd)
  | closeOther (fd : Fd)
  | stop
  deriving DecidableEq

namespace Descriptors

/-- The client connection that has the number. -/
def client (s : Descriptors) (fd : Fd) : Option ℕ :=
  (s.clients.find? fun c => c.1 == fd).map Prod.snd

/-- The number is open. -/
def isOpen (s : Descriptors) (fd : Fd) : Bool :=
  s.clients.any (fun c => c.1 == fd) || s.others.any (· == fd)

/-- `close(fd)`, whoever has the number. -/
def closeFd (s : Descriptors) (fd : Fd) : Descriptors :=
  { s with
    clients := s.clients.filter fun c => c.1 != fd
    others := s.others.filter (· != fd) }

/-- A step of `TCPServer::stop`. -/
def stopNext (s : Descriptors) : Option Descriptors :=
  match s.stop with
  | .idle => some { s with stop := .join }
  | .join =>
    if s.acceptLoop = .accept then
      some { s with acceptLoop := .ended, stop := .shutdown s.clientSockets }
    else none
  | .shutdown (fd :: todo) =>
    some { s with shutdowns := s.shutdowns ++ [s.client fd], stop := .close fd todo }
  | .shutdown [] => some { s with clientSockets := [], stop := .done }
  | .close fd todo =>
    some { s.closeFd fd with closes := s.closes ++ [s.client fd], stop := .shutdown todo }
  | .done => none

def next (s : Descriptors) : DescriptorStep → Option Descriptors
  | .accept fd =>
    if s.acceptLoop = .accept ∧ s.isOpen fd = false then
      some { s with
        clients := s.clients ++ [(fd, s.accepted)]
        accepted := s.accepted + 1
        acceptLoop := .push fd }
    else none
  | .push => match s.acceptLoop with
    | .push fd =>
      some { s with clientSockets := s.clientSockets ++ [fd], acceptLoop := .accept }
    | _ => none
  | .workerClose fd => match s.client fd with
    | some id => some { s.closeFd fd with closedByWorkers := s.closedByWorkers ++ [id] }
    | none => none
  | .openOther fd =>
    if s.isOpen fd = false then some { s with others := s.others ++ [fd] } else none
  | .closeOther fd =>
    if fd ∈ s.others then some { s with others := s.others.filter (· != fd) } else none
  | .stop => s.stopNext

/-- A server that listens. -/
def start : Descriptors := ⟨[], [], 0, [], [], .accept, .idle, [], []⟩

end Descriptors

/-- The runs of the server. -/
def descriptors : TransitionSystem Descriptors DescriptorStep where
  init s := s = .start
  next := Descriptors.next

namespace Descriptors

/-- `stop` hits client connections only and none of them twice, and has hit every
one that no worker has closed. -/
structure OnceEach (s : Descriptors) : Prop where
  shutdownsOpen : ∀ h ∈ s.shutdowns, h.isSome
  closesOpen : ∀ h ∈ s.closes, h.isSome
  shutdownsOnce : s.shutdowns.Nodup
  closesOnce : s.closes.Nodup
  all : ∀ id < s.accepted, id ∉ s.closedByWorkers → some id ∈ s.shutdowns ∧ some id ∈ s.closes

/-- The entries that `stop` has not closed yet, and the number that is still to be
appended. -/
def entries (s : Descriptors) : List Fd :=
  match s.stop with
  | .idle | .join => s.clientSockets ++ match s.acceptLoop with
    | .push fd => [fd]
    | .accept | .ended => []
  | .shutdown todo => todo
  | .close fd todo => fd :: todo
  | .done => []

/-- `stop` has joined the accept thread. -/
def Joined (s : Descriptors) : Prop := s.stop ≠ .idle ∧ s.stop ≠ .join → s.acceptLoop = .ended

/-- The accept thread runs until `stop` has joined it. -/
theorem Joined.early {s : Descriptors} (h : s.Joined) (hacc : s.acceptLoop ≠ .ended) :
    s.stop = .idle ∨ s.stop = .join := by
  by_contra hne
  rw [not_or] at hne
  exact hacc (h hne)

/-! ### The steps -/

/-- A step, with what it checks and the state after it. -/
inductive Move (s : Descriptors) : DescriptorStep → Descriptors → Prop where
  | accept {fd : Fd} : s.acceptLoop = .accept → s.isOpen fd = false →
      Move s (.accept fd) { s with
        clients := s.clients ++ [(fd, s.accepted)], accepted := s.accepted + 1,
        acceptLoop := .push fd }
  | push {fd : Fd} : s.acceptLoop = .push fd →
      Move s .push { s with clientSockets := s.clientSockets ++ [fd], acceptLoop := .accept }
  | workerClose {fd : Fd} {id : ℕ} : s.client fd = some id →
      Move s (.workerClose fd) { s.closeFd fd with closedByWorkers := s.closedByWorkers ++ [id] }
  | openOther {fd : Fd} : s.isOpen fd = false →
      Move s (.openOther fd) { s with others := s.others ++ [fd] }
  | closeOther {fd : Fd} : fd ∈ s.others →
      Move s (.closeOther fd) { s with others := s.others.filter (· != fd) }
  | call : s.stop = .idle → Move s .stop { s with stop := .join }
  | join : s.stop = .join → s.acceptLoop = .accept →
      Move s .stop { s with acceptLoop := .ended, stop := .shutdown s.clientSockets }
  | shutdown {fd : Fd} {todo : List Fd} : s.stop = .shutdown (fd :: todo) →
      Move s .stop { s with shutdowns := s.shutdowns ++ [s.client fd], stop := .close fd todo }
  | close {fd : Fd} {todo : List Fd} : s.stop = .close fd todo →
      Move s .stop { s.closeFd fd with
        closes := s.closes ++ [s.client fd], stop := .shutdown todo }
  | clear : s.stop = .shutdown [] → Move s .stop { s with clientSockets := [], stop := .done }

variable {s s' : Descriptors} {l : DescriptorStep}

/-- A step of `stop` is a move. -/
theorem move_of_stopNext (hn : s.stopNext = some s') : Move s .stop s' := by
  unfold stopNext at hn
  split at hn
  case h_1 hstop => cases hn; exact .call hstop
  case h_2 hstop =>
    split_ifs at hn with hacc
    cases hn
    exact .join hstop hacc
  case h_3 hstop => cases hn; exact .shutdown hstop
  case h_4 hstop => cases hn; exact .clear hstop
  case h_5 hstop => cases hn; exact .close hstop
  case h_6 => cases hn

/-- Every step is a move. -/
theorem move_of_next (hn : s.next l = some s') : Move s l s' := by
  cases l with
  | accept fd =>
    simp only [Descriptors.next] at hn
    split_ifs at hn with hg
    cases hn
    exact .accept hg.1 hg.2
  | push =>
    simp only [Descriptors.next] at hn
    split at hn <;> cases hn
    exact .push ‹_›
  | workerClose fd =>
    simp only [Descriptors.next] at hn
    split at hn <;> cases hn
    exact .workerClose ‹_›
  | openOther fd =>
    simp only [Descriptors.next] at hn
    split_ifs at hn with hopen
    cases hn
    exact .openOther hopen
  | closeOther fd =>
    simp only [Descriptors.next] at hn
    split_ifs at hn with hmem
    cases hn
    exact .closeOther hmem
  | stop => exact move_of_stopNext hn

/-- After the join no more connections come. -/
theorem Joined.move (h : s.Joined) (hm : Move s l s') : s'.Joined := by
  cases hm with
  | accept hacc => exact fun hne => absurd (h.early (by simp [hacc])) (by simpa [not_or] using hne)
  | push hacc => exact fun hne => absurd (h.early (by simp [hacc])) (by simpa [not_or] using hne)
  | workerClose => exact h
  | openOther => exact h
  | closeOther => exact h
  | call => exact fun hne => absurd rfl hne.2
  | join => exact fun _ => rfl
  | shutdown hstop => exact fun _ => h (by simp [hstop])
  | close hstop => exact fun _ => h (by simp [hstop])
  | clear hstop => exact fun _ => h (by simp [hstop])

/-! ### One connection for each number -/

/-- Closing the number of a client closes that client and no other. -/
theorem length_closeFd {s : Descriptors} {fd : Fd} (hnodup : (s.clients.map Prod.fst).Nodup)
    {id : ℕ} (h : s.client fd = some id) :
    (s.closeFd fd).clients.length + 1 = s.clients.length := by
  obtain ⟨c, hc, -⟩ := Option.map_eq_some_iff.1 h
  have hmem := List.mem_of_find?_eq_some hc
  obtain rfl : c.1 = fd := by simpa using List.find?_some hc
  obtain ⟨l, l', hl⟩ := List.append_of_mem hmem
  rw [closeFd, hl]
  rw [hl, List.map_append, List.map_cons, List.nodup_middle, List.nodup_cons, List.mem_append,
    not_or] at hnodup
  have hself : ∀ l : List (Fd × ℕ), c.1 ∉ l.map Prod.fst → l.filter (fun d => d.1 != c.1) = l :=
    fun l hl => List.filter_eq_self.2 fun d hd => by
      simpa using fun heq : d.1 = c.1 => hl (heq ▸ List.mem_map_of_mem hd)
  simp only [List.filter_append, List.filter_cons, bne_self_eq_false, Bool.false_eq_true, if_false,
    hself l hnodup.1.1, hself l' hnodup.1.2, List.length_append, List.length_cons]
  omega

/-- The first entry is closed by its number. -/
theorem closeFd_cons {s : Descriptors} {c : Fd × ℕ} {rest : List (Fd × ℕ)}
    (hnodup : (s.clients.map Prod.fst).Nodup) (h : s.clients = c :: rest) :
    s.client c.1 = some c.2 ∧ (s.closeFd c.1).clients = rest := by
  rw [h, List.map_cons, List.nodup_cons] at hnodup
  constructor
  · simp [client, h]
  · rw [closeFd, h]
    simp only [List.filter_cons, bne_self_eq_false, Bool.false_eq_true, if_false]
    exact List.filter_eq_self.2 fun d hd => by
      simpa using fun heq : d.1 = c.1 => hnodup.1 (heq ▸ List.mem_map_of_mem hd)

/-- An accepted number is new. -/
theorem nodup_accept {s : Descriptors} {fd : Fd} (hnodup : (s.clients.map Prod.fst).Nodup)
    (hopen : s.isOpen fd = false) (id : ℕ) : ((s.clients ++ [(fd, id)]).map Prod.fst).Nodup := by
  simp only [isOpen, Bool.or_eq_false_iff, List.any_eq_false, beq_iff_eq] at hopen
  rw [List.map_append, List.map_singleton, List.nodup_append]
  refine ⟨hnodup, List.nodup_singleton _, fun a ha b hb => ?_⟩
  obtain ⟨c, hc, rfl⟩ := List.mem_map.1 ha
  rw [List.mem_singleton.1 hb]
  exact hopen.1 c hc

/-- No two clients are one connection. -/
theorem nodup_move (h : (s.clients.map Prod.fst).Nodup) (hm : Move s l s') :
    (s'.clients.map Prod.fst).Nodup := by
  cases hm with
  | accept _ hopen => exact nodup_accept h hopen _
  | workerClose => exact h.sublist ((List.filter_sublist).map _)
  | close => exact h.sublist ((List.filter_sublist).map _)
  | _ => exact h

/-! ### Stale entries -/

/-- As long as `stop` has hit open connections only, there is an entry for every
open connection and one for every connection that a worker has closed. -/
structure Counted (s : Descriptors) : Prop where
  joined : s.Joined
  nodup : (s.clients.map Prod.fst).Nodup
  count : (∀ h ∈ s.closes, h.isSome) →
    s.entries.length = s.clients.length + s.closedByWorkers.length

/-- Every step keeps the count. -/
theorem Counted.next (h : s.Counted) (hn : s.next l = some s') : s'.Counted := by
  have hm := move_of_next hn
  refine ⟨h.joined.move hm, nodup_move h.nodup hm, fun hsome => ?_⟩
  have hcount := h.count
  cases hm with
  | accept hacc =>
    have := hcount hsome
    rcases h.joined.early (by simp [hacc]) with hstop | hstop <;>
      simp [entries, hstop, hacc] at this ⊢ <;> omega
  | push hacc =>
    have := hcount hsome
    rcases h.joined.early (by simp [hacc]) with hstop | hstop <;>
      simp [entries, hstop, hacc] at this ⊢ <;> omega
  | workerClose hclient =>
    have hlen := length_closeFd h.nodup hclient
    have := hcount hsome
    simp only [closeFd, entries, List.length_append, List.length_singleton] at this hlen ⊢
    omega
  | openOther => exact hcount hsome
  | closeOther => exact hcount hsome
  | call hstop => simpa [entries, hstop] using hcount hsome
  | join hstop hacc => simpa [entries, hstop, hacc] using hcount hsome
  | shutdown hstop => simpa [entries, hstop] using hcount hsome
  | @close fd todo hstop =>
    -- a call that hits a client takes one entry and one connection
    have hhit : (s.client fd).isSome := hsome _ (by simp)
    obtain ⟨id, hid⟩ := Option.isSome_iff_exists.1 hhit
    have hlen := length_closeFd h.nodup hid
    have := hcount fun h hh => hsome h (by simp [hh])
    simp [entries, hstop, closeFd] at this hlen ⊢
    omega
  | clear hstop => simpa [entries, hstop] using hcount hsome

/-! ### No stale entry -/

/-- The step closes a connection of a worker. -/
def ByWorker : DescriptorStep → Prop
  | .workerClose _ => True
  | _ => False

instance (l : DescriptorStep) : Decidable (ByWorker l) := by
  cases l <;> unfold ByWorker <;> infer_instance

/-- The connections that `stop` has called `shutdown` on and not closed yet. -/
def half (s : Descriptors) : List (Fd × ℕ) :=
  match s.stop with
  | .close _ _ => s.clients.take 1
  | _ => []

/-- Without a close by a worker the entries are the open connections in order,
and `stop` has closed the oldest ones. -/
structure InOrder (s : Descriptors) : Prop where
  joined : s.Joined
  nodup : (s.clients.map Prod.fst).Nodup
  entries : s.entries = s.clients.map Prod.fst
  closed : ∃ ids, s.closes = ids.map some ∧ ids ++ s.clients.map Prod.snd = List.range s.accepted
  shutdowns : s.shutdowns = s.closes ++ s.half.map fun c => some c.2

/-- The next entry of `stop` is the first open connection. -/
theorem InOrder.first (h : s.InOrder) {fd : Fd} {todo : List Fd}
    (hentries : s.entries = fd :: todo) :
    ∃ id rest, s.clients = (fd, id) :: rest ∧ rest.map Prod.fst = todo := by
  obtain ⟨c, rest, hclients, rfl, hrest⟩ :=
    List.map_eq_cons_iff.1 (h.entries.symm.trans hentries)
  exact ⟨c.2, rest, hclients, hrest⟩

/-- Without closes of the workers every step keeps the order. -/
theorem InOrder.next (h : s.InOrder) (hok : ¬ ByWorker l) (hn : s.next l = some s') :
    s'.InOrder := by
  have hm := move_of_next hn
  have hjoined' := h.joined.move hm
  have hnodup' := nodup_move h.nodup hm
  obtain ⟨hjoined, hnodup, hentries, ⟨ids, hcloses, hids⟩, hshut⟩ := id h
  cases hm with
  | accept hacc =>
    have hstop := hjoined.early (by simp [hacc])
    refine ⟨hjoined', hnodup', ?_, ⟨ids, hcloses, ?_⟩, ?_⟩
    · rcases hstop with hstop | hstop <;>
        simpa [Descriptors.entries, hstop, hacc] using hentries
    · rw [List.map_append, List.map_singleton, ← List.append_assoc, hids, List.range_succ]
    · rcases hstop with hstop | hstop <;> simpa [half, hstop] using hshut
  | push hacc =>
    have hstop := hjoined.early (by simp [hacc])
    refine ⟨hjoined', hnodup', ?_, ⟨ids, hcloses, hids⟩, ?_⟩
    · rcases hstop with hstop | hstop <;>
        simpa [Descriptors.entries, hstop, hacc] using hentries
    · rcases hstop with hstop | hstop <;> simpa [half, hstop] using hshut
  | workerClose => exact absurd trivial hok
  | openOther => exact ⟨hjoined', hnodup', hentries, ⟨ids, hcloses, hids⟩, hshut⟩
  | closeOther => exact ⟨hjoined', hnodup', hentries, ⟨ids, hcloses, hids⟩, hshut⟩
  | call hstop =>
    exact ⟨hjoined', hnodup', by simpa [Descriptors.entries, hstop] using hentries,
      ⟨ids, hcloses, hids⟩, by simpa [half, hstop] using hshut⟩
  | join hstop hacc =>
    exact ⟨hjoined', hnodup', by simpa [Descriptors.entries, hstop, hacc] using hentries,
      ⟨ids, hcloses, hids⟩, by simpa [half, hstop] using hshut⟩
  | @shutdown fd todo hstop =>
    have hnext : s.entries = fd :: todo := by simp [Descriptors.entries, hstop]
    obtain ⟨id, rest, hclients, -⟩ := h.first hnext
    refine ⟨hjoined', hnodup', by simpa [Descriptors.entries, hstop] using hentries,
      ⟨ids, hcloses, hids⟩, ?_⟩
    have hnone : s.half = [] := by simp [half, hstop]
    rw [hnone, List.map_nil, List.append_nil] at hshut
    simp [half, hclients, hshut, (closeFd_cons hnodup hclients).1]
  | clear hstop =>
    exact ⟨hjoined', hnodup', by simpa [Descriptors.entries, hstop] using hentries,
      ⟨ids, hcloses, hids⟩, by simpa [half, hstop] using hshut⟩
  | @close fd todo hstop =>
    have hnext : s.entries = fd :: todo := by simp [Descriptors.entries, hstop]
    obtain ⟨id, rest, hclients, htodo⟩ := h.first hnext
    obtain ⟨hclient, hrest⟩ := closeFd_cons hnodup hclients
    rw [hclients, List.map_cons] at hids
    refine ⟨hjoined', hnodup', ?_, ⟨ids ++ [id], ?_, ?_⟩, ?_⟩
    · rw [hrest]
      exact htodo.symm
    · simp [hcloses, hclient]
    · change (ids ++ [id]) ++ (s.closeFd fd).clients.map Prod.snd = List.range s.accepted
      rw [hrest, List.append_assoc, List.singleton_append, hids]
    · have hhalf : s.half = [(fd, id)] := by simp [half, hstop, hclients]
      rw [hhalf] at hshut
      change s.shutdowns = s.closes ++ [s.client fd] ++ []
      rw [hshut, hclient, List.append_nil]
      rfl

/-- At the end of such a run `stop` has closed every connection once. -/
theorem InOrder.onceEach {s : Descriptors} (h : s.InOrder) (hdone : s.stop = .done) :
    s.OnceEach := by
  obtain ⟨-, -, hentries, ⟨ids, hcloses, hids⟩, hshut⟩ := h
  have hempty : s.entries = [] := by simp [Descriptors.entries, hdone]
  have hnil : s.clients = [] := by simpa using hentries.symm.trans hempty
  have hhalf : s.half = [] := by simp [half, hdone]
  rw [hnil, List.map_nil, List.append_nil] at hids
  rw [hhalf, List.map_nil, List.append_nil, hcloses] at hshut
  have hnodup : (ids.map some).Nodup :=
    (hids ▸ List.nodup_range).map (Option.some_injective ℕ)
  have hsome : ∀ h ∈ ids.map some, h.isSome := by simp
  refine ⟨hshut ▸ hsome, hcloses ▸ hsome, hshut ▸ hnodup, hcloses ▸ hnodup, fun id hid _ => ?_⟩
  have hmem : some id ∈ ids.map some := by simpa [hids] using hid
  exact ⟨hshut ▸ hmem, hcloses ▸ hmem⟩

/-! ### Runs -/

/-- The count at the start. -/
theorem counted_start : start.Counted := ⟨fun _ => by simp_all [start], by simp [start], by
  simp [start, entries]⟩

/-- The order at the start. -/
theorem inOrder_start : start.InOrder :=
  ⟨fun _ => by simp_all [start], by simp [start], by simp [start, entries],
    ⟨[], by simp [start]⟩, by simp [start, half]⟩

/-- Every close by a worker is recorded. -/
theorem closedByWorkers_next (hn : s.next l = some s') (hnil : s'.closedByWorkers = []) :
    s.closedByWorkers = [] ∧ ¬ ByWorker l := by
  cases move_of_next hn with
  | workerClose => simp at hnil
  | _ => exact ⟨hnil, id⟩

/-- Where no worker has closed anything, none has in any step. -/
theorem closedByWorkers_eq_nil {s s' : Descriptors} {ls : List DescriptorStep}
    (h : descriptors.run s ls = some s') (hnil : s'.closedByWorkers = []) :
    s.closedByWorkers = [] ∧ ∀ l ∈ ls, ¬ ByWorker l := by
  induction ls generalizing s with
  | nil =>
    obtain rfl := Option.some.inj h
    exact ⟨hnil, by simp⟩
  | cons l ls ih =>
    rw [TransitionSystem.run] at h
    split at h
    · cases h
    · rename_i t ht
      obtain ⟨htnil, hls⟩ := ih h
      obtain ⟨hsnil, hl⟩ := closedByWorkers_next ht htnil
      exact ⟨hsnil, by simpa using ⟨hl, hls⟩⟩

/-- **`stop` closes each open client once, and nothing else, exactly when no
worker has closed a connection.**  For every run of the server that ends with the
clients closed by `stop`. -/
theorem onceEach_iff {s : Descriptors} {ls : List DescriptorStep}
    (h : descriptors.run start ls = some s) (hdone : s.stop = .done) :
    s.OnceEach ↔ ∀ l ∈ ls, ¬ ByWorker l := by
  constructor
  · intro honce
    have hcounted : s.Counted :=
      (Reachable.of_run (.init rfl) ls h).invariant (by rintro _ rfl; exact counted_start)
        fun _ _ _ hs _ hn => hs.next hn
    have hlen := hcounted.count honce.closesOpen
    rw [entries, hdone, List.length_nil] at hlen
    exact (closedByWorkers_eq_nil h (List.length_eq_zero_iff.1 (by omega))).2
  · intro hls
    have hreach : descriptors.Reachable (fun _ l => ¬ ByWorker l) s :=
      .of_run_of (.init rfl) ls (fun l hl _ => hls l hl) h
    have horder : s.InOrder :=
      hreach.invariant (by rintro _ rfl; exact inOrder_start) fun _ _ _ hs hok hn => hs.next hok hn
    exact horder.onceEach hdone

/-- Two clients that stay connected. -/
theorem onceEach_iff_two :
    ∃ s, descriptors.run start [.accept 5, .push, .accept 6, .push, .stop, .stop, .stop, .stop,
      .stop, .stop, .stop] = some s ∧
      (s.OnceEach ↔ ∀ l ∈ [DescriptorStep.accept 5, .push, .accept 6, .push, .stop, .stop, .stop,
        .stop, .stop, .stop, .stop], ¬ ByWorker l) :=
  ⟨_, rfl, onceEach_iff rfl rfl⟩

/-- A client disconnects, its number becomes that of a database connection, and
`stop` closes it. -/
theorem not_onceEach_stale :
    ∃ s, descriptors.run start [.accept 5, .push, .workerClose 5, .openOther 5, .stop, .stop, .stop,
      .stop, .stop] = some s ∧ s.stop = .done ∧ s.closes = [none] ∧ ¬ s.OnceEach :=
  ⟨_, rfl, rfl, rfl, fun h => absurd (h.closesOpen none (by decide)) (by decide)⟩

end Descriptors

end Server
end WeakAyas
