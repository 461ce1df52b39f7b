/-
# One read, one message

`EpollWorker::handle_event`, `enqueue_event_wrapper_nonstatic` and the two
flags of `fd_info` that `loop` looks at, on one connection and in the serial
schedule: every chunk that `handle_event` reads goes through the thread pool
before the next event of the connection (a run of the threads,
`Dispatch.Schedule`).

Neither function keeps bytes between two reads.  A chunk is parsed on its own,
so what `handle_request` is given is the first package of every chunk, up to
the first chunk that holds none: `enqueue_event_wrapper_nonstatic` returns
there with `fd_inthreadpool` still set, the next event starts an active thread
that waits for the flag, and the connection is not read again (`serve`).

A package of payload `p` needs `7 + |p|` bytes of its own chunk
(`length_le_of_parseSockpackage`), so the requests can only be handled one by
one when every chunk is exactly one package (`serve_eq_requests_iff`).
-/

import WeakAyas.Wire.Package
import Mathlib.Algebra.Order.BigOperators.Group.List
import Mathlib.Data.List.Flatten

namespace WeakAyas
namespace Dispatch

/-- One connection between two events: the flags of its `fd_info`, and the
packages given to `handle_request` so far. -/
structure Connection where
  fdInthreadpool : Bool
  threadRunning : Bool
  handled : List SocketPackage

/-- A connection after `add_fd`. -/
def Connection.fresh : Connection := ⟨false, false, []⟩

/-- Type and payload of the packages given to `handle_request`. -/
def Connection.requests (c : Connection) : List (UInt8 × Bytes) :=
  c.handled.map fun pkg => (pkg.cType, pkg.pDataBuf.take pkg.nLen)

/-- `EpollWorker::enqueue_event_wrapper_nonstatic` when no handler fails. -/
def enqueueEventWrapper (c : Connection) (data : Bytes) : Except OutOfRange Connection := do
  match ← parseSockpackage data with
  | none => return c  -- the early return leaves `fd_inthreadpool` set
  | some pkg => return { c with handled := c.handled ++ [pkg], fdInthreadpool := false }

/-- `EpollWorker::handle_event` on a read of `data`, and the pool task that it
enqueues. -/
def handleEvent (c : Connection) (data : Bytes) : Except OutOfRange Connection :=
  enqueueEventWrapper { c with fdInthreadpool := true } data

/-- The events of `EpollWorker::loop` on one connection, `chunks` being what
its reads return.  With `fd_inthreadpool` set and no task in the pool the loop
starts an active thread, which waits for the flag and reads nothing. -/
def serve (c : Connection) : List Bytes → Except OutOfRange Connection
  | [] => .ok c
  | data :: chunks =>
    if c.threadRunning then .ok c
    else if c.fdInthreadpool then .ok { c with threadRunning := true }
    else do
      let c ← handleEvent c data
      serve c chunks

/-- What one event does: the chunk's first package is handled, or the
connection freezes. -/
theorem handleEvent_cases (c : Connection) (data : Bytes) :
    (parseSockpackage data = .ok none ∧
      handleEvent c data = .ok { c with fdInthreadpool := true }) ∨
    ∃ pkg, parseSockpackage data = .ok (some pkg) ∧
      handleEvent c data =
        .ok { c with handled := c.handled ++ [pkg], fdInthreadpool := false } := by
  rcases parseSockpackage_eq data with h | ⟨_, t, p, _, hp, -, -, h⟩
  · refine .inl ⟨h, ?_⟩
    simp [handleEvent, enqueueEventWrapper, h, bind, Except.bind, pure, Except.pure]
  · exact .inr ⟨_, h,
      by simp [handleEvent, enqueueEventWrapper, h, bind, Except.bind, pure, Except.pure]⟩

/-- The chunk `data` is accepted as the package `pkg`. -/
def Accepts (data : Bytes) (pkg : SocketPackage) : Prop := parseSockpackage data = .ok (some pkg)

/-- **The server handles one package per chunk, up to the first chunk that
holds none.** -/
theorem serve_spec (chunks : List Bytes) (c : Connection)
    (hp : c.fdInthreadpool = false) (ht : c.threadRunning = false) :
    ∃ c' pre rest pkgs, serve c chunks = .ok c' ∧ chunks = pre ++ rest ∧
      List.Forall₂ Accepts pre pkgs ∧ c'.handled = c.handled ++ pkgs := by
  induction chunks generalizing c with
  | nil => exact ⟨c, [], [], [], rfl, rfl, .nil, by simp⟩
  | cons data chunks ih =>
    rw [serve, ht, hp, if_neg (by simp), if_neg (by simp)]
    rcases handleEvent_cases c data with ⟨-, h⟩ | ⟨pkg, hpkg, h⟩
    · -- rejected: the flag stays, and the next event only starts the active thread
      rw [h]
      rcases chunks with _ | ⟨d, ds⟩
      · exact ⟨_, [], [data], [], rfl, rfl, .nil, by simp⟩
      · exact ⟨⟨true, true, c.handled⟩, [], data :: d :: ds, [],
          by simp [serve, ht, bind, Except.bind], rfl, .nil, by simp⟩
    · rw [h]
      obtain ⟨c', pre, rest, pkgs, hs, rfl, hacc, hh⟩ := ih
        { c with handled := c.handled ++ [pkg], fdInthreadpool := false } rfl ht
      exact ⟨c', data :: pre, rest, pkg :: pkgs, hs, rfl, .cons hpkg hacc, by simp [hh]⟩

/-- Lists of sizes that are pointwise below each other and have the same sum
are equal. -/
theorem eq_of_forall₂_le_of_sum_le {xs ys : List ℕ} (h : List.Forall₂ (· ≤ ·) xs ys)
    (hsum : ys.sum ≤ xs.sum) : xs = ys := by
  induction h with
  | nil => rfl
  | @cons x y xs ys hxy htail ih =>
    have := htail.sum_le_sum
    simp only [List.sum_cons] at hsum
    rw [show x = y by omega, ih (by omega)]

/-- The packages of a list of requests, as the client sends them. -/
def packages (reqs : List (UInt8 × Bytes)) : List Bytes :=
  reqs.map fun r => buildPackage r.1 r.2

/-- Accepted chunks are at least as long as the packages of what they held. -/
theorem forall₂_length_le {pre : List Bytes} {pkgs : List SocketPackage}
    (h : List.Forall₂ Accepts pre pkgs) :
    List.Forall₂ (· ≤ ·) (pkgs.map fun pkg => minPkgSize + pkg.payload.length)
      (pre.map List.length) := by
  induction h with
  | nil => exact .nil
  | cons hacc _ ih => exact .cons (length_le_of_parseSockpackage hacc) ih

theorem lengths_packages {reqs : List (UInt8 × Bytes)}
    (hreqs : ∀ r ∈ reqs, r.2.length ≤ maxBuffersize - 7) :
    (packages reqs).map List.length = reqs.map fun r => minPkgSize + r.2.length := by
  rw [packages, List.map_map]
  exact List.map_congr_left fun r hr => length_buildPackage (hreqs r hr)

/-- Chunks that are exactly the packages are handled one by one. -/
theorem serve_packages (reqs : List (UInt8 × Bytes)) (c : Connection)
    (hreqs : ∀ r ∈ reqs, r.2.length ≤ maxBuffersize - 7)
    (hp : c.fdInthreadpool = false) (ht : c.threadRunning = false) :
    ∃ c', serve c (packages reqs) = .ok c' ∧ c'.requests = c.requests ++ reqs := by
  induction reqs generalizing c with
  | nil => exact ⟨c, rfl, by simp⟩
  | cons r reqs ih =>
    obtain ⟨t, p⟩ := r
    have hle : p.length ≤ maxBuffersize - 7 := hreqs (t, p) (by simp)
    have hmax : p.length ≤ maxBuffersize := hle.trans (Nat.sub_le _ _)
    have hparse := parseSockpackage_frame (g := []) (s := []) (t := t) (by simp) hmax
    rw [List.nil_append, List.append_nil, ← buildPackage_eq_frame hle] at hparse
    rw [packages, List.map_cons, serve, ht, hp, if_neg (by simp), if_neg (by simp)]
    rcases handleEvent_cases c (buildPackage t p) with ⟨h, -⟩ | ⟨pkg, hpkg, h⟩
    · rw [hparse] at h; simp at h
    · rw [h]
      obtain ⟨c', hs, hh⟩ := ih { c with handled := c.handled ++ [pkg], fdInthreadpool := false }
        (fun r hr => hreqs r (by simp [hr])) rfl ht
      refine ⟨c', hs, ?_⟩
      rw [hparse] at hpkg
      obtain rfl := Option.some.inj (Except.ok.inj hpkg)
      rw [hh]
      simp [Connection.requests, SocketPackage.filled]

/-- **The requests are handled one by one exactly when every read returns one
package.**  For every list of requests that fit and every cutting of their
bytes into reads, the server ends without reading outside a chunk, and it has
given `handle_request` these requests, in order, iff the cuts are the package
boundaries. -/
theorem serve_eq_requests_iff (reqs : List (UInt8 × Bytes))
    (hreqs : ∀ r ∈ reqs, r.2.length ≤ maxBuffersize - 7) (chunks : List Bytes)
    (hcut : chunks.flatten = (packages reqs).flatten)
    (hpos : ∀ d ∈ chunks, 1 ≤ d.length ∧ d.length ≤ maxBuffersize) :
    ∃ c, serve .fresh chunks = .ok c ∧ (c.requests = reqs ↔ chunks = packages reqs) := by
  obtain ⟨c, pre, rest, pkgs, hs, hchunks, hacc, hh⟩ := serve_spec chunks .fresh rfl rfl
  refine ⟨c, hs, fun hreq => ?_, fun h => ?_⟩
  · -- each request needs as many bytes as its package, so no byte is left over
    have hpkgs : reqs = pkgs.map fun pkg => (pkg.cType, pkg.payload) := by
      rw [← hreq, Connection.requests, hh]
      simp [Connection.fresh, SocketPackage.payload]
    have hsizes : (pkgs.map fun pkg => minPkgSize + pkg.payload.length) =
        (packages reqs).map List.length := by
      rw [lengths_packages hreqs, hpkgs, List.map_map]
      rfl
    have htotal := congrArg List.length hcut
    rw [hchunks] at htotal
    simp only [List.flatten_append, List.length_append, List.length_flatten] at htotal
    have hle := forall₂_length_le hacc
    have hlens := eq_of_forall₂_le_of_sum_le hle (by rw [hsizes]; omega)
    have hrest : rest = [] := by
      rcases rest with _ | ⟨d, ds⟩
      · rfl
      · have hd := (hpos d (by simp [hchunks])).1
        rw [← hlens, hsizes] at htotal
        simp only [List.map_cons, List.sum_cons] at htotal
        omega
    rw [hchunks, hrest, List.append_nil] at hcut ⊢
    exact List.eq_iff_flatten_eq.2 ⟨hcut, by rw [← hlens, hsizes]⟩
  · obtain ⟨c', hs', hr⟩ := serve_packages reqs .fresh hreqs rfl rfl
    rw [h, hs'] at hs
    obtain rfl := Except.ok.inj hs
    simpa [Connection.fresh, Connection.requests] using hr

/-- Two requests in two reads are handled as sent. -/
theorem serve_eq_requests_iff_two :
    ∃ c, serve .fresh [buildPackage 1 [35, 65], buildPackage 2 []] = .ok c ∧
      (c.requests = [(1, [35, 65]), (2, [])] ↔
        [buildPackage 1 [35, 65], buildPackage 2 []] = packages [(1, [35, 65]), (2, [])]) :=
  serve_eq_requests_iff [(1, [35, 65]), (2, [])] (by decide) _ rfl (by decide)

/-- Two requests coalesced in one read: only the first is handled. -/
theorem serve_coalesced :
    ∃ reqs chunks c, (∀ r ∈ reqs, r.2.length ≤ maxBuffersize - 7) ∧
      chunks.flatten = (packages reqs).flatten ∧
      (∀ d ∈ chunks, 1 ≤ d.length ∧ d.length ≤ maxBuffersize) ∧
      serve .fresh chunks = .ok c ∧ c.requests ≠ reqs := by
  have h : (serve .fresh [buildPackage 1 [35, 65] ++ buildPackage 2 []]).map
      Connection.requests = .ok [(1, [35, 65])] := by rfl
  rcases hs : serve .fresh [buildPackage 1 [35, 65] ++ buildPackage 2 []] with e | c
  · rw [hs] at h
    cases h
  · rw [hs] at h
    refine ⟨[(1, [35, 65]), (2, [])], [buildPackage 1 [35, 65] ++ buildPackage 2 []], c,
      by decide, rfl, by decide, hs, ?_⟩
    rw [show c.requests = [(1, [35, 65])] from Except.ok.inj h]
    decide

end Dispatch
end WeakAyas
