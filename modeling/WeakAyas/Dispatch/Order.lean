/-
# Each connection's chunks in order

The epoll thread, the pool and the active threads hand a connection to each
other, and `read` may be called by any of them but the pool.  Still the chunks
of a connection are finished in the order in which they were read, and each
before the next is read.
-/

import WeakAyas.Dispatch.Mutex

namespace WeakAyas
namespace Dispatch

open TransitionSystem

/-- The thread parses or handles a chunk of the connection. -/
def State.Handles (s : State) (t : Tid) (c : ConnId) : Prop :=
  match t with
  | .acceptor | .loop => False
  | .pool i => (∃ fd d, s.pool i = .parse fd d c) ∨ ∃ fd pkg, s.pool i = .handleRequest fd c pkg
  | .active i => (∃ fd c₁ c' d, s.active[i]? = some (.enqParse fd c₁ c' d c)) ∨
      ∃ fd c₁ c' pkg, s.active[i]? = some (.enqHandleRequest fd c₁ c' c pkg)

variable {n : ℕ} {s : State} {P : Protocol}

/-- An active thread never gets so far as to parse a chunk. -/
theorem not_handles_active (h : Refines s.obs P) (i : ℕ) (c : ConnId) :
    ¬ s.Handles (.active i) c := by
  have hnone : ∀ {p : ActivePc} {fd : Fd}, s.active[i]? = some p →
      p.view.drives = some (fd, true) → none ∉ p.view.ptrs := fun hi hdrives hp => by
    obtain ⟨σ, hσ, -⟩ := h.slot_of_drives (view_active hi) hdrives
    cases h.ptr_eq (view_active hi) hσ (.inl ⟨_, hdrives⟩) hp
  rintro (⟨fd, c₁, c', d, hi⟩ | ⟨fd, c₁, c', pkg, hi⟩)
  · exact hnone hi rfl (List.mem_singleton_self _)
  · exact hnone hi rfl (List.mem_singleton_self _)

/-- Who handles a chunk holds the `fd_mutex`. -/
theorem mutex_of_handles (h : Refines s.obs P) {t : Tid} {c : ConnId} (ht : s.Handles t c) :
    (s.info c).fdMutex = some t := by
  cases t with
  | acceptor | loop => exact ht.elim
  | pool i =>
    have hv : s.obs.view (.pool i) = (s.pool i).view := rfl
    obtain ⟨fd, d, hpc⟩ | ⟨fd, pkg, hpc⟩ := ht
    · exact h.mutex_of_view (hv.trans (congrArg PoolPc.view hpc)) rfl
    · exact h.mutex_of_view (hv.trans (congrArg PoolPc.view hpc)) rfl
  | active i => exact absurd ht (not_handles_active h i c)

/-- **The chunks of a connection are finished in the order of reading**: at most
one is read and not finished, and at most one thread handles one. -/
theorem finished_prefix_reads (hs : (worker n).Reachable anyStep s) (c : ConnId) :
    s.finished c <+: s.reads c ∧ (s.reads c).length ≤ (s.finished c).length + 1 ∧
      ∀ t t', s.Handles t c → s.Handles t' c → t = t' := by
  obtain ⟨P, h, hinv⟩ := exists_refines hs
  have hreads : s.reads c = s.finished c ++ P.pending c := by
    rw [show s.reads = P.reads from h.reads, show s.finished = P.finished from h.finished]
    exact hinv.reads c
  refine ⟨?_, ?_, fun t t' ht ht' => ?_⟩
  · rw [hreads]
    exact List.prefix_append _ _
  · rw [hreads, List.length_append]
    exact Nat.add_le_add_left (Protocol.length_pending_le_one c) _
  · have hmutex := mutex_of_handles h ht
    rw [mutex_of_handles h ht'] at hmutex
    exact (Option.some.inj hmutex).symm

/-- Two requests of a connection, handled one after the other. -/
theorem finished_prefix_reads_two :
    ∃ s, (worker 1).Reachable anyStep s ∧
      s.finished 0 = [buildPackage 1 [35], buildPackage 2 []] ∧ s.finished 0 <+: s.reads 0 := by
  obtain ⟨s, hs, hp⟩ := (reachable_start 1 anyStep).exists_of_run
    (firstChunk (buildPackage 1 [35]) ++ runTask ++ nextChunk (buildPackage 2 []) ++ runTask)
    (fun s => s.finished 0 == [buildPackage 1 [35], buildPackage 2 []])
    (fun _ _ _ => trivial) (by decide +kernel)
  exact ⟨s, hs, by simpa using hp, (finished_prefix_reads hs 0).1⟩

end Dispatch
end WeakAyas
