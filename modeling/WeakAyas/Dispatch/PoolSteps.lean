/-
# The accepting thread and the pool

Every step of `acceptNext` and `poolNext` follows the protocol.
-/

import WeakAyas.Dispatch.Follows

namespace WeakAyas
namespace Dispatch

variable {s s' : State} {P : Protocol} {t : Tid} {ch : Choice}

/-! ### The accepting thread -/

/-- What the acceptor does is an `accept`, or not observed. -/
theorem acceptNext_follows (h : Refines s.obs P) (hinv : P.Inv)
    (hn : s.acceptNext ch = some s') : Follows P s'.obs (Permits s t ch) := by
  have hv : s.obs.view .acceptor = s.acceptor.view := rfl
  unfold State.acceptNext at hn
  cases hpc : s.acceptor with rw [hpc] at hn hv
  | accept =>
    cases ch with
    | accepted fd =>
      simp only at hn
      split at hn
      · rename_i hsock
        cases hn
        have hfd : P.slot fd = none := by
          have hconn := h.socks fd
          rw [show s.obs.socks fd = none from hsock] at hconn
          exact Option.map_eq_none_iff.1 hconn.symm
        refine .inr ⟨.accept fd, _, if_pos hfd, ?_, fun _ _ ha => by cases ha⟩
        rw [State.obs_setAcceptor, State.obs_openSock]
        exact h.accept hv hfd
      · cases hn
    | _ => cases hn
  | lockMap fd c =>
    obtain rfl := lockMap_map hn
    exact .stay h hv (State.obs_setAcceptor ..)
  | insert fd c =>
    cases hn
    obtain ⟨σ, hσ, -⟩ := h.slot_of_owns hv rfl
    cases h.ptr_eq hv hσ (.inr ⟨_, rfl⟩) (List.mem_singleton_self (some c))
    refine .of_move (m := .register) hσ (.quiet rfl (by simp)) ?_
    rw [State.obs_setAcceptor, State.obs_setFdInfos]
    exact h.advance hinv hv hσ (x := none) rfl rfl trivial rfl rfl (.inl ⟨rfl, rfl⟩) (.inl rfl)
      rfl (List.nil_subset _) (.inr ⟨by simp, .inl rfl⟩)
  | unlockMap =>
    cases hn
    exact .stay h hv (State.obs_setAcceptor ..)

/-! ### The workers of the pool -/

/-- A worker takes the first task. -/
theorem dequeue_follows (h : Refines s.obs P) (hinv : P.Inv) {i : ℕ} (hpc : s.pool i = .idle)
    {fd : Fd} {d : Bytes} {tasks : List (Fd × Bytes)} (ht : s.tasks = (fd, d) :: tasks) :
    Follows P ((s.setTasks tasks).setPool i (.lookup fd d .lock)).obs (Permits s t ch) := by
  have hv : s.obs.view (.pool i) = .idle := congrArg PoolPc.view hpc
  have ht' : s.obs.tasks = (fd, d) :: tasks := ht
  obtain ⟨σ, hσ, ho⟩ := (h.tasks fd d).1 (by rw [ht']; exact List.mem_cons_self)
  have hm : σ.Allows (.dequeue i d) := ⟨by rintro _ ⟨⟩; exact ho, trivial⟩
  have heffect : s.obs.effect fd σ (.dequeue i d) = { s.obs with tasks := tasks } := by
    rw [Obs.effect, ht', List.tail_cons]
  refine .of_move (m := .dequeue i d) hσ (.quiet rfl (by simp)) ⟨hm, ?_⟩
  rw [State.obs_setPool, State.obs_setTasks, ← heffect]
  refine h.move hinv hv hσ hm (h.driver_same hv hσ rfl rfl) ?_ rfl
    (View.eq_of_on (.inl rfl) (.inr ⟨_, rfl⟩)) (fun _ hp => (by cases hp))
    (.inr ⟨by simp, .inl rfl⟩) ?_
  · exact h.owner.take (by rw [hσ, Option.bind_some, ho]; rfl) (by rw [hv]; rfl) (.executing d)
  · rintro i' d' ⟨⟩
    exact ⟨tasks, ht'⟩

/-- What a pool worker does is a move of the slot that it is in charge of. -/
theorem poolNext_follows (h : Refines s.obs P) (hinv : P.Inv) {i : ℕ}
    (hn : s.poolNext i ch = some s') : Follows P s'.obs (Permits s (.pool i) ch) := by
  have hv : s.obs.view (.pool i) = (s.pool i).view := rfl
  unfold State.poolNext at hn
  cases hpc : s.pool i with rw [hpc] at hn hv
  | idle =>
    cases ht : s.tasks with rw [ht] at hn
    | nil => cases hn
    | cons task tasks =>
      cases hn
      exact dequeue_follows h hinv hpc ht
  | lookup fd d l =>
    obtain ⟨σ, hσ, ho⟩ := h.slot_of_owns hv rfl
    cases l with
    | lock =>
      obtain rfl := lockMap_map hn
      exact .stay h hv (State.obs_setPool ..)
    | find =>
      cases hn
      left
      rw [State.obs_setPool]
      exact h.find hv hσ (by rw [ho]; rfl) (View.eq_of_on (.inl rfl) (.inr ⟨_, rfl⟩)) rfl rfl rfl
        (fun p hp => .inr (List.mem_singleton.1 hp)) (.inl rfl)
    | unlock info_ptr =>
      cases h.ptr_eq hv hσ (.inr ⟨_, rfl⟩) (List.mem_singleton_self info_ptr)
      cases hn
      exact .stay h hv (State.obs_setPool ..)
  | lockFd fd d c =>
    obtain ⟨hfree, rfl⟩ := lockFd_map hn
    exact .lock h hv hfree (State.obs_setFdMutex_setPool ..) rfl
  | parse fd d c =>
    obtain ⟨σ, hσ, -⟩ := h.slot_of_owns hv rfl
    cases h.ptr_eq hv hσ (.inr ⟨_, rfl⟩) (List.mem_singleton_self (some c))
    simp only at hn
    split at hn
    · -- rejected: the flag stays
      rename_i hreject
      cases hn
      refine .of_move (m := .reject i d) hσ
        ⟨fun _ => ⟨i, rfl, .inl ⟨fd, d, σ.conn, hpc, hreject⟩⟩, fun _ _ hm => by cases hm⟩ ?_
      rw [State.obs_setPool, State.obs_pushFinished]
      exact h.advance hinv hv hσ (x := none) rfl rfl trivial rfl rfl (.inl ⟨rfl, rfl⟩) (.inl rfl)
        rfl (List.nil_subset _) (.inr ⟨by simp, .inl rfl⟩)
    · cases hn
      refine .of_move (m := .handle i d) hσ (.quiet rfl (by simp)) ?_
      rw [State.obs_setPool, State.obs_pushFinished]
      exact h.advance hinv hv hσ (x := some .handling) rfl rfl trivial rfl rfl (.inl ⟨rfl, rfl⟩)
        (.inl rfl) rfl (List.Subset.refl _) (.inr ⟨by simp, .inl rfl⟩)
    · cases hn
  | handleRequest fd c pkg =>
    obtain ⟨σ, hσ, -⟩ := h.slot_of_owns hv rfl
    by_cases hthrown : ch = .thrown
    · -- thrown: the flag stays
      subst hthrown
      cases hn
      refine .of_move (m := .throw i) hσ
        ⟨fun _ => ⟨i, rfl, .inr ⟨⟨fd, c, pkg, hpc⟩, rfl⟩⟩, fun _ _ hm => by cases hm⟩ ?_
      rw [State.obs_setPool]
      exact h.advance hinv hv hσ (x := none) rfl rfl trivial rfl rfl (.inl ⟨rfl, rfl⟩) (.inl rfl)
        rfl (List.nil_subset _) (.inr ⟨by simp, .inl rfl⟩)
    · have hs' : s' = s.setPool i (.clearInthreadpool fd c) := by
        cases ch <;> first | exact absurd rfl hthrown | exact (Option.some.inj hn).symm
      subst hs'
      exact .stay h hv (State.obs_setPool ..)
  | clearInthreadpool fd c =>
    cases hn
    obtain ⟨σ, hσ, -⟩ := h.slot_of_owns hv rfl
    cases h.ptr_eq hv hσ (.inr ⟨_, rfl⟩) (List.mem_singleton_self (some c))
    refine .of_move (m := .clear i) hσ (.quiet rfl (by simp)) ?_
    rw [State.obs_setPool, State.obs_setFdInthreadpool]
    exact h.advance hinv hv hσ (x := none) rfl rfl trivial rfl rfl (.inl ⟨rfl, rfl⟩) (.inl rfl)
      rfl (List.nil_subset _) (.inr ⟨by simp, .inl rfl⟩)
  | notify fd c =>
    cases ch with
    | wake who =>
      obtain ⟨s₁, hnotify, rfl⟩ := Option.map_eq_some_iff.1 hn
      exact .stay h hv ((State.obs_setPool ..).trans (congrArg (Obs.setView · _ _)
        (obs_notifyOne hnotify)))
    | _ => cases hn
  | unlockFd fd c =>
    cases hn
    exact .unlock h hv (State.obs_setFdMutex_setPool ..) rfl rfl rfl rfl (List.nil_subset _) rfl

end Dispatch
end WeakAyas
