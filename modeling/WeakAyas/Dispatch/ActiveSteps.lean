/-
# The active threads

Every step of `activeNext` follows the protocol.  A chunk that an active thread
reads stays with it: `active_enqueue_event` waits for the mutex that its caller
holds (`enqLockFd_holds`).
-/

import WeakAyas.Dispatch.Follows

namespace WeakAyas
namespace Dispatch

variable {s s' : State} {P : Protocol} {t : Tid} {ch : Choice}

/-- The active thread finds `fd_inthreadpool` not set, and goes on to read. -/
theorem activeTake_follows (h : Refines s.obs P) (hinv : P.Inv) {i : ℕ} {fd : Fd} {c c' : ConnId}
    (hi : s.active[i]? = some (.checkInthreadpool fd c c'))
    (hflag : (s.info c').fdInthreadpool = false) :
    Follows P (s.setActive i (.read fd c c')).obs (Permits s t ch) := by
  have hv := view_active hi
  obtain ⟨σ, hσ, -⟩ := h.slot_of_drives hv rfl
  cases h.ptr_eq hv hσ (.inl ⟨_, rfl⟩) (p := some c') (by simp [ActivePc.view])
  refine .of_move (m := .take (.active i)) hσ (.quiet rfl (by simp)) ?_
  rw [State.obs_setActive s hi]
  exact h.take hinv hv hσ rfl rfl hflag rfl rfl rfl (List.Subset.refl _) rfl

/-- `activefd_handle_event` reads. -/
theorem activeRead_follows (h : Refines s.obs P) (hinv : P.Inv) {i : ℕ} {fd : Fd} {c c' : ConnId}
    (hi : s.active[i]? = some (.read fd c c')) {r : State.ReadResult}
    (hn : (s.receive fd r).map (·.setActive i (match r with
      | .data d => .enqLookup fd c c' d .lock
      | .eof => .unlockFd fd c c' false
      | .eintr => .read fd c c'
      | .eagain => .unlockFd fd c c' true
      | .error => .unlockFd fd c c' false)) = some s') :
    Follows P s'.obs (Permits s (.active i) (.read r)) := by
  have hv := view_active hi
  obtain ⟨s₁, hreceive, rfl⟩ := Option.map_eq_some_iff.1 hn
  obtain ⟨σ, hσ, -⟩ := h.slot_of_drives hv rfl
  have hsock : s.socks fd = some σ.conn := by
    rw [show s.socks fd = s.obs.socks fd from rfl, h.socks, hσ]
    rfl
  obtain rfl := receive_eq hsock hreceive
  cases r with
  | data d =>
    refine .of_move (m := .read (.active i) d) hσ
      ⟨fun hm => (by cases hm), fun _ _ _ => ⟨i, fd, c, c', d, rfl, hi, rfl⟩⟩ ?_
    rw [State.received, State.obs_setActive (s.pushRead σ.conn d) hi, State.obs_pushRead]
    exact h.advance hinv hv hσ (x := some (.got d)) rfl rfl trivial rfl rfl (.inl ⟨rfl, rfl⟩)
      (.inr ⟨_, rfl⟩) rfl (List.Subset.refl _) (.inr ⟨by simp, .inl rfl⟩)
  | eagain =>
    refine .of_move (m := .release i) hσ (.quiet rfl (by simp)) ?_
    rw [show s.received σ.conn .eagain = s from rfl, State.obs_setActive s hi]
    exact h.advance hinv hv hσ (x := none) rfl rfl trivial rfl rfl (.inl ⟨rfl, rfl⟩) (.inr ⟨_, rfl⟩)
      rfl (List.Subset.refl _) (.inr ⟨by simp, .inl rfl⟩)
  | eof | eintr | error =>
    exact .stay h hv (State.obs_setActive s hi _)

/-- The active thread would lock the `fd_mutex` that it holds. -/
theorem enqLockFd_holds (h : Refines s.obs P) {i : ℕ} {fd : Fd} {c c' c'' : ConnId} {d : Bytes}
    (hi : s.active[i]? = some (.enqLockFd fd c c' d c'')) :
    (s.info c'').fdMutex = some (.active i) := by
  have hv := view_active hi
  obtain ⟨σ, hσ, -⟩ := h.slot_of_drives hv rfl
  cases h.ptr_eq hv hσ (.inl ⟨_, rfl⟩) (p := some c') (by simp [ActivePc.view])
  cases h.ptr_eq hv hσ (.inl ⟨_, rfl⟩) (p := some c'') (by simp [ActivePc.view])
  exact h.mutex_of_view hv rfl

/-- The active thread clears `thread_running`. -/
theorem retire_follows (h : Refines s.obs P) (hinv : P.Inv) {i : ℕ} {fd : Fd} {c : ConnId}
    (hi : s.active[i]? = some (.endRunning fd c)) :
    Follows P ((s.setThreadRunning c false).setActive i (.endNotify fd c)).obs
      (Permits s t ch) := by
  have hv := view_active hi
  obtain ⟨σ, hσ, hdriver⟩ := h.slot_of_drives hv rfl
  cases h.ptr_eq hv hσ (.inl ⟨_, rfl⟩) (List.mem_singleton_self (some c))
  have hheld := h.not_heldBy hv rfl hσ
  have hm : σ.Allows (.retire i) := ⟨fun _ ho => (by cases ho), hdriver, hheld⟩
  refine .of_move (m := .retire i) hσ (.quiet rfl (by simp)) ⟨hm, ?_⟩
  rw [State.obs_setActive (s.setThreadRunning σ.conn false) hi, State.obs_setThreadRunning]
  exact h.redrive (x := none) hinv hv hσ hm rfl rfl rfl rfl rfl rfl rfl (List.nil_subset _)
    (.inr ⟨by simp, .inl ((hinv.ok fd σ hσ).registered (Refines.drivenBy hdriver) hheld)⟩)

theorem activeClose_follows (h : Refines s.obs P) (hinv : P.Inv) {i : ℕ} {fd : Fd} {c : ConnId}
    {k : CloseFd} (hi : s.active[i]? = some (.closeFd fd c k))
    (hn : s.activeNext i ch (.closeFd fd c k) = some s') : Follows P s'.obs (Permits s t ch) := by
  have hv := view_active hi
  cases k with
  | lock =>
    obtain rfl := lockMap_map hn
    exact .stay h hv (State.obs_setActive (s.setFdMap _) hi _)
  | erase =>
    cases hn
    obtain ⟨σ, hσ, hdriver⟩ := h.slot_of_drives hv rfl
    refine .of_move (m := .erase (.active i)) hσ (.quiet rfl (by simp)) ?_
    rw [State.obs_setActive (s.setFdInfos fd none) hi, State.obs_setFdInfos]
    -- `thread_running` stays set
    exact h.advance hinv hv hσ (x := some .erased) rfl rfl trivial rfl rfl (.inl ⟨rfl, rfl⟩)
      (.inr ⟨_, rfl⟩) rfl (List.Subset.refl _)
      (.inr ⟨by simp, .inr (by simp [Slot.running, Slot.after, Move.driver, hdriver])⟩)
  | close =>
    cases hn
    obtain ⟨σ, hσ, ho⟩ := h.slot_of_owns hv rfl
    refine .of_close hσ ho ?_
    rw [State.obs_setActive (s.closeSock fd) hi, State.obs_closeSock]
    exact h.close hv rfl rfl rfl
  | unlock =>
    cases hn
    exact .stay h hv (State.obs_setActive (s.setFdMap _) hi _)

/-- The lookups of an active thread. -/
theorem activeFind_follows (h : Refines s.obs P) (hinv : P.Inv) {i : ℕ} {p p' : ActivePc} {fd : Fd}
    (hi : s.active[i]? = some p) (hdrives : p.view.drives = some (fd, true))
    (hregistered : p.view.owns = none ∨ ∃ d, p.view.owns = some (fd, .got d))
    (hmutex : p'.view.mutex = p.view.mutex) (hdrives' : p'.view.drives = p.view.drives)
    (howns : p'.view.owns = p.view.owns)
    (hsub : ∀ q ∈ p'.view.ptrs, q ∈ p.view.ptrs ∨ q = s.fdInfos fd)
    (hcand : p'.view.cand = none) : Follows P (s.setActive i p').obs (Permits s t ch) := by
  have hv := view_active hi
  obtain ⟨σ, hσ, hdriver⟩ := h.slot_of_drives hv hdrives
  have hr : σ.owner.registered = true := by
    rcases hregistered with hnone | ⟨d, hsome⟩
    · exact (hinv.ok fd σ hσ).registered (Refines.drivenBy hdriver) (h.not_heldBy hv hnone hσ)
    · obtain ⟨σ', hσ', ho⟩ := h.slot_of_owns hv hsome
      cases hσ.symm.trans hσ'
      rw [ho]
      rfl
  left
  rw [State.obs_setActive s hi]
  refine h.find hv hσ hr (View.eq_of_on (.inr ⟨true, hdrives'.trans hdrives⟩) ?_) hmutex hdrives'
    howns hsub (.inl hcand)
  rcases hregistered with hnone | ⟨d, hsome⟩
  · exact .inl (howns.trans hnone)
  · exact .inr ⟨_, howns.trans hsome⟩

theorem activeNext_follows (h : Refines s.obs P) (hinv : P.Inv) {i : ℕ} {p : ActivePc}
    (hi : s.active[i]? = some p) (hn : s.activeNext i ch p = some s') :
    Follows P s'.obs (Permits s (.active i) ch) := by
  have hv := view_active hi
  -- a lookup finds the connection: the pointers of a driver all point to it
  have hsome : ∀ {fd : Fd} {q : Option ConnId}, p.view.drives = some (fd, true) → q ∈ p.view.ptrs →
      ∃ c, q = some c := fun hdrives hq => by
    obtain ⟨σ, hσ, -⟩ := h.slot_of_drives hv hdrives
    exact ⟨_, h.ptr_eq hv hσ (.inl ⟨_, hdrives⟩) hq⟩
  cases p with
  | start fd l =>
    cases l with
    | lock =>
      obtain rfl := lockMap_map hn
      exact .stay h hv (State.obs_setActive (s.setFdMap _) hi _)
    | find =>
      cases hn
      exact activeFind_follows h hinv hi rfl (.inl rfl) rfl rfl rfl
        (by simp [ActivePc.view, Lookup.ptrs]) rfl
    | unlock info_ptr =>
      obtain ⟨c, rfl⟩ := hsome (q := info_ptr) rfl (by simp [ActivePc.view, Lookup.ptrs])
      cases hn
      exact .stay h hv (State.obs_setActive (s.setFdMap _) hi _)
  | clearNeedactive fd c =>
    cases hn
    exact .stay h hv ((State.obs_setActive (s.setNeedactive c false) hi _).trans
      (congrArg (Obs.setView · _ _) (State.obs_setNeedactive ..)))
  | lookup fd c l =>
    cases l with
    | lock =>
      obtain rfl := lockMap_map hn
      exact .stay h hv (State.obs_setActive (s.setFdMap _) hi _)
    | find =>
      cases hn
      exact activeFind_follows h hinv hi rfl (.inl rfl) rfl rfl rfl
        (by simp [ActivePc.view, Lookup.ptrs]) rfl
    | unlock info_ptr =>
      obtain ⟨c', rfl⟩ := hsome (q := info_ptr) rfl (by simp [ActivePc.view, Lookup.ptrs])
      cases hn
      exact .stay h hv (State.obs_setActive (s.setFdMap _) hi _)
  | lockFd fd c c' =>
    obtain ⟨hfree, rfl⟩ := lockFd_map hn
    exact .lock h hv hfree (State.obs_setFdMutex_setActive s hi ..) rfl
  | checkInthreadpool fd c c' =>
    cases hn
    cases hflag : (s.info c').fdInthreadpool with
    | true =>
      exact .stay h hv (State.obs_setActive s hi _)
    | false => exact activeTake_follows h hinv hi hflag
  | wait fd c c' =>
    cases hn
    exact .unlock h hv (State.obs_setFdMutex_setActive s hi ..) rfl rfl rfl rfl
      (List.Subset.refl _) rfl
  | asleep fd c c' =>
    cases ch with
    | spurious =>
      cases hn
      exact .stay h hv (State.obs_setActive s hi _)
    | _ => cases hn
  | relockFd fd c c' =>
    obtain ⟨hfree, rfl⟩ := lockFd_map hn
    exact .lock h hv hfree (State.obs_setFdMutex_setActive s hi ..) rfl
  | read fd c c' =>
    cases ch with
    | read r => exact activeRead_follows h hinv hi hn
    | _ => cases hn
  | enqLookup fd c c' d l =>
    cases l with
    | lock =>
      obtain rfl := lockMap_map hn
      exact .stay h hv (State.obs_setActive (s.setFdMap _) hi _)
    | find =>
      cases hn
      exact activeFind_follows h hinv hi rfl (.inr ⟨d, rfl⟩) rfl rfl rfl
        (by simp [ActivePc.view, Lookup.ptrs]) rfl
    | unlock info_ptr =>
      obtain ⟨c'', rfl⟩ := hsome (q := info_ptr) rfl (by simp [ActivePc.view, Lookup.ptrs])
      cases hn
      exact .stay h hv (State.obs_setActive (s.setFdMap _) hi _)
  | enqLockFd fd c c' d c'' =>
    obtain ⟨hfree, -⟩ := lockFd_map hn
    rw [enqLockFd_holds h hi] at hfree
    cases hfree
  | enqParse fd c c' d c'' =>
    obtain ⟨_, hnone⟩ := hsome (q := none) rfl (List.mem_singleton_self _)
    cases hnone
  | enqHandleRequest fd c c' c'' pkg =>
    obtain ⟨_, hnone⟩ := hsome (q := none) rfl (List.mem_singleton_self _)
    cases hnone
  | enqUnlockFd fd c c' c'' =>
    obtain ⟨_, hnone⟩ := hsome (q := none) rfl (List.mem_singleton_self _)
    cases hnone
  | unlockFd fd c c' returned =>
    cases hn
    cases returned with
    | true =>
      exact .unlock h hv (State.obs_setFdMutex_setActive s hi ..) rfl rfl rfl rfl
        (by simp [ActivePc.view]) rfl
    | false =>
      exact .unlock h hv (State.obs_setFdMutex_setActive s hi ..) rfl rfl rfl rfl
        (by simp [ActivePc.view]) rfl
  | eraseFd fd c =>
    cases hn
    exact .stay h hv (State.obs_setActive s hi _)
  | closeFd fd c k => exact activeClose_follows h hinv hi hn
  | sleep fd c =>
    cases hn
    exact .stay h hv (State.obs_setActive s hi _)
  | endLockFd fd c =>
    obtain ⟨hfree, rfl⟩ := lockFd_map hn
    exact .lock h hv hfree (State.obs_setFdMutex_setActive s hi ..) rfl
  | endCheck fd c =>
    cases hn
    cases (s.info c).needactive with
    | true =>
      exact .stay h hv (State.obs_setActive s hi _)
    | false =>
      exact .stay h hv (State.obs_setActive s hi _)
  | endRunning fd c =>
    cases hn
    exact retire_follows h hinv hi
  | endNotify fd c =>
    cases ch with
    | wake who =>
      obtain ⟨s₁, hnotify, rfl⟩ := Option.map_eq_some_iff.1 hn
      exact .go h hv ((State.obs_setActive s₁ (active_notifyOne hi rfl hnotify) _).trans
        (congrArg (Obs.setView · _ _) (obs_notifyOne hnotify))) rfl rfl rfl (List.nil_subset _)
        (.inl rfl)
    | _ => cases hn
  | endUnlockFd fd c again =>
    cases hn
    cases again with
    | true =>
      exact .unlock h hv (State.obs_setFdMutex_setActive s hi ..) rfl rfl rfl rfl
        (List.Subset.refl _) rfl
    | false =>
      exact .unlock h hv (State.obs_setFdMutex_setActive s hi ..) rfl rfl rfl rfl
        (List.nil_subset _) rfl
  | ended => cases hn

end Dispatch
end WeakAyas
