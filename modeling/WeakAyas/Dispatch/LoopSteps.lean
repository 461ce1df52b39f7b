/-
# The epoll thread

Every step of `loopNext` follows the protocol.
-/

import WeakAyas.Dispatch.Follows

namespace WeakAyas
namespace Dispatch

variable {s s' : State} {P : Protocol} {t : Tid} {ch : Choice}

/-- What `fd_infos` has may be a candidate. -/
theorem candidate_of_fdInfos (h : Refines s.obs P) (hinv : P.Inv) {fd : Fd} {c : ConnId}
    (hc : s.fdInfos fd = some c) : Candidate s.obs.running P fd c := by
  have hinfo := h.fdInfos fd
  rw [show s.obs.fdInfos fd = some c from hc] at hinfo
  obtain ⟨σ, hσ, hr⟩ := Option.bind_eq_some_iff.1 hinfo.symm
  split_ifs at hr with hregistered
  · obtain rfl := Option.some.inj hr
    exact ⟨hinv.fdOf fd σ hσ, hinv.lt fd σ hσ, .inl ⟨σ, hσ, rfl, hregistered⟩⟩

/-- `loop` looks the descriptor of an event up. -/
theorem loopFind_follows (h : Refines s.obs P) (hinv : P.Inv) {fd : Fd}
    (hpc : s.loop = .lookup fd .find) :
    Follows P (s.setLoop (.lookup fd (.unlock (s.fdInfos fd)))).obs (Permits s t ch) := by
  have hv : s.obs.view .loop = .idle := congrArg LoopPc.view hpc
  cases hc : s.fdInfos fd with
  | none => exact .stay h hv (State.obs_setLoop ..)
  | some c =>
    left
    rw [State.obs_setLoop]
    refine h.setView (m := s.obs.mutex) ?_ (by rw [hv]; rfl) (by rw [hv]; rfl)
      (fun _ _ _ _ p hp => nomatch hp) ?_
    · rw [Function.update_eq_iff.2 ⟨by rw [hv]; rfl, fun _ _ => rfl⟩]
      exact h.mutex
    · rintro - fd' c' ⟨⟩
      exact candidate_of_fdInfos h hinv hc

/-- `loop` finds `thread_running` not set. -/
theorem drive_follows (h : Refines s.obs P) (hinv : P.Inv) {fd : Fd} {c : ConnId}
    (hpc : s.loop = .checkRunning fd c) (hrunning : (s.info c).threadRunning = false) :
    Follows P (s.setLoop (.checkInthreadpool fd c)).obs (Permits s t ch) := by
  have hv : s.obs.view .loop = (LoopPc.checkRunning fd c).view := congrArg LoopPc.view hpc
  obtain ⟨σ, hσ, hm, hR⟩ := h.drive hinv hv rfl rfl rfl rfl hrunning
  refine .of_move (m := .drive) hσ (.quiet rfl (by simp)) ⟨hm, ?_⟩
  rw [State.obs_setLoop]
  exact hR

/-- `loop` finds `fd_inthreadpool` not set, and goes on to `handle_event`. -/
theorem loopTake_follows (h : Refines s.obs P) (hinv : P.Inv) {fd : Fd} {c : ConnId}
    (hpc : s.loop = .checkInthreadpool fd c) (hflag : (s.info c).fdInthreadpool = false) :
    Follows P (s.setLoop (.unlockMapHandle fd c)).obs (Permits s t ch) := by
  have hv : s.obs.view .loop = (LoopPc.checkInthreadpool fd c).view := congrArg LoopPc.view hpc
  obtain ⟨σ, hσ, -⟩ := h.slot_of_drives hv rfl
  cases h.ptr_eq hv hσ (.inl ⟨_, rfl⟩) (List.mem_singleton_self (some c))
  refine .of_move (m := .take .loop) hσ (.quiet rfl (by simp)) ?_
  rw [State.obs_setLoop]
  exact h.take hinv hv hσ rfl rfl hflag rfl rfl rfl (List.Subset.refl _) rfl

/-- `loop` sets `thread_running`. -/
theorem mark_follows (h : Refines s.obs P) (hinv : P.Inv) {fd : Fd} {c : ConnId}
    (hpc : s.loop = .spawnRunning fd c) :
    Follows P ((s.setThreadRunning c true).setLoop (.spawn fd c)).obs (Permits s t ch) := by
  have hv : s.obs.view .loop = (LoopPc.spawnRunning fd c).view := congrArg LoopPc.view hpc
  obtain ⟨σ, hσ, hdriver⟩ := h.slot_of_drives hv rfl
  cases h.ptr_eq hv hσ (.inl ⟨_, rfl⟩) (List.mem_singleton_self (some c))
  have hm : σ.Allows .mark := ⟨fun _ ho => (by cases ho), hdriver⟩
  refine .of_move (m := .mark) hσ (.quiet rfl (by simp)) ⟨hm, ?_⟩
  rw [State.obs_setLoop, State.obs_setThreadRunning]
  exact h.redrive (x := some true) hinv hv hσ hm rfl rfl rfl rfl rfl rfl rfl (List.Subset.refl _)
    (.inl ⟨rfl, rfl⟩)

/-- `loop` starts the active thread. -/
theorem spawn_follows (h : Refines s.obs P) (hinv : P.Inv) {fd : Fd} {c : ConnId}
    (hpc : s.loop = .spawn fd c) :
    Follows P ((s.pushActive (.start fd .lock)).setLoop .unlockMap).obs (Permits s t ch) := by
  have hv : s.obs.view .loop = (LoopPc.spawn fd c).view := congrArg LoopPc.view hpc
  have hidle : s.obs.view (.active s.active.length) = .idle := by simp [State.obs, State.view]
  obtain ⟨σ, hσ, hdriver⟩ := h.slot_of_drives hv rfl
  have hm : σ.Allows (.hand s.active.length) :=
    ⟨fun _ ho => (by cases ho), hdriver, h.not_heldBy hv rfl hσ⟩
  refine .of_move (m := .hand s.active.length) hσ (.quiet rfl (by simp)) ⟨hm, ?_⟩
  rw [State.obs_setLoop, State.obs_pushActive]
  exact h.hand hinv hv hidle hσ rfl rfl rfl

/-- `handle_event` reads. -/
theorem loopRead_follows (h : Refines s.obs P) (hinv : P.Inv) {fd : Fd} {c c' : ConnId}
    (hpc : s.loop = .read fd c c') {r : State.ReadResult}
    (hn : (s.receive fd r).map (·.setLoop (match r with
      | .data d => .lockFd fd c c' d
      | .eof => .closeFd fd c .lock
      | .eintr => .handleLookup fd c .lock
      | .eagain => .epollWait
      | .error => .closeFd fd c .lock)) = some s') : Follows P s'.obs (Permits s t ch) := by
  have hv : s.obs.view .loop = (LoopPc.read fd c c').view := congrArg LoopPc.view hpc
  obtain ⟨s₁, hreceive, rfl⟩ := Option.map_eq_some_iff.1 hn
  obtain ⟨σ, hσ, hdriver⟩ := h.slot_of_drives hv rfl
  have hsock : s.socks fd = some σ.conn := by
    rw [show s.socks fd = s.obs.socks fd from rfl, h.socks, hσ]
    rfl
  obtain rfl := receive_eq hsock hreceive
  cases r with
  | data d =>
    refine .of_move (m := .read .loop d) hσ (.quiet rfl (by simp)) ?_
    rw [State.received, State.obs_setLoop, State.obs_pushRead]
    exact h.advance hinv hv hσ (x := some (.got d)) rfl rfl trivial rfl rfl (.inl ⟨rfl, rfl⟩)
      (.inr ⟨_, rfl⟩) rfl (List.Subset.refl _) (.inl ⟨rfl, rfl⟩)
  | eagain =>
    refine .of_move (m := .leave) hσ (.quiet rfl (by simp)) ?_
    rw [State.obs_setLoop]
    exact h.advance hinv hv hσ (x := none) rfl rfl hdriver rfl rfl (.inr ⟨rfl, rfl, _, rfl⟩)
      (.inl rfl) rfl (List.nil_subset _) (.inl ⟨rfl, rfl⟩)
  | eof | eintr | error =>
    exact .go h hv (State.obs_setLoop ..) rfl rfl rfl
      (by simp [LoopPc.view, CloseFd.view, Lookup.ptrs]) (.inl rfl)

theorem loopNext_follows (h : Refines s.obs P) (hinv : P.Inv)
    (hn : s.loopNext ch = some s') : Follows P s'.obs (Permits s t ch) := by
  have hv : s.obs.view .loop = s.loop.view := rfl
  unfold State.loopNext at hn
  cases hpc : s.loop with rw [hpc] at hn hv
  | epollWait =>
    cases ch with
    | event fd | stop =>
      cases hn
      exact .stay h hv (State.obs_setLoop ..)
    | _ => cases hn
  | lookup fd l =>
    cases l with
    | lock =>
      obtain rfl := lockMap_map hn
      exact .stay h hv (State.obs_setLoop ..)
    | find =>
      cases hn
      exact loopFind_follows h hinv hpc
    | unlock info_ptr =>
      cases info_ptr with
      | none =>
        cases hn
        exact .stay h hv (State.obs_setLoop ..)
      | some c =>
        cases hn
        exact .stay h hv (State.obs_setLoop ..)
  | lockMap fd c =>
    obtain rfl := lockMap_map hn
    exact .stay h hv (State.obs_setLoop ..)
  | checkRunning fd c =>
    cases hn
    cases hrunning : (s.info c).threadRunning with
    | true => exact .go h hv (State.obs_setLoop ..) rfl rfl rfl (List.nil_subset _) (.inl rfl)
    | false => exact drive_follows h hinv hpc hrunning
  | setNeedactive c =>
    cases hn
    exact .stay h hv ((State.obs_setLoop ..).trans (congrArg (Obs.setView · _ _)
      (State.obs_setNeedactive ..)))
  | checkInthreadpool fd c =>
    cases hn
    cases hflag : (s.info c).fdInthreadpool with
    | true => exact .stay h hv (State.obs_setLoop ..)
    | false => exact loopTake_follows h hinv hpc hflag
  | spawnNeedactive fd c =>
    cases hn
    exact .stay h hv ((State.obs_setLoop ..).trans (congrArg (Obs.setView · _ _)
      (State.obs_setNeedactive ..)))
  | spawnRunning fd c =>
    cases hn
    exact mark_follows h hinv hpc
  | spawn fd c =>
    cases hn
    exact spawn_follows h hinv hpc
  | unlockMap =>
    cases hn
    exact .stay h hv (State.obs_setLoop ..)
  | unlockMapHandle fd c =>
    cases hn
    exact .stay h hv (State.obs_setLoop ..)
  | handleLookup fd c l =>
    obtain ⟨σ, hσ, ho⟩ := h.slot_of_owns hv rfl
    cases l with
    | lock =>
      obtain rfl := lockMap_map hn
      exact .stay h hv (State.obs_setLoop ..)
    | find =>
      cases hn
      left
      rw [State.obs_setLoop]
      exact h.find hv hσ (by rw [ho]; rfl) (View.eq_of_on (.inr ⟨_, rfl⟩) (.inr ⟨_, rfl⟩)) rfl rfl
        rfl (by simp [LoopPc.view, Lookup.ptrs, State.obs]) (.inl rfl)
    | unlock info_ptr =>
      cases h.ptr_eq hv hσ (.inr ⟨_, rfl⟩) (p := info_ptr) (by simp [LoopPc.view, Lookup.ptrs])
      cases hn
      exact .stay h hv (State.obs_setLoop ..)
  | read fd c c' =>
    cases ch with
    | read r => exact loopRead_follows h hinv hpc hn
    | _ => cases hn
  | lockFd fd c c' d =>
    obtain ⟨hfree, rfl⟩ := lockFd_map hn
    exact .lock h hv hfree (State.obs_setFdMutex_setLoop ..) rfl
  | setInthreadpool fd c c' d =>
    cases hn
    obtain ⟨σ, hσ, -⟩ := h.slot_of_owns hv rfl
    cases h.ptr_eq hv hσ (.inr ⟨_, rfl⟩) (p := some c') (by simp [LoopPc.view])
    refine .of_move (m := .flag d) hσ (.quiet rfl (by simp)) ?_
    rw [State.obs_setLoop, State.obs_setFdInthreadpool]
    exact h.advance hinv hv hσ (x := some (.flagged d)) rfl rfl trivial rfl rfl (.inl ⟨rfl, rfl⟩)
      (.inr ⟨_, rfl⟩) rfl (List.Subset.refl _) (.inl ⟨rfl, rfl⟩)
  | unlockFd fd c c' d =>
    cases hn
    exact .unlock h hv (State.obs_setFdMutex_setLoop ..) rfl rfl rfl rfl (List.Subset.refl _) rfl
  | enqueue fd c c' d =>
    cases hn
    obtain ⟨σ, hσ, hdriver⟩ := h.slot_of_drives hv rfl
    refine .of_move (m := .enqueue d) hσ (.quiet rfl (by simp)) ?_
    rw [State.obs_setLoop, State.obs_setTasks]
    exact h.advance hinv hv hσ (x := none) rfl rfl hdriver rfl rfl (.inr ⟨rfl, rfl, _, rfl⟩)
      (.inl rfl) rfl (List.nil_subset _) (.inl ⟨rfl, rfl⟩)
  | closeFd fd c k =>
    cases k with
    | lock =>
      obtain rfl := lockMap_map hn
      exact .stay h hv (State.obs_setLoop ..)
    | erase =>
      cases hn
      obtain ⟨σ, hσ, -⟩ := h.slot_of_owns hv rfl
      refine .of_move (m := .erase .loop) hσ (.quiet rfl (by simp)) ?_
      rw [State.obs_setLoop, State.obs_setFdInfos]
      exact h.advance hinv hv hσ (x := some .erased) rfl rfl trivial rfl rfl (.inl ⟨rfl, rfl⟩)
        (.inr ⟨_, rfl⟩) rfl (List.Subset.refl _) (.inl ⟨rfl, rfl⟩)
    | close =>
      cases hn
      obtain ⟨σ, hσ, ho⟩ := h.slot_of_owns hv rfl
      refine .of_close hσ ho ?_
      rw [State.obs_setLoop, State.obs_closeSock]
      exact h.close hv rfl rfl rfl
    | unlock =>
      cases hn
      exact .stay h hv (State.obs_setLoop ..)
  | ended => cases hn

end Dispatch
end WeakAyas
