/-
# Who can go on

A thread that does not rest waits for a mutex, or it can go on by itself
(`rests_or_blocked_or_canGo`).  Who holds `fd_map` waits for nothing
(`busy_of_inMap`), and who holds an `fd_mutex` waits for `fd_map` at most, but for the
active thread that locks the `fd_mutex` which it holds (`enqLockFd_of_acquires`).
Nobody else waits for that one (`eq_of_acquires`).
-/

import WeakAyas.Dispatch.FdMap
import WeakAyas.Dispatch.Flag
import WeakAyas.Dispatch.Mutex
import WeakAyas.Wire.Grammar

namespace WeakAyas
namespace Dispatch

/-- What no thread of the worker brings about: connections, the events that
`epoll_wait` reports, the end of the worker, data, an interrupted `read`, a spurious
wakeup.  The epoll is level-triggered: where bytes lie unread, it reports the same event
again and again. -/
def Choice.external : Choice → Bool
  | accepted _ | event _ | stop | read (.data _) | read .eintr | spurious => true
  | _ => false

/-! ### Who waits -/

def Lookup.wantsMap : Lookup → Bool
  | lock => true
  | _ => false

def CloseFd.wantsMap : CloseFd → Bool
  | lock => true
  | _ => false

def AcceptPc.wantsMap : AcceptPc → Bool
  | lockMap _ _ => true
  | _ => false

def LoopPc.wantsMap : LoopPc → Bool
  | lookup _ l | handleLookup _ _ l => l.wantsMap
  | lockMap _ _ => true
  | closeFd _ _ k => k.wantsMap
  | _ => false

def PoolPc.wantsMap : PoolPc → Bool
  | lookup _ _ l => l.wantsMap
  | _ => false

def ActivePc.wantsMap : ActivePc → Bool
  | start _ l | lookup _ _ l | enqLookup _ _ _ _ l => l.wantsMap
  | closeFd _ _ k => k.wantsMap
  | _ => false

/-- An active thread that has ended or sleeps. -/
def ActivePc.rests : ActivePc → Bool
  | asleep _ _ _ | ended => true
  | _ => false

namespace State

variable (s : State)

/-- The thread is about to lock `fd_map`. -/
def wantsMap : Tid → Bool
  | .acceptor => s.acceptor.wantsMap
  | .loop => s.loop.wantsMap
  | .pool i => (s.pool i).wantsMap
  | .active i => (s.active[i]?).any ActivePc.wantsMap

/-- The thread has nothing to do. -/
def Rests : Tid → Prop
  | .acceptor => s.acceptor = .accept
  | .loop => s.loop = .epollWait ∨ s.loop = .ended
  | .pool i => s.pool i = .idle
  | .active i => ∀ p, s.active[i]? = some p → p.rests = true

/-- The thread waits for a mutex that somebody holds. -/
def Blocked (t : Tid) : Prop :=
  (s.wantsMap t = true ∧ s.fdMap ≠ none) ∨
    ∃ c, s.acquires t = some c ∧ (s.info c).fdMutex ≠ none

end State

variable {n : ℕ} {s s' : State} {t : Tid}

/-- The thread can go on by itself. -/
def CanGo (next : Choice → Option State) : Prop :=
  ∃ ch, ch.external = false ∧ (next ch).isSome = true

/-- A free `fd_map_mutex` can be taken. -/
theorem isSome_lockMap {f : State → State} (h : s.fdMap = none) :
    ((s.lockMap t).map f).isSome = true := by
  rw [State.lockMap, if_pos h]
  rfl

/-- A free `fd_mutex` can be taken. -/
theorem isSome_lockFd {c : ConnId} {f : State → State} (h : (s.info c).fdMutex = none) :
    ((s.lockFd t c).map f).isSome = true := by
  rw [State.lockFd, if_pos h]
  rfl

/-- `notify_one` wakes a thread where one sleeps. -/
theorem exists_notifyOne (s : State) (c : ConnId) (f : State → State) :
    ∃ who, ((s.notifyOne c who).map f).isSome = true := by
  by_cases hnobody : ∀ p ∈ s.active, p.sleepsOn ≠ some c
  · exact ⟨none, by rw [State.notifyOne, if_pos hnobody]; rfl⟩
  · push Not at hnobody
    obtain ⟨p, hp, hsleeps⟩ := hnobody
    obtain ⟨i, hi⟩ := List.mem_iff_getElem?.1 hp
    cases p with
    | asleep fd c₁ c' =>
      cases hsleeps
      exact ⟨some i, by simp [State.notifyOne, hi]⟩
    | _ => cases hsleeps

/-- `read` has an answer at once: the sockets do not block. -/
theorem exists_receive (s : State) (fd : Fd) :
    ∃ r, (Choice.read r).external = false ∧ (s.receive fd r).isSome = true := by
  cases hc : s.socks fd with
  | none => exact ⟨.error, rfl, by simp [State.receive, hc]⟩
  | some c => exact ⟨.eagain, rfl, by simp [State.receive, hc]⟩

/-- The accept thread waits in `accept`, or it can go on. -/
theorem acceptor_canGo (hmap : s.acceptor.wantsMap = true → s.fdMap = none) :
    s.acceptor = .accept ∨ CanGo s.acceptNext := by
  unfold CanGo State.acceptNext
  cases hpc : s.acceptor with rw [hpc] at hmap
  | accept => exact .inl rfl
  | lockMap fd c => exact .inr ⟨.go, rfl, isSome_lockMap (hmap rfl)⟩
  | _ => exact .inr ⟨.go, rfl, rfl⟩

/-- The epoll thread waits for an event, has ended, or can go on. -/
theorem loop_canGo (hmap : s.loop.wantsMap = true → s.fdMap = none)
    (hmutex : ∀ c, s.loop.acquires = some c → (s.info c).fdMutex = none) :
    (s.loop = .epollWait ∨ s.loop = .ended) ∨ CanGo s.loopNext := by
  unfold CanGo State.loopNext
  cases hpc : s.loop with rw [hpc] at hmap hmutex
  | epollWait => exact .inl (.inl rfl)
  | ended => exact .inl (.inr rfl)
  | lookup fd l | handleLookup fd c l =>
    rcases l with _ | _ | _ | c
    · exact .inr ⟨.go, rfl, isSome_lockMap (hmap rfl)⟩
    all_goals exact .inr ⟨.go, rfl, rfl⟩
  | lockMap fd c => exact .inr ⟨.go, rfl, isSome_lockMap (hmap rfl)⟩
  | closeFd fd c k =>
    cases k with
    | lock => exact .inr ⟨.go, rfl, isSome_lockMap (hmap rfl)⟩
    | _ => exact .inr ⟨.go, rfl, rfl⟩
  | lockFd fd c c' d => exact .inr ⟨.go, rfl, isSome_lockFd (hmutex c' rfl)⟩
  | read fd c c' =>
    obtain ⟨r, hr, hreceive⟩ := exists_receive s fd
    exact .inr ⟨.read r, hr, Option.isSome_map.trans hreceive⟩
  | _ => exact .inr ⟨.go, rfl, rfl⟩

/-- A pool worker is idle, or it can go on. -/
theorem pool_canGo {i : ℕ} (hmap : (s.pool i).wantsMap = true → s.fdMap = none)
    (hmutex : ∀ c, (s.pool i).acquires = some c → (s.info c).fdMutex = none) :
    s.pool i = .idle ∨ CanGo (s.poolNext i) := by
  unfold CanGo State.poolNext
  cases hpc : s.pool i with rw [hpc] at hmap hmutex
  | idle => exact .inl rfl
  | lookup fd d l =>
    rcases l with _ | _ | _ | c
    · exact .inr ⟨.go, rfl, isSome_lockMap (hmap rfl)⟩
    all_goals exact .inr ⟨.go, rfl, rfl⟩
  | lockFd fd d c => exact .inr ⟨.go, rfl, isSome_lockFd (hmutex c rfl)⟩
  | parse fd d c =>
    obtain ⟨-, res, -, -, hres⟩ := exists_header d
    refine .inr ⟨.go, rfl, ?_⟩
    cases res <;> simp [hres]
  | notify fd c =>
    obtain ⟨who, hnotify⟩ := exists_notifyOne s c (·.setPool i (.unlockFd fd c))
    exact .inr ⟨.wake who, rfl, hnotify⟩
  | _ => exact .inr ⟨.go, rfl, rfl⟩

/-- An active thread rests, or it can go on. -/
theorem active_canGo {i : ℕ} {p : ActivePc} (hmap : p.wantsMap = true → s.fdMap = none)
    (hmutex : ∀ c, p.acquires = some c → (s.info c).fdMutex = none) :
    p.rests = true ∨ CanGo fun ch => s.activeNext i ch p := by
  cases p with
  | asleep | ended => exact .inl rfl
  | start fd l | lookup fd c l =>
    rcases l with _ | _ | _ | c
    · exact .inr ⟨.go, rfl, isSome_lockMap (hmap rfl)⟩
    all_goals exact .inr ⟨.go, rfl, rfl⟩
  | enqLookup fd c c' d l =>
    rcases l with _ | _ | _ | c
    · exact .inr ⟨.go, rfl, isSome_lockMap (hmap rfl)⟩
    all_goals exact .inr ⟨.go, rfl, rfl⟩
  | closeFd fd c k =>
    cases k with
    | lock => exact .inr ⟨.go, rfl, isSome_lockMap (hmap rfl)⟩
    | _ => exact .inr ⟨.go, rfl, rfl⟩
  | lockFd | relockFd | enqLockFd | endLockFd =>
    exact .inr ⟨.go, rfl, isSome_lockFd (hmutex _ rfl)⟩
  | read fd c c' =>
    obtain ⟨r, hr, hreceive⟩ := exists_receive s fd
    exact .inr ⟨.read r, hr, Option.isSome_map.trans hreceive⟩
  | enqParse fd c c' d c'' =>
    obtain ⟨-, res, -, -, hres⟩ := exists_header d
    refine .inr ⟨.go, rfl, ?_⟩
    cases res <;> simp [State.activeNext, hres]
  | endNotify fd c =>
    obtain ⟨who, hnotify⟩ := exists_notifyOne s c (·.setActive i (.endUnlockFd fd c false))
    exact .inr ⟨.wake who, rfl, hnotify⟩
  | _ => exact .inr ⟨.go, rfl, rfl⟩

/-- What a thread can do by its own function, it can do. -/
theorem canGo_next (hterm : s.terminated = false) :
    (CanGo s.acceptNext → CanGo (s.next n .acceptor)) ∧
      (CanGo s.loopNext → CanGo (s.next n .loop)) ∧
      (∀ i < n, CanGo (s.poolNext i) → CanGo (s.next n (.pool i))) ∧
      ∀ i p, s.active[i]? = some p → CanGo (fun ch => s.activeNext i ch p) →
        CanGo (s.next n (.active i)) := by
  refine ⟨fun ⟨ch, hch, h⟩ => ⟨ch, hch, ?_⟩, fun ⟨ch, hch, h⟩ => ⟨ch, hch, ?_⟩,
    fun i hi ⟨ch, hch, h⟩ => ⟨ch, hch, ?_⟩, fun i p hi ⟨ch, hch, h⟩ => ⟨ch, hch, ?_⟩⟩
  · simpa [State.next, hterm] using h
  · simpa [State.next, hterm] using h
  · simpa [State.next, hterm, hi] using h
  · simpa [State.next, hterm, hi] using h

/-- **A thread rests, is blocked, or can go on.** -/
theorem rests_or_blocked_or_canGo (hterm : s.terminated = false)
    (hidle : ∀ i, n ≤ i → s.pool i = .idle) (t : Tid) :
    s.Rests t ∨ s.Blocked t ∨ CanGo (s.next n t) := by
  by_cases hblocked : s.Blocked t
  · exact .inr (.inl hblocked)
  simp only [State.Blocked, not_or, not_and, not_exists, not_not] at hblocked
  obtain ⟨hmap, hmutex⟩ := hblocked
  obtain ⟨hacceptor, hloop, hpool, hactive⟩ := canGo_next (n := n) hterm
  cases t with
  | acceptor => exact (acceptor_canGo hmap).imp_right fun h => .inr (hacceptor h)
  | loop => exact (loop_canGo hmap hmutex).imp_right fun h => .inr (hloop h)
  | pool i =>
    refine (pool_canGo hmap hmutex).elim .inl fun h => ?_
    rcases lt_or_ge i n with hi | hi
    · exact .inr (.inr (hpool i hi h))
    · exact .inl (hidle i hi)
  | active i =>
    cases hi : s.active[i]? with
    | none => exact .inl fun p hp => by cases hi.symm.trans hp
    | some p =>
      have hmap' : p.wantsMap = true → s.fdMap = none := by
        simpa [State.wantsMap, hi] using hmap
      have hmutex' : ∀ c, p.acquires = some c → (s.info c).fdMutex = none := by
        simpa [State.acquires, hi] using hmutex
      rcases active_canGo (i := i) hmap' hmutex' with h | h
      · exact .inl fun p' hp => by cases hi.symm.trans hp; exact h
      · exact .inr (.inr (hactive i p hi h))

/-! ### Who holds does not wait -/

/-- Inside the map a lookup does not wait for it. -/
theorem Lookup.not_wantsMap {l : Lookup} (h : l.inMap = true) : l.wantsMap = false := by
  cases l <;> first | rfl | cases h

/-- Nor does a close. -/
theorem CloseFd.not_wantsMap {k : CloseFd} (h : k.inMap = true) : k.wantsMap = false := by
  cases k <;> first | rfl | cases h

/-- Who holds `fd_map` has something to do, and waits for nothing. -/
theorem busy_of_inMap (h : s.inMap t = true) : ¬ s.Rests t ∧ ¬ s.Blocked t := by
  suffices hbusy : ¬ s.Rests t ∧ s.wantsMap t = false ∧ s.acquires t = none by
    obtain ⟨hrests, hwants, hacquires⟩ := hbusy
    exact ⟨hrests, by simp [State.Blocked, hwants, hacquires]⟩
  cases t with
  | acceptor =>
    simp only [State.inMap, State.Rests, State.wantsMap, State.acquires] at h ⊢
    cases hpc : s.acceptor with rw [hpc] at h
    | insert | unlockMap => exact ⟨by simp, rfl, trivial⟩
    | _ => cases h
  | loop =>
    simp only [State.inMap, State.Rests, State.wantsMap, State.acquires] at h ⊢
    cases hpc : s.loop with rw [hpc] at h
    | lookup fd l | handleLookup fd c l => exact ⟨by simp, Lookup.not_wantsMap h, rfl⟩
    | closeFd fd c k => exact ⟨by simp, CloseFd.not_wantsMap h, rfl⟩
    | epollWait | ended => cases h
    | _ => first | (cases h; done) | exact ⟨by simp, rfl, rfl⟩
  | pool i =>
    simp only [State.inMap, State.Rests, State.wantsMap, State.acquires] at h ⊢
    cases hpc : s.pool i with rw [hpc] at h
    | lookup fd d l => exact ⟨by simp, Lookup.not_wantsMap h, rfl⟩
    | _ => cases h
  | active i =>
    cases hi : s.active[i]? with
    | none => simp [State.inMap, hi] at h
    | some p =>
      simp only [State.inMap, State.Rests, State.wantsMap, State.acquires, hi, Option.any_some,
        Option.bind_some, Option.some.injEq, forall_eq'] at h ⊢
      cases p with
      | start fd l | lookup fd c l => exact ⟨Bool.false_ne_true, Lookup.not_wantsMap h, rfl⟩
      | enqLookup fd c c' d l => exact ⟨Bool.false_ne_true, Lookup.not_wantsMap h, rfl⟩
      | closeFd fd c k => exact ⟨Bool.false_ne_true, CloseFd.not_wantsMap h, rfl⟩
      | _ => cases h

/-- A thread that rests holds nothing, unless it sleeps. -/
theorem view_of_rests (h : s.Rests t) : s.obs.view t = .idle ∨
    ∃ i fd c c', t = .active i ∧ s.active[i]? = some (.asleep fd c c') := by
  cases t with
  | acceptor => exact .inl (congrArg AcceptPc.view (show s.acceptor = .accept from h))
  | loop =>
    rcases h with hpc | hpc
    · exact .inl (congrArg LoopPc.view hpc)
    · exact .inl (congrArg LoopPc.view hpc)
  | pool i => exact .inl (congrArg PoolPc.view (show s.pool i = .idle from h))
  | active i =>
    cases hi : s.active[i]? with
    | none => exact .inl (by simp [State.obs, State.view, hi])
    | some p =>
      have hp := h p hi
      cases p with
      | asleep fd c c' => exact .inr ⟨i, fd, c, c', rfl, hi⟩
      | ended => exact .inl (view_active hi)
      | _ => cases hp

/-- Who holds an `fd_mutex` has something to do. -/
theorem not_rests_of_mutex {c : ConnId} (h : (s.obs.view t).mutex = some c) : ¬ s.Rests t := by
  intro hrests
  rcases view_of_rests hrests with hv | ⟨i, fd, c₁, c', rfl, hi⟩
  · rw [hv] at h
    cases h
  · rw [view_active hi] at h
    cases h

/-- Who holds an `fd_mutex` and locks another is an active thread in
`active_enqueue_event`. -/
theorem enqLockFd_of_acquires {c c' : ConnId} (h : (s.obs.view t).mutex = some c)
    (hacquires : s.acquires t = some c') : ∃ i fd c₁ d, t = .active i ∧
      s.active[i]? = some (.enqLockFd fd c₁ c d c') := by
  cases t with
  | acceptor => cases hacquires
  | loop =>
    change s.loop.view.mutex = _ at h
    change s.loop.acquires = _ at hacquires
    cases hpc : s.loop <;> rw [hpc] at h hacquires <;> cases hacquires
    cases h
  | pool i =>
    change (s.pool i).view.mutex = _ at h
    change (s.pool i).acquires = _ at hacquires
    cases hpc : s.pool i <;> rw [hpc] at h hacquires <;> cases hacquires
    cases h
  | active i =>
    obtain ⟨p, hi, hp⟩ := Option.bind_eq_some_iff.1 hacquires
    rw [view_active hi] at h
    cases p with
    | enqLockFd fd c₁ c₂ d c'' =>
      cases h
      cases hp
      exact ⟨i, fd, c₁, d, rfl, hi⟩
    | lockFd | relockFd | endLockFd => cases h
    | _ => cases hp

variable {P : Protocol}

/-- A thread that waits for an `fd_mutex` drives the descriptor, or has its task. -/
theorem slot_of_acquires (h : Refines s.obs P) {c : ConnId} (hacquires : s.acquires t = some c) :
    ∃ fd σ, P.slot fd = some σ ∧ σ.conn = c ∧
      (σ.DrivenBy t ∨ ∃ d, σ.owner = .thread t (.executing d) ∧ ∃ i, t = .pool i) := by
  -- its view has the descriptor and the connection
  have hview : ∃ fd, some c ∈ (s.obs.view t).ptrs ∧ ((∃ b, (s.obs.view t).drives = some (fd, b)) ∨
      ∃ d, (s.obs.view t).owns = some (fd, .executing d) ∧ ∃ i, t = .pool i) := by
    cases t with
    | acceptor => cases hacquires
    | loop =>
      change s.loop.acquires = _ at hacquires
      change ∃ fd, _ ∈ s.loop.view.ptrs ∧ ((∃ b, s.loop.view.drives = _) ∨ _)
      cases hpc : s.loop <;> rw [hpc] at hacquires <;> cases hacquires
      exact ⟨_, by simp [LoopPc.view], .inl ⟨_, rfl⟩⟩
    | pool i =>
      change (s.pool i).acquires = _ at hacquires
      change ∃ fd, _ ∈ (s.pool i).view.ptrs ∧ (_ ∨ ∃ d, (s.pool i).view.owns = _ ∧ _)
      cases hpc : s.pool i <;> rw [hpc] at hacquires <;> cases hacquires
      exact ⟨_, by simp [PoolPc.view], .inr ⟨_, rfl, i, rfl⟩⟩
    | active i =>
      obtain ⟨p, hi, hp⟩ := Option.bind_eq_some_iff.1 hacquires
      rw [view_active hi]
      cases p with
      | lockFd | relockFd | enqLockFd | endLockFd =>
        cases hp
        exact ⟨_, by simp [ActivePc.view], .inl ⟨_, rfl⟩⟩
      | _ => cases hp
  obtain ⟨fd, hptr, ⟨b, hdrives⟩ | ⟨d, howns, hpool⟩⟩ := hview
  · obtain ⟨σ, hσ, hdriver⟩ := h.slot_of_drives rfl hdrives
    refine ⟨fd, σ, hσ, ?_, .inl (Refines.drivenBy hdriver)⟩
    exact (Option.some.inj (h.ptr_eq rfl hσ (.inl ⟨b, hdrives⟩) hptr)).symm
  · obtain ⟨σ, hσ, ho⟩ := h.slot_of_owns rfl howns
    refine ⟨fd, σ, hσ, ?_, .inr ⟨d, ho, hpool⟩⟩
    exact (Option.some.inj (h.ptr_eq rfl hσ (.inr ⟨_, howns⟩) hptr)).symm

/-- **Nobody but itself waits for the mutex of a thread that has deadlocked.** -/
theorem eq_of_acquires (h : Refines s.obs P) (hinv : P.Inv) {i : ℕ} {fd : Fd}
    {c c₁ c'' : ConnId} {d : Bytes} (hi : s.active[i]? = some (.enqLockFd fd c₁ c d c''))
    (hacquires : s.acquires t = some c) : t = .active i := by
  have hv := view_active hi
  obtain ⟨σ, hσ, hdriver⟩ := h.slot_of_drives hv rfl
  obtain ⟨σ', hσ', ho⟩ := h.slot_of_owns hv rfl
  cases hσ.symm.trans hσ'
  have hconn := h.ptr_eq hv hσ (.inl ⟨_, rfl⟩) (p := some c) (by simp [ActivePc.view])
  obtain ⟨fd₂, σ₂, hσ₂, rfl, hwho⟩ := slot_of_acquires h hacquires
  obtain rfl := hinv.conn_injective hσ₂ hσ (Option.some.inj hconn)
  cases hσ.symm.trans hσ₂
  rcases hwho with hdriven | ⟨d₂, ho₂, -⟩
  · exact (Option.some.inj ((Refines.drivenBy hdriver).symm.trans hdriven)).symm
  · rw [ho] at ho₂
    cases ho₂

end Dispatch
end WeakAyas
