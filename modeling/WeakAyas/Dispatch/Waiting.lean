/-
# Who waits is notified

An active thread waits on `fd_cond` until `fd_inthreadpool` is cleared.  Where it
waits, the flag is set or a worker is about to notify it (`State.Heard`): the flag
is tested and cleared under the `fd_mutex`, and one thread at most waits for a
connection, so `notify_one` reaches it.  No wakeup is lost.
-/

import WeakAyas.Dispatch.Simulation

namespace WeakAyas
namespace Dispatch

open TransitionSystem

variable {n : ℕ} {s s₁ s' : State} {P : Protocol}

/-- What a thread does elsewhere leaves the flags. -/
@[simp] theorem Obs.flag_setView (o : Obs) (t : Tid) (v : View) : (o.setView t v).flag = o.flag :=
  rfl

/-- The connection that the thread waits for in `fd_cond.wait`, having found the
flag set. -/
def ActivePc.waits : ActivePc → Option (Fd × ConnId)
  | wait fd _ c' | asleep fd _ c' => some (fd, c')
  | _ => none

def State.waits (s : State) (i : ℕ) : Option (Fd × ConnId) := (s.active[i]?).bind ActivePc.waits

/-- Where a thread waits, the flag is set, or the task of the connection has
cleared it and is about to notify. -/
def State.Heard (s : State) : Prop :=
  ∀ i fd c, s.waits i = some (fd, c) → s.obs.flag c = true ∨ ∃ j, s.pool j = .notify fd c

/-- A step of another thread than the workers of the pool: it clears no flag,
and nobody waits after it without having found the flag set. -/
structure Keeps (s s' : State) : Prop where
  flag : ∀ c, s.obs.flag c = true → s'.obs.flag c = true
  pool : s'.pool = s.pool
  waits : ∀ i fd c, s'.waits i = some (fd, c) → s.waits i = some (fd, c) ∨ s'.obs.flag c = true

namespace Keeps

/-- Flags that are kept stay heard. -/
theorem heard (hk : Keeps s s') (h : s.Heard) : s'.Heard := by
  intro i fd c hw
  rcases hk.waits i fd c hw with hw | hflag
  · rcases h i fd c hw with hflag | ⟨j, hj⟩
    · exact .inl (hk.flag c hflag)
    · exact .inr ⟨j, by rwa [hk.pool]⟩
  · exact .inl hflag

/-- A step that is nothing to who waits. -/
theorem frame (hflag : s'.obs.flag = s.obs.flag) (hpool : s'.pool = s.pool)
    (hactive : s'.active = s.active) : Keeps s s' where
  flag c hc := by rwa [hflag]
  pool := hpool
  waits i fd c hw := .inl (by rwa [State.waits, hactive] at hw)

/-- A new active thread does not sleep. -/
theorem pushActive {p : ActivePc} (hk : Keeps s s₁) (hp : p.waits = none) :
    Keeps s (s₁.pushActive p) where
  flag := hk.flag
  pool := hk.pool
  waits i fd c hw := by
    refine hk.waits i fd c ?_
    simp only [State.waits, State.pushActive] at hw ⊢
    rcases lt_trichotomy i s₁.active.length with hlt | rfl | hgt
    · rwa [List.getElem?_append_left hlt] at hw
    · simp [hp] at hw
    · rw [List.getElem?_eq_none (by simp; omega)] at hw
      cases hw

/-- A thread that waits where it waited before, or that has found the flag set. -/
theorem setActive {i : ℕ} {p p' : ActivePc} (hi : s.active[i]? = some p) (hk : Keeps s s₁)
    (hp : ∀ fd c, p'.waits = some (fd, c) → p.waits = some (fd, c) ∨ s₁.obs.flag c = true) :
    Keeps s (s₁.setActive i p') where
  flag := hk.flag
  pool := hk.pool
  waits j fd c hw := by
    rcases eq_or_ne i j with rfl | hne
    · have hw' : p'.waits = some (fd, c) := by
        rcases lt_or_ge i s₁.active.length with hlt | hge
        · simpa [State.waits, State.setActive, hlt] using hw
        · simp [State.waits, State.setActive, hge] at hw
      rw [State.waits, hi]
      exact hp fd c hw'
    · simp only [State.waits, State.setActive, List.getElem?_set_ne hne] at hw
      exact hk.waits j fd c hw

end Keeps

/-- `read` is nothing to who waits. -/
theorem receive_keeps {fd : Fd} {r : State.ReadResult} (h : s.receive fd r = some s₁) :
    Keeps s s₁ := by
  cases hc : s.socks fd with
  | none =>
    unfold State.receive at h
    rw [hc] at h
    cases r <;> cases h
    exact .frame rfl rfl rfl
  | some c =>
    obtain rfl := receive_eq hc h
    cases r <;> exact .frame rfl rfl rfl

/-- The accept thread keeps flags and sleepers. -/
theorem acceptNext_keeps {ch : Choice} (hn : s.acceptNext ch = some s') : Keeps s s' := by
  unfold State.acceptNext at hn
  cases hpc : s.acceptor with rw [hpc] at hn
  | accept =>
    cases ch with
    | accepted fd =>
      simp only at hn
      split at hn
      · cases hn
        exact .frame rfl rfl rfl
      · cases hn
    | _ => cases hn
  | lockMap fd c =>
    obtain rfl := lockMap_map hn
    exact .frame rfl rfl rfl
  | insert | unlockMap =>
    cases hn
    exact .frame rfl rfl rfl

/-- So does the epoll thread. -/
theorem loopNext_keeps {ch : Choice} (hn : s.loopNext ch = some s') : Keeps s s' := by
  unfold State.loopNext at hn
  cases hpc : s.loop with rw [hpc] at hn
  | epollWait =>
    cases ch with
    | event | stop =>
      cases hn
      exact .frame rfl rfl rfl
    | _ => cases hn
  | lookup fd l | handleLookup fd c l =>
    rcases l with _ | _ | _ | c
    · obtain rfl := lockMap_map hn
      exact .frame rfl rfl rfl
    all_goals
      cases hn
      exact .frame rfl rfl rfl
  | closeFd fd c k =>
    cases k with
    | lock =>
      obtain rfl := lockMap_map hn
      exact .frame rfl rfl rfl
    | _ =>
      cases hn
      exact .frame rfl rfl rfl
  | lockMap fd c =>
    obtain rfl := lockMap_map hn
    exact .frame rfl rfl rfl
  | setNeedactive | spawnNeedactive | spawnRunning | unlockFd =>
    cases hn
    exact .frame (by simp) rfl rfl
  | spawn fd c =>
    cases hn
    have hk : Keeps s (s.pushActive (.start fd .lock)) := .pushActive (.frame rfl rfl rfl) rfl
    exact ⟨hk.flag, hk.pool, hk.waits⟩
  | read fd c c' =>
    cases ch with
    | read r =>
      obtain ⟨s₁, hread, rfl⟩ := Option.map_eq_some_iff.1 hn
      have hk := receive_keeps hread
      exact ⟨hk.flag, hk.pool, hk.waits⟩
    | _ => cases hn
  | lockFd fd c c' d =>
    obtain ⟨-, rfl⟩ := lockFd_map hn
    exact .frame (by simp) rfl rfl
  | setInthreadpool fd c c' d =>
    cases hn
    refine ⟨fun c₁ hc => ?_, rfl, fun _ _ _ hw => .inl hw⟩
    rcases eq_or_ne c₁ c' with rfl | hne
    · simp
    · simpa [hne] using hc
  | ended => cases hn
  | _ =>
    cases hn
    exact .frame rfl rfl rfl

/-- A notification only ends a wait. -/
theorem notifyOne_keeps {c : ConnId} {who : Option ℕ} (h : s.notifyOne c who = some s₁) :
    Keeps s s₁ := by
  obtain ⟨rfl, -⟩ | ⟨j, fd, c₁, hj, rfl⟩ := notifyOne_cases h
  · exact .frame rfl rfl rfl
  · exact .setActive hj (.frame rfl rfl rfl) nofun

/-- So does an active thread, which falls asleep on a set flag only. -/
theorem activeNext_keeps {i : ℕ} {ch : Choice} {p : ActivePc} (hi : s.active[i]? = some p)
    (hn : s.activeNext i ch p = some s') : Keeps s s' := by
  cases p with
  | start fd l | lookup fd c l =>
    rcases l with _ | _ | _ | c
    · obtain rfl := lockMap_map hn
      exact .setActive hi (.frame rfl rfl rfl) nofun
    all_goals
      cases hn
      exact .setActive hi (.frame rfl rfl rfl) nofun
  | enqLookup fd c c' d l =>
    rcases l with _ | _ | _ | c
    · obtain rfl := lockMap_map hn
      exact .setActive hi (.frame rfl rfl rfl) nofun
    all_goals
      cases hn
      exact .setActive hi (.frame rfl rfl rfl) nofun
  | closeFd fd c k =>
    cases k with
    | lock =>
      obtain rfl := lockMap_map hn
      exact .setActive hi (.frame rfl rfl rfl) nofun
    | _ =>
      cases hn
      exact .setActive hi (.frame rfl rfl rfl) nofun
  | lockFd | relockFd | enqLockFd | endLockFd =>
    obtain ⟨-, rfl⟩ := lockFd_map hn
    exact .setActive hi (.frame (by simp) rfl rfl) nofun
  | checkInthreadpool fd c c' =>
    cases hn
    refine .setActive hi (.frame rfl rfl rfl) fun fd' c'' hw => ?_
    split_ifs at hw with hflag
    · cases hw
      exact .inr hflag
    · cases hw
  | wait fd c c' =>
    cases hn
    exact .setActive hi (.frame (by simp) rfl rfl) fun _ _ hw => .inl hw
  | asleep fd c c' =>
    cases ch with
    | spurious =>
      cases hn
      exact .setActive hi (.frame rfl rfl rfl) nofun
    | _ => cases hn
  | read fd c c' =>
    cases ch with
    | read r =>
      obtain ⟨s₁, hread, rfl⟩ := Option.map_eq_some_iff.1 hn
      cases r <;> exact .setActive hi (receive_keeps hread) nofun
    | _ => cases hn
  | enqParse fd c c' d c'' =>
    simp only [State.activeNext] at hn
    split at hn
    · cases hn
      exact .setActive hi (.frame rfl rfl rfl) nofun
    · cases hn
      exact .setActive hi (.frame rfl rfl rfl) nofun
    · cases hn
  | enqHandleRequest fd c c' c'' pkg =>
    cases ch with
    | thrown =>
      cases hn
      exact .frame rfl rfl rfl
    | _ =>
      cases hn
      exact .setActive hi (.frame rfl rfl rfl) nofun
  | unlockFd fd c c' b | endUnlockFd fd c b =>
    cases hn
    cases b <;> exact .setActive hi (.frame (by simp) rfl rfl) nofun
  | endCheck fd c =>
    cases hn
    refine .setActive hi (.frame rfl rfl rfl) fun fd' c' hw => ?_
    split_ifs at hw <;> cases hw
  | endNotify fd c =>
    cases ch with
    | wake who =>
      obtain ⟨s₁, hnotify, rfl⟩ := Option.map_eq_some_iff.1 hn
      exact .setActive hi (notifyOne_keeps hnotify) nofun
    | _ => cases hn
  | ended => cases hn
  | _ =>
    cases hn
    exact .setActive hi (.frame (by simp) rfl rfl) nofun

/-- The slot of the connection that a thread waits for. -/
theorem slot_of_waits (h : Refines s.obs P) {i : ℕ} {fd : Fd} {c : ConnId}
    (hw : s.waits i = some (fd, c)) :
    ∃ σ, P.slot fd = some σ ∧ σ.conn = c ∧ σ.driver = some (.active i, true) := by
  obtain ⟨p, hi, hp⟩ := Option.bind_eq_some_iff.1 hw
  have hview : p.view.drives = some (fd, true) ∧ some c ∈ p.view.ptrs := by
    cases p with
    | wait | asleep =>
      cases hp
      exact ⟨rfl, List.mem_cons_of_mem _ (List.mem_singleton_self _)⟩
    | _ => cases hp
  obtain ⟨σ, hσ, hdriver⟩ := h.slot_of_drives (view_active hi) hview.1
  refine ⟨σ, hσ, ?_, hdriver⟩
  exact (Option.some.inj (h.ptr_eq (view_active hi) hσ (.inl ⟨_, hview.1⟩) hview.2)).symm

/-- One thread at most waits for a connection. -/
theorem waits_unique (h : Refines s.obs P) (hinv : P.Inv) {i j : ℕ} {fd fd' : Fd} {c : ConnId}
    (hi : s.waits i = some (fd, c)) (hj : s.waits j = some (fd', c)) : i = j := by
  obtain ⟨σ, hσ, hconn, hdriver⟩ := slot_of_waits h hi
  obtain ⟨σ', hσ', hconn', hdriver'⟩ := slot_of_waits h hj
  obtain rfl := hinv.conn_injective hσ hσ' (hconn.trans hconn'.symm)
  cases hσ.symm.trans hσ'
  rw [hdriver] at hdriver'
  cases hdriver'
  rfl

/-- After a worker has notified, nobody waits for the connection: it holds the
`fd_mutex`, so the thread that waited was asleep. -/
theorem not_waits_of_notifyOne (h : Refines s.obs P) (hinv : P.Inv) {i : ℕ} {fd : Fd} {c : ConnId}
    (hpc : s.pool i = .notify fd c) {who : Option ℕ} (hn : s.notifyOne c who = some s₁) (j : ℕ)
    (fd' : Fd) : s₁.waits j ≠ some (fd', c) := by
  intro hw
  obtain ⟨rfl, hnobody⟩ | ⟨k, fd₁, c₁, hk, rfl⟩ := notifyOne_cases hn
  · obtain ⟨p, hj, hp⟩ := Option.bind_eq_some_iff.1 hw
    cases p with
    | asleep =>
      cases hp
      exact hnobody _ (List.mem_of_getElem? hj) rfl
    | wait =>
      cases hp
      have hactive := h.mutex_of_view (view_active hj) rfl
      rw [h.mutex_of_view (t := .pool i) (congrArg PoolPc.view hpc) rfl] at hactive
      cases hactive
    | _ => cases hp
  · have hwk : s.waits k = some (fd₁, c) := by rw [State.waits, hk]; rfl
    rcases eq_or_ne k j with rfl | hne
    · have hlt := (List.getElem?_eq_some_iff.1 hk).1
      simp [State.waits, State.setActive, hlt, ActivePc.waits] at hw
    · simp only [State.waits, State.setActive, List.getElem?_set_ne hne] at hw
      exact hne (waits_unique h hinv hwk hw)

/-- What a worker of the pool does to the waiting threads. -/
inductive PoolStep (s : State) (i : ℕ) : State → Prop where
  | go {s₁ : State} (p : PoolPc) (hp : ∀ fd c, s.pool i ≠ .notify fd c) (hk : Keeps s s₁) :
      PoolStep s i (s₁.setPool i p)
  | clear {fd : Fd} {c : ConnId} (hpc : s.pool i = .clearInthreadpool fd c) :
      PoolStep s i ((s.setFdInthreadpool c false).setPool i (.notify fd c))
  | notify {fd : Fd} {c : ConnId} {who : Option ℕ} {s₁ : State} (p : PoolPc)
      (hpc : s.pool i = .notify fd c) (hnotify : s.notifyOne c who = some s₁) :
      PoolStep s i (s₁.setPool i p)

/-- A step of a pool worker is one of these. -/
theorem poolNext_step {i : ℕ} {ch : Choice} (hn : s.poolNext i ch = some s') :
    PoolStep s i s' := by
  unfold State.poolNext at hn
  cases hpc : s.pool i with rw [hpc] at hn
  | idle =>
    cases ht : s.tasks with rw [ht] at hn
    | nil => cases hn
    | cons task tasks =>
      cases hn
      exact .go _ (by simp [hpc]) (.frame rfl rfl rfl)
  | lookup fd d l =>
    rcases l with _ | _ | _ | c
    · obtain rfl := lockMap_map hn
      exact .go _ (by simp [hpc]) (.frame rfl rfl rfl)
    all_goals
      cases hn
      exact .go _ (by simp [hpc]) (.frame rfl rfl rfl)
  | lockFd fd d c =>
    obtain ⟨-, rfl⟩ := lockFd_map hn
    exact .go _ (by simp [hpc]) (.frame (by simp) rfl rfl)
  | parse fd d c =>
    simp only at hn
    split at hn
    · cases hn
      exact .go _ (by simp [hpc]) (.frame rfl rfl rfl)
    · cases hn
      exact .go _ (by simp [hpc]) (.frame rfl rfl rfl)
    · cases hn
  | handleRequest fd c pkg =>
    have hs' : ∃ p, s' = s.setPool i p := by
      cases ch <;> exact ⟨_, (Option.some.inj hn).symm⟩
    obtain ⟨p, rfl⟩ := hs'
    exact .go p (by simp [hpc]) (.frame rfl rfl rfl)
  | clearInthreadpool fd c =>
    cases hn
    exact .clear hpc
  | notify fd c =>
    cases ch with
    | wake who =>
      obtain ⟨s₁, hnotify, rfl⟩ := Option.map_eq_some_iff.1 hn
      exact .notify _ hpc hnotify
    | _ => cases hn
  | unlockFd fd c =>
    cases hn
    exact .go _ (by simp [hpc]) (.frame (by simp) rfl rfl)

/-- A worker does not move the others. -/
theorem PoolStep.pool_of_ne {i j : ℕ} (h : PoolStep s i s') (hne : j ≠ i) :
    s'.pool j = s.pool j := by
  cases h with
  | go p _ hk => exact (Function.update_of_ne hne ..).trans (congrFun hk.pool j)
  | clear => exact Function.update_of_ne hne ..
  | notify p _ hnotify =>
    exact (Function.update_of_ne hne ..).trans (congrFun (notifyOne_keeps hnotify).pool j)

/-- **A step of a worker of the pool keeps the waiting threads heard.** -/
theorem PoolStep.heard (h : Refines s.obs P) (hinv : P.Inv) (hs : s.Heard) {i : ℕ}
    (hstep : PoolStep s i s') : s'.Heard := by
  intro j fd' c' hw
  -- who is heard by another worker still is
  have hother : ∀ k, (s.pool i = .notify fd' c' → False) → s.pool k = .notify fd' c' →
      ∃ k, s'.pool k = .notify fd' c' := by
    intro k hi hk
    refine ⟨k, (hstep.pool_of_ne ?_).trans hk⟩
    rintro rfl
    exact hi hk
  cases hstep with
  | go p hp hk =>
    rcases hk.heard hs j fd' c' hw with hflag | ⟨k, hk'⟩
    · exact .inl hflag
    · rw [hk.pool] at hk'
      exact .inr (hother k (hp fd' c') hk')
  | @clear fd c hpc =>
    change s.waits j = some (fd', c') at hw
    rcases eq_or_ne c' c with rfl | hne
    · -- the worker is about to notify the thread that waits for its connection
      obtain ⟨σ, hσ, hconn, -⟩ := slot_of_waits h hw
      have hv : s.obs.view (.pool i) = (PoolPc.clearInthreadpool fd c').view :=
        congrArg PoolPc.view hpc
      obtain ⟨σ', hσ', -⟩ := h.slot_of_owns hv rfl
      have hptr := h.ptr_eq hv hσ' (.inr ⟨_, rfl⟩) (List.mem_singleton_self (some c'))
      obtain rfl := hinv.conn_injective hσ hσ' (hconn.trans (Option.some.inj hptr))
      exact .inr ⟨i, Function.update_self ..⟩
    · rcases hs j fd' c' hw with hflag | ⟨k, hk⟩
      · exact .inl (by simpa [hne] using hflag)
      · exact .inr (hother k (by simp [hpc]) hk)
  | @notify fd c who s₁ p hpc hnotify =>
    rcases (notifyOne_keeps hnotify).heard hs j fd' c' hw with hflag | ⟨k, hk⟩
    · exact .inl hflag
    · rw [(notifyOne_keeps hnotify).pool] at hk
      refine .inr (hother k (fun hi => ?_) hk)
      -- nobody waits any more for this worker
      rw [hpc] at hi
      cases hi
      exact not_waits_of_notifyOne h hinv hpc hnotify j fd' hw

/-- What a step of any thread can do to the waiting threads and the pool. -/
theorem next_cases {t : Tid} {ch : Choice} (hn : s.next n t ch = some s') :
    Keeps s s' ∨ ∃ i, i < n ∧ PoolStep s i s' := by
  unfold State.next at hn
  split_ifs at hn
  cases t with
  | acceptor => exact .inl (acceptNext_keeps hn)
  | loop => exact .inl (loopNext_keeps hn)
  | pool i =>
    simp only at hn
    split_ifs at hn with hlt
    exact .inr ⟨i, hlt, poolNext_step hn⟩
  | active i =>
    obtain ⟨p, hi, hn⟩ := Option.bind_eq_some_iff.1 hn
    exact .inl (activeNext_keeps hi hn)

/-- **Who waits is notified**, in every reachable state. -/
theorem heard_of_reachable {ok : State → Tid × Choice → Prop} (hs : (worker n).Reachable ok s) :
    s.Heard := by
  refine hs.invariant_with (fun s hs => exists_refines hs) (fun s h => ?_)
    fun s s' l ⟨P, h, hinv⟩ hheard _ hn => ?_
  · obtain rfl : s = .start := h
    exact fun i fd c hw => nomatch hw
  · rcases next_cases hn with hk | ⟨i, -, hstep⟩
    · exact hk.heard hheard
    · exact hstep.heard h hinv hheard

/-- The pool has `n` workers. -/
theorem idle_of_le {ok : State → Tid × Choice → Prop} (hs : (worker n).Reachable ok s) :
    ∀ i, n ≤ i → s.pool i = .idle := by
  refine hs.invariant (I := fun s => ∀ i, n ≤ i → s.pool i = .idle) (fun s h => ?_)
    fun s s' l hidle _ hn i hi => ?_
  · obtain rfl : s = .start := h
    exact fun _ _ => rfl
  · rcases next_cases hn with hk | ⟨j, hj, hstep⟩
    · rw [hk.pool]
      exact hidle i hi
    · rw [hstep.pool_of_ne (by omega)]
      exact hidle i hi

end Dispatch
end WeakAyas
