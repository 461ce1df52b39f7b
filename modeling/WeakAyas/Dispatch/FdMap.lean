/-
# Who holds `fd_map`

A thread holds `fd_map` while it looks a connection up, inserts it in `add_fd`,
reads and writes its flags in `loop`, or closes it.  Where the thread is in its
code says whether it does (`State.inMap`), and the mutex has the one that does
(`MapHeld`).
-/

import WeakAyas.Dispatch.Simulation

namespace WeakAyas
namespace Dispatch

open TransitionSystem

def Lookup.inMap : Lookup → Bool
  | lock => false
  | _ => true

def CloseFd.inMap : CloseFd → Bool
  | lock => false
  | _ => true

def AcceptPc.inMap : AcceptPc → Bool
  | insert _ _ | unlockMap => true
  | _ => false

def LoopPc.inMap : LoopPc → Bool
  | lookup _ l | handleLookup _ _ l => l.inMap
  | checkRunning _ _ | setNeedactive _ | checkInthreadpool _ _ | spawnNeedactive _ _
  | spawnRunning _ _ | spawn _ _ | unlockMap | unlockMapHandle _ _ => true
  | closeFd _ _ k => k.inMap
  | _ => false

def PoolPc.inMap : PoolPc → Bool
  | lookup _ _ l => l.inMap
  | _ => false

def ActivePc.inMap : ActivePc → Bool
  | start _ l | lookup _ _ l | enqLookup _ _ _ _ l => l.inMap
  | closeFd _ _ k => k.inMap
  | _ => false

namespace State

/-- The thread is between locking `fd_map` and releasing it. -/
def inMap (s : State) : Tid → Bool
  | .acceptor => s.acceptor.inMap
  | .loop => s.loop.inMap
  | .pool i => (s.pool i).inMap
  | .active i => (s.active[i]?).any ActivePc.inMap

variable (s : State)

/-- A move of the acceptor. -/
theorem inMap_setAcceptor (p : AcceptPc) :
    (s.setAcceptor p).inMap = Function.update s.inMap .acceptor p.inMap := by
  funext t
  cases t <;> rfl

/-- A move of the epoll thread. -/
theorem inMap_setLoop (p : LoopPc) :
    (s.setLoop p).inMap = Function.update s.inMap .loop p.inMap := by
  funext t
  cases t <;> rfl

/-- A move of a pool worker. -/
theorem inMap_setPool (i : ℕ) (p : PoolPc) :
    (s.setPool i p).inMap = Function.update s.inMap (.pool i) p.inMap := by
  funext t
  cases t with
  | pool j =>
    rcases eq_or_ne j i with rfl | hne
    · simp [inMap, setPool]
    · simp [inMap, setPool, hne]
  | _ => rfl

/-- A move of an active thread. -/
theorem inMap_setActive {s : State} {i : ℕ} {p₀ : ActivePc} (hi : s.active[i]? = some p₀)
    (p : ActivePc) : (s.setActive i p).inMap = Function.update s.inMap (.active i) p.inMap := by
  have hlt : i < s.active.length := (List.getElem?_eq_some_iff.1 hi).1
  funext t
  cases t with
  | active j =>
    rcases eq_or_ne j i with rfl | hne
    · simp [inMap, setActive, hlt]
    · simp [inMap, setActive, hne, hne.symm]
  | _ => rfl

/-- A new active thread. -/
theorem inMap_pushActive (p : ActivePc) :
    (s.pushActive p).inMap = Function.update s.inMap (.active s.active.length) p.inMap := by
  funext t
  cases t with
  | active j =>
    rcases lt_trichotomy j s.active.length with hlt | rfl | hgt
    · simp [inMap, pushActive, hlt, hlt.ne, List.getElem?_append_left]
    · simp [inMap, pushActive]
    · have h₁ : (s.active ++ [p])[j]? = none := by simp; omega
      have h₂ : s.active[j]? = none := by simp; omega
      simp [inMap, pushActive, h₁, h₂, hgt.ne']
  | _ => rfl

end State

/-! ### One holder -/

/-- A step of the thread `t`, as far as `fd_map` is concerned.  Only a handler that
throws in an active thread terminates the program. -/
inductive MapStep (t : Tid) (s s' : State) : Prop where
  | keep : s'.inMap = s.inMap → s'.fdMap = s.fdMap ∧ s'.terminated = s.terminated → MapStep t s s'
  | lock : s.fdMap = none → s'.inMap = Function.update s.inMap t true →
      s'.fdMap = some t ∧ s'.terminated = s.terminated → MapStep t s s'
  | unlock : s.inMap t = true → s'.inMap = Function.update s.inMap t false →
      s'.fdMap = none ∧ s'.terminated = s.terminated → MapStep t s s'
  | terminate {i : ℕ} {fd : Fd} {c c' c'' : ConnId} {pkg : SocketPackage} :
      s.active[i]? = some (.enqHandleRequest fd c c' c'' pkg) → s'.inMap = s.inMap →
      s'.fdMap = s.fdMap → MapStep t s s'

/-- `fd_map` is held by the thread that is in it, and by nobody else. -/
def MapHeld (s : State) : Prop := ∀ t, s.inMap t = true ↔ s.fdMap = some t

variable {n : ℕ} {s s' s₁ : State} {t : Tid} {ch : Choice}

/-- Each kind of step keeps the holder. -/
theorem MapHeld.step (h : MapHeld s) (hs : MapStep t s s') : MapHeld s' := by
  intro t'
  cases hs with
  | keep hin hmap => rw [hin, hmap.1, h t']
  | lock hfree hin hmap =>
    rw [hin, hmap.1]
    rcases eq_or_ne t' t with rfl | hne
    · simp
    · simp [hne, hne.symm, h t', hfree]
  | unlock hinside hin hmap =>
    rw [hin, hmap.1]
    have hheld := (h t).1 hinside
    rcases eq_or_ne t' t with rfl | hne
    · simp
    · simp [hne, hne.symm, h t', hheld]
  | terminate _ hin hmap => rw [hin, hmap, h t']

/-- Where a thread is, once it has got on. -/
theorem MapStep.get {b : Bool} (hin : s'.inMap = Function.update s.inMap t b)
    (hb : b = s.inMap t) (hmap : s'.fdMap = s.fdMap ∧ s'.terminated = s.terminated) :
    MapStep t s s' :=
  .keep (by rw [hin, hb, Function.update_eq_self]) hmap

/-- `fd_map` is taken only while it is free. -/
theorem lockMap_cases {f : State → State} (h : (s.lockMap t).map f = some s') :
    s.fdMap = none ∧ s' = f (s.setFdMap (some t)) := by
  refine ⟨?_, lockMap_map h⟩
  by_contra hheld
  simp [State.lockMap, hheld] at h

/-- The acceptor locks and unlocks it in `add_fd`. -/
theorem acceptNext_mapStep (hn : s.acceptNext ch = some s') : MapStep .acceptor s s' := by
  unfold State.acceptNext at hn
  cases hpc : s.acceptor with rw [hpc] at hn
  | accept =>
    cases ch with
    | accepted fd =>
      simp only at hn
      split at hn <;> cases hn
      exact .get (State.inMap_setAcceptor ..) (congrArg AcceptPc.inMap hpc).symm ⟨rfl, rfl⟩
    | _ => cases hn
  | lockMap fd c =>
    obtain ⟨hfree, rfl⟩ := lockMap_cases hn
    exact .lock hfree (State.inMap_setAcceptor ..) ⟨rfl, rfl⟩
  | insert fd c =>
    cases hn
    exact .get (State.inMap_setAcceptor ..) (congrArg AcceptPc.inMap hpc).symm ⟨rfl, rfl⟩
  | unlockMap =>
    cases hn
    exact .unlock (congrArg AcceptPc.inMap hpc) (State.inMap_setAcceptor ..) ⟨rfl, rfl⟩

/-- What `read` does: nothing, or it takes a chunk from an open socket. -/
theorem receive_cases {fd : Fd} {r : State.ReadResult} (h : s.receive fd r = some s₁) :
    s₁ = s ∨ ∃ c d, s.socks fd = some c ∧ r = .data d ∧ s₁ = s.pushRead c d := by
  cases hc : s.socks fd with
  | none =>
    unfold State.receive at h
    rw [hc] at h
    cases r <;> cases h
    exact .inl rfl
  | some c =>
    obtain rfl := receive_eq hc h
    cases r with
    | data d => exact .inr ⟨c, d, rfl, rfl, rfl⟩
    | _ => exact .inl rfl

/-- A `read` touches neither `fd_map` nor a place. -/
theorem receive_inMap {fd : Fd} {r : State.ReadResult} (h : s.receive fd r = some s₁) :
    s₁.inMap = s.inMap ∧ (s₁.fdMap = s.fdMap ∧ s₁.terminated = s.terminated) ∧
      s₁.active = s.active := by
  obtain rfl | ⟨c, d, -, -, rfl⟩ := receive_cases h <;>
    exact ⟨rfl, ⟨rfl, rfl⟩, rfl⟩

/-- The new thread is not in `fd_map`. -/
theorem State.inMap_pushStart (fd : Fd) : (s.pushActive (.start fd .lock)).inMap = s.inMap := by
  rw [State.inMap_pushActive]
  refine Function.update_eq_self_iff.2 ?_
  simp [State.inMap, ActivePc.inMap, Lookup.inMap]

/-- The epoll thread locks and unlocks it around its tests and in `close_fd`. -/
theorem loopNext_mapStep (hn : s.loopNext ch = some s') : MapStep .loop s s' := by
  have hin : s.inMap .loop = s.loop.inMap := rfl
  unfold State.loopNext at hn
  cases hpc : s.loop with rw [hpc] at hn hin
  | epollWait =>
    cases ch with
    | event | stop =>
      cases hn
      exact .get (State.inMap_setLoop ..) hin.symm ⟨rfl, rfl⟩
    | _ => cases hn
  | lookup fd l | handleLookup fd c l =>
    rcases l with _ | _ | _ | c
    · obtain ⟨hfree, rfl⟩ := lockMap_cases hn
      exact .lock hfree (State.inMap_setLoop ..) ⟨rfl, rfl⟩
    · cases hn
      exact .get (State.inMap_setLoop ..) hin.symm ⟨rfl, rfl⟩
    all_goals
      cases hn
      exact .unlock hin (State.inMap_setLoop ..) ⟨rfl, rfl⟩
  | closeFd fd c k =>
    cases k with
    | lock =>
      obtain ⟨hfree, rfl⟩ := lockMap_cases hn
      exact .lock hfree (State.inMap_setLoop ..) ⟨rfl, rfl⟩
    | erase | close =>
      cases hn
      exact .get (State.inMap_setLoop ..) hin.symm ⟨rfl, rfl⟩
    | unlock =>
      cases hn
      exact .unlock hin (State.inMap_setLoop ..) ⟨rfl, rfl⟩
  | lockMap fd c =>
    obtain ⟨hfree, rfl⟩ := lockMap_cases hn
    exact .lock hfree (State.inMap_setLoop ..) ⟨rfl, rfl⟩
  | checkRunning fd c | checkInthreadpool fd c =>
    cases hn
    refine .get (State.inMap_setLoop ..) ?_ ⟨rfl, rfl⟩
    rw [hin]
    split <;> rfl
  | spawn fd c =>
    cases hn
    refine .get (b := true) ?_ hin.symm ⟨rfl, rfl⟩
    rw [State.inMap_setLoop, State.inMap_pushStart]
    rfl
  | unlockMap | unlockMapHandle =>
    cases hn
    exact .unlock hin (State.inMap_setLoop ..) ⟨rfl, rfl⟩
  | read fd c c' =>
    cases ch with
    | read r =>
      obtain ⟨s₁, hread, rfl⟩ := Option.map_eq_some_iff.1 hn
      obtain ⟨hsame, hmap, -⟩ := receive_inMap hread
      refine .get (b := false) ?_ hin.symm hmap
      rw [State.inMap_setLoop, hsame]
      cases r <;> rfl
    | _ => cases hn
  | lockFd fd c c' d =>
    obtain ⟨-, rfl⟩ := lockFd_map hn
    exact .get (State.inMap_setLoop ..) hin.symm ⟨rfl, rfl⟩
  | ended => cases hn
  | _ =>
    cases hn
    exact .get (State.inMap_setLoop ..) hin.symm ⟨rfl, rfl⟩

/-- A thread that is woken is not past the lock. -/
theorem notifyOne_inMap {c : ConnId} {who : Option ℕ} (h : s.notifyOne c who = some s₁) :
    s₁.inMap = s.inMap ∧ s₁.fdMap = s.fdMap ∧ s₁.terminated = s.terminated := by
  obtain ⟨rfl, -⟩ | ⟨j, fd, c₁, hj, rfl⟩ := notifyOne_cases h
  · exact ⟨rfl, rfl, rfl⟩
  · refine ⟨?_, rfl, rfl⟩
    rw [State.inMap_setActive hj]
    exact Function.update_eq_self_iff.2 (by simp [State.inMap, hj, ActivePc.inMap])

/-- A pool worker locks and unlocks it in `get_lock_fdinfo`. -/
theorem poolNext_mapStep {i : ℕ} (hn : s.poolNext i ch = some s') : MapStep (.pool i) s s' := by
  have hin : s.inMap (.pool i) = (s.pool i).inMap := rfl
  unfold State.poolNext at hn
  cases hpc : s.pool i with rw [hpc] at hn hin
  | idle =>
    cases ht : s.tasks with rw [ht] at hn
    | nil => cases hn
    | cons task tasks =>
      cases hn
      exact .get (State.inMap_setPool ..) hin.symm ⟨rfl, rfl⟩
  | lookup fd d l =>
    rcases l with _ | _ | _ | c
    · obtain ⟨hfree, rfl⟩ := lockMap_cases hn
      exact .lock hfree (State.inMap_setPool ..) ⟨rfl, rfl⟩
    · cases hn
      exact .get (State.inMap_setPool ..) hin.symm ⟨rfl, rfl⟩
    all_goals
      cases hn
      exact .unlock hin (State.inMap_setPool ..) ⟨rfl, rfl⟩
  | lockFd fd d c =>
    obtain ⟨-, rfl⟩ := lockFd_map hn
    exact .get (State.inMap_setPool ..) hin.symm ⟨rfl, rfl⟩
  | parse fd d c =>
    simp only at hn
    split at hn <;> cases hn <;> exact .get (State.inMap_setPool ..) hin.symm ⟨rfl, rfl⟩
  | handleRequest fd c pkg =>
    have hs' : ∃ p : PoolPc, p.inMap = false ∧ s' = s.setPool i p := by
      cases ch <;> exact ⟨_, rfl, (Option.some.inj hn).symm⟩
    obtain ⟨p, hp, rfl⟩ := hs'
    exact .get (State.inMap_setPool ..) (hp.trans hin.symm) ⟨rfl, rfl⟩
  | notify fd c =>
    cases ch with
    | wake who =>
      obtain ⟨s₁, hnotify, rfl⟩ := Option.map_eq_some_iff.1 hn
      obtain ⟨hsame, hmap⟩ := notifyOne_inMap hnotify
      refine .get (b := false) ?_ hin.symm hmap
      rw [State.inMap_setPool, hsame]
      rfl
    | _ => cases hn
  | _ =>
    cases hn
    exact .get (State.inMap_setPool ..) hin.symm ⟨rfl, rfl⟩

/-- An active thread does in `get_lock_fdinfo` and `close_fd`. -/
theorem activeNext_mapStep {i : ℕ} {p : ActivePc} (hi : s.active[i]? = some p)
    (hn : s.activeNext i ch p = some s') : MapStep (.active i) s s' := by
  have hin : s.inMap (.active i) = p.inMap := by simp [State.inMap, hi]
  -- the thread gets on in a state with the same threads
  have hset : ∀ {s₁ : State} (p' : ActivePc), s₁.active = s.active → s₁.inMap = s.inMap →
      (s₁.setActive i p').inMap = Function.update s.inMap (.active i) p'.inMap := by
    intro s₁ p' hactive hsame
    rw [State.inMap_setActive (hactive ▸ hi), hsame]
  cases p with
  | start fd l | lookup fd c l =>
    rcases l with _ | _ | _ | c
    · obtain ⟨hfree, rfl⟩ := lockMap_cases hn
      exact .lock hfree (hset _ rfl rfl) ⟨rfl, rfl⟩
    · cases hn
      exact .get (hset _ rfl rfl) hin.symm ⟨rfl, rfl⟩
    all_goals
      cases hn
      exact .unlock hin (hset _ rfl rfl) ⟨rfl, rfl⟩
  | enqLookup fd c c' d l =>
    rcases l with _ | _ | _ | c
    · obtain ⟨hfree, rfl⟩ := lockMap_cases hn
      exact .lock hfree (hset _ rfl rfl) ⟨rfl, rfl⟩
    · cases hn
      exact .get (hset _ rfl rfl) hin.symm ⟨rfl, rfl⟩
    all_goals
      cases hn
      exact .unlock hin (hset _ rfl rfl) ⟨rfl, rfl⟩
  | closeFd fd c k =>
    cases k with
    | lock =>
      obtain ⟨hfree, rfl⟩ := lockMap_cases hn
      exact .lock hfree (hset _ rfl rfl) ⟨rfl, rfl⟩
    | erase | close =>
      cases hn
      exact .get (hset _ rfl rfl) hin.symm ⟨rfl, rfl⟩
    | unlock =>
      cases hn
      exact .unlock hin (hset _ rfl rfl) ⟨rfl, rfl⟩
  | lockFd | relockFd | enqLockFd | endLockFd =>
    obtain ⟨-, rfl⟩ := lockFd_map hn
    exact .get (hset _ rfl rfl) hin.symm ⟨rfl, rfl⟩
  | checkInthreadpool fd c c' =>
    cases hn
    refine .get (hset _ rfl rfl) ?_ ⟨rfl, rfl⟩
    rw [hin]
    split <;> rfl
  | asleep fd c c' =>
    cases ch with
    | spurious =>
      cases hn
      exact .get (hset _ rfl rfl) hin.symm ⟨rfl, rfl⟩
    | _ => cases hn
  | read fd c c' =>
    cases ch with
    | read r =>
      obtain ⟨s₁, hread, rfl⟩ := Option.map_eq_some_iff.1 hn
      obtain ⟨hsame, hmap, hactive⟩ := receive_inMap hread
      refine .get (b := false) ?_ hin.symm hmap
      rw [hset _ hactive hsame]
      cases r <;> rfl
    | _ => cases hn
  | enqParse fd c c' d c'' =>
    simp only [State.activeNext] at hn
    split at hn <;> cases hn <;> exact .get (hset _ rfl rfl) hin.symm ⟨rfl, rfl⟩
  | enqHandleRequest fd c c' c'' pkg =>
    cases ch with
    | thrown =>
      cases hn
      exact .terminate hi rfl rfl
    | _ =>
      cases hn
      exact .get (hset _ rfl rfl) hin.symm ⟨rfl, rfl⟩
  | unlockFd fd c c' b | endUnlockFd fd c b =>
    cases hn
    refine .get (hset _ rfl rfl) ?_ ⟨rfl, rfl⟩
    rw [hin]
    split <;> rfl
  | endCheck fd c =>
    cases hn
    refine .get (hset _ rfl rfl) ?_ ⟨rfl, rfl⟩
    rw [hin]
    split <;> rfl
  | endNotify fd c =>
    cases ch with
    | wake who =>
      obtain ⟨s₁, hnotify, rfl⟩ := Option.map_eq_some_iff.1 hn
      obtain ⟨hsame, hmap⟩ := notifyOne_inMap hnotify
      refine .get (b := false) ?_ hin.symm hmap
      rw [State.inMap_setActive (active_notifyOne hi rfl hnotify), hsame]
      rfl
    | _ => cases hn
  | ended => cases hn
  | _ =>
    cases hn
    exact .get (hset _ rfl rfl) hin.symm ⟨rfl, rfl⟩

/-- **`fd_map` is locked and released by the thread that takes the step.** -/
theorem mapStep (hn : s.next n t ch = some s') : MapStep t s s' := by
  unfold State.next at hn
  split_ifs at hn
  cases t with
  | acceptor => exact acceptNext_mapStep hn
  | loop => exact loopNext_mapStep hn
  | pool i =>
    simp only at hn
    split_ifs at hn
    exact poolNext_mapStep hn
  | active i =>
    obtain ⟨p, hi, hn⟩ := Option.bind_eq_some_iff.1 hn
    exact activeNext_mapStep hi hn

/-- At the start nobody holds it. -/
theorem mapHeld_start : MapHeld .start := by
  intro t
  cases t <;> simp [State.inMap, State.start, AcceptPc.inMap, LoopPc.inMap, PoolPc.inMap]

/-- **`fd_map` has one holder.** -/
theorem mapHeld {ok : State → Tid × Choice → Prop} (hs : (worker n).Reachable ok s) : MapHeld s :=
  hs.invariant (fun _ h => h ▸ mapHeld_start) fun _ _ _ h _ hn => h.step (mapStep hn)

/-- No handler is called in an active thread. -/
theorem MapStep.not_terminated {P : Protocol} (h : Refines s.obs P) (hterm : s.terminated = false)
    (hs : MapStep t s s') : s'.terminated = false := by
  cases hs with
  | keep _ hmap | lock _ _ hmap | unlock _ _ hmap => exact hmap.2.trans hterm
  | terminate hi =>
    obtain ⟨σ, hσ, -⟩ := h.slot_of_drives (view_active hi) rfl
    cases h.ptr_eq (view_active hi) hσ (.inl ⟨_, rfl⟩) (List.mem_singleton_self none)

/-- **No handler terminates the program.** -/
theorem not_terminated {ok : State → Tid × Choice → Prop} (hs : (worker n).Reachable ok s) :
    s.terminated = false := by
  refine hs.invariant_with (I := fun s => s.terminated = false) (fun s hs => exists_refines hs)
    (fun s h => ?_) fun s s' l ⟨P, h, _⟩ hterm _ hn => (mapStep hn).not_terminated h hterm
  obtain rfl : s = .start := h
  rfl

end Dispatch
end WeakAyas
