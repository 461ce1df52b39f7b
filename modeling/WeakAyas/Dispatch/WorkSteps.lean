/-
# Every step costs work

Thread by thread and step by step: what a thread does without anything from outside
leaves less work than there was (`work_lt`).
-/

import WeakAyas.Dispatch.Work

namespace WeakAyas
namespace Dispatch

variable {n : ℕ} {s s' : State} {ch : Choice}

/-- `add_fd` goes on. -/
theorem acceptNext_work (hn : s.acceptNext ch = some s') (hch : ch.external = false) :
    s'.work n < s.work n := by
  unfold State.acceptNext at hn
  cases hpc : s.acceptor with rw [hpc] at hn
  | accept => cases ch <;> first | cases hch; done | cases hn
  | lockMap fd c =>
    obtain ⟨-, rfl⟩ := lockMap_cases hn
    exact State.setAcceptor_lt rfl rfl (by simp [hpc, AcceptPc.work])
  | insert | unlockMap =>
    cases hn
    exact State.setAcceptor_lt rfl rfl (by simp [hpc, AcceptPc.work])

/-- The epoll thread goes on: what it starts costs less than what it leaves. -/
theorem loopNext_work (hn : s.loopNext ch = some s') (hch : ch.external = false) :
    s'.work n < s.work n := by
  unfold State.loopNext at hn
  cases hpc : s.loop with rw [hpc] at hn
  | epollWait => cases ch <;> first | cases hch; done | cases hn
  | lookup fd l | handleLookup fd c l =>
    rcases l with _ | _ | _ | c
    · obtain ⟨-, rfl⟩ := lockMap_cases hn
      refine State.setLoop_lt (k := 0) le_rfl rfl ?_
      simp [hpc, LoopPc.work, Lookup.work]
    all_goals
      cases hn
      refine State.setLoop_lt (k := 0) le_rfl rfl ?_
      simp [hpc, LoopPc.work, Lookup.work]
  | lockMap fd c =>
    obtain ⟨-, rfl⟩ := lockMap_cases hn
    refine State.setLoop_lt (k := 0) le_rfl rfl ?_
    simp [hpc, LoopPc.work]
  | checkRunning | checkInthreadpool =>
    cases hn
    refine State.setLoop_lt (k := 0) le_rfl rfl ?_
    split_ifs <;> simp only [hpc, LoopPc.work] <;> omega
  | setNeedactive c =>
    cases hn
    refine State.setLoop_lt (State.work_setNeedactive c) rfl ?_
    rw [hpc]
    simp only [LoopPc.work]
    change 1 + 12 * s.active.length < 2 + 12 * s.active.length
    omega
  | spawnNeedactive fd c =>
    cases hn
    refine State.setLoop_lt (State.work_setNeedactive c) rfl ?_
    rw [hpc]
    simp only [LoopPc.work]
    change 23 + 12 * s.active.length < 24 + 12 * s.active.length
    omega
  | spawn fd c =>
    cases hn
    refine State.setLoop_lt (k := 20) (State.work_pushActive _ fun k => ?_).le rfl ?_
    · rw [hpc]
      rfl
    · simp [hpc, LoopPc.work]
  | read fd c c' =>
    cases ch with
    | read r =>
      obtain ⟨s₁, hread, rfl⟩ := Option.map_eq_some_iff.1 hn
      obtain rfl | ⟨_, d, -, rfl, -⟩ := receive_cases hread
      · refine State.setLoop_lt (k := 0) le_rfl rfl ?_
        rw [hpc]
        cases r with
        | eintr | data => cases hch
        | _ => simp [LoopPc.work, CloseFd.work]
      · cases hch
    | _ => cases hn
  | enqueue fd c c' d =>
    cases hn
    have htasks := State.work_setTasks (n := n) (s := s) (s.tasks ++ [(fd, d)])
    rw [List.length_append, List.length_singleton] at htasks
    refine State.setLoop_lt (k := 13) (by omega) rfl ?_
    simp [hpc, LoopPc.work]
  | lockFd fd c c' d =>
    obtain ⟨-, rfl⟩ := lockFd_map hn
    refine State.setLoop_lt (k := 0) (State.work_setFdMutex ..).le rfl ?_
    simp [hpc, LoopPc.work]
  | setInthreadpool fd c c' d =>
    cases hn
    refine State.setLoop_lt (k := 0) (State.work_setFdInthreadpool ..).le rfl ?_
    simp [hpc, LoopPc.work]
  | unlockFd fd c c' d =>
    cases hn
    refine State.setLoop_lt (k := 0) (State.work_setFdMutex ..).le rfl ?_
    simp [hpc, LoopPc.work]
  | spawnRunning fd c =>
    cases hn
    refine State.setLoop_lt (k := 0) (State.work_setThreadRunning ..).le rfl ?_
    simp [hpc, LoopPc.work]
  | closeFd fd c k =>
    cases k with
    | lock =>
      obtain ⟨-, rfl⟩ := lockMap_cases hn
      refine State.setLoop_lt (k := 0) le_rfl rfl ?_
      simp [hpc, LoopPc.work, CloseFd.work]
    | _ =>
      cases hn
      refine State.setLoop_lt (k := 0) le_rfl rfl ?_
      simp [hpc, LoopPc.work, CloseFd.work]
  | unlockMap | unlockMapHandle =>
    cases hn
    refine State.setLoop_lt (k := 0) le_rfl rfl ?_
    simp [hpc, LoopPc.work, Lookup.work]
  | ended => cases hn

/-- A pool worker goes on; to take a task is work done. -/
theorem poolNext_work {i : ℕ} (hi : i < n) (hn : s.poolNext i ch = some s') :
    s'.work n < s.work n := by
  unfold State.poolNext at hn
  cases hpc : s.pool i with rw [hpc] at hn
  | idle =>
    cases ht : s.tasks with rw [ht] at hn
    | nil => cases hn
    | cons task tasks =>
      cases hn
      -- the task is taken from the queue
      have htasks := State.work_setTasks (n := n) (s := s) tasks
      rw [ht, List.length_cons] at htasks
      have hset := State.work_setPool (n := n) (s := s.setTasks tasks) hi
        (.lookup task.1 task.2 .lock)
      rw [show (s.setTasks tasks).pool i = .idle from hpc] at hset
      simp only [PoolPc.work, Lookup.work] at hset
      omega
  | lookup fd d l =>
    rcases l with _ | _ | _ | c
    · obtain ⟨-, rfl⟩ := lockMap_cases hn
      refine State.setPool_lt (k := 0) hi le_rfl rfl ?_
      simp [hpc, PoolPc.work, Lookup.work]
    all_goals
      cases hn
      refine State.setPool_lt (k := 0) hi le_rfl rfl ?_
      simp [hpc, PoolPc.work, Lookup.work]
  | lockFd fd d c =>
    obtain ⟨-, rfl⟩ := lockFd_map hn
    refine State.setPool_lt (k := 0) hi (State.work_setFdMutex ..).le rfl ?_
    simp [hpc, PoolPc.work]
  | parse fd d c =>
    simp only at hn
    split at hn <;> cases hn <;>
    · refine State.setPool_lt (k := 0) hi le_rfl rfl ?_
      simp [hpc, PoolPc.work]
  | handleRequest fd c pkg =>
    have hs' : ∃ p : PoolPc, p.work < 7 ∧ s' = s.setPool i p := by
      cases ch <;> exact ⟨_, by simp [PoolPc.work], (Option.some.inj hn).symm⟩
    obtain ⟨p, hp, rfl⟩ := hs'
    refine State.setPool_lt (k := 0) hi le_rfl rfl ?_
    simpa [hpc, PoolPc.work] using hp
  | clearInthreadpool fd c =>
    cases hn
    refine State.setPool_lt (k := 0) hi (State.work_setFdInthreadpool ..).le rfl ?_
    simp [hpc, PoolPc.work]
  | notify fd c =>
    cases ch with
    | wake who =>
      obtain ⟨s₁, hnotify, rfl⟩ := Option.map_eq_some_iff.1 hn
      refine State.setPool_lt hi (State.work_notifyOne hnotify) (notifyOne_keeps hnotify).pool ?_
      simp [hpc, PoolPc.work]
    | _ => cases hn
  | unlockFd fd c =>
    cases hn
    refine State.setPool_lt (k := 0) hi (State.work_setFdMutex ..).le rfl ?_
    simp [hpc, PoolPc.work]

/-- A thread that gets on with the same connection, or stops looking at it. -/
theorem ActivePc.weight_lt {p p' : ActivePc} (needactive : ConnId → Bool) {k : ℕ}
    (hwork : p'.work + k < p.work) (hlooks : p'.looksAt = none ∨ p'.looksAt = p.looksAt) :
    p'.weight needactive + k < p.weight needactive := by
  rcases hlooks with h | h
  · rw [weight, h, weight]
    simp only [Option.any_none, Bool.toNat_false]
    omega
  · rw [weight, h, weight]
    omega

/-- An active thread goes on, unless a handler ends the process. -/
theorem activeNext_work {i : ℕ} {p : ActivePc} (hi : s.active[i]? = some p)
    (hn : s.activeNext i ch p = some s') (hch : ch.external = false)
    (hterm : s'.terminated = false) : s'.work n < s.work n := by
  cases p with
  | start fd l =>
    rcases l with _ | _ | _ | c
    · obtain ⟨-, rfl⟩ := lockMap_cases hn
      exact State.setActive_lt (k := 0) hi le_rfl
        (ActivePc.weight_lt _ (by simp [ActivePc.work, Lookup.work]) (.inl rfl))
    all_goals
      cases hn
      exact State.setActive_lt (k := 0) hi le_rfl
        (ActivePc.weight_lt _ (by simp [ActivePc.work, Lookup.work]) (.inl rfl))
  | lookup fd c l =>
    rcases l with _ | _ | _ | c'
    · obtain ⟨-, rfl⟩ := lockMap_cases hn
      exact State.setActive_lt (k := 0) hi le_rfl
        (ActivePc.weight_lt _ (by simp [ActivePc.work, Lookup.work]) (.inr rfl))
    · cases hn
      exact State.setActive_lt (k := 0) hi le_rfl
        (ActivePc.weight_lt _ (by simp [ActivePc.work, Lookup.work]) (.inr rfl))
    · cases hn
      exact State.setActive_lt (k := 0) hi le_rfl
        (ActivePc.weight_lt _ (by simp [ActivePc.work, Lookup.work]) (.inl rfl))
    · cases hn
      exact State.setActive_lt (k := 0) hi le_rfl
        (ActivePc.weight_lt _ (by simp [ActivePc.work, Lookup.work]) (.inr rfl))
  | enqLookup fd c c' d l =>
    rcases l with _ | _ | _ | c''
    · obtain ⟨-, rfl⟩ := lockMap_cases hn
      exact State.setActive_lt (k := 0) hi le_rfl
        (ActivePc.weight_lt _ (by simp [ActivePc.work, Lookup.work]) (.inr rfl))
    all_goals
      cases hn
      exact State.setActive_lt (k := 0) hi le_rfl
        (ActivePc.weight_lt _ (by simp [ActivePc.work, Lookup.work]) (.inr rfl))
  | clearNeedactive fd c =>
    cases hn
    -- the flag that the thread will look at is off now
    refine State.setActive_lt (k := 0) hi (State.work_clearNeedactive c) ?_
    simp [ActivePc.weight, ActivePc.work, ActivePc.looksAt, Lookup.work, State.needactive,
      State.setNeedactive, State.setInfo]
  | closeFd fd c k =>
    cases k with
    | lock =>
      obtain ⟨-, rfl⟩ := lockMap_cases hn
      exact State.setActive_lt (k := 0) hi le_rfl
        (ActivePc.weight_lt _ (by simp [ActivePc.work, CloseFd.work]) (.inl rfl))
    | _ =>
      cases hn
      exact State.setActive_lt (k := 0) hi le_rfl
        (ActivePc.weight_lt _ (by simp [ActivePc.work, CloseFd.work]) (.inl rfl))
  | lockFd | relockFd | enqLockFd | endLockFd =>
    obtain ⟨-, rfl⟩ := lockFd_map hn
    exact State.setActive_lt (k := 0) hi (State.work_setFdMutex ..).le
      (ActivePc.weight_lt _ (by simp [ActivePc.work]) (.inr rfl))
  | checkInthreadpool fd c c' =>
    cases hn
    refine State.setActive_lt (k := 0) hi le_rfl (ActivePc.weight_lt _ ?_ (.inr ?_)) <;>
      split_ifs <;> simp [ActivePc.work, ActivePc.looksAt]
  | wait fd c c' =>
    cases hn
    exact State.setActive_lt (k := 0) hi (State.work_setFdMutex ..).le
      (ActivePc.weight_lt _ (by simp [ActivePc.work]) (.inr rfl))
  | asleep fd c c' => cases ch <;> first | cases hch; done | cases hn
  | read fd c c' =>
    cases ch with
    | read r =>
      obtain ⟨s₁, hread, rfl⟩ := Option.map_eq_some_iff.1 hn
      obtain rfl | ⟨_, d, -, rfl, -⟩ := receive_cases hread
      · refine State.setActive_lt (k := 0) hi le_rfl (ActivePc.weight_lt _ ?_ ?_)
        · cases r <;> first | cases hch; done | simp [ActivePc.work]
        · cases r <;> first | cases hch; done | exact .inl rfl | exact .inr rfl
      · cases hch
    | _ => cases hn
  | enqParse fd c c' d c'' =>
    simp only [State.activeNext] at hn
    split at hn <;> cases hn <;>
      exact State.setActive_lt (k := 0) hi le_rfl
        (ActivePc.weight_lt _ (by simp [ActivePc.work]) (.inr rfl))
  | enqHandleRequest fd c c' c'' pkg =>
    cases ch with
    | thrown =>
      cases hn
      cases hterm
    | _ =>
      cases hn
      exact State.setActive_lt (k := 0) hi le_rfl
        (ActivePc.weight_lt _ (by simp [ActivePc.work]) (.inr rfl))
  | enqUnlockFd fd c c' c'' =>
    cases hn
    exact State.setActive_lt (k := 0) hi (State.work_setFdMutex ..).le
      (ActivePc.weight_lt _ (by simp [ActivePc.work]) (.inr rfl))
  | unlockFd fd c c' returned =>
    cases hn
    cases returned <;>
      refine State.setActive_lt (k := 0) hi (State.work_setFdMutex ..).le
        (ActivePc.weight_lt _ (by simp [ActivePc.work]) ?_)
    · exact .inl rfl
    · exact .inr rfl
  | eraseFd fd c =>
    cases hn
    exact State.setActive_lt (k := 0) hi le_rfl
      (ActivePc.weight_lt _ (by simp [ActivePc.work, CloseFd.work]) (.inl rfl))
  | sleep fd c =>
    cases hn
    exact State.setActive_lt (k := 0) hi le_rfl
      (ActivePc.weight_lt _ (by simp [ActivePc.work]) (.inr rfl))
  | endCheck fd c =>
    cases hn
    refine State.setActive_lt (k := 0) hi le_rfl ?_
    -- with the flag set, the thread has had the work of the next round
    cases hneed : (s.info c).needactive <;>
      simp [ActivePc.weight, ActivePc.work, ActivePc.looksAt, State.needactive, hneed]
  | endRunning fd c =>
    cases hn
    exact State.setActive_lt (k := 0) hi (State.work_setThreadRunning ..).le
      (ActivePc.weight_lt _ (by simp [ActivePc.work]) (.inl rfl))
  | endNotify fd c =>
    cases ch with
    | wake who =>
      obtain ⟨s₁, hnotify, rfl⟩ := Option.map_eq_some_iff.1 hn
      exact State.setActive_lt (active_notifyOne hi rfl hnotify) (State.work_notifyOne hnotify)
        (ActivePc.weight_lt _ (by simp [ActivePc.work]) (.inl rfl))
    | _ => cases hn
  | endUnlockFd fd c again =>
    cases hn
    refine State.setActive_lt (k := 0) hi (State.work_setFdMutex ..).le
      (ActivePc.weight_lt _ ?_ (.inl ?_)) <;>
      cases again <;> simp [ActivePc.work, ActivePc.looksAt]
  | ended => cases hn

/-- **Every step that a thread takes by itself costs work.** -/
theorem work_lt {t : Tid} (hn : s.next n t ch = some s') (hch : ch.external = false)
    (hterm : s'.terminated = false) : s'.work n < s.work n := by
  unfold State.next at hn
  split_ifs at hn
  cases t with
  | acceptor => exact acceptNext_work hn hch
  | loop => exact loopNext_work hn hch
  | pool i =>
    simp only at hn
    split_ifs at hn with hi
    exact poolNext_work hi hn
  | active i =>
    obtain ⟨p, hi, hn⟩ := Option.bind_eq_some_iff.1 hn
    exact activeNext_work hi hn hch hterm

end Dispatch
end WeakAyas
