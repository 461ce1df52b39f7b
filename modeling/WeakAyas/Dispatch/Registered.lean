/-
# Tasks and entries

What a step of a thread does to the tasks of the pool and to `fd_infos`
(`Changes`): only the epoll thread enqueues, only `add_fd` puts an entry in, and
only `close_fd` takes one out.
-/

import WeakAyas.Dispatch.Flag

namespace WeakAyas
namespace Dispatch

variable {n : ℕ} {s s₁ s' : State} {t : Tid}

/-- The thread is about to take the entry of the descriptor out of `fd_infos`. -/
def State.Erases (s : State) (fd : Fd) : Tid → Prop
  | .loop => ∃ c, s.loop = .closeFd fd c .erase
  | .active i => ∃ c, s.active[i]? = some (.closeFd fd c .erase)
  | .acceptor | .pool _ => False

/-- What a step of the thread `t` can do to the tasks and the entries, and to the
epoll thread, which the destructor joins. -/
structure Changes (s : State) (t : Tid) (s' : State) : Prop where
  pending : ∀ fd, s'.TaskPending fd → s.TaskPending fd ∨ t = .loop ∧ s.loop.Enqueueing fd
  erased : ∀ fd, s.fdInfos fd ≠ none → s'.fdInfos fd = none → s.Erases fd t
  inserted : ∀ fd, s.fdInfos fd = none → s'.fdInfos fd ≠ none →
    t = .acceptor ∧ ∃ c, s.acceptor = .insert fd c
  loop : t ≠ .loop → s'.loop = s.loop

namespace Changes

/-- A step that leaves the tasks and the entries. -/
theorem frame (htasks : s'.tasks = s.tasks) (hpool : s'.pool = s.pool)
    (hfdInfos : s'.fdInfos = s.fdInfos) (hloop : t ≠ .loop → s'.loop = s.loop) :
    Changes s t s' where
  pending fd h := by
    rw [State.TaskPending, htasks, hpool] at h
    exact .inl h
  erased fd hne hnone := absurd (hfdInfos ▸ hnone) hne
  inserted fd hnone hne := absurd (hfdInfos ▸ hnone) hne
  loop := hloop

/-- `close_fd` takes the entry out. -/
theorem erase {fd : Fd} (he : s.Erases fd t) (htasks : s'.tasks = s.tasks)
    (hpool : s'.pool = s.pool) (hfdInfos : s'.fdInfos = Function.update s.fdInfos fd none)
    (hloop : t ≠ .loop → s'.loop = s.loop) : Changes s t s' where
  pending fd h := by
    rw [State.TaskPending, htasks, hpool] at h
    exact .inl h
  erased fd' hne hnone := by
    rcases eq_or_ne fd' fd with rfl | hfd
    · exact he
    · rw [hfdInfos, Function.update_of_ne hfd] at hnone
      exact absurd hnone hne
  inserted fd' hnone hne := by
    rcases eq_or_ne fd' fd with rfl | hfd
    · rw [hfdInfos, Function.update_self] at hne
      exact absurd rfl hne
    · rw [hfdInfos, Function.update_of_ne hfd] at hne
      exact absurd hnone hne
  loop := hloop

end Changes

/-- `read` leaves the tasks and the entries. -/
theorem receive_frame {fd : Fd} {r : State.ReadResult} (h : s.receive fd r = some s₁) :
    s₁.tasks = s.tasks ∧ s₁.pool = s.pool ∧ s₁.fdInfos = s.fdInfos ∧ s₁.loop = s.loop := by
  cases hc : s.socks fd with
  | none =>
    unfold State.receive at h
    rw [hc] at h
    cases r <;> cases h
    exact ⟨rfl, rfl, rfl, rfl⟩
  | some c =>
    obtain rfl := receive_eq hc h
    cases r <;> exact ⟨rfl, rfl, rfl, rfl⟩

/-- A notification leaves the tasks and the entries. -/
theorem notifyOne_frame {c : ConnId} {who : Option ℕ} (h : s.notifyOne c who = some s₁) :
    s₁.tasks = s.tasks ∧ s₁.pool = s.pool ∧ s₁.fdInfos = s.fdInfos ∧ s₁.loop = s.loop := by
  obtain ⟨rfl, -⟩ | ⟨j, fd, c₁, -, rfl⟩ := notifyOne_cases h <;> exact ⟨rfl, rfl, rfl, rfl⟩

/-- The accept thread inserts entries and erases none. -/
theorem acceptNext_changes {ch : Choice} (hn : s.acceptNext ch = some s') :
    Changes s .acceptor s' := by
  unfold State.acceptNext at hn
  cases hpc : s.acceptor with rw [hpc] at hn
  | accept =>
    cases ch with
    | accepted fd =>
      simp only at hn
      split at hn
      · cases hn
        exact .frame rfl rfl rfl fun _ => rfl
      · cases hn
    | _ => cases hn
  | lockMap fd c =>
    obtain rfl := lockMap_map hn
    exact .frame rfl rfl rfl fun _ => rfl
  | insert fd c =>
    cases hn
    have hinfos : ((s.setFdInfos fd (some c)).setAcceptor .unlockMap).fdInfos =
        Function.update s.fdInfos fd (some c) := rfl
    refine ⟨fun _ h => .inl h, fun fd' hne hnone => ?_, fun fd' hnone hne => ⟨rfl, c, ?_⟩,
      fun _ => rfl⟩
    · rw [hinfos, Function.update_apply] at hnone
      split_ifs at hnone
      exact absurd hnone hne
    · rw [hinfos, Function.update_apply] at hne
      split_ifs at hne with hfd
      · exact hfd ▸ hpc
      · exact absurd hnone hne
  | unlockMap =>
    cases hn
    exact .frame rfl rfl rfl fun _ => rfl

/-- The epoll thread queues tasks and erases the entry that it closes. -/
theorem loopNext_changes {ch : Choice} (hn : s.loopNext ch = some s') : Changes s .loop s' := by
  have hloop : ∀ {p : Prop}, Tid.loop ≠ .loop → p := fun h => absurd rfl h
  unfold State.loopNext at hn
  cases hpc : s.loop with rw [hpc] at hn
  | epollWait =>
    cases ch with
    | event | stop =>
      cases hn
      exact .frame rfl rfl rfl hloop
    | _ => cases hn
  | lookup fd l | handleLookup fd c l =>
    rcases l with _ | _ | _ | c
    · obtain rfl := lockMap_map hn
      exact .frame rfl rfl rfl hloop
    all_goals
      cases hn
      exact .frame rfl rfl rfl hloop
  | closeFd fd c k =>
    cases k with
    | lock =>
      obtain rfl := lockMap_map hn
      exact .frame rfl rfl rfl hloop
    | erase =>
      cases hn
      exact .erase (t := .loop) ⟨c, hpc⟩ rfl rfl rfl hloop
    | _ =>
      cases hn
      exact .frame rfl rfl rfl hloop
  | lockMap fd c =>
    obtain rfl := lockMap_map hn
    exact .frame rfl rfl rfl hloop
  | read fd c c' =>
    cases ch with
    | read r =>
      obtain ⟨s₁, hread, rfl⟩ := Option.map_eq_some_iff.1 hn
      obtain ⟨htasks, hpool, hfdInfos, -⟩ := receive_frame hread
      exact .frame htasks hpool hfdInfos hloop
    | _ => cases hn
  | lockFd fd c c' d =>
    obtain ⟨-, rfl⟩ := lockFd_map hn
    exact .frame rfl rfl rfl hloop
  | enqueue fd c c' d =>
    cases hn
    refine ⟨fun fd' h => ?_, fun _ hne hnone => absurd hnone hne,
      fun _ hnone hne => absurd hnone hne, hloop⟩
    rcases h with ⟨d', hd'⟩ | hexecuting
    · rcases List.mem_append.1 hd' with hold | hnew
      · exact .inl (.inl ⟨d', hold⟩)
      · cases List.mem_singleton.1 hnew
        exact .inr ⟨rfl, by rw [hpc]; rfl⟩
    · exact .inl (.inr hexecuting)
  | ended => cases hn
  | _ =>
    cases hn
    exact .frame rfl rfl rfl hloop

/-- An active thread erases the entry that it closes. -/
theorem activeNext_changes {i : ℕ} {ch : Choice} {p : ActivePc} (hi : s.active[i]? = some p)
    (hn : s.activeNext i ch p = some s') : Changes s (.active i) s' := by
  cases p with
  | start fd l | lookup fd c l =>
    rcases l with _ | _ | _ | c
    · obtain rfl := lockMap_map hn
      exact .frame rfl rfl rfl fun _ => rfl
    all_goals
      cases hn
      exact .frame rfl rfl rfl fun _ => rfl
  | enqLookup fd c c' d l =>
    rcases l with _ | _ | _ | c
    · obtain rfl := lockMap_map hn
      exact .frame rfl rfl rfl fun _ => rfl
    all_goals
      cases hn
      exact .frame rfl rfl rfl fun _ => rfl
  | closeFd fd c k =>
    cases k with
    | lock =>
      obtain rfl := lockMap_map hn
      exact .frame rfl rfl rfl fun _ => rfl
    | erase =>
      cases hn
      exact .erase (t := .active i) ⟨c, hi⟩ rfl rfl rfl fun _ => rfl
    | _ =>
      cases hn
      exact .frame rfl rfl rfl fun _ => rfl
  | lockFd | relockFd | enqLockFd | endLockFd =>
    obtain ⟨-, rfl⟩ := lockFd_map hn
    exact .frame rfl rfl rfl fun _ => rfl
  | asleep fd c c' =>
    cases ch with
    | spurious =>
      cases hn
      exact .frame rfl rfl rfl fun _ => rfl
    | _ => cases hn
  | read fd c c' =>
    cases ch with
    | read r =>
      obtain ⟨s₁, hread, rfl⟩ := Option.map_eq_some_iff.1 hn
      obtain ⟨htasks, hpool, hfdInfos, hloop⟩ := receive_frame hread
      exact .frame htasks hpool hfdInfos fun _ => hloop
    | _ => cases hn
  | enqParse fd c c' d c'' =>
    simp only [State.activeNext] at hn
    split at hn
    · cases hn
      exact .frame rfl rfl rfl fun _ => rfl
    · cases hn
      exact .frame rfl rfl rfl fun _ => rfl
    · cases hn
  | enqHandleRequest fd c c' c'' pkg =>
    cases ch <;> cases hn <;> exact .frame rfl rfl rfl fun _ => rfl
  | endNotify fd c =>
    cases ch with
    | wake who =>
      obtain ⟨s₁, hnotify, rfl⟩ := Option.map_eq_some_iff.1 hn
      obtain ⟨htasks, hpool, hfdInfos, hloop⟩ := notifyOne_frame hnotify
      exact .frame htasks hpool hfdInfos fun _ => hloop
    | _ => cases hn
  | ended => cases hn
  | _ =>
    cases hn
    exact .frame rfl rfl rfl fun _ => rfl

/-- A worker of the pool goes on with its task, takes one, or is done with it. -/
theorem Changes.setPool {i : ℕ} {p : PoolPc} (htasks : s₁.tasks ⊆ s.tasks)
    (hpool : s₁.pool = s.pool) (hp : ∀ fd, p.task = some fd → s.TaskPending fd)
    (hfdInfos : s₁.fdInfos = s.fdInfos) (hloop : s₁.loop = s.loop) :
    Changes s (.pool i) (s₁.setPool i p) where
  pending fd h := by
    rcases h with ⟨d, hd⟩ | ⟨j, hj⟩
    · exact .inl (.inl ⟨d, htasks hd⟩)
    · change (Function.update s₁.pool i p j).task = some fd at hj
      rw [Function.update_apply, hpool] at hj
      split_ifs at hj
      · exact .inl (hp fd hj)
      · exact .inl (.inr ⟨j, hj⟩)
  erased fd hne hnone := absurd (hfdInfos ▸ hnone) hne
  inserted fd hnone hne := absurd (hfdInfos ▸ hnone) hne
  loop _ := hloop

/-- A pool worker leaves the entries and takes tasks only. -/
theorem poolNext_changes {i : ℕ} {ch : Choice} (hn : s.poolNext i ch = some s') :
    Changes s (.pool i) s' := by
  have hself : ∀ {p p' : PoolPc}, s.pool i = p → p'.task = p.task ∨ p'.task = none →
      ∀ fd, p'.task = some fd → s.TaskPending fd := by
    rintro p p' hpc (htask | htask) fd hfd
    · exact .inr ⟨i, by rw [hpc, ← htask, hfd]⟩
    · rw [htask] at hfd
      cases hfd
  unfold State.poolNext at hn
  cases hpc : s.pool i with rw [hpc] at hn
  | idle =>
    cases ht : s.tasks with rw [ht] at hn
    | nil => cases hn
    | cons task tasks =>
      cases hn
      refine .setPool (fun x hx => ht ▸ List.mem_cons_of_mem task hx) rfl (fun fd hfd => ?_) rfl rfl
      cases hfd
      exact .inl ⟨task.2, ht ▸ List.mem_cons_self⟩
  | lookup fd d l =>
    rcases l with _ | _ | _ | c
    · obtain rfl := lockMap_map hn
      exact .setPool (List.Subset.refl _) rfl (hself hpc (.inl rfl)) rfl rfl
    · cases hn
      exact .setPool (List.Subset.refl _) rfl (hself hpc (.inl rfl)) rfl rfl
    · cases hn
      exact .setPool (List.Subset.refl _) rfl (hself hpc (.inr rfl)) rfl rfl
    · cases hn
      exact .setPool (List.Subset.refl _) rfl (hself hpc (.inl rfl)) rfl rfl
  | lockFd fd d c =>
    obtain ⟨-, rfl⟩ := lockFd_map hn
    exact .setPool (List.Subset.refl _) rfl (hself hpc (.inl rfl)) rfl rfl
  | parse fd d c =>
    simp only at hn
    split at hn
    · cases hn
      exact .setPool (List.Subset.refl _) rfl (hself hpc (.inl rfl)) rfl rfl
    · cases hn
      exact .setPool (List.Subset.refl _) rfl (hself hpc (.inl rfl)) rfl rfl
    · cases hn
  | handleRequest fd c pkg =>
    cases ch <;> cases hn <;>
      exact .setPool (List.Subset.refl _) rfl (hself hpc (.inl rfl)) rfl rfl
  | clearInthreadpool fd c =>
    cases hn
    exact .setPool (List.Subset.refl _) rfl (hself hpc (.inl rfl)) rfl rfl
  | notify fd c =>
    cases ch with
    | wake who =>
      obtain ⟨s₁, hnotify, rfl⟩ := Option.map_eq_some_iff.1 hn
      obtain ⟨htasks, hpool, hfdInfos, hloop⟩ := notifyOne_frame hnotify
      exact .setPool (htasks ▸ List.Subset.refl _) hpool (hself hpc (.inl rfl)) hfdInfos hloop
    | _ => cases hn
  | unlockFd fd c =>
    cases hn
    exact .setPool (List.Subset.refl _) rfl (hself hpc (.inr rfl)) rfl rfl

/-- **What a step changes.** -/
theorem next_changes {ch : Choice} (hn : s.next n t ch = some s') : Changes s t s' := by
  unfold State.next at hn
  split_ifs at hn
  cases t with
  | acceptor => exact acceptNext_changes hn
  | loop => exact loopNext_changes hn
  | pool i =>
    simp only at hn
    split_ifs at hn
    exact poolNext_changes hn
  | active i =>
    obtain ⟨p, hi, hn⟩ := Option.bind_eq_some_iff.1 hn
    exact activeNext_changes hi hn

end Dispatch
end WeakAyas
