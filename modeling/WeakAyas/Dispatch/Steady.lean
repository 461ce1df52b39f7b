/-
# What only `add_fd` and `close_fd` do

No thread but the acceptor moves the acceptor, or changes an entry of `fd_infos`,
unless it is about to take the entry out in `close_fd` (`next_steady`).
-/

import WeakAyas.Dispatch.FdMap
import WeakAyas.Dispatch.Registered

namespace WeakAyas
namespace Dispatch

/-- What a step of another thread than the acceptor leaves: the acceptor, and every
entry but one that `close_fd` takes out. -/
structure Steady (s : State) (t : Tid) (s' : State) : Prop where
  acceptor : s'.acceptor = s.acceptor
  entry : ∀ fd c, s.fdInfos fd = some c → s'.fdInfos fd = some c ∨ s.Erases fd t

variable {n : ℕ} {s s' : State} {t : Tid} {ch : Choice}

/-- A step that leaves the acceptor and `fd_infos`. -/
theorem Steady.keep (hacceptor : s'.acceptor = s.acceptor) (hfdInfos : s'.fdInfos = s.fdInfos) :
    Steady s t s' :=
  ⟨hacceptor, fun _ _ hc => .inl (hfdInfos ▸ hc)⟩

/-- The `fd_infos.erase` of `close_fd`. -/
theorem Steady.erase {fd : Fd} (he : s.Erases fd t) (hacceptor : s'.acceptor = s.acceptor)
    (hfdInfos : s'.fdInfos = Function.update s.fdInfos fd none) : Steady s t s' := by
  refine ⟨hacceptor, fun fd' c hc => ?_⟩
  rcases eq_or_ne fd' fd with rfl | hne
  · exact .inr he
  · exact .inl (by rwa [hfdInfos, Function.update_of_ne hne])

/-- The epoll thread: it changes `fd_infos` in its `close_fd` only. -/
theorem loopNext_steady (hn : s.loopNext ch = some s') : Steady s .loop s' := by
  unfold State.loopNext at hn
  cases hpc : s.loop with rw [hpc] at hn
  | epollWait =>
    cases ch <;> cases hn <;> exact .keep rfl rfl
  | lookup fd l | handleLookup fd c l =>
    rcases l with _ | _ | _ | c
    · obtain rfl := lockMap_map hn
      exact .keep rfl rfl
    all_goals
      cases hn
      exact .keep rfl rfl
  | closeFd fd c k =>
    cases k with
    | lock =>
      obtain rfl := lockMap_map hn
      exact .keep rfl rfl
    | erase =>
      cases hn
      exact .erase (show s.Erases fd .loop from ⟨c, hpc⟩) rfl rfl
    | _ =>
      cases hn
      exact .keep rfl rfl
  | lockMap fd c =>
    obtain rfl := lockMap_map hn
    exact .keep rfl rfl
  | lockFd fd c c' d =>
    obtain ⟨-, rfl⟩ := lockFd_map hn
    exact .keep rfl rfl
  | read fd c c' =>
    cases ch with
    | read r =>
      obtain ⟨s₁, hread, rfl⟩ := Option.map_eq_some_iff.1 hn
      obtain rfl | ⟨c, d, -, -, rfl⟩ := receive_cases hread <;> exact .keep rfl rfl
    | _ => cases hn
  | ended => cases hn
  | _ =>
    cases hn
    exact .keep rfl rfl

/-- A pool worker changes no entry at all. -/
theorem poolNext_steady {i : ℕ} (hn : s.poolNext i ch = some s') :
    Steady s (.pool i) s' := by
  unfold State.poolNext at hn
  cases hpc : s.pool i with rw [hpc] at hn
  | idle =>
    cases ht : s.tasks with rw [ht] at hn
    | nil => cases hn
    | cons task tasks =>
      cases hn
      exact .keep rfl rfl
  | lookup fd d l =>
    rcases l with _ | _ | _ | c
    · obtain rfl := lockMap_map hn
      exact .keep rfl rfl
    all_goals
      cases hn
      exact .keep rfl rfl
  | lockFd fd d c =>
    obtain ⟨-, rfl⟩ := lockFd_map hn
    exact .keep rfl rfl
  | parse fd d c =>
    simp only at hn
    split at hn <;> cases hn <;> exact .keep rfl rfl
  | handleRequest fd c pkg =>
    cases ch <;> cases hn <;> exact .keep rfl rfl
  | notify fd c =>
    cases ch with
    | wake who =>
      obtain ⟨s₁, hnotify, rfl⟩ := Option.map_eq_some_iff.1 hn
      obtain ⟨rfl, -⟩ | ⟨j, fd, c₁, -, rfl⟩ := notifyOne_cases hnotify <;> exact .keep rfl rfl
    | _ => cases hn
  | _ =>
    cases hn
    exact .keep rfl rfl

/-- An active thread: it changes `fd_infos` in its `close_fd` only. -/
theorem activeNext_steady {i : ℕ} {p : ActivePc} (hi : s.active[i]? = some p)
    (hn : s.activeNext i ch p = some s') : Steady s (.active i) s' := by
  cases p with
  | start fd l | lookup fd c l =>
    rcases l with _ | _ | _ | c
    · obtain rfl := lockMap_map hn
      exact .keep rfl rfl
    all_goals
      cases hn
      exact .keep rfl rfl
  | enqLookup fd c c' d l =>
    rcases l with _ | _ | _ | c
    · obtain rfl := lockMap_map hn
      exact .keep rfl rfl
    all_goals
      cases hn
      exact .keep rfl rfl
  | closeFd fd c k =>
    cases k with
    | lock =>
      obtain rfl := lockMap_map hn
      exact .keep rfl rfl
    | erase =>
      cases hn
      exact .erase (show s.Erases fd (.active i) from ⟨c, hi⟩) rfl rfl
    | _ =>
      cases hn
      exact .keep rfl rfl
  | lockFd | relockFd | enqLockFd | endLockFd =>
    obtain ⟨-, rfl⟩ := lockFd_map hn
    exact .keep rfl rfl
  | asleep fd c c' =>
    cases ch with
    | spurious =>
      cases hn
      exact .keep rfl rfl
    | _ => cases hn
  | read fd c c' =>
    cases ch with
    | read r =>
      obtain ⟨s₁, hread, rfl⟩ := Option.map_eq_some_iff.1 hn
      obtain rfl | ⟨c, d, -, -, rfl⟩ := receive_cases hread <;> exact .keep rfl rfl
    | _ => cases hn
  | enqParse fd c c' d c'' =>
    simp only [State.activeNext] at hn
    split at hn <;> cases hn <;> exact .keep rfl rfl
  | enqHandleRequest fd c c' c'' pkg =>
    cases ch <;> cases hn <;> exact .keep rfl rfl
  | endNotify fd c =>
    cases ch with
    | wake who =>
      obtain ⟨s₁, hnotify, rfl⟩ := Option.map_eq_some_iff.1 hn
      obtain ⟨rfl, -⟩ | ⟨j, fd, c₁, -, rfl⟩ := notifyOne_cases hnotify <;> exact .keep rfl rfl
    | _ => cases hn
  | ended => cases hn
  | _ =>
    cases hn
    exact .keep rfl rfl

/-- **Only `add_fd` and `close_fd` change the entries of `fd_infos`.** -/
theorem next_steady (hn : s.next n t ch = some s') (ht : t ≠ .acceptor) :
    Steady s t s' := by
  unfold State.next at hn
  split_ifs at hn
  cases t with
  | acceptor => exact absurd rfl ht
  | loop => exact loopNext_steady hn
  | pool i =>
    simp only at hn
    split_ifs at hn
    exact poolNext_steady hn
  | active i =>
    obtain ⟨p, hi, hn⟩ := Option.bind_eq_some_iff.1 hn
    exact activeNext_steady hi hn

end Dispatch
end WeakAyas
