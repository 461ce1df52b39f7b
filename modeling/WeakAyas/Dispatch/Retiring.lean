/-
# The last notification of an active thread

An active thread clears `thread_running`, and notifies before it ends.  When it is
about to notify, no other active thread sleeps on that `fd_cond` (`Alone`): it has
driven the descriptor until then, and it holds the `fd_mutex`.  So where
`~EpollWorker` sleeps, the notification is for it.
-/

import WeakAyas.Dispatch.FdMap
import WeakAyas.Dispatch.Waiting

namespace WeakAyas
namespace Dispatch

open TransitionSystem

/-- `thread_running` is set. -/
def State.Runs (s : State) (c : ConnId) : Prop := (s.info c).threadRunning = true

/-- The connection of a thread that is about to notify before it ends. -/
def ActivePc.retires : ActivePc → Option ConnId
  | endNotify _ c => some c
  | _ => none

/-- Who is about to notify before it ends is the only one that is left. -/
def Alone (s : State) : Prop :=
  ∀ (i : ℕ) (p : ActivePc) (c : ConnId), s.active[i]? = some p → p.retires = some c →
    ∀ q ∈ s.active, q.sleepsOn ≠ some c

variable {n : ℕ} {s s' s₁ : State} {t : Tid} {ch : Choice} {P : Protocol}

/-! ### What a step does to the active threads -/

/-- A step that moves no active thread but one that it wakes or starts. -/
inductive Others (s s' : State) : Prop where
  | keep : (∀ c, s.Runs c → s'.Runs c) → s'.active = s.active → Others s s'
  | push {fd : Fd} : s'.info = s.info → s'.active = s.active ++ [.start fd .lock] → Others s s'
  | wake {j : ℕ} {fd : Fd} {c₁ c : ConnId} : s'.info = s.info →
      s.active[j]? = some (.asleep fd c₁ c) → s'.active = s.active.set j (.relockFd fd c₁ c) →
      Others s s'

/-- A step of the active thread `i` at `p`: it clears `thread_running`, notifies
before it ends, falls asleep, or gets on in another way. -/
inductive Own (s : State) (i : ℕ) (ch : Choice) (p : ActivePc) (s' : State) : Prop where
  | retire {fd : Fd} {c : ConnId} : p = .endRunning fd c →
      s' = (s.setThreadRunning c false).setActive i (.endNotify fd c) → Own s i ch p s'
  | notify {s₁ : State} {fd : Fd} {c : ConnId} {who : Option ℕ} : p = .endNotify fd c →
      ch = .wake who → s.notifyOne c who = some s₁ →
      s' = s₁.setActive i (.endUnlockFd fd c false) → Own s i ch p s'
  | sleep {fd : Fd} {c c' : ConnId} : p = .wait fd c c' →
      s' = (s.setFdMutex c' none).setActive i (.asleep fd c c') → Own s i ch p s'
  | go {s₁ : State} {p' : ActivePc} : s' = s₁.setActive i p' → s₁.active = s.active →
      (∀ c, s.Runs c → s₁.Runs c) → p.retires = none → p'.retires = none → p'.sleepsOn = none →
      Own s i ch p s'
  | terminate : p.retires = none → s' = { s with terminated := true } → Own s i ch p s'

/-- A write of `fd_info` that leaves `thread_running` on where a thread runs. -/
theorem State.runs_setInfo {c c' : ConnId} {info : FdInfo}
    (h : s.Runs c → info.threadRunning = true) (hruns : s.Runs c') :
    (s.setInfo c info).Runs c' := by
  rcases eq_or_ne c' c with rfl | hne
  · simpa [State.Runs, State.setInfo] using h hruns
  · simpa [State.Runs, State.setInfo, hne] using hruns

/-- A `read` writes no flag. -/
theorem runs_receive {fd : Fd} {r : State.ReadResult} (h : s.receive fd r = some s₁) (c : ConnId) :
    s.Runs c → s₁.Runs c := by
  obtain rfl | ⟨c', d, -, -, rfl⟩ := receive_cases h <;> exact id

/-- A thread that is woken goes on where it slept. -/
theorem Others.of_notifyOne {c : ConnId} {who : Option ℕ} (h : s.notifyOne c who = some s₁)
    (hinfo : s'.info = s₁.info) (hactive : s'.active = s₁.active) : Others s s' := by
  obtain ⟨rfl, -⟩ | ⟨j, fd, c₁, hj, rfl⟩ := notifyOne_cases h
  · exact .keep (fun _ hc => by rwa [State.Runs, hinfo]) hactive
  · exact .wake hinfo hj hactive

/-- The acceptor touches no active thread. -/
theorem acceptNext_others (hn : s.acceptNext ch = some s') : Others s s' := by
  unfold State.acceptNext at hn
  cases hpc : s.acceptor with rw [hpc] at hn
  | accept =>
    cases ch with
    | accepted fd =>
      simp only at hn
      split at hn <;> cases hn
      exact .keep (fun _ => id) rfl
    | _ => cases hn
  | lockMap fd c =>
    obtain rfl := lockMap_map hn
    exact .keep (fun _ => id) rfl
  | _ =>
    cases hn
    exact .keep (fun _ => id) rfl

/-- The epoll thread at most starts one. -/
theorem loopNext_others (hn : s.loopNext ch = some s') : Others s s' := by
  unfold State.loopNext at hn
  cases hpc : s.loop with rw [hpc] at hn
  | epollWait => cases ch <;> cases hn <;> exact .keep (fun _ => id) rfl
  | lookup fd l | handleLookup fd c l =>
    rcases l with _ | _ | _ | c
    · obtain rfl := lockMap_map hn
      exact .keep (fun _ => id) rfl
    all_goals
      cases hn
      exact .keep (fun _ => id) rfl
  | closeFd fd c k =>
    cases k with
    | lock =>
      obtain rfl := lockMap_map hn
      exact .keep (fun _ => id) rfl
    | _ =>
      cases hn
      exact .keep (fun _ => id) rfl
  | lockMap fd c =>
    obtain rfl := lockMap_map hn
    exact .keep (fun _ => id) rfl
  | lockFd fd c c' d =>
    obtain ⟨-, rfl⟩ := lockFd_map hn
    exact .keep (fun _ => State.runs_setInfo id) rfl
  | setNeedactive | spawnNeedactive | setInthreadpool | unlockFd =>
    cases hn
    exact .keep (fun _ => State.runs_setInfo id) rfl
  | spawnRunning =>
    cases hn
    exact .keep (fun _ => State.runs_setInfo fun _ => rfl) rfl
  | spawn =>
    cases hn
    exact .push rfl rfl
  | read fd c c' =>
    cases ch with
    | read r =>
      obtain ⟨s₁, hread, rfl⟩ := Option.map_eq_some_iff.1 hn
      exact .keep (fun c hc => runs_receive hread c hc) (receive_inMap hread).2.2
    | _ => cases hn
  | ended => cases hn
  | _ =>
    cases hn
    exact .keep (fun _ => id) rfl

/-- A pool worker at most wakes one. -/
theorem poolNext_others {i : ℕ} (hn : s.poolNext i ch = some s') : Others s s' := by
  unfold State.poolNext at hn
  cases hpc : s.pool i with rw [hpc] at hn
  | idle =>
    cases ht : s.tasks with rw [ht] at hn
    | nil => cases hn
    | cons task tasks =>
      cases hn
      exact .keep (fun _ => id) rfl
  | lookup fd d l =>
    rcases l with _ | _ | _ | c
    · obtain rfl := lockMap_map hn
      exact .keep (fun _ => id) rfl
    all_goals
      cases hn
      exact .keep (fun _ => id) rfl
  | lockFd fd d c =>
    obtain ⟨-, rfl⟩ := lockFd_map hn
    exact .keep (fun _ => State.runs_setInfo id) rfl
  | parse fd d c =>
    simp only at hn
    split at hn <;> cases hn <;> exact .keep (fun _ => id) rfl
  | handleRequest fd c pkg => cases ch <;> cases hn <;> exact .keep (fun _ => id) rfl
  | notify fd c =>
    cases ch with
    | wake who =>
      obtain ⟨s₁, hnotify, rfl⟩ := Option.map_eq_some_iff.1 hn
      exact .of_notifyOne hnotify rfl rfl
    | _ => cases hn
  | clearInthreadpool | unlockFd =>
    cases hn
    exact .keep (fun _ => State.runs_setInfo id) rfl

/-- A step of an active thread is of one of these kinds. -/
theorem activeNext_own {i : ℕ} {p : ActivePc} (hn : s.activeNext i ch p = some s') :
    Own s i ch p s' := by
  cases p with
  | start fd l | lookup fd c l =>
    rcases l with _ | _ | _ | c
    · obtain rfl := lockMap_map hn
      exact .go rfl rfl (fun _ => id) rfl rfl rfl
    all_goals
      cases hn
      exact .go rfl rfl (fun _ => id) rfl rfl rfl
  | enqLookup fd c c' d l =>
    rcases l with _ | _ | _ | c
    · obtain rfl := lockMap_map hn
      exact .go rfl rfl (fun _ => id) rfl rfl rfl
    all_goals
      cases hn
      exact .go rfl rfl (fun _ => id) rfl rfl rfl
  | closeFd fd c k =>
    cases k with
    | lock =>
      obtain rfl := lockMap_map hn
      exact .go rfl rfl (fun _ => id) rfl rfl rfl
    | _ =>
      cases hn
      exact .go rfl rfl (fun _ => id) rfl rfl rfl
  | lockFd | relockFd | enqLockFd | endLockFd =>
    obtain ⟨-, rfl⟩ := lockFd_map hn
    exact .go rfl rfl (fun _ => State.runs_setInfo id) rfl rfl rfl
  | checkInthreadpool fd c c' =>
    cases hn
    refine .go rfl rfl (fun _ => id) rfl ?_ ?_ <;> split <;> rfl
  | wait fd c c' =>
    cases hn
    exact .sleep rfl rfl
  | asleep fd c c' =>
    cases ch with
    | spurious =>
      cases hn
      exact .go rfl rfl (fun _ => id) rfl rfl rfl
    | _ => cases hn
  | read fd c c' =>
    cases ch with
    | read r =>
      obtain ⟨s₁, hread, rfl⟩ := Option.map_eq_some_iff.1 hn
      refine .go rfl (receive_inMap hread).2.2 (runs_receive hread) rfl ?_ ?_ <;>
        cases r <;> rfl
    | _ => cases hn
  | enqParse fd c c' d c'' =>
    simp only [State.activeNext] at hn
    split at hn <;> cases hn <;> exact .go rfl rfl (fun _ => id) rfl rfl rfl
  | enqHandleRequest fd c c' c'' pkg =>
    cases ch with
    | thrown =>
      cases hn
      exact .terminate rfl rfl
    | _ =>
      cases hn
      exact .go rfl rfl (fun _ => id) rfl rfl rfl
  | enqUnlockFd | clearNeedactive =>
    cases hn
    exact .go rfl rfl (fun _ => State.runs_setInfo id) rfl rfl rfl
  | unlockFd fd c c' returned | endUnlockFd fd c returned =>
    cases hn
    cases returned <;> exact .go rfl rfl (fun _ => State.runs_setInfo id) rfl rfl rfl
  | endCheck fd c =>
    cases hn
    refine .go rfl rfl (fun _ => id) rfl ?_ ?_ <;> split <;> rfl
  | endRunning fd c =>
    cases hn
    exact .retire rfl rfl
  | endNotify fd c =>
    cases ch with
    | wake who =>
      obtain ⟨s₁, hnotify, rfl⟩ := Option.map_eq_some_iff.1 hn
      exact .notify rfl rfl hnotify rfl
    | _ => cases hn
  | ended => cases hn
  | _ =>
    cases hn
    exact .go rfl rfl (fun _ => id) rfl rfl rfl

/-- **What a step does to the active threads.** -/
theorem next_others_or_own (hn : s.next n t ch = some s') :
    Others s s' ∨ ∃ i p, t = .active i ∧ s.active[i]? = some p ∧ Own s i ch p s' := by
  unfold State.next at hn
  split_ifs at hn
  cases t with
  | acceptor => exact .inl (acceptNext_others hn)
  | loop => exact .inl (loopNext_others hn)
  | pool i =>
    simp only at hn
    split_ifs at hn
    exact .inl (poolNext_others hn)
  | active i =>
    obtain ⟨p, hi, hn⟩ := Option.bind_eq_some_iff.1 hn
    exact .inr ⟨i, p, rfl, hi, activeNext_own hn⟩

/-! ### Nobody else sleeps -/

/-- A step that leaves the active threads as they are keeps this. -/
theorem Alone.congr (h : Alone s) (hactive : s'.active = s.active) : Alone s' := by
  intro i p c hi hp q hq
  rw [hactive] at hi hq
  exact h i p c hi hp q hq

/-- A thread goes where it neither retires nor sleeps. -/
theorem Alone.setActive (h : Alone s) {i : ℕ} {p : ActivePc} (hretires : p.retires = none)
    (hsleeps : p.sleepsOn = none) : Alone (s.setActive i p) := by
  intro k p' c hk hp q hq
  simp only [State.setActive, List.getElem?_set] at hk
  split_ifs at hk
  · cases hk
    rw [hretires] at hp
    cases hp
  · rcases List.mem_or_eq_of_mem_set hq with hmem | rfl
    · exact h k p' c hk hp q hmem
    · simp [hsleeps]

/-- The steps of the other threads keep this. -/
theorem Alone.others (h : Alone s) (hs : Others s s') : Alone s' := by
  cases hs with
  | keep _ hactive => exact h.congr hactive
  | wake _ hj hactive =>
    exact (h.setActive (p := .relockFd _ _ _) rfl rfl).congr hactive
  | @push fd _ hactive =>
    intro i p c hi hp q hq
    rw [hactive] at hi hq
    rcases List.mem_append.1 (List.mem_of_getElem? hi) with hmem | hmem
    · obtain ⟨k, hk⟩ := List.mem_iff_getElem?.1 hmem
      rcases List.mem_append.1 hq with hq | hq
      · exact h k p c hk hp q hq
      · cases List.mem_singleton.1 hq
        simp [ActivePc.sleepsOn]
    · cases List.mem_singleton.1 hmem
      cases hp

/-- Who clears `thread_running` drives the descriptor, so nobody sleeps there. -/
theorem not_sleeps_of_endRunning (h : Refines s.obs P) (hinv : P.Inv) {i : ℕ} {fd : Fd}
    {c : ConnId} (hi : s.active[i]? = some (.endRunning fd c)) :
    ∀ q ∈ s.active, q.sleepsOn ≠ some c := by
  intro q hq hsleeps
  obtain ⟨j, hj⟩ := List.mem_iff_getElem?.1 hq
  have hv := view_active hi
  obtain ⟨σ, hσ, hdriver⟩ := h.slot_of_drives hv rfl
  have hconn := h.ptr_eq hv hσ (.inl ⟨_, rfl⟩) (List.mem_singleton_self (some c))
  cases q with
  | asleep fd' c₁ c' =>
    cases hsleeps
    have hw : s.waits j = some (fd', c) := by rw [State.waits, hj]; rfl
    obtain ⟨σ', hσ', hconn', hdriver'⟩ := slot_of_waits h hw
    obtain rfl := hinv.conn_injective hσ hσ' ((Option.some.inj hconn).symm.trans hconn'.symm)
    cases hσ.symm.trans hσ'
    rw [hdriver] at hdriver'
    cases hdriver'
    cases hi.symm.trans hj
  | _ => cases hsleeps

/-- So do the steps of the active threads. -/
theorem Alone.own (h : Alone s) (href : Refines s.obs P) (hinv : P.Inv) {i : ℕ} {p : ActivePc}
    (hi : s.active[i]? = some p) (hs : Own s i ch p s') : Alone s' := by
  cases hs with
  | @retire fd c hp hs' =>
    subst hp hs'
    intro k p' c' hk hp' q hq
    have hmem : q ∈ s.active ∨ q = .endNotify fd c := List.mem_or_eq_of_mem_set hq
    simp only [State.setActive, List.getElem?_set] at hk
    rcases hmem with hmem | rfl
    · split_ifs at hk
      · cases hk
        cases hp'
        exact not_sleeps_of_endRunning href hinv hi q hmem
      · exact h k p' c' hk hp' q hmem
    · simp [ActivePc.sleepsOn]
  | notify _ _ hnotify hs' =>
    subst hs'
    exact (h.others (.of_notifyOne hnotify rfl rfl)).setActive rfl rfl
  | @sleep fd c c' hp hs' =>
    subst hp hs'
    intro k p' c'' hk hp' q hq
    simp only [State.setActive, List.getElem?_set] at hk
    split_ifs at hk with hki
    · cases hk
      cases hp'
    rcases List.mem_or_eq_of_mem_set hq with hmem | rfl
    · exact h k p' c'' hk hp' q hmem
    · -- both would hold the `fd_mutex`
      rintro hsleeps
      cases hsleeps
      cases p' with
      | endNotify fd' c₁ =>
        cases hp'
        have hk' := href.mutex_of_view (view_active hk) rfl
        rw [href.mutex_of_view (view_active hi) rfl] at hk'
        cases hk'
        exact hki rfl
      | _ => cases hp'
  | go hs' hactive _ _ hretires hsleeps =>
    subst hs'
    exact (h.congr hactive).setActive hretires hsleeps
  | terminate _ hs' =>
    subst hs'
    exact h

/-- **Who notifies before it ends is alone**: no step brings another sleeper. -/
theorem Alone.next (h : Alone s) (href : Refines s.obs P) (hinv : P.Inv)
    (hn : s.next n t ch = some s') : Alone s' := by
  rcases next_others_or_own hn with hothers | ⟨i, p, -, hi, hown⟩
  · exact h.others hothers
  · exact h.own href hinv hi hown

/-! ### Who is warned -/

/-- `thread_running` is set, or a thread that has cleared it is about to notify. -/
def State.Warns (s : State) (c : ConnId) : Prop :=
  s.Runs c ∨ ∃ (i : ℕ) (p : ActivePc), s.active[i]? = some p ∧ p.retires = some c

/-- A warning stays while the threads do. -/
theorem State.Warns.keep {c : ConnId} (h : s.Warns c) (hruns : s.Runs c → s'.Runs c)
    (hactive : s'.active = s.active) : s'.Warns c := by
  rcases h with hc | ⟨k, q, hk, hq⟩
  · exact .inl (hruns hc)
  · exact .inr ⟨k, q, hactive ▸ hk, hq⟩

/-- An active thread that does not retire gets on. -/
theorem State.Warns.setActive {c : ConnId} {i : ℕ} {p p' : ActivePc} (h : s.Warns c)
    (hi : s.active[i]? = some p) (hp : p.retires ≠ some c) : (s.setActive i p').Warns c := by
  refine h.imp id fun ⟨k, q, hk, hq⟩ => ?_
  have hne : i ≠ k := by
    rintro rfl
    cases hi.symm.trans hk
    exact hp hq
  exact ⟨k, q, by rwa [State.setActive, List.getElem?_set_ne hne], hq⟩

/-- The other threads leave it. -/
theorem State.Warns.others {c : ConnId} (h : s.Warns c) (hs : Others s s') : s'.Warns c := by
  cases hs with
  | keep hruns hactive => exact h.keep (hruns c) hactive
  | push hinfo hactive =>
    refine h.imp (fun hc => by rwa [State.Runs, hinfo]) fun ⟨k, q, hk, hq⟩ => ⟨k, q, ?_, hq⟩
    rw [hactive, List.getElem?_append_left (List.getElem?_eq_some_iff.1 hk).1]
    exact hk
  | @wake j fd c₁ c' hinfo hj hactive =>
    have hset : (s.setActive j (.relockFd fd c₁ c')).Warns c :=
      h.setActive hj (by simp [ActivePc.retires])
    exact hset.keep (fun hc => by rwa [State.Runs, hinfo]) hactive

/-- **A notification that wakes nobody is the only way to lose the warning.** -/
theorem State.Warns.next {c : ConnId} (h : s.Warns c) (halone : Alone s)
    (hn : s.next n t ch = some s') : s'.Warns c ∨ ch = .wake none ∧ ∃ (i : ℕ) (p : ActivePc),
      t = .active i ∧ s.active[i]? = some p ∧ p.retires = some c := by
  rcases next_others_or_own hn with hothers | ⟨i, p, rfl, hi, hown⟩
  · exact .inl (h.others hothers)
  have hlt : i < s.active.length := (List.getElem?_eq_some_iff.1 hi).1
  cases hown with
  | @retire fd c' hp hs' =>
    subst hp hs'
    left
    rcases eq_or_ne c' c with rfl | hne
    · have hset : (s.active.set i (.endNotify fd c'))[i]? = some (.endNotify fd c') := by
        simp [hlt]
      exact .inr ⟨i, .endNotify fd c', hset, rfl⟩
    · have hkeep : (s.setThreadRunning c' false).Warns c := h.keep (fun hc => by
        simpa [State.Runs, State.setThreadRunning, State.setInfo, hne.symm] using hc) rfl
      exact hkeep.setActive hi (by simp [ActivePc.retires])
  | @notify s₁ fd c' who hp hch hnotify hs' =>
    subst hp hch hs'
    rcases eq_or_ne c' c with rfl | hne
    · right
      cases who with
      | none => exact ⟨rfl, i, _, rfl, hi, rfl⟩
      | some j =>
        -- nobody else sleeps there
        simp only [State.notifyOne] at hnotify
        split at hnotify
        · rename_i fd' c₁ c₂ hj
          split_ifs at hnotify with hc
          exact absurd (congrArg some hc) (halone i _ c' hi rfl _ (List.mem_of_getElem? hj))
        · cases hnotify
    · left
      have hothers : Others s s₁ := .of_notifyOne hnotify rfl rfl
      exact (h.others hothers).setActive (active_notifyOne hi rfl hnotify)
        (by simp [ActivePc.retires, hne])
  | @sleep fd c' c'' hp hs' =>
    subst hp hs'
    left
    have hkeep : (s.setFdMutex c'' none).Warns c := h.keep (State.runs_setInfo id) rfl
    exact hkeep.setActive hi (by simp [ActivePc.retires])
  | @go s₁ p' hs' hactive hruns hretires _ _ =>
    subst hs'
    left
    exact (h.keep (hruns c) hactive).setActive (hactive ▸ hi) (by simp [hretires])
  | terminate _ hs' =>
    subst hs'
    exact .inl h

end Dispatch
end WeakAyas
