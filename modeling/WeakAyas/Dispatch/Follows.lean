/-
# What a step can be to the protocol

A step of a thread is a move, the acceptance or closing of a descriptor, or
nothing (`Follows`), and which moves it can be is part of that (`Permits`): a
move that leaves `fd_inthreadpool` behind comes from two steps only, a pool
worker whose chunk is rejected and one whose handler throws (`Freezes`).
-/

import WeakAyas.Dispatch.MoveRules
import WeakAyas.Dispatch.OpenRules

namespace WeakAyas
namespace Dispatch

/-- The step ends a pool task without clearing `fd_inthreadpool`: its chunk is
rejected by `parse_sockpackage`, or its handler throws. -/
def Freezes (s : State) (t : Tid) (ch : Choice) : Prop :=
  ∃ i, t = .pool i ∧
    ((∃ fd d c, s.pool i = .parse fd d c ∧ parseSockpackage d = .ok none) ∨
      (∃ fd c pkg, s.pool i = .handleRequest fd c pkg) ∧ ch = .thrown)

/-- The step is a `read` of an active thread that returns data. -/
def ActiveReads (s : State) (t : Tid) (ch : Choice) : Prop :=
  ∃ i fd c c' d, t = .active i ∧ s.active[i]? = some (.read fd c c') ∧ ch = .read (.data d)

/-- Which moves a step can be. -/
structure Permits (s : State) (t : Tid) (ch : Choice) (m : Move) : Prop where
  freezes : m.freezes = true → Freezes s t ch
  reads : ∀ i d, m = .read (.active i) d → ActiveReads s t ch

/-- A move that leaves no flag behind, and is no `read` of an active thread. -/
theorem Permits.quiet {s : State} {t : Tid} {ch : Choice} {m : Move} (hfreezes : m.freezes = false)
    (hreads : ∀ i d, m ≠ .read (.active i) d) : Permits s t ch m where
  freezes h := by
    rw [hfreezes] at h
    cases h
  reads i d h := absurd h (hreads i d)

/-- From the protocol's state `P`, the state `o` is reached by at most one step
of the protocol, whose move is `allowed`. -/
def Follows (P : Protocol) (o : Obs) (allowed : Move → Prop) : Prop :=
  Refines o P ∨ ∃ a P', P.next a = some P' ∧ Refines o P' ∧ ∀ fd m, a = .move fd m → allowed m

namespace Follows

variable {s s' : State} {P : Protocol} {o : Obs} {allowed : Move → Prop} {fd : Fd} {t : Tid}
  {v w : View}

/-- A close of the thread in charge is followed. -/
theorem of_close {σ : Slot} (hσ : P.slot fd = some σ) (ho : σ.owner = .thread t .erased)
    (h : Refines o (P.close fd)) : Follows P o allowed := by
  refine .inr ⟨.close fd t, P.close fd, ?_, h, fun _ _ ha => by cases ha⟩
  simp [Protocol.next, hσ, ho]

/-- An allowed move of a connection is followed. -/
theorem of_move {σ : Slot} {m : Move} (hσ : P.slot fd = some σ) (hm : allowed m)
    (h : σ.Allows m ∧ Refines o (P.move fd σ m)) : Follows P o allowed := by
  refine .inr ⟨.move fd m, _, ?_, h.2, ?_⟩
  · simp [Protocol.next, hσ, h.1]
  · rintro fd' m' ⟨⟩
    exact hm

/-- A step that changes nothing that the protocol speaks about. -/
theorem stay (h : Refines s.obs P) (hv : s.obs.view t = v) (ho : o = s.obs.setView t v) :
    Follows P o allowed := by
  rw [ho, Obs.setView, ← hv, Function.update_eq_self]
  exact .inl h

/-- A step that is nothing to the protocol. -/
theorem go (h : Refines s.obs P) (hv : s.obs.view t = w) (ho : o = s.obs.setView t v)
    (hmutex : v.mutex = w.mutex) (hdrives : v.drives = w.drives) (howns : v.owns = w.owns)
    (hsub : v.ptrs ⊆ w.ptrs) (hcand : v.cand = none ∨ v.cand = w.cand) : Follows P o allowed :=
  .inl (ho ▸ h.go hv hmutex hdrives howns hsub hcand)

/-- A step that takes a free `fd_mutex`. -/
theorem lock (h : Refines s.obs P) (hv : s.obs.view t = w) {c : ConnId}
    (hfree : (s.info c).fdMutex = none)
    (ho : o = { s.obs with mutex := Function.update s.obs.mutex c (some t) }.setView t
      { w with mutex := some c })
    (hnone : w.mutex = none) : Follows P o allowed :=
  .inl (ho ▸ h.lock hfree hv hnone rfl rfl rfl (List.Subset.refl _) (.inr rfl))

/-- A step that releases an `fd_mutex`. -/
theorem unlock (h : Refines s.obs P) (hv : s.obs.view t = w) {c : ConnId}
    (ho : o = { s.obs with mutex := Function.update s.obs.mutex c none }.setView t v)
    (hsome : w.mutex = some c) (hmutex : v.mutex = none) (hdrives : v.drives = w.drives)
    (howns : v.owns = w.owns) (hsub : v.ptrs ⊆ w.ptrs) (hcand : v.cand = none) :
    Follows P o allowed :=
  .inl (ho ▸ h.unlock hv hsome hmutex hdrives howns hsub (.inl hcand))

end Follows

/-! ### What the shared operations do -/

/-- The step after the lock of the map. -/
theorem lockMap_map {s s' : State} {t : Tid} {f : State → State}
    (h : (s.lockMap t).map f = some s') : s' = f (s.setFdMap (some t)) := by
  unfold State.lockMap at h
  split_ifs at h
  · exact (Option.some.inj h).symm
  · cases h

/-- The step after the lock of a connection. -/
theorem lockFd_map {s s' : State} {t : Tid} {c : ConnId} {f : State → State}
    (h : (s.lockFd t c).map f = some s') :
    (s.info c).fdMutex = none ∧ s' = f (s.setFdMutex c (some t)) := by
  unfold State.lockFd at h
  split_ifs at h with hfree
  · exact ⟨hfree, (Option.some.inj h).symm⟩
  · cases h

/-- `notify_one` wakes a thread that sleeps, or nobody sleeps. -/
theorem notifyOne_cases {s s' : State} {c : ConnId} {who : Option ℕ}
    (h : s.notifyOne c who = some s') :
    (s' = s ∧ ∀ p ∈ s.active, p.sleepsOn ≠ some c) ∨
      ∃ j fd c₁, s.active[j]? = some (.asleep fd c₁ c) ∧
        s' = s.setActive j (.relockFd fd c₁ c) := by
  unfold State.notifyOne at h
  cases who with
  | none =>
    simp only at h
    split_ifs at h with hnobody
    exact .inl ⟨(Option.some.inj h).symm, hnobody⟩
  | some j =>
    simp only at h
    split at h
    · rename_i fd c₁ c' hj
      split_ifs at h with hc
      subst hc
      exact .inr ⟨j, fd, c₁, hj, (Option.some.inj h).symm⟩
    · cases h

/-- Being woken is nothing to the protocol. -/
theorem obs_notifyOne {s s' : State} {c : ConnId} {who : Option ℕ}
    (h : s.notifyOne c who = some s') : s'.obs = s.obs := by
  obtain ⟨rfl, -⟩ | ⟨j, fd, c₁, hj, rfl⟩ := notifyOne_cases h
  · rfl
  · have hview : s.obs.view (.active j) = (ActivePc.relockFd fd c₁ c).view := by
      simp [State.obs, State.view, hj, ActivePc.view]
    rw [State.obs_setActive s hj, Obs.setView, ← hview, Function.update_eq_self]

/-- A thread that does not sleep is not woken. -/
theorem active_notifyOne {s s' : State} {c : ConnId} {who : Option ℕ} {i : ℕ} {p : ActivePc}
    (hi : s.active[i]? = some p) (hp : p.sleepsOn = none) (h : s.notifyOne c who = some s') :
    s'.active[i]? = some p := by
  obtain ⟨rfl, -⟩ | ⟨j, fd, c₁, hj, rfl⟩ := notifyOne_cases h
  · exact hi
  · rw [State.setActive, List.getElem?_set_ne, hi]
    rintro rfl
    rw [hi] at hj
    cases hj
    cases hp

/-- The state after a `read` from the socket of `c`. -/
def State.received (s : State) (c : ConnId) : State.ReadResult → State
  | .data d => s.pushRead c d
  | _ => s

/-- On an open socket `read` changes only what is read. -/
theorem receive_eq {s s' : State} {fd : Fd} {r : State.ReadResult} {c : ConnId}
    (hc : s.socks fd = some c) (h : s.receive fd r = some s') : s' = s.received c r := by
  unfold State.receive at h
  rw [hc] at h
  cases r with
  | data d =>
    simp only at h
    split_ifs at h
    exact (Option.some.inj h).symm
  | _ => exact (Option.some.inj h).symm

end Dispatch
end WeakAyas
