/-
# The threads and the protocol

`Refines` relates what the threads share and hold to the protocol: each
`fd_mutex`, each drive and each charge has the one holder whose view says so,
and flags, maps and tasks are those of the slots.

The steps that are nothing to the protocol preserve it: a thread gets on (`go`),
looks its connection up (`find`), takes or releases an `fd_mutex` (`lock`,
`unlock`).
-/

import WeakAyas.Dispatch.Views

namespace WeakAyas
namespace Dispatch

/-- `thread_running` of a slot. -/
def Slot.running (σ : Slot) : Bool := (σ.driver.map Prod.snd).getD false

/-- A connection that `loop` is about to look at: `fd_infos` has it, or its
`thread_running` is set, for ever when it is closed. -/
def Candidate (running : ConnId → Bool) (P : Protocol) (fd : Fd) (c : ConnId) : Prop :=
  P.fdOf c = fd ∧ c < P.nextConn ∧
    ((∃ σ, P.slot fd = some σ ∧ σ.conn = c ∧ σ.owner.registered = true) ∨ running c = true)

/-- Flags, maps, tasks and views are those of the protocol. -/
structure Refines (o : Obs) (P : Protocol) : Prop where
  mutex : Agrees (fun c => lockedBy (o.mutex c)) fun t => (o.view t).locks
  driver : Agrees (fun fd => (P.slot fd).bind Slot.driver) fun t => (o.view t).drives
  owner : Agrees (fun fd => (P.slot fd).bind fun σ => σ.owner.holder) fun t => (o.view t).owns
  ptrs : ∀ t fd σ, (o.view t).On fd → P.slot fd = some σ → ∀ p ∈ (o.view t).ptrs, p = some σ.conn
  cand : ∀ fd c, (o.view .loop).cand = some (fd, c) → Candidate o.running P fd c
  tasks : ∀ fd d, (fd, d) ∈ o.tasks ↔ ∃ σ, P.slot fd = some σ ∧ σ.owner = .queued d
  nodup : (o.tasks.map Prod.fst).Nodup
  socks : ∀ fd, o.socks fd = (P.slot fd).map Slot.conn
  fdInfos : ∀ fd, o.fdInfos fd =
    (P.slot fd).bind fun σ => if σ.owner.registered then some σ.conn else none
  flag : ∀ fd σ, P.slot fd = some σ → o.flag σ.conn = σ.owner.flag
  running : ∀ fd σ, P.slot fd = some σ → o.running σ.conn = σ.running
  fresh : ∀ c, P.nextConn ≤ c → o.flag c = false ∧ o.running c = false
  nextConn : o.nextConn = P.nextConn
  reads : o.reads = P.reads
  finished : o.finished = P.finished

theorem refines_start : Refines State.start.obs .start where
  mutex t c _ := by
    cases t <;> exact ⟨nofun, nofun⟩
  driver t fd _ := by
    cases t <;> exact ⟨nofun, nofun⟩
  owner t fd _ := by
    cases t <;> exact ⟨nofun, nofun⟩
  ptrs _ fd σ _ hσ := absurd hσ (Protocol.slot_start fd σ)
  cand := nofun
  tasks fd d := by
    refine iff_of_false List.not_mem_nil ?_
    rintro ⟨σ, hσ, -⟩
    exact Protocol.slot_start fd σ hσ
  nodup := .nil
  socks _ := rfl
  fdInfos _ := rfl
  flag fd σ hσ := absurd hσ (Protocol.slot_start fd σ)
  running fd σ hσ := absurd hσ (Protocol.slot_start fd σ)
  fresh _ _ := ⟨rfl, rfl⟩
  nextConn := rfl
  reads := rfl
  finished := rfl

namespace Refines

variable {o : Obs} {P : Protocol} {t : Tid} {v w : View} {fd : Fd}

/-! ### What the views tell -/

/-- The driver's slot. -/
theorem slot_of_drives (h : Refines o P) (hv : o.view t = w) {b : Bool}
    (hdrives : w.drives = some (fd, b)) : ∃ σ, P.slot fd = some σ ∧ σ.driver = some (t, b) := by
  subst hv
  exact Option.bind_eq_some_iff.1 ((h.driver t fd b).1 hdrives)

/-- The slot of the thread in charge. -/
theorem slot_of_owns (h : Refines o P) (hv : o.view t = w) {stage : Stage}
    (howns : w.owns = some (fd, stage)) :
    ∃ σ, P.slot fd = some σ ∧ σ.owner = .thread t stage := by
  subst hv
  obtain ⟨σ, hσ, ho⟩ := Option.bind_eq_some_iff.1 ((h.owner t fd stage).1 howns)
  refine ⟨σ, hσ, ?_⟩
  rcases hown : σ.owner with _ | d | _ | ⟨t', stage'⟩ <;> rw [hown] at ho <;> cases ho
  rfl

/-- A thread in charge of nothing holds no slot. -/
theorem not_heldBy (h : Refines o P) (hv : o.view t = w) (howns : w.owns = none) {σ : Slot}
    (hσ : P.slot fd = some σ) : ¬ σ.HeldBy t := by
  subst hv
  intro hheld
  obtain ⟨⟨t', stage⟩, hholder, rfl⟩ := Option.map_eq_some_iff.1 hheld
  have hclaim : (o.view t').owns = some (fd, stage) :=
    (h.owner t' fd stage).2 (by simp [hσ, hholder])
  exact absurd (howns.symm.trans hclaim) (by simp)

theorem drivenBy {σ : Slot} {b : Bool} (hdriver : σ.driver = some (t, b)) : σ.DrivenBy t := by
  rw [Slot.DrivenBy, hdriver]
  rfl

/-- A thread holds the `fd_mutex` that its view says. -/
theorem mutex_of_view (h : Refines o P) (hv : o.view t = w) {c : ConnId}
    (hmutex : w.mutex = some c) : o.mutex c = some t := by
  subst hv
  have hlocks : (o.view t).locks = some (c, ()) := by rw [View.locks, hmutex]; rfl
  obtain ⟨t', ht', heq⟩ := Option.map_eq_some_iff.1 ((h.mutex t c ()).1 hlocks)
  cases heq
  exact ht'

/-- The view of the thread that holds an `fd_mutex` says so. -/
theorem view_of_mutex (h : Refines o P) {c : ConnId} (hmutex : o.mutex c = some t) :
    (o.view t).mutex = some c := by
  have hlocks : (o.view t).locks = some (c, ()) := (h.mutex t c ()).2 (by simp [hmutex, lockedBy])
  obtain ⟨c', hc', heq⟩ := Option.map_eq_some_iff.1 hlocks
  cases heq
  exact hc'

/-- A pointer points to the connection of the slot. -/
theorem ptr_eq (h : Refines o P) (hv : o.view t = w) {σ : Slot} (hσ : P.slot fd = some σ)
    {p : Option ConnId} (hon : w.On fd) (hp : p ∈ w.ptrs) : p = some σ.conn := by
  subst hv
  exact h.ptrs t fd σ hon hσ p hp

/-- What `fd_infos` says of a registered slot. -/
theorem fdInfos_of_registered (h : Refines o P) {σ : Slot} (hσ : P.slot fd = some σ)
    (hregistered : σ.owner.registered = true) : o.fdInfos fd = some σ.conn := by
  rw [h.fdInfos, hσ, Option.bind_some, if_pos hregistered]

/-- An entry of `fd_infos` is the connection of a slot. -/
theorem slot_of_fdInfos (h : Refines o P) {c : ConnId} (hc : o.fdInfos fd = some c) :
    ∃ σ, P.slot fd = some σ ∧ σ.conn = c := by
  rw [h.fdInfos] at hc
  obtain ⟨σ, hσ, hr⟩ := Option.bind_eq_some_iff.1 hc
  split_ifs at hr
  exact ⟨σ, hσ, Option.some.inj hr⟩

/-! ### Steps that are no move -/

/-- A thread gets on without a move: the mutexes agree again, and its pointers
and its candidate are as they should be. -/
theorem setView (h : Refines o P) {m : ConnId → Option Tid}
    (hmutex : Agrees (fun c => lockedBy (m c))
      (Function.update (fun t => (o.view t).locks) t v.locks))
    (hdrives : v.drives = (o.view t).drives) (howns : v.owns = (o.view t).owns)
    (hptrs : ∀ fd σ, v.On fd → P.slot fd = some σ → ∀ p ∈ v.ptrs, p = some σ.conn)
    (hcand : t = .loop → ∀ fd c, v.cand = some (fd, c) → Candidate o.running P fd c) :
    Refines ({ o with mutex := m }.setView t v) P where
  __ := h
  mutex := by
    simp only [Obs.setView]
    rwa [map_update View.locks]
  driver := by
    simp only [Obs.setView]
    rw [map_update_eq View.drives hdrives]
    exact h.driver
  owner := by
    simp only [Obs.setView]
    rw [map_update_eq View.owns howns]
    exact h.owner
  ptrs t' fd σ hon hσ := by
    simp only [Obs.setView] at hon ⊢
    rcases eq_or_ne t' t with rfl | hne
    · rw [Function.update_self] at hon ⊢
      exact hptrs fd σ hon hσ
    · rw [Function.update_of_ne hne] at hon ⊢
      exact h.ptrs t' fd σ hon hσ
  cand := by
    simp only [Obs.setView]
    rcases eq_or_ne t .loop with rfl | hne
    · rw [Function.update_self]
      exact hcand rfl
    · rw [Function.update_of_ne hne.symm]
      exact h.cand

/-- The pointers stay right when none is added. -/
theorem ptrs_of_subset (h : Refines o P) (hv : o.view t = w) (hdrives : v.drives = w.drives)
    (howns : v.owns = w.owns) (hsub : v.ptrs ⊆ w.ptrs) :
    ∀ fd σ, v.On fd → P.slot fd = some σ → ∀ p ∈ v.ptrs, p = some σ.conn := by
  subst hv
  intro fd σ hon hσ p hp
  refine h.ptrs t fd σ ?_ hσ p (hsub hp)
  rwa [View.On, ← hdrives, ← howns]

theorem cand_of_eq (h : Refines o P) (hv : o.view t = w) (hcand : v.cand = none ∨ v.cand = w.cand) :
    t = .loop → ∀ fd c, v.cand = some (fd, c) → Candidate o.running P fd c := by
  subst hv
  rintro rfl fd c hc
  rcases hcand with hnone | heq
  · rw [hnone] at hc
    cases hc
  · exact h.cand fd c (heq ▸ hc)

/-- **A thread gets on without taking or giving up anything.** -/
theorem go (h : Refines o P) (hv : o.view t = w) (hmutex : v.mutex = w.mutex)
    (hdrives : v.drives = w.drives) (howns : v.owns = w.owns) (hsub : v.ptrs ⊆ w.ptrs)
    (hcand : v.cand = none ∨ v.cand = w.cand) : Refines (o.setView t v) P := by
  refine h.setView (m := o.mutex) ?_ (hv ▸ hdrives) (hv ▸ howns)
    (h.ptrs_of_subset hv hdrives howns hsub) (h.cand_of_eq hv hcand)
  rw [show v.locks = (o.view t).locks by rw [View.locks, hmutex, hv]; rfl, Function.update_eq_self]
  exact h.mutex

/-- **A lookup finds the connection** of the descriptor that the thread is in
charge of. -/
theorem find (h : Refines o P) (hv : o.view t = w) {σ : Slot} (hσ : P.slot fd = some σ)
    (hregistered : σ.owner.registered = true) (hon : ∀ fd', v.On fd' → fd' = fd)
    (hmutex : v.mutex = w.mutex) (hdrives : v.drives = w.drives) (howns : v.owns = w.owns)
    (hsub : ∀ p ∈ v.ptrs, p ∈ w.ptrs ∨ p = o.fdInfos fd) (hcand : v.cand = none ∨ v.cand = w.cand) :
    Refines (o.setView t v) P := by
  subst hv
  refine h.setView (m := o.mutex) ?_ hdrives howns ?_ (h.cand_of_eq rfl hcand)
  · rw [show v.locks = (o.view t).locks by rw [View.locks, hmutex]; rfl, Function.update_eq_self]
    exact h.mutex
  · intro fd' σ' hon' hσ' p hp
    obtain rfl := hon fd' hon'
    rcases hsub p hp with hp | rfl
    · refine h.ptrs t fd' σ' ?_ hσ' p hp
      rwa [View.On, ← hdrives, ← howns]
    · obtain rfl := Option.some.inj (hσ.symm.trans hσ')
      exact h.fdInfos_of_registered hσ hregistered

/-- **A thread takes a free `fd_mutex`.** -/
theorem lock (h : Refines o P) {c : ConnId} (hfree : o.mutex c = none) (hv : o.view t = w)
    (hnone : w.mutex = none) (hmutex : v.mutex = some c) (hdrives : v.drives = w.drives)
    (howns : v.owns = w.owns) (hsub : v.ptrs ⊆ w.ptrs) (hcand : v.cand = none ∨ v.cand = w.cand) :
    Refines ({ o with mutex := Function.update o.mutex c (some t) }.setView t v) P := by
  refine h.setView ?_ (hv ▸ hdrives) (hv ▸ howns) (h.ptrs_of_subset hv hdrives howns hsub)
    (h.cand_of_eq hv hcand)
  rw [map_update lockedBy, View.locks, hmutex]
  exact h.mutex.take (by rw [hfree]; rfl) (by rw [hv, View.locks, hnone]; rfl) ()

/-- **A thread releases the `fd_mutex` that it holds.** -/
theorem unlock (h : Refines o P) {c : ConnId} (hv : o.view t = w) (hsome : w.mutex = some c)
    (hmutex : v.mutex = none) (hdrives : v.drives = w.drives) (howns : v.owns = w.owns)
    (hsub : v.ptrs ⊆ w.ptrs) (hcand : v.cand = none ∨ v.cand = w.cand) :
    Refines ({ o with mutex := Function.update o.mutex c none }.setView t v) P := by
  refine h.setView ?_ (hv ▸ hdrives) (hv ▸ howns) (h.ptrs_of_subset hv hdrives howns hsub)
    (h.cand_of_eq hv hcand)
  rw [map_update lockedBy, View.locks, hmutex]
  exact h.mutex.drop (t := t) (i := c) (a := ()) (by rw [hv, View.locks, hsome]; rfl)

/-- What is read off the slots, after one of them changed. -/
theorem slot_bind_update {β : Type} (f : Slot → Option β) (slot : Fd → Option Slot) (fd : Fd)
    (x : Option Slot) :
    (fun fd' => (Function.update slot fd x fd').bind f) =
      Function.update (fun fd' => (slot fd').bind f) fd (x.bind f) :=
  map_update (Option.bind · f) slot fd x

end Refines

end Dispatch
end WeakAyas
