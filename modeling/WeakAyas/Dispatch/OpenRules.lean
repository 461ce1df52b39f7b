/-
# Rules for opening and closing

A descriptor gets a slot when it is accepted, and loses it when its driver
closes it.
-/

import WeakAyas.Dispatch.Refines

namespace WeakAyas
namespace Dispatch

namespace Refines

variable {o : Obs} {P : Protocol} {t : Tid} {w : View} {fd : Fd}

/-- **A descriptor is accepted.** -/
theorem accept (h : Refines o P) (hv : o.view .acceptor = .idle)
    (hfd : P.slot fd = none) :
    Refines ({ o with
        socks := Function.update o.socks fd (some o.nextConn)
        nextConn := o.nextConn + 1 }.setView .acceptor
      ⟨none, none, some (fd, .accepted), [some o.nextConn], none⟩) (P.accept fd) where
  mutex := by
    simp only [Obs.setView]
    rw [map_update_eq View.locks (by rw [hv]; rfl)]
    exact h.mutex
  driver := by
    simp only [Obs.setView, Protocol.accept]
    rw [map_update_eq View.drives (by rw [hv]; rfl), slot_bind_update]
    rw [Function.update_eq_iff.2 ⟨by rw [hfd]; rfl, fun _ _ => rfl⟩]
    exact h.driver
  owner := by
    simp only [Obs.setView, Protocol.accept]
    rw [map_update View.owns, slot_bind_update (fun σ => σ.owner.holder)]
    exact h.owner.take (by rw [hfd]; rfl) (by rw [hv]; rfl) .accepted
  ptrs t fd' σ' hon hσ' p hp := by
    simp only [Obs.setView] at hon hp
    rcases eq_or_ne t .acceptor with rfl | hne
    · rw [Function.update_self] at hon hp
      rcases hon with ⟨b, hb⟩ | ⟨stage, hs⟩
      · cases hb
      · cases hs
        rcases Protocol.slot_update hσ' with ⟨-, ⟨⟩⟩ | ⟨hfd', -⟩
        · rw [List.mem_singleton.1 hp, h.nextConn]
        · exact absurd rfl hfd'
    · rw [Function.update_of_ne hne] at hon hp
      rcases Protocol.slot_update hσ' with ⟨rfl, -⟩ | ⟨-, hσ'⟩
      · -- nobody relies on a descriptor without a slot
        rcases hon with ⟨b, hb⟩ | ⟨stage, hs⟩
        · obtain ⟨σ, hσ, -⟩ := h.slot_of_drives rfl hb
          rw [hfd] at hσ
          cases hσ
        · obtain ⟨σ, hσ, -⟩ := h.slot_of_owns rfl hs
          rw [hfd] at hσ
          cases hσ
      · exact h.ptrs t fd' σ' hon hσ' p hp
  cand fd' c hc := by
    simp only [Obs.setView] at hc
    rw [Function.update_of_ne (show Tid.loop ≠ .acceptor by simp)] at hc
    obtain ⟨hfd', hlt, hor⟩ := h.cand fd' c hc
    refine ⟨(Function.update_of_ne hlt.ne ..).trans hfd', Nat.lt_succ_of_lt hlt, hor.imp_left ?_⟩
    rintro ⟨σ, hσ, hconn, hr⟩
    refine ⟨σ, (Function.update_of_ne ?_ ..).trans hσ, hconn, hr⟩
    rintro rfl
    rw [hfd] at hσ
    cases hσ
  tasks fd' d := by
    simp only [Obs.setView, Protocol.accept]
    rw [h.tasks]
    rcases eq_or_ne fd' fd with rfl | hne
    · rw [hfd, Function.update_self]
      simp
    · rw [Function.update_of_ne hne]
  nodup := h.nodup
  socks fd' := by
    simp only [Obs.setView, Protocol.accept]
    rcases eq_or_ne fd' fd with rfl | hne
    · rw [Function.update_self, Function.update_self, h.nextConn]
      rfl
    · rw [Function.update_of_ne hne, Function.update_of_ne hne, h.socks]
  fdInfos fd' := by
    simp only [Obs.setView, Protocol.accept]
    rw [h.fdInfos]
    rcases eq_or_ne fd' fd with rfl | hne
    · rw [hfd, Function.update_self]
      rfl
    · rw [Function.update_of_ne hne]
  flag fd' σ' hσ' := by
    rcases Protocol.slot_update hσ' with ⟨-, ⟨⟩⟩ | ⟨-, hσ'⟩
    · exact (h.fresh P.nextConn le_rfl).1
    · exact h.flag fd' σ' hσ'
  running fd' σ' hσ' := by
    rcases Protocol.slot_update hσ' with ⟨-, ⟨⟩⟩ | ⟨-, hσ'⟩
    · exact (h.fresh P.nextConn le_rfl).2
    · exact h.running fd' σ' hσ'
  fresh c hc := h.fresh c (Nat.le_of_succ_le hc)
  nextConn := congrArg (· + 1) h.nextConn
  reads := h.reads
  finished := h.finished

/-- **The driver closes its descriptor.** -/
theorem close (h : Refines o P) (hv : o.view t = w) {b : Bool}
    (hw : w.drives = some (fd, b)) (howns : w.owns = some (fd, .erased)) (hmutex : w.mutex = none) :
    Refines ({ o with socks := Function.update o.socks fd none }.setView t .idle) (P.close fd) := by
  subst hv
  obtain ⟨σ, hσ, ho⟩ := h.slot_of_owns rfl howns
  have hslot : ∀ {fd' σ'}, (P.close fd).slot fd' = some σ' → P.slot fd' = some σ' := by
    intro fd' σ' hσ'
    rcases Protocol.slot_update hσ' with ⟨-, ⟨⟩⟩ | ⟨-, hσ'⟩
    exact hσ'
  exact {
    mutex := by
      simp only [Obs.setView]
      rw [map_update_eq View.locks (by rw [View.locks, View.locks, hmutex]; rfl)]
      exact h.mutex
    driver := by
      simp only [Obs.setView, Protocol.close]
      rw [map_update View.drives, slot_bind_update]
      exact h.driver.drop hw
    owner := by
      simp only [Obs.setView, Protocol.close]
      rw [map_update View.owns, slot_bind_update (fun σ => σ.owner.holder)]
      exact h.owner.drop howns
    ptrs := fun t' fd' σ' hon hσ' p hp => by
      simp only [Obs.setView] at hon hp
      rcases eq_or_ne t' t with rfl | hne
      · rw [Function.update_self] at hp
        cases hp
      · rw [Function.update_of_ne hne] at hon hp
        exact h.ptrs t' fd' σ' hon (hslot hσ') p hp
    cand := fun fd' c hc => by
      simp only [Obs.setView] at hc
      rcases eq_or_ne t .loop with rfl | hne
      · rw [Function.update_self] at hc
        cases hc
      · rw [Function.update_of_ne hne.symm] at hc
        obtain ⟨hfd', hlt, hor⟩ := h.cand fd' c hc
        refine ⟨hfd', hlt, hor.imp_left ?_⟩
        rintro ⟨σ', hσ', hconn, hr⟩
        refine ⟨σ', (Function.update_of_ne ?_ ..).trans hσ', hconn, hr⟩
        rintro rfl
        rw [hσ] at hσ'
        cases hσ'
        rw [ho] at hr
        cases hr
    tasks := fun fd' d => by
      simp only [Obs.setView, Protocol.close]
      rw [h.tasks]
      rcases eq_or_ne fd' fd with rfl | hne
      · rw [hσ, Function.update_self]
        simp [ho]
      · rw [Function.update_of_ne hne]
    nodup := h.nodup
    socks := fun fd' => by
      simp only [Obs.setView, Protocol.close]
      rcases eq_or_ne fd' fd with rfl | hne
      · rw [Function.update_self, Function.update_self]
        rfl
      · rw [Function.update_of_ne hne, Function.update_of_ne hne, h.socks]
    fdInfos := fun fd' => by
      simp only [Obs.setView, Protocol.close]
      rw [h.fdInfos]
      rcases eq_or_ne fd' fd with rfl | hne
      · rw [hσ, Function.update_self, Option.bind_some, ho]
        rfl
      · rw [Function.update_of_ne hne]
    flag := fun fd' σ' hσ' => h.flag fd' σ' (hslot hσ')
    running := fun fd' σ' hσ' => h.running fd' σ' (hslot hσ')
    fresh := h.fresh
    nextConn := h.nextConn
    reads := h.reads
    finished := h.finished }

end Refines
end Dispatch
end WeakAyas
