/-
# Rules for the moves

A move of the protocol changes one slot, and the shared state with it
(`Obs.effect`).  The relation is preserved when the views of the threads change
as the slot does: for a thread in charge that gets on (`advance`), one that takes
a free slot (`take`), and the moves of the driver (`drive`, `redrive`, `hand`).
-/

import WeakAyas.Dispatch.Refines

namespace WeakAyas
namespace Dispatch

/-- What a move of the slot `σ` of `fd` writes. -/
def Obs.effect (o : Obs) (fd : Fd) (σ : Slot) : Move → Obs
  | .register => { o with fdInfos := Function.update o.fdInfos fd (some σ.conn) }
  | .erase _ => { o with fdInfos := Function.update o.fdInfos fd none }
  | .mark => { o with running := Function.update o.running σ.conn true }
  | .retire _ => { o with running := Function.update o.running σ.conn false }
  | .read _ d => { o with reads := Function.update o.reads σ.conn (o.reads σ.conn ++ [d]) }
  | .flag _ => { o with flag := Function.update o.flag σ.conn true }
  | .clear _ => { o with flag := Function.update o.flag σ.conn false }
  | .enqueue d => { o with tasks := o.tasks ++ [(fd, d)] }
  | .dequeue _ _ => { o with tasks := o.tasks.tail }
  | .handle _ d | .reject _ d =>
    { o with finished := Function.update o.finished σ.conn (o.finished σ.conn ++ [d]) }
  | _ => o

namespace Refines

variable {o : Obs} {P : Protocol} {t : Tid} {v w : View} {fd : Fd} {σ : Slot} {m : Move}

theorem effect_view : (o.effect fd σ m).view = o.view := by cases m <;> rfl

theorem effect_mutex : (o.effect fd σ m).mutex = o.mutex := by cases m <;> rfl

theorem effect_socks : (o.effect fd σ m).socks = o.socks := by cases m <;> rfl

theorem effect_nextConn : (o.effect fd σ m).nextConn = o.nextConn := by cases m <;> rfl

theorem effect_flag (h : Refines o P) (hσ : P.slot fd = some σ) (hm : σ.Allows m) :
    (o.effect fd σ m).flag = Function.update o.flag σ.conn (σ.after m).owner.flag := by
  have hself : o.flag = Function.update o.flag σ.conn σ.owner.flag := by
    rw [← h.flag fd σ hσ, Function.update_eq_self]
  rcases hmo : m.owners with _ | ⟨before, after⟩
  · cases m <;> first | exact hself | cases hmo
  · have ho : σ.owner = before := hm.1 _ hmo
    rw [ho] at hself
    cases m <;> cases hmo <;> first | exact hself | rfl

theorem effect_running (h : Refines o P) (hσ : P.slot fd = some σ) (hm : σ.Allows m) :
    (o.effect fd σ m).running = Function.update o.running σ.conn (σ.after m).running := by
  have hself : o.running = Function.update o.running σ.conn σ.running := by
    rw [← h.running fd σ hσ, Function.update_eq_self]
  obtain ⟨-, hguard⟩ := hm
  cases m with
  | drive =>
    rw [Slot.running, hguard.1] at hself
    exact hself
  | mark => rfl
  | hand i =>
    rw [Slot.running, hguard.1] at hself
    exact hself
  | retire i => rfl
  | leave | enqueue d =>
    rw [Slot.running, show σ.driver = some (.loop, false) from hguard] at hself
    exact hself
  | _ => exact hself

theorem effect_fdInfos (h : Refines o P) (hσ : P.slot fd = some σ) (hm : σ.Allows m) :
    (o.effect fd σ m).fdInfos = Function.update o.fdInfos fd
      (if (σ.after m).owner.registered then some σ.conn else none) := by
  have hself : o.fdInfos = Function.update o.fdInfos fd
      (if σ.owner.registered then some σ.conn else none) := by
    have := h.fdInfos fd
    rw [hσ, Option.bind_some] at this
    rw [← this, Function.update_eq_self]
  rcases hmo : m.owners with _ | ⟨before, after⟩
  · cases m <;> first | exact hself | cases hmo
  · have ho : σ.owner = before := hm.1 _ hmo
    rw [ho] at hself
    cases m <;> cases hmo <;> first | exact hself | rfl

theorem effect_reads : (o.effect fd σ m).reads =
    Function.update o.reads σ.conn (o.reads σ.conn ++ m.reads) := by
  cases m <;> simp [Obs.effect, Move.reads]

theorem effect_finished : (o.effect fd σ m).finished =
    Function.update o.finished σ.conn (o.finished σ.conn ++ m.finishes) := by
  cases m <;> simp [Obs.effect, Move.finishes]

/-- A descriptor has a task exactly when its slot says so. -/
theorem mem_tasks (h : Refines o P) (hσ : P.slot fd = some σ) (d : Bytes) :
    (fd, d) ∈ o.tasks ↔ σ.owner = .queued d := by
  rw [h.tasks]
  constructor
  · rintro ⟨σ', hσ', ho⟩
    obtain rfl := Option.some.inj (hσ.symm.trans hσ')
    exact ho
  · exact fun ho => ⟨σ, hσ, ho⟩

/-- Only two moves change what is queued. -/
theorem queued_after (hm : σ.Allows m) (henq : ∀ d, m ≠ .enqueue d) (hdeq : ∀ i d, m ≠ .dequeue i d)
    (d : Bytes) : (σ.after m).owner = .queued d ↔ σ.owner = .queued d := by
  rcases hmo : m.owners with _ | ⟨before, after⟩
  · simp [Slot.after, Move.owner, hmo]
  · have ho : σ.owner = before := hm.1 _ hmo
    rw [ho]
    cases m <;> cases hmo <;>
      first
        | (simp [Slot.after, Move.owner, Move.owners]; done)
        | exact absurd rfl (henq _)
        | exact absurd rfl (hdeq _ _)

/-- The tasks of the descriptor after a move; the task that it dequeues is the
first. -/
theorem mem_effect_tasks (h : Refines o P) (hσ : P.slot fd = some σ) (hm : σ.Allows m)
    (hhead : ∀ i d, m = .dequeue i d → ∃ rest, o.tasks = (fd, d) :: rest) (fd' : Fd) (d : Bytes) :
    (fd', d) ∈ (o.effect fd σ m).tasks ↔
      if fd' = fd then (σ.after m).owner = .queued d else (fd', d) ∈ o.tasks := by
  by_cases henq : ∃ d₀, m = .enqueue d₀
  · obtain ⟨d₀, rfl⟩ := henq
    have ho : σ.owner = .thread .loop (.flagged d₀) := hm.1 _ rfl
    have hnone : (fd, d) ∉ o.tasks := by simp [h.mem_tasks hσ, ho]
    split_ifs with hfd
    · subst hfd
      simp [Obs.effect, Slot.after, Move.owner, Move.owners, hnone, eq_comm]
    · simp [Obs.effect, hfd]
  by_cases hdeq : ∃ i d₀, m = .dequeue i d₀
  · obtain ⟨i, d₀, rfl⟩ := hdeq
    obtain ⟨rest, htasks⟩ := hhead i d₀ rfl
    have hnodup := h.nodup
    rw [htasks, List.map_cons, List.nodup_cons] at hnodup
    have hnone : (fd, d) ∉ rest := fun hmem => hnodup.1 (List.mem_map.2 ⟨(fd, d), hmem, rfl⟩)
    split_ifs with hfd
    · subst hfd
      simp [Obs.effect, Slot.after, Move.owner, Move.owners, htasks, hnone]
    · simp [Obs.effect, htasks, hfd]
  · push Not at henq hdeq
    have hsame : (o.effect fd σ m).tasks = o.tasks := by
      cases m <;> first | rfl | exact absurd rfl (henq _) | exact absurd rfl (hdeq _ _)
    rw [hsame]
    split_ifs with hfd
    · subst hfd
      rw [h.mem_tasks hσ, queued_after hm henq hdeq]
    · rfl

theorem nodup_effect_tasks (h : Refines o P) (hσ : P.slot fd = some σ) (hm : σ.Allows m) :
    ((o.effect fd σ m).tasks.map Prod.fst).Nodup := by
  cases m with
  | enqueue d₀ =>
    have ho : σ.owner = .thread .loop (.flagged d₀) := hm.1 _ rfl
    have hnone : fd ∉ o.tasks.map Prod.fst := by
      intro hmem
      obtain ⟨⟨fd', d⟩, hmem', hfd⟩ := List.mem_map.1 hmem
      obtain rfl : fd' = fd := hfd
      have hqueued := (h.mem_tasks hσ d).1 hmem'
      rw [ho] at hqueued
      cases hqueued
    simpa [Obs.effect, List.nodup_append, hnone] using
      ⟨h.nodup, fun a d hmem heq => hnone (heq ▸ List.mem_map_of_mem (f := Prod.fst) hmem)⟩
  | dequeue i d₀ =>
    rw [Obs.effect, List.map_tail]
    exact h.nodup.tail
  | _ => exact h.nodup

/-- After a move and with new views everything agrees again, if the views do. -/
theorem moveViews (h : Refines o P) (hinv : P.Inv) (hσ : P.slot fd = some σ) (hm : σ.Allows m)
    {view : Tid → View}
    (hmutex : Agrees (fun c => lockedBy (o.mutex c)) fun t => (view t).locks)
    (hdriver : Agrees
      (Function.update (fun fd => (P.slot fd).bind Slot.driver) fd (σ.after m).driver)
      fun t => (view t).drives)
    (howner : Agrees (Function.update (fun fd => (P.slot fd).bind fun σ => σ.owner.holder) fd
      (σ.after m).owner.holder) fun t => (view t).owns)
    (hptrs : ∀ t fd σ, (view t).On fd → P.slot fd = some σ → ∀ p ∈ (view t).ptrs, p = some σ.conn)
    (hcand : (view .loop).cand = none ∨ ((view .loop).cand = (o.view .loop).cand ∧
      ((σ.after m).owner.registered = true ∨ (σ.after m).running = true)))
    (hhead : ∀ i d, m = .dequeue i d → ∃ rest, o.tasks = (fd, d) :: rest) :
    Refines { o.effect fd σ m with view := view } (P.move fd σ m) where
  mutex := by
    simp only [effect_mutex]
    exact hmutex
  driver := by
    simp only [Protocol.move]
    rw [slot_bind_update]
    exact hdriver
  owner := by
    simp only [Protocol.move]
    rw [slot_bind_update (fun σ => σ.owner.holder)]
    exact howner
  ptrs t fd' σ' hon hσ' := by
    rcases Protocol.slot_update hσ' with ⟨rfl, ⟨⟩⟩ | ⟨-, hσ'⟩
    · exact hptrs t fd' σ hon hσ
    · exact hptrs t fd' σ' hon hσ'
  cand fd' c hc := by
    rcases hcand with hnone | ⟨heq, hafter⟩
    · rw [hnone] at hc
      cases hc
    · obtain ⟨hfd', hlt, hor⟩ := h.cand fd' c (heq ▸ hc)
      refine ⟨hfd', hlt, ?_⟩
      simp only [Protocol.move, h.effect_running hσ hm]
      rcases eq_or_ne c σ.conn with rfl | hconn
      · -- the candidate is the connection of the move
        obtain rfl : fd = fd' := (hinv.fdOf fd σ hσ).symm.trans hfd'
        rw [Function.update_self, Function.update_self]
        exact hafter.imp (fun hr => ⟨_, rfl, rfl, hr⟩) id
      · rw [Function.update_of_ne hconn]
        refine hor.imp_left ?_
        rintro ⟨σ', hσ', rfl, hr⟩
        refine ⟨σ', ?_, rfl, hr⟩
        rw [Function.update_of_ne ?_, hσ']
        rintro rfl
        rw [hσ] at hσ'
        cases hσ'
        exact hconn rfl
  tasks fd' d := by
    simp only [Protocol.move]
    rw [h.mem_effect_tasks hσ hm hhead]
    split_ifs with hfd
    · subst hfd
      simp
    · rw [Function.update_of_ne hfd, h.tasks]
  nodup := h.nodup_effect_tasks hσ hm
  socks fd' := by
    simp only [Protocol.move, effect_socks]
    rw [h.socks]
    rcases eq_or_ne fd' fd with rfl | hfd
    · rw [hσ, Function.update_self]
      rfl
    · rw [Function.update_of_ne hfd]
  fdInfos fd' := by
    simp only [Protocol.move, h.effect_fdInfos hσ hm]
    rcases eq_or_ne fd' fd with rfl | hfd
    · rw [Function.update_self, Function.update_self]
      rfl
    · rw [Function.update_of_ne hfd, Function.update_of_ne hfd, h.fdInfos]
  flag fd' σ' hσ' := by
    simp only [h.effect_flag hσ hm]
    rcases Protocol.slot_update hσ' with ⟨-, ⟨⟩⟩ | ⟨hfd, hσ'⟩
    · exact Function.update_self ..
    · rw [Function.update_of_ne ?_, h.flag fd' σ' hσ']
      exact fun hconn => hfd (hinv.conn_injective hσ' hσ hconn)
  running fd' σ' hσ' := by
    simp only [h.effect_running hσ hm]
    rcases Protocol.slot_update hσ' with ⟨-, ⟨⟩⟩ | ⟨hfd, hσ'⟩
    · exact Function.update_self ..
    · rw [Function.update_of_ne ?_, h.running fd' σ' hσ']
      exact fun hconn => hfd (hinv.conn_injective hσ' hσ hconn)
  fresh c hc := by
    have hne : c ≠ σ.conn := fun heq => absurd (hinv.lt fd σ hσ) (by
      rw [← heq]
      exact Nat.not_lt.2 hc)
    simp only [h.effect_flag hσ hm, h.effect_running hσ hm, Function.update_of_ne hne]
    exact h.fresh c hc
  nextConn := by
    simp only [Protocol.move, effect_nextConn]
    exact h.nextConn
  reads := by
    simp only [Protocol.move, effect_reads, h.reads]
  finished := by
    simp only [Protocol.move, effect_finished, h.finished]

/-- **A thread makes a move.** -/
theorem move (h : Refines o P) (hinv : P.Inv) (hv : o.view t = w) (hσ : P.slot fd = some σ)
    (hm : σ.Allows m)
    (hdriver : Agrees
      (Function.update (fun fd => (P.slot fd).bind Slot.driver) fd (σ.after m).driver)
      (Function.update (fun t => (o.view t).drives) t v.drives))
    (howner : Agrees (Function.update (fun fd => (P.slot fd).bind fun σ => σ.owner.holder) fd
        (σ.after m).owner.holder)
      (Function.update (fun t => (o.view t).owns) t v.owns))
    (hmutex : v.mutex = w.mutex) (hon : ∀ fd', v.On fd' → fd' = fd)
    (hptrs : ∀ p ∈ v.ptrs, p = some σ.conn)
    (hcand : t = .loop ∧ v.cand = none ∨
      t ≠ .loop ∧ ((σ.after m).owner.registered = true ∨ (σ.after m).running = true))
    (hhead : ∀ i d, m = .dequeue i d → ∃ rest, o.tasks = (fd, d) :: rest) :
    Refines ((o.effect fd σ m).setView t v) (P.move fd σ m) := by
  have hlocks : v.locks = (o.view t).locks := by
    rw [View.locks, hmutex, hv]
    rfl
  rw [Obs.setView, effect_view]
  refine h.moveViews hinv hσ hm ?_ ?_ ?_ (fun t' fd' σ' hon' hσ' => ?_) ?_ hhead
  · rw [map_update_eq View.locks hlocks]
    exact h.mutex
  · rw [map_update View.drives]
    exact hdriver
  · rw [map_update View.owns]
    exact howner
  · rcases eq_or_ne t' t with rfl | hne
    · rw [Function.update_self] at hon' ⊢
      obtain rfl := hon fd' hon'
      obtain rfl := Option.some.inj (hσ.symm.trans hσ')
      exact hptrs
    · rw [Function.update_of_ne hne] at hon' ⊢
      exact h.ptrs t' fd' σ' hon' hσ'
  · rcases hcand with ⟨rfl, hnone⟩ | ⟨hne, hafter⟩
    · exact .inl (by rw [Function.update_self, hnone])
    · exact .inr ⟨by rw [Function.update_of_ne hne.symm], hafter⟩

/-- Who drives agrees, after a move that keeps the driver. -/
theorem driver_same (h : Refines o P) (hv : o.view t = w) (hσ : P.slot fd = some σ)
    (hdriver : (σ.after m).driver = σ.driver) (hdrives : v.drives = w.drives) :
    Agrees (Function.update (fun fd => (P.slot fd).bind Slot.driver) fd (σ.after m).driver)
      (Function.update (fun t => (o.view t).drives) t v.drives) := by
  subst hv
  have hheld : (σ.after m).driver = (P.slot fd).bind Slot.driver := by rw [hdriver, hσ]; rfl
  have hself := h.driver
  rw [← Function.update_eq_self fd fun fd => (P.slot fd).bind Slot.driver,
    ← Function.update_eq_self t fun t => (o.view t).drives] at hself
  rwa [hheld, hdrives]

/-- Who is in charge agrees, after a move that keeps the owner. -/
theorem owner_same (h : Refines o P) (hv : o.view t = w) (hσ : P.slot fd = some σ)
    (howner : (σ.after m).owner = σ.owner) (howns : v.owns = w.owns) :
    Agrees (Function.update (fun fd => (P.slot fd).bind fun σ => σ.owner.holder) fd
        (σ.after m).owner.holder)
      (Function.update (fun t => (o.view t).owns) t v.owns) := by
  subst hv
  have hheld : (σ.after m).owner.holder = (P.slot fd).bind fun σ => σ.owner.holder := by
    rw [howner, hσ]
    rfl
  have hself := h.owner
  rw [← Function.update_eq_self fd fun fd => (P.slot fd).bind fun σ => σ.owner.holder,
    ← Function.update_eq_self t fun t => (o.view t).owns] at hself
  rwa [hheld, howns]

/-- **The thread in charge makes a move**: it gets on to another stage `x`, or is
no longer in charge, and keeps driving or stops. -/
theorem advance (h : Refines o P) (hinv : P.Inv) (hv : o.view t = w) (hσ : P.slot fd = some σ)
    {stage : Stage} {x : Option Stage} {after : Owner} (howns : w.owns = some (fd, stage))
    (howners : m.owners = some (.thread t stage, after)) (hguard : σ.Guard m)
    (hafter : after.holder = x.map (t, ·)) (hx : v.owns = x.map (fd, ·))
    (hdriver : ((σ.after m).driver = σ.driver ∧ v.drives = w.drives) ∨
      ((σ.after m).driver = none ∧ v.drives = none ∧ ∃ b, w.drives = some (fd, b)))
    (hon : v.drives = none ∨ ∃ b, v.drives = some (fd, b)) (hmutex : v.mutex = w.mutex)
    (hsub : v.ptrs ⊆ w.ptrs)
    (hcand : t = .loop ∧ v.cand = none ∨
      t ≠ .loop ∧ ((σ.after m).owner.registered = true ∨ (σ.after m).running = true)) :
    σ.Allows m ∧ Refines ((o.effect fd σ m).setView t v) (P.move fd σ m) := by
  obtain ⟨σ', hσ', ho⟩ := h.slot_of_owns hv howns
  obtain rfl := Option.some.inj (hσ.symm.trans hσ')
  have hm : σ.Allows m := by
    refine ⟨fun o' ho' => ?_, hguard⟩
    rw [howners] at ho'
    cases ho'
    exact ho
  have hholder : (σ.after m).owner.holder = x.map (t, ·) := by
    rw [Slot.after, Move.owner, howners]
    exact hafter
  have hclaim : (o.view t).owns = some (fd, stage) := by rw [hv, howns]
  refine ⟨hm, h.move hinv hv hσ hm ?_ ?_ hmutex ?_ ?_ hcand ?_⟩
  · rcases hdriver with ⟨hsame, hdrives⟩ | ⟨hnone, hnone', b, hdrives⟩
    · exact h.driver_same hv hσ hsame hdrives
    · rw [hnone, hnone']
      exact h.driver.drop (t := t) (i := fd) (a := b) (by rw [hv, hdrives])
  · rw [hholder, hx]
    have hheld := (h.owner t fd stage).1 hclaim
    refine h.owner.set (fun t' a ht' => ?_) (fun fd' a hfd' => ?_) x
    · cases hheld.symm.trans ht'
      rfl
    · rw [hclaim] at hfd'
      cases hfd'
      rfl
  · refine View.eq_of_on hon ?_
    cases x with
    | none => exact .inl hx
    | some stage' => exact .inr ⟨stage', hx⟩
  · intro p hp
    refine h.ptrs t fd σ (.inr ⟨stage, hclaim⟩) hσ p ?_
    rw [hv]
    exact hsub hp
  · rintro i d rfl
    cases howners

/-- The driver finds the chunk free when `fd_inthreadpool` is not set. -/
theorem owner_free (h : Refines o P) (hinv : P.Inv) (hv : o.view t = w) (hσ : P.slot fd = some σ)
    {b : Bool} (hdrives : w.drives = some (fd, b)) (howns : w.owns = none)
    (hflag : o.flag σ.conn = false) : σ.owner = .free := by
  obtain ⟨σ', hσ', hdriver⟩ := h.slot_of_drives hv hdrives
  obtain rfl := Option.some.inj (hσ.symm.trans hσ')
  have hok := hinv.ok fd σ hσ
  have hheld := h.not_heldBy hv howns hσ
  have hregistered := hok.registered (drivenBy hdriver) hheld
  rw [h.flag fd σ hσ] at hflag
  rcases ho : σ.owner with _ | d | _ | ⟨t', stage⟩
  · rfl
  · rw [ho] at hflag
    cases hflag
  · rw [ho] at hflag
    cases hflag
  · have hreading := hok.not_reading (drivenBy hdriver) hheld ho
    rw [ho] at hflag hregistered
    cases stage with
    | accepted | erased => cases hregistered
    | taken | got d => cases hreading
    | flagged d | executing d | handling => cases hflag

/-- **The driver takes the free chunk**, to read it. -/
theorem take (h : Refines o P) (hinv : P.Inv) (hv : o.view t = w) (hσ : P.slot fd = some σ)
    {b : Bool} (hdrives : w.drives = some (fd, b)) (howns : w.owns = none)
    (hflag : o.flag σ.conn = false) (hdrives' : v.drives = some (fd, b))
    (howns' : v.owns = some (fd, .taken)) (hmutex : v.mutex = w.mutex) (hsub : v.ptrs ⊆ w.ptrs)
    (hcand : v.cand = none) :
    σ.Allows (.take t) ∧ Refines (o.setView t v) (P.move fd σ (.take t)) := by
  have ho := h.owner_free hinv hv hσ hdrives howns hflag
  obtain ⟨σ', hσ', hdriver⟩ := h.slot_of_drives hv hdrives
  obtain rfl := Option.some.inj (hσ.symm.trans hσ')
  have hm : σ.Allows (.take t) := ⟨by rintro _ ⟨⟩; exact ho, drivenBy hdriver⟩
  refine ⟨hm, h.move (m := .take t) hinv hv hσ hm
    (h.driver_same hv hσ rfl (hdrives'.trans hdrives.symm)) ?_ hmutex
    (View.eq_of_on (.inr ⟨b, hdrives'⟩) (.inr ⟨_, howns'⟩))
    (fun p hp => h.ptr_eq hv hσ (.inl ⟨b, hdrives⟩) (hsub hp)) ?_ nofun⟩
  · rw [howns']
    exact h.owner.take (by rw [hσ, Option.bind_some, ho]; rfl) (by rw [hv, howns]) .taken
  · rcases eq_or_ne t .loop with rfl | hne
    · exact .inl ⟨rfl, hcand⟩
    · exact .inr ⟨hne, .inl rfl⟩

/-- The epoll thread drives a connection without an active thread. -/
theorem drive (h : Refines o P) (hinv : P.Inv) (hv : o.view .loop = w) {c : ConnId}
    (hcand : w.cand = some (fd, c)) (hdrives : w.drives = none) (howns : w.owns = none)
    (hmutex : w.mutex = none) (hrunning : o.running c = false) :
    ∃ σ, P.slot fd = some σ ∧ σ.Allows .drive ∧
      Refines (o.setView .loop ⟨none, some (fd, false), none, [some c], none⟩)
        (P.move fd σ .drive) := by
  obtain ⟨-, -, ⟨σ, hσ, rfl, hregistered⟩ | htrue⟩ := h.cand fd c (by rw [hv, hcand])
  · have hnone : σ.driver = none := by
      rcases hdriver : σ.driver with _ | ⟨t, b⟩
      · rfl
      · -- a driver without `thread_running` is the epoll thread, which drives nothing
        rw [h.running fd σ hσ, Slot.running, hdriver] at hrunning
        obtain rfl : b = false := hrunning
        rcases (hinv.ok fd σ hσ).driver t false hdriver with rfl | ⟨hb, -⟩
        · have hclaim : (o.view .loop).drives = some (fd, false) :=
            (h.driver .loop fd false).2 (Option.bind_eq_some_iff.2 ⟨σ, hσ, hdriver⟩)
          rw [hv, hdrives] at hclaim
          cases hclaim
        · cases hb
    have hm : σ.Allows .drive := ⟨fun o ho => absurd ho (Option.not_mem_none o), hnone, hregistered⟩
    refine ⟨σ, hσ, hm, h.move (m := .drive) hinv hv hσ hm ?_ (h.owner_same hv hσ rfl howns.symm)
      hmutex.symm (View.eq_of_on (.inr ⟨false, rfl⟩) (.inl rfl))
      (fun p hp => List.mem_singleton.1 hp) (.inl ⟨rfl, rfl⟩) nofun⟩
    exact h.driver.take (by rw [hσ]; exact hnone) (by rw [hv, hdrives]) false
  · rw [hrunning] at htrue
    cases htrue

/-- The driver changes what it drives with, or stops driving. -/
theorem redrive (h : Refines o P) (hinv : P.Inv) (hv : o.view t = w) (hσ : P.slot fd = some σ)
    (hm : σ.Allows m) (hnone : m.owners = none) {b : Bool} (hdrives : w.drives = some (fd, b))
    (howns : w.owns = none) {x : Option Bool} (hdriver : m.driver σ.driver = x.map (t, ·))
    (hdrives' : v.drives = x.map (fd, ·)) (howns' : v.owns = none) (hmutex : v.mutex = w.mutex)
    (hsub : v.ptrs ⊆ w.ptrs)
    (hcand : t = .loop ∧ v.cand = none ∨
      t ≠ .loop ∧ ((σ.after m).owner.registered = true ∨ (σ.after m).running = true)) :
    Refines ((o.effect fd σ m).setView t v) (P.move fd σ m) := by
  have hclaim : (o.view t).drives = some (fd, b) := by rw [hv, hdrives]
  have hheld := (h.driver t fd b).1 hclaim
  refine h.move hinv hv hσ hm ?_ (h.owner_same hv hσ (by rw [Slot.after, Move.owner, hnone]; rfl)
    (howns'.trans howns.symm)) hmutex ?_
    (fun p hp => h.ptr_eq hv hσ (.inl ⟨b, hdrives⟩) (hsub hp)) hcand ?_
  · rw [Slot.after, hdriver, hdrives']
    refine h.driver.set (fun t' a ht' => ?_) (fun fd' a hfd' => ?_) x
    · cases hheld.symm.trans ht'
      rfl
    · rw [hclaim] at hfd'
      cases hfd'
      rfl
  · refine View.eq_of_on ?_ (.inl howns')
    cases x with
    | none => exact .inl hdrives'
    | some b' => exact .inr ⟨b', hdrives'⟩
  · rintro i d rfl
    cases hnone

/-- The epoll thread starts the active thread `i`, which drives from now on. -/
theorem hand (h : Refines o P) (hinv : P.Inv) {i : ℕ} (hv : o.view .loop = w)
    (hidle : o.view (.active i) = .idle) (hσ : P.slot fd = some σ)
    (hw : w.drives = some (fd, true)) (howns : w.owns = none) (hmutex : w.mutex = none) :
    Refines ((o.setView (.active i) ⟨none, some (fd, true), none, [], none⟩).setView .loop .idle)
      (P.move fd σ (.hand i)) := by
  subst hv
  obtain ⟨σ', hσ', hdriver⟩ := h.slot_of_drives rfl hw
  obtain rfl := Option.some.inj (hσ.symm.trans hσ')
  have hallows : σ.Allows (.hand i) :=
    ⟨fun _ ho => (by cases ho), hdriver, h.not_heldBy rfl howns hσ⟩
  -- what neither of the two threads has is as before
  have hsame : ∀ {β : Type} (f : View → Option β), f .idle = none → f (o.view .loop) = none →
      f ⟨none, some (fd, true), none, [], none⟩ = none →
      (fun t => f (Function.update (Function.update o.view (.active i)
        ⟨none, some (fd, true), none, [], none⟩) .loop .idle t)) = fun t => f (o.view t) := by
    intro β f hf hloop hactive
    funext t
    rcases eq_or_ne t .loop with rfl | hne
    · rw [Function.update_self, hf, hloop]
    · rw [Function.update_of_ne hne]
      rcases eq_or_ne t (.active i) with rfl | hne'
      · rw [Function.update_self, hactive, hidle, hf]
      · rw [Function.update_of_ne hne']
  change Refines { o.effect fd σ (.hand i) with
    view := Function.update (Function.update o.view (.active i) _) .loop .idle } _
  refine h.moveViews hinv hσ hallows ?_ ?_ ?_ (fun t fd' σ' hon hσ' p hp => ?_) (.inl ?_)
    (fun _ _ hm => by cases hm)
  · rw [hsame View.locks rfl (by rw [View.locks, hmutex]; rfl) rfl]
    exact h.mutex
  · rw [map_update View.drives, map_update View.drives,
      Function.update_comm (show Tid.active i ≠ .loop by simp)]
    have hdrop := h.driver.drop hw
    have htake := hdrop.take (t := .active i) (i := fd) (Function.update_self ..)
      (by rw [Function.update_of_ne (show Tid.active i ≠ .loop by simp), hidle]; rfl) true
    rwa [Function.update_idem] at htake
  · rw [hsame View.owns rfl howns rfl]
    rw [Function.update_eq_iff.2 ⟨?_, fun _ _ => rfl⟩]
    · exact h.owner
    · rw [hσ]
      rfl
  · rcases eq_or_ne t .loop with rfl | hne
    · rw [Function.update_self] at hp
      cases hp
    · rw [Function.update_of_ne hne] at hon hp
      rcases eq_or_ne t (.active i) with rfl | hne'
      · rw [Function.update_self] at hp
        cases hp
      · rw [Function.update_of_ne hne'] at hon hp
        exact h.ptrs t fd' σ' hon hσ' p hp
  · rw [Function.update_self]
    rfl

end Refines
end Dispatch
end WeakAyas
