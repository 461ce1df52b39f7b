/-
# Where a worker comes to rest

No thread that can go on is left where the worker stands still.  Then the epoll thread
is in `epoll_wait`, the pool is idle and its queue empty, and each active thread has
ended, waits for a flag that nobody clears any more, or has deadlocked itself
(`standstill_iff`).
-/

import WeakAyas.Dispatch.Progress

namespace WeakAyas
namespace Dispatch

open TransitionSystem

variable {n : ℕ} {s s' : State} {t : Tid} {P : Protocol}

/-- No thread can go on by itself. -/
abbrev Standstill (n : ℕ) (s : State) : Prop :=
  (worker n).Standstill (fun l => l.2.external = false) s

/-- In a standstill no thread can go on. -/
theorem Standstill.not_canGo (h : Standstill n s) (t : Tid) : ¬ CanGo (s.next n t) := by
  rintro ⟨ch, hch, hsome⟩
  rw [show s.next n t ch = none from h (t, ch) hch] at hsome
  cases hsome

/-- **Where no thread goes on, `fd_map` is free and every thread rests, but for the
ones that have deadlocked.** -/
theorem rests_or_selfLocks (hterm : s.terminated = false) (hidle : ∀ i, n ≤ i → s.pool i = .idle)
    (hmap : MapHeld s) (h : Refines s.obs P) (hinv : P.Inv)
    (hstill : ∀ t, ¬ CanGo (s.next n t)) (t : Tid) : s.Rests t ∨ s.SelfLocks t := by
  have hcases : ∀ t, s.Rests t ∨ s.Blocked t := fun t =>
    (rests_or_blocked_or_canGo hterm hidle t).imp_right fun hor => hor.resolve_right (hstill t)
  -- the holder of `fd_map` would go on
  have hfree : s.fdMap = none := by
    by_contra hheld
    obtain ⟨t', ht'⟩ := Option.ne_none_iff_exists'.1 hheld
    obtain ⟨hrests, hblocked⟩ := busy_of_inMap ((hmap t').2 ht')
    exact (hcases t').elim hrests hblocked
  refine (hcases t).imp_right fun hblocked => ?_
  rcases hblocked with ⟨-, hheld⟩ | ⟨c, hacquires, hheld⟩
  · exact absurd hfree hheld
  · obtain ⟨t', ht'⟩ := Option.ne_none_iff_exists'.1 hheld
    -- the holder of the `fd_mutex` would go on, if it did not lock it again
    have hview := h.view_of_mutex (t := t') ht'
    rcases (hcases t').resolve_left (not_rests_of_mutex hview) with ⟨-, hheld'⟩ | ⟨c', hc', -⟩
    · exact absurd hfree hheld'
    · obtain ⟨i, fd, c₁, d, rfl, hi⟩ := enqLockFd_of_acquires hview hc'
      obtain rfl := eq_of_acquires h hinv hi hacquires
      exact ⟨c, hacquires, ht'⟩

/-- A thread that rests cannot go on. -/
theorem not_canGo_of_rests (htasks : s.tasks = []) (h : s.Rests t) : ¬ CanGo (s.next n t) := by
  rintro ⟨ch, hch, hsome⟩
  unfold State.next at hsome
  split_ifs at hsome
  · cases hsome
  cases t with
  | acceptor =>
    simp only [State.acceptNext, show s.acceptor = .accept from h] at hsome
    cases ch <;> first | cases hch; done | cases hsome
  | loop =>
    rcases h with hpc | hpc <;> simp only [State.loopNext, hpc] at hsome
    · cases ch <;> first | cases hch; done | cases hsome
    · cases hsome
  | pool i =>
    simp only [State.poolNext, show s.pool i = .idle from h, htasks] at hsome
    split_ifs at hsome <;> cases hsome
  | active i =>
    cases hi : s.active[i]? with
    | none => simp [hi] at hsome
    | some p =>
      have hp := h p hi
      simp only [hi, Option.bind_some] at hsome
      cases p with
      | asleep fd c c' => cases ch <;> first | cases hch; done | cases hsome
      | ended => cases hsome
      | _ => cases hp

/-- Who has deadlocked cannot go on. -/
theorem not_canGo_of_selfLocks (h : Refines s.obs P) (hlocks : s.SelfLocks t) :
    ¬ CanGo (s.next n t) := by
  obtain ⟨i, fd, c, c', d, c'', rfl, hi⟩ := (selfLocks_iff_of_refines h t).1 hlocks
  have hheld := enqLockFd_holds h hi
  rintro ⟨ch, -, hsome⟩
  simp [State.next, hi, State.activeNext, State.lockFd, hheld] at hsome

/-- **A worker stands still exactly when its queue is empty and every thread rests
or has deadlocked**: the acceptor in `accept`, the epoll thread in `epoll_wait` or at
its end, the pool idle, each active thread at its end, asleep on `fd_cond`, or in
`active_enqueue_event` at the `fd_mutex` that it holds. -/
theorem standstill_iff {ok : State → Tid × Choice → Prop} (hn : 0 < n)
    (hs : (worker n).Reachable ok s) :
    Standstill n s ↔ s.tasks = [] ∧ ∀ t, s.Rests t ∨ s.SelfLocks t := by
  obtain ⟨P, h, hinv⟩ := exists_refines hs
  have hterm := not_terminated hs
  constructor
  · intro hstill
    have hrests := rests_or_selfLocks hterm (idle_of_le hs) (mapHeld hs) h hinv hstill.not_canGo
    refine ⟨?_, hrests⟩
    -- a worker of the pool is idle, and would take the first task
    by_contra htasks
    obtain ⟨⟨fd, d⟩, tasks, htasks⟩ := List.exists_cons_of_ne_nil htasks
    have hidle : s.pool 0 = .idle := by
      refine (hrests (.pool 0)).resolve_right fun hlocks => ?_
      obtain ⟨i, -, -, -, -, -, heq, -⟩ := (selfLocks_iff hs _).1 hlocks
      cases heq
    refine hstill.not_canGo (.pool 0) ⟨.go, rfl, ?_⟩
    simp [State.next, hterm, hn, State.poolNext, hidle, htasks]
  · rintro ⟨htasks, hrests⟩ ⟨t, ch⟩ hch
    by_contra hgo
    have hcan : CanGo (s.next n t) := ⟨ch, hch, Option.isSome_iff_ne_none.2 hgo⟩
    rcases hrests t with hr | hlocks
    · exact not_canGo_of_rests htasks hr hcan
    · exact not_canGo_of_selfLocks h hlocks hcan

/-! ### What is left -/

/-- An active thread has read `d` from the connection, and waits for the `fd_mutex`
that it holds. -/
def State.HasInHand (s : State) (c : ConnId) (d : Bytes) : Prop :=
  ∃ (i : ℕ) (fd : Fd) (c₁ c'' : ConnId), s.active[i]? = some (.enqLockFd fd c₁ c d c'')

/-- A thread that waits for a task at a standstill waits for a flag that stays set. -/
theorem flag_of_waits {ok : State → Tid × Choice → Prop} (hs : (worker n).Reachable ok s)
    (hrests : ∀ t, s.Rests t ∨ s.SelfLocks t) {i : ℕ} {fd : Fd} {c : ConnId}
    (hw : s.waits i = some (fd, c)) : (s.info c).fdInthreadpool = true := by
  rcases heard_of_reachable hs i fd c hw with hflag | ⟨j, hj⟩
  · exact hflag
  · rcases hrests (.pool j) with hidle | hlocks
    · rw [show s.pool j = .idle from hidle] at hj
      cases hj
    · obtain ⟨i, -, -, -, -, -, heq, -⟩ := (selfLocks_iff hs _).1 hlocks
      cases heq

/-- **At a standstill every chunk read is finished**, but for the one that a
deadlocked thread has in hand. -/
theorem reads_of_rests (h : Refines s.obs P) (hinv : P.Inv) (htasks : s.tasks = [])
    (hrests : ∀ t, s.Rests t ∨ s.SelfLocks t) (c : ConnId) :
    s.reads c = s.finished c ∨ ∃ d, s.HasInHand c d ∧ s.reads c = s.finished c ++ [d] := by
  have hreads : s.reads c = s.finished c ++ P.pending c := by
    rw [show s.reads = P.reads from h.reads, show s.finished = P.finished from h.finished]
    exact hinv.reads c
  rw [hreads]
  by_cases hpending : P.pending c = []
  · exact .inl (by rw [hpending, List.append_nil])
  right
  -- the chunk belongs to the open descriptor of the connection
  obtain ⟨fd, σ, hσ, rfl⟩ : ∃ fd σ, P.slot fd = some σ ∧ σ.conn = c := by
    unfold Protocol.pending at hpending
    split at hpending
    · split_ifs at hpending with hconn
      · exact ⟨_, _, ‹_›, hconn⟩
      · exact absurd rfl hpending
    · exact absurd rfl hpending
  rw [Protocol.pending_of_slot hinv hσ] at hpending ⊢
  rcases ho : σ.owner with _ | d | _ | ⟨t, stage⟩
  · rw [ho] at hpending
    exact absurd rfl hpending
  · have hmem := (h.tasks fd d).2 ⟨σ, hσ, ho⟩
    rw [show s.obs.tasks = [] from htasks] at hmem
    cases hmem
  · rw [ho] at hpending
    exact absurd rfl hpending
  · have howns : (s.obs.view t).owns = some (fd, stage) :=
      (h.owner t fd stage).2 (by simp [hσ, ho, Owner.holder])
    rcases hrests t with hr | hlocks
    · rcases view_of_rests hr with hv | ⟨i, fd', c₁, c', rfl, hi⟩
      · rw [hv] at howns
        cases howns
      · rw [view_active hi] at howns
        cases howns
    · obtain ⟨i, fd', c₁, c', d, c'', rfl, hi⟩ := (selfLocks_iff_of_refines h _).1 hlocks
      rw [view_active hi] at howns
      cases howns
      have hconn := h.ptr_eq (view_active hi) hσ (.inl ⟨_, rfl⟩) (p := some c')
        (by simp [ActivePc.view])
      cases hconn
      exact ⟨d, ⟨i, fd, c₁, c'', hi⟩, rfl⟩

/-- Neither a task that leaves its flag behind, nor a chunk read by an active thread. -/
def Orderly (s : State) (l : Tid × Choice) : Prop := Clears s l ∧ NoActiveData s l

/-- The moves of an orderly step. -/
def Move.Orderly (m : Move) : Prop := m.freezes = false ∧ ∀ i d, m ≠ .read (.active i) d

/-- An orderly step is an orderly move. -/
theorem Orderly.move {l : Tid × Choice} {m : Move} (hl : Orderly s l)
    (hm : Permits s l.1 l.2 m) : m.Orderly := by
  refine ⟨?_, fun i d heq => hl.2 (hm.reads i d heq)⟩
  rw [← Bool.not_eq_true]
  exact fun hfreezes => hl.1 (hm.freezes hfreezes)

/-- Nothing is frozen, and no active thread has a chunk in hand. -/
def Protocol.Orderly (P : Protocol) : Prop :=
  ∀ fd σ, P.slot fd = some σ →
    σ.owner ≠ .frozen ∧ ∀ i d, σ.owner ≠ .thread (.active i) (.got d)

/-- Orderly moves reach orderly states. -/
theorem orderly_of_reachable (hP : protocol.Reachable (Only Move.Orderly) P) : P.Orderly := by
  intro fd σ hσ
  have hfrozen := hP.mono fun _ _ hq fd m ha => (hq fd m ha).1
  have hquiet := hP.mono fun _ _ hq fd m ha => (hq fd m ha).2
  exact ⟨not_frozen hfrozen hσ, fun i d => not_activeGot hquiet hσ i d⟩

/-- An orderly worker refines an orderly protocol. -/
theorem exists_orderly (hs : (worker n).Reachable Orderly s) :
    ∃ P, Refines s.obs P ∧ P.Inv ∧ P.Orderly := by
  obtain ⟨P, hP, h⟩ := (simulation n fun _ _ _ hl hm => Orderly.move hl hm).reachable hs
  exact ⟨P, h, inv_of_reachable hP, orderly_of_reachable hP⟩

/-- Everything read is finished, the active threads have ended, and every connection
is ready for its next event. -/
structure Done (s : State) : Prop where
  tasks : s.tasks = []
  rests : ∀ t, s.Rests t
  active : ∀ p ∈ s.active, p = .ended
  finished : ∀ c, s.finished c = s.reads c
  mutex : ∀ c, (s.info c).fdMutex = none
  flags : ∀ fd c, s.fdInfos fd = some c →
    (s.info c).fdInthreadpool = false ∧ (s.info c).threadRunning = false

/-- **A worker stands still only when all is done**, after a run without rejected
chunks, without handlers that throw, and without data for an active thread. -/
theorem done_of_standstill (hn : 0 < n) (hs : (worker n).Reachable Orderly s)
    (hstill : Standstill n s) : Done s := by
  obtain ⟨P, h, hinv, horderly⟩ := exists_orderly hs
  obtain ⟨htasks, hor⟩ := (standstill_iff hn hs).1 hstill
  have hdeadlock := not_selfLocks_of_owner h fun fd σ hσ => (horderly fd σ hσ).2
  have hrests : ∀ t, s.Rests t := fun t => (hor t).resolve_right (hdeadlock t)
  -- nobody has a task, so nobody waits for one
  have hpending : ∀ fd, ¬ (s.TaskPending fd ∨ s.loop.Enqueueing fd) := by
    rintro fd ((⟨d, hd⟩ | ⟨i, hi⟩) | hloop)
    · rw [htasks] at hd
      cases hd
    · rw [show s.pool i = .idle from hrests (.pool i)] at hi
      cases hi
    · rcases hrests .loop with hpc | hpc <;> rw [hpc] at hloop <;> cases hloop
  have hactive : ∀ p ∈ s.active, p = .ended := by
    intro p hp
    obtain ⟨i, hi⟩ := List.mem_iff_getElem?.1 hp
    have hr := hrests (.active i) p hi
    cases p with
    | ended => rfl
    | asleep fd c c' =>
      have hw : s.waits i = some (fd, c') := by rw [State.waits, hi]; rfl
      obtain ⟨σ, hσ, rfl, -⟩ := slot_of_waits h hw
      have hflag : σ.owner.flag = true := (h.flag fd σ hσ).symm.trans (flag_of_waits hs hor hw)
      exact absurd (taskPending_or_enqueueing h hσ (horderly fd σ hσ).1 hflag) (hpending fd)
    | _ => cases hr
  refine ⟨htasks, hrests, hactive, fun c => ?_, fun c => ?_, fun fd c hc => ⟨?_, ?_⟩⟩
  · rcases reads_of_rests h hinv htasks hor c with heq | ⟨d, ⟨i, fd, c₁, c'', hi⟩, -⟩
    · exact heq.symm
    · cases hactive _ (List.mem_of_getElem? hi)
  · by_contra hheld
    obtain ⟨t, ht⟩ := Option.ne_none_iff_exists'.1 hheld
    exact not_rests_of_mutex (h.view_of_mutex ht) (hrests t)
  · by_contra hflag
    obtain ⟨σ, hσ, rfl⟩ := h.slot_of_fdInfos hc
    have hset : (s.info σ.conn).fdInthreadpool = true := by simpa using hflag
    have howner : σ.owner.flag = true := (h.flag fd σ hσ).symm.trans hset
    exact hpending fd (taskPending_or_enqueueing h hσ (horderly fd σ hσ).1 howner)
  · -- who drives the descriptor is an active thread that has not ended
    obtain ⟨σ, hσ, rfl⟩ := h.slot_of_fdInfos hc
    refine (h.running fd σ hσ).trans ?_
    rcases hdriver : σ.driver with _ | ⟨t, b⟩
    · rw [Slot.running, hdriver]
      rfl
    · have hdrives : (s.obs.view t).drives = some (fd, b) :=
        (h.driver t fd b).2 (by simp [hσ, hdriver])
      rcases view_of_rests (hrests t) with hv | ⟨i, fd', c₁, c', rfl, hi⟩
      · rw [hv] at hdrives
        cases hdrives
      · cases hactive _ (List.mem_of_getElem? hi)

end Dispatch
end WeakAyas
