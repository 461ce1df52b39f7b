/-
# Where the program comes to rest

Without anything from outside the threads of `Program` cost work with every step
(`work_lt`), so the program comes to a standstill; there are four
(`standstill_iff`):

| `Server_loop` | `main` | |
| --- | --- | --- |
| ended | ended | the end of the program |
| ended | asleep | no server started, and nobody tells `main` |
| asleep | at the join | the server has slept through `g_stop_flag` |
| in `workers.clear()` | at the join | an `~EpollWorker` hangs |

The second needs a `start` that fails or a signal before the server runs.  The third
needs a notification between the predicate of `Server_loop` and its sleep: `main` and
`signal_handler` notify without `mtx`.  With neither, and workers that end, the program
ends (`finishes`).
-/

import WeakAyas.Server.Program

namespace WeakAyas
namespace Server

open TransitionSystem

/-! ### The work that is left -/

/-- The steps of `Server_loop` to its sleep or its end, a notification counted with
the steps of those that it wakes. -/
def ServerPc.work : ServerPc → ℕ
  | ended | hung => 0
  | failUnlock | asleep => 1
  | sleep => 2
  | check => 3
  | relock => 4
  | notify => 7
  | lock | failNotify => 8
  | setRunning | failClear => 9
  | failLock => 10
  | start => 12
  | test => 13
  | clear _ => 14
  | join _ => 15
  | stop _ => 18
  | again => 19
  | unlock => 20

/-- `Server_loop` will look at `running` and `g_stop_flag`. -/
def ServerPc.looks : ServerPc → Bool
  | start | setRunning | lock | notify | check | sleep | asleep | relock => true
  | _ => false

def MainPc.work : MainPc → ℕ
  | ended => 0
  | join => 1
  | notifyAll => 8
  | setStop => 27
  | console => 28
  | unlock => 29
  | asleep => 30
  | sleep => 31
  | check => 32
  | relock => 33
  | lock => 34

def AcceptPc.work (notified : Bool) : AcceptPc → ℕ
  | ended => 0
  | unlock => 1
  | test => 2
  | waiting => if notified then 3 else 1
  | notify => 5
  | clear => 6
  | lock => 7

namespace Program

variable {s t : Program} {l : ProgramStep}

/-- `Server_loop` will find a reason to stop its server. -/
def falls (s : Program) : Bool :=
  s.stopFlag || (s.server != .start && (!s.running || s.accept == .lock || s.accept == .clear))

/-- The work that is left without anything from outside: stopping a server takes more
than starting one. -/
def work (s : Program) : ℕ :=
  s.server.work + (if s.server.looks && s.falls then 18 else 0) + s.main.work +
    s.accept.work s.notified + 4 * s.handlers

/-- A sleeper that wakes has three steps to its next sleep. -/
theorem work_wake {w : Sleeper} (hw : s.wake w = some t) : t.work = s.work + 3 := by
  cases w with
  | server =>
    simp only [wake, Option.ite_none_right_eq_some, Option.some.injEq] at hw
    obtain ⟨hs, rfl⟩ := hw
    simp [work, falls, hs, ServerPc.work, ServerPc.looks]
    omega
  | main =>
    simp only [wake, Option.ite_none_right_eq_some, Option.some.injEq] at hw
    obtain ⟨hs, rfl⟩ := hw
    simp [work, falls, hs, MainPc.work]
    omega

/-- `notify_one` costs at most that. -/
theorem work_wakeOne {w : Option Sleeper} (hw : s.wakeOne w = some t) : t.work ≤ s.work + 3 := by
  cases w with
  | none =>
    simp only [wakeOne, Option.ite_none_right_eq_some, Option.some.injEq] at hw
    rw [← hw.2]
    omega
  | some w => exact Nat.le_of_eq (work_wake hw)

/-- `notify_all` costs at most twice that. -/
theorem work_wakeAll : s.wakeAll.work ≤ s.work + 6 := by
  simp only [work, wakeAll, falls]
  grind -ring -linarith [ServerPc.work, ServerPc.looks, MainPc.work]

/-- `Server_loop` goes on. -/
theorem work_serverNext (h : Inv s) (hn : s.serverNext = some t) : t.work < s.work := by
  have hholds := h.server
  cases hs : s.server <;> simp only [serverNext, hs, ServerPc.Holds, Option.some.injEq,
    reduceCtorEq, Option.ite_none_right_eq_some] at hn hholds
  case failNotify =>
    have hserver : s.wakeAll.server = .failNotify := by simp [wakeAll, hs]
    have hall : s.wakeAll.work ≤ s.work + 6 := work_wakeAll
    have hstep : t.work + 7 = s.wakeAll.work := by
      subst hn
      simp [work, hserver, ServerPc.work, ServerPc.looks]
      omega
    omega
  case stop leave =>
    subst hn
    have haccept : s.accept.work true ≤ s.accept.work s.notified + 2 := by
      cases s.accept <;> grind -ring -linarith [AcceptPc.work]
    simp only [work, hs, ServerPc.work, ServerPc.looks, Bool.false_and, Bool.false_eq_true,
      if_false]
    omega
  all_goals
    try obtain ⟨hguard, rfl⟩ := hn
    try subst hn
    grind -ring -linarith [work, falls, ServerPc.work, ServerPc.looks, AcceptPc.work]

/-- `main` goes on. -/
theorem work_mainNext (hn : s.mainNext = some t) : t.work < s.work := by
  cases hs : s.main <;> simp only [mainNext, hs, Option.some.injEq, reduceCtorEq,
    Option.ite_none_right_eq_some] at hn
  case notifyAll =>
    have hmain : s.wakeAll.main = .notifyAll := by simp [wakeAll, hs]
    have hall : s.wakeAll.work ≤ s.work + 6 := work_wakeAll
    have hstep : t.work + 7 = s.wakeAll.work := by
      subst hn
      simp [work, falls, hmain, MainPc.work]
      omega
    omega
  all_goals
    try obtain ⟨hguard, rfl⟩ := hn
    try subst hn
    grind -ring -linarith [work, falls, MainPc.work]

/-- `accept_loop` goes on. -/
theorem work_acceptNext (h : Inv s) (hn : s.acceptNext = some t) : t.work < s.work := by
  cases hs : s.accept <;> simp only [acceptNext, hs, Option.some.injEq, reduceCtorEq,
    Option.ite_none_right_eq_some] at hn
  case test =>
    have hjoin : s.notified = true → s.running = false := fun hnotified =>
      (h.join_of_notified hnotified (by simp [hs])).1
    subst hn
    grind -ring -linarith [work, falls, AcceptPc.work]
  case waiting =>
    obtain ⟨hnotified, rfl⟩ := hn
    obtain ⟨-, leave, hserver⟩ := h.join_of_notified hnotified (by simp [hs])
    simp [work, hs, hserver, hnotified, AcceptPc.work, ServerPc.looks]
  all_goals
    try obtain ⟨hguard, rfl⟩ := hn
    try subst hn
    grind -ring -linarith [work, falls, AcceptPc.work]

/-- **A step without anything from outside costs work.** -/
theorem work_lt (h : Inv s) (hl : l.external = false) (hn : s.next l = some t) :
    t.work < s.work := by
  have hholds := h.server
  cases l with
  | server => exact work_serverNext h hn
  | main => exact work_mainNext hn
  | accept => exact work_acceptNext h hn
  | started ok =>
    simp only [next, Option.ite_none_right_eq_some] at hn
    obtain ⟨hs, hn⟩ := hn
    simp only [hs, ServerPc.Holds] at hholds
    cases ok <;> obtain rfl := Option.some.inj hn <;>
      grind -ring -linarith [work, falls, ServerPc.work, ServerPc.looks, AcceptPc.work]
  | serverNotify w =>
    simp only [next, Option.ite_none_right_eq_some] at hn
    obtain ⟨hs, hn⟩ := hn
    have hwake := work_wakeOne hn
    have hstep : ({ s with server := .check } : Program).work + 4 = s.work := by
      simp [work, falls, hs, ServerPc.work, ServerPc.looks]
      omega
    omega
  | acceptNotify w =>
    simp only [next, Option.ite_none_right_eq_some] at hn
    obtain ⟨hs, hn⟩ := hn
    have hwake := work_wakeOne hn
    have hstep : ({ s with accept := .unlock } : Program).work + 4 = s.work := by
      simp [work, falls, hs, AcceptPc.work]
      omega
    omega
  | cleared ok =>
    cases hs : s.server <;> simp only [next, hs, Option.some.injEq, reduceCtorEq] at hn
    case clear leave =>
      subst hn
      cases ok <;> cases leave <;> simp [work, hs, ServerPc.work, ServerPc.looks]
  | handlerNotify w =>
    simp only [next, Option.ite_none_right_eq_some] at hn
    obtain ⟨hpos, hn⟩ := hn
    have hwake := work_wakeOne hn
    have hstep : ({ s with handlers := s.handlers - 1 } : Program).work + 4 = s.work := by
      have hfalls : ({ s with handlers := s.handlers - 1 } : Program).falls = s.falls := rfl
      simp only [work, hfalls]
      omega
    omega
  | signal | accepted | epollFails | spurious w => cases hl

/-! ### The standstills -/

/-- A notification can always be made. -/
theorem exists_wakeOne (s : Program) : ∃ w t, s.wakeOne w = some t := by
  by_cases hserver : s.server = .asleep
  · exact ⟨some .server, _, if_pos hserver⟩
  · by_cases hmain : s.main = .asleep
    · exact ⟨some .main, _, if_pos hmain⟩
    · exact ⟨none, s, if_pos ⟨hserver, hmain⟩⟩

/-- The steps of the threads. -/
abbrev Standstill (s : Program) : Prop :=
  program.Standstill (fun l => l.external = false) s

/-- No handler of a signal is left. -/
theorem Standstill.handlers (h : Standstill s) : s.handlers = 0 := by
  by_contra hpos
  obtain ⟨w, t, hw⟩ := exists_wakeOne { s with handlers := s.handlers - 1 }
  have hnone : s.next (.handlerNotify w) = none := h (.handlerNotify w) rfl
  rw [next, if_pos (Nat.pos_of_ne_zero hpos), hw] at hnone
  cases hnone

/-- A thread that is inside goes on. -/
theorem Standstill.free (h : Standstill s) : s.free = true := by
  have hserver : s.serverNext = none := h .server rfl
  have hmain : s.mainNext = none := h .main rfl
  have haccept : s.acceptNext = none := h .accept rfl
  refine free_iff.2 ⟨?_, ?_, ?_⟩
  · cases hs : s.server <;> simp only [serverNext, hs, reduceCtorEq] at hserver <;> try rfl
    case notify =>
      obtain ⟨w, t, hw⟩ := exists_wakeOne { s with server := .check }
      have hnone : s.next (.serverNotify w) = none := h (.serverNotify w) rfl
      rw [next, if_pos hs, hw] at hnone
      cases hnone
  · cases hs : s.main <;> simp only [mainNext, hs, reduceCtorEq] at hmain <;> rfl
  · cases hs : s.accept <;> simp only [acceptNext, hs, reduceCtorEq] at haccept <;> try rfl
    case notify =>
      obtain ⟨w, t, hw⟩ := exists_wakeOne { s with accept := .unlock }
      have hnone : s.next (.acceptNotify w) = none := h (.acceptNotify w) rfl
      rw [next, if_pos hs, hw] at hnone
      cases hnone

/-- `accept_loop` has ended, or nothing is reported to it. -/
theorem Standstill.accept (h : Standstill s) :
    s.accept = .ended ∨ s.accept = .waiting ∧ s.notified = false := by
  have hfree := h.free
  have haccept : s.acceptNext = none := h .accept rfl
  have hinside := (free_iff.1 hfree).2.2
  cases hs : s.accept <;> simp_all [acceptNext, AcceptPc.inside]

/-- `main` has ended, sleeps, or joins a `Server_loop` that has not. -/
theorem Standstill.main (h : Standstill s) :
    s.main = .ended ∨ s.main = .asleep ∨ s.main = .join ∧ s.server ≠ .ended := by
  have hfree := h.free
  have hmain : s.mainNext = none := h .main rfl
  cases hs : s.main <;> simp_all [mainNext]

/-- `Server_loop` has ended, sleeps, or hangs. -/
theorem Standstill.server (h : Standstill s) (hinv : Inv s) :
    s.server = .ended ∨ s.server = .asleep ∨ s.server = .hung := by
  have hfree := h.free
  have haccept := h.accept
  have hserver : s.serverNext = none := h .server rfl
  have hstarted : s.next (.started true) = none := h (.started true) rfl
  have hcleared : s.next (.cleared true) = none := h (.cleared true) rfl
  have hinside := (free_iff.1 hfree).1
  have hholds := hinv.server
  cases hs : s.server <;>
    simp_all [serverNext, next, ServerPc.inside, ServerPc.Holds]

/-- The end of the program. -/
def Finished (s : Program) : Prop := s.server = .ended ∧ s.main = .ended

/-- `main` waits for a server that never comes. -/
def Unserved (s : Program) : Prop :=
  s.server = .ended ∧ s.main = .asleep ∧ s.serverRunning = false

/-- `Server_loop` sleeps with `g_stop_flag` set, and `main` waits for its end. -/
def Overslept (s : Program) : Prop :=
  s.server = .asleep ∧ s.main = .join ∧ s.running = true ∧ s.stopFlag = true

/-- `Server_loop` hangs in `workers.clear()`, and `main` waits for its end. -/
def Stuck (s : Program) : Prop := s.server = .hung ∧ s.main = .join

/-- **The program stands still in four ways only.** -/
theorem standstill_iff (h : Inv s) : Standstill s ↔ s.handlers = 0 ∧
    (s.accept = .ended ∨ s.accept = .waiting ∧ s.notified = false) ∧
    (Finished s ∨ Unserved s ∨ Overslept s ∨ Stuck s) := by
  have hholds := h.server
  have hmain := h.main
  constructor
  · intro hstill
    refine ⟨hstill.handlers, hstill.accept, ?_⟩
    rcases hstill.server h with hs | hs | hs
    · rcases hstill.main with hm | hm | ⟨-, hne⟩
      · exact .inl ⟨hs, hm⟩
      · refine .inr (.inl ⟨hs, hm, ?_⟩)
        by_contra hrunning
        simpa [hs] using h.awake (.inr hm) (by simpa using hrunning)
      · exact absurd hs hne
    · simp only [hs, ServerPc.Holds] at hholds
      rcases hstill.main with hm | hm | ⟨hm, -⟩
      · simp [hm, MainPc.Holds, hs] at hmain
      · exact absurd hm (h.main_ne_asleep hs)
      · have hrunning : s.running = true := by
          rcases hstill.accept with ha | ⟨ha, -⟩ <;> simpa [ha] using hholds.2.2
        simp only [hm, MainPc.Holds] at hmain
        exact .inr (.inr (.inl ⟨hs, hm, hrunning, hmain⟩))
    · simp only [hs, ServerPc.Holds] at hholds
      rcases hstill.main with hm | hm | ⟨hm, -⟩
      · simp [hm, MainPc.Holds, hs] at hmain
      · simpa [hs] using h.awake (.inr hm) hholds.2
      · exact .inr (.inr (.inr ⟨hs, hm⟩))
  · rintro ⟨hhandlers, haccept, hrest⟩ l hl
    show s.next l = none
    have hserver : s.serverNext = none ∧ s.server ≠ .start ∧ s.server ≠ .notify ∧
        ∀ leave, s.server ≠ .clear leave := by
      rcases hrest with ⟨hs, -⟩ | ⟨hs, -⟩ | ⟨hs, -⟩ | ⟨hs, -⟩ <;> simp [serverNext, hs]
    have hmainNext : s.mainNext = none := by
      rcases hrest with ⟨-, hm⟩ | ⟨-, hm, -⟩ | ⟨hs, hm, -⟩ | ⟨hs, hm⟩
      · simp [mainNext, hm]
      · simp [mainNext, hm]
      · simp [mainNext, hm, hs]
      · simp [mainNext, hm, hs]
    have hacceptNext : s.acceptNext = none ∧ s.accept ≠ .notify := by
      rcases haccept with ha | ⟨ha, hn⟩
      · simp [acceptNext, ha]
      · simp [acceptNext, ha, hn]
    cases l with
    | server => exact hserver.1
    | started ok => exact if_neg hserver.2.1
    | serverNotify w => exact if_neg hserver.2.2.1
    | cleared ok =>
      simp only [next]
      split
      · exact absurd ‹_› (hserver.2.2.2 _)
      · rfl
    | main => exact hmainNext
    | accept => exact hacceptNext.1
    | acceptNotify w => exact if_neg hacceptNext.2
    | handlerNotify w => exact if_neg (by omega)
    | signal | accepted | epollFails | spurious w => cases hl

/-- `main` is at the console, and `Server_loop` is about to sleep. -/
def toConsole : List ProgramStep :=
  [.server, .started true, .server, .accept, .main, .main, .main, .server, .serverNotify none,
    .server]

/-- The notification of `main` comes before the sleep. -/
example : (program.run start (toConsole ++ [.main, .main, .main, .server])).any (fun s =>
    s.server = .asleep ∧ s.main = .join ∧ s.running = true ∧ s.stopFlag = true) := by
  decide

/-- `main` is told of the failed start, and goes back to sleep. -/
example : (program.run start [.main, .main, .main, .server, .started false, .server, .server,
    .server, .server, .main, .main, .main]).any (fun s =>
    s.server = .ended ∧ s.main = .asleep ∧ s.serverRunning = false) := by
  decide

/-- The worker of a connection does not come to its end. -/
example : (program.run start (toConsole ++ [.accepted, .accept, .server, .main, .main, .main,
    .server, .server, .server, .server, .server, .accept, .accept, .server,
    .cleared false])).any (fun s =>
    s.server = .hung ∧ s.main = .join) := by
  decide

/-! ### How the program ends -/

/-- The notification does not come between the predicate of `Server_loop` and its
sleep. -/
def Heard (s : Program) (l : ProgramStep) : Prop :=
  s.server = .sleep → (l = .main → s.main ≠ .notifyAll) ∧ ∀ w, l ≠ .handlerNotify w

/-- The server starts, and no signal comes before `main` knows of it. -/
def Starts (s : Program) (l : ProgramStep) : Prop :=
  l ≠ .started false ∧ (l = .signal → s.serverRunning = true)

/-- Every `~EpollWorker` returns. -/
def Clears (_ : Program) (l : ProgramStep) : Prop := l ≠ .cleared false

/-- A server that sleeps through `g_stop_flag` will be woken. -/
def Called (s : Program) : Prop :=
  s.server = .sleep ∨ s.server = .asleep → s.stopFlag = true →
    0 < s.handlers ∨ s.main = .notifyAll

/-- A sleeper that wakes does not matter. -/
theorem called_wake (h : Called s) {w : Sleeper} (hw : s.wake w = some t) : Called t := by
  cases w with
  | server =>
    simp only [wake, Option.ite_none_right_eq_some, Option.some.injEq] at hw
    obtain ⟨-, rfl⟩ := hw
    rintro (hs | hs) <;> simp at hs
  | main =>
    simp only [wake, Option.ite_none_right_eq_some, Option.some.injEq] at hw
    obtain ⟨hm, rfl⟩ := hw
    intro hs hstop
    rcases h hs hstop with hpos | hnotify
    · exact .inl hpos
    · simp [hm] at hnotify

/-- Nor does one that is notified. -/
theorem called_wakeOne (h : Called s) {w : Option Sleeper} (hw : s.wakeOne w = some t) :
    Called t := by
  cases w with
  | none =>
    simp only [wakeOne, Option.ite_none_right_eq_some, Option.some.injEq] at hw
    exact hw.2 ▸ h
  | some w => exact called_wake h hw

/-- A notification of `cv` wakes the server that sleeps. -/
theorem server_of_wakeOne (h : Inv s) {w : Option Sleeper} (hw : s.wakeOne w = some t) :
    t.server = .relock ∨ t.server = s.server ∧ s.server ≠ .asleep := by
  rcases w with _ | _ | _ <;>
    simp only [wakeOne, wake, Option.ite_none_right_eq_some, Option.some.injEq] at hw <;>
    obtain ⟨hw, rfl⟩ := hw
  · exact .inr ⟨rfl, hw.1⟩
  · exact .inl rfl
  · exact .inr ⟨rfl, fun hs => h.main_ne_asleep hs hw⟩

/-- Every step under the condition keeps the call. -/
theorem called_next (h : Inv s) (hcalled : Called s) (hl : Heard s l) (hn : s.next l = some t) :
    Called t := by
  cases l with
  | server =>
    cases hs : s.server <;> simp only [next, serverNext, hs, Option.some.injEq, reduceCtorEq,
      Option.ite_none_right_eq_some] at hn <;> grind -ring -linarith [Called, wakeAll]
  | main =>
    cases hm : s.main <;> simp only [next, mainNext, hm, Option.some.injEq, reduceCtorEq,
      Option.ite_none_right_eq_some] at hn <;> grind -ring -linarith [Called, wakeAll, Heard]
  | accept =>
    cases ha : s.accept <;> simp only [next, acceptNext, ha, Option.some.injEq, reduceCtorEq,
      Option.ite_none_right_eq_some] at hn <;> grind -ring -linarith [Called]
  | started ok =>
    simp only [next, Option.ite_none_right_eq_some] at hn
    obtain ⟨-, hn⟩ := hn
    cases ok <;> obtain rfl := Option.some.inj hn <;> rintro (hs | hs) <;> simp at hs
  | serverNotify w =>
    simp only [next, Option.ite_none_right_eq_some] at hn
    exact called_wakeOne (by rintro (hs | hs) <;> simp at hs) hn.2
  | cleared ok =>
    cases hs : s.server <;> simp only [next, hs, Option.some.injEq, reduceCtorEq] at hn
    case clear leave =>
      subst hn
      cases ok <;> cases leave <;> rintro (hs | hs) <;> cases hs
  | acceptNotify w =>
    simp only [next, Option.ite_none_right_eq_some] at hn
    exact called_wakeOne (s := { s with accept := .unlock }) hcalled hn.2
  | handlerNotify w =>
    simp only [next, Option.ite_none_right_eq_some] at hn
    have hlater : Inv { s with handlers := s.handlers - 1 } :=
      h.of_main rfl rfl rfl rfl rfl id .inl h.main h.awake
    have hsleep : s.server ≠ .sleep := fun hs => (hl hs).2 w rfl
    intro ht
    rcases server_of_wakeOne hlater hn.2 with hs | ⟨hs, hne⟩
    · simp [hs] at ht
    · rw [hs] at ht
      exact absurd ht (not_or.2 ⟨hsleep, hne⟩)
  | signal =>
    obtain rfl := Option.some.inj hn
    exact fun _ _ => .inl (Nat.succ_pos _)
  | accepted =>
    simp only [next, Option.ite_none_right_eq_some, Option.some.injEq] at hn
    obtain ⟨-, rfl⟩ := hn
    exact hcalled
  | epollFails =>
    simp only [next, Option.ite_none_right_eq_some, Option.some.injEq] at hn
    obtain ⟨-, rfl⟩ := hn
    exact hcalled
  | spurious w => exact called_wake hcalled hn

/-- `main` and the flag know of the server that runs, and it has not failed or hung. -/
structure Announced (s : Program) : Prop where
  stopFlag : s.stopFlag = true → s.serverRunning = true
  main : s.main = .lock ∨ s.main = .check ∨ s.main = .sleep ∨ s.main = .asleep ∨
    s.main = .relock ∨ s.serverRunning = true
  server : s.server ≠ .failLock ∧ s.server ≠ .failClear ∧ s.server ≠ .failNotify ∧
    s.server ≠ .failUnlock ∧ s.server ≠ .hung
  ended : s.server = .ended → s.stopFlag = true

/-- A sleeper that wakes does not matter. -/
theorem announced_wake (h : Announced s) {w : Sleeper} (hw : s.wake w = some t) :
    Announced t := by
  cases w <;> simp only [wake, Option.ite_none_right_eq_some, Option.some.injEq] at hw <;>
    obtain ⟨-, rfl⟩ := hw
  · exact ⟨h.stopFlag, h.main, by simp, by simp⟩
  · exact ⟨h.stopFlag, by simp, h.server, h.ended⟩

/-- Nor does one that is notified. -/
theorem announced_wakeOne (h : Announced s) {w : Option Sleeper} (hw : s.wakeOne w = some t) :
    Announced t := by
  cases w with
  | none =>
    simp only [wakeOne, Option.ite_none_right_eq_some, Option.some.injEq] at hw
    exact hw.2 ▸ h
  | some w => exact announced_wake h hw

/-- Every step under the conditions keeps the announcement. -/
theorem announced_next (hinv : Inv s) (h : Announced s) (hl : Starts s l) (hclear : Clears s l)
    (hn : s.next l = some t) : Announced t := by
  have hholds := hinv.server
  obtain ⟨hstop, hmain, hserver, hended⟩ := h
  cases l with
  | server =>
    cases hs : s.server <;> simp only [next, serverNext, hs, Option.some.injEq, reduceCtorEq,
      Option.ite_none_right_eq_some, ServerPc.Holds] at hn hholds <;>
      constructor <;> grind -ring -linarith
  | main =>
    cases hm : s.main <;> simp only [next, mainNext, hm, Option.some.injEq, reduceCtorEq,
      Option.ite_none_right_eq_some] at hn <;> constructor <;> grind -ring -linarith [wakeAll]
  | accept =>
    cases ha : s.accept <;> simp only [next, acceptNext, ha, Option.some.injEq, reduceCtorEq,
      Option.ite_none_right_eq_some] at hn <;> constructor <;> grind -ring -linarith
  | started ok =>
    simp only [next, Option.ite_none_right_eq_some] at hn
    obtain ⟨-, hn⟩ := hn
    cases ok with
    | false => exact absurd rfl hl.1
    | true =>
      obtain rfl := Option.some.inj hn
      exact ⟨hstop, hmain, by simp, by simp⟩
  | serverNotify w =>
    simp only [next, Option.ite_none_right_eq_some] at hn
    exact announced_wakeOne (s := { s with server := .check })
      ⟨hstop, hmain, by simp, by simp⟩ hn.2
  | cleared ok =>
    cases hs : s.server <;> simp only [next, hs, Option.some.injEq, reduceCtorEq,
      ServerPc.Holds] at hn hholds
    case clear leave =>
      subst hn
      cases ok with
      | false => exact absurd rfl hclear
      | true =>
        refine ⟨hstop, hmain, ?_, fun hended => ?_⟩
        · cases leave <;> simp
        · cases leave with
          | false => cases hended
          | true => exact hholds.2.2 rfl
  | acceptNotify w =>
    simp only [next, Option.ite_none_right_eq_some] at hn
    exact announced_wakeOne (s := { s with accept := .unlock })
      ⟨hstop, hmain, hserver, hended⟩ hn.2
  | handlerNotify w =>
    simp only [next, Option.ite_none_right_eq_some] at hn
    exact announced_wakeOne (s := { s with handlers := s.handlers - 1 })
      ⟨hstop, hmain, hserver, hended⟩ hn.2
  | signal =>
    obtain rfl := Option.some.inj hn
    exact ⟨fun _ => hl.2 rfl, hmain, hserver, fun _ => rfl⟩
  | accepted | epollFails =>
    simp only [next, Option.ite_none_right_eq_some, Option.some.injEq] at hn
    obtain ⟨-, rfl⟩ := hn
    exact ⟨hstop, hmain, hserver, hended⟩
  | spurious w => exact announced_wake ⟨hstop, hmain, hserver, hended⟩ hn

/-- **A program whose server starts, hears of the stop, and has workers that end, ends**,
with all its threads: it has no other standstill. -/
theorem finishes (hs : program.Reachable (fun s l => Heard s l ∧ Starts s l ∧ Clears s l) s)
    (hstill : Standstill s) : Finished s ∧ s.accept = .ended ∧ s.handlers = 0 := by
  have hinv := inv_of_reachable hs.any
  have hcalled : Called s := by
    refine hs.invariant_with (I := Called) (J := Inv) (fun _ hr => inv_of_reachable hr.any) ?_
      fun _ _ _ hi hc hl hn => called_next hi hc hl.1 hn
    intro s hinit
    cases (show s = start from hinit)
    rintro (h | h) <;> cases h
  have hannounced : Announced s := by
    refine hs.invariant_with (I := Announced) (J := Inv) (fun _ hr => inv_of_reachable hr.any) ?_
      fun _ _ _ hi ha hl hn => announced_next hi ha hl.2.1 hl.2.2 hn
    intro s hinit
    cases (show s = start from hinit)
    exact ⟨fun ht => (by cases ht), .inl rfl, by simp [start], fun ht => by cases ht⟩
  obtain ⟨hhandlers, -, hfinished | ⟨hserver, hmain, hrunning⟩ | ⟨hserver, hmain, -, hstop⟩ |
    hstuck⟩ := (standstill_iff hinv).1 hstill
  · have hholds := hinv.server
    rw [hfinished.1] at hholds
    exact ⟨hfinished, hholds.1, hhandlers⟩
  · have hknown := hannounced.stopFlag (hannounced.ended hserver)
    rw [hrunning] at hknown
    cases hknown
  · rcases hcalled (.inr hserver) hstop with hpos | hnotify
    · omega
    · simp [hmain] at hnotify
  · exact absurd hstuck.1 hannounced.server.2.2.2.2

/-- The client is done after `Server_loop` has gone to sleep. -/
def orderly : List ProgramStep :=
  toConsole ++ [.server, .main, .main, .main, .server, .server, .server, .server, .server,
    .accept, .accept, .server, .cleared true, .main]

/-- The steps of an orderly run. -/
def isOrderly (s : Program) (l : ProgramStep) : Bool :=
  (s.server ≠ .sleep ∨ l = .server) ∧
    l ∈ [.server, .started true, .serverNotify none, .cleared true, .main, .accept]

/-- The test says that the step meets the conditions. -/
theorem heard_of_isOrderly (hl : isOrderly s l = true) :
    Heard s l ∧ Starts s l ∧ Clears s l := by
  obtain ⟨hsleep, hmem⟩ : (s.server ≠ .sleep ∨ l = .server) ∧
      l ∈ [.server, .started true, .serverNotify none, .cleared true, .main, .accept] := by
    simpa only [isOrderly, decide_eq_true_eq] using hl
  refine ⟨fun hs => ?_, ⟨?_, ?_⟩, ?_⟩
  · rcases hsleep with hne | rfl
    · exact absurd hs hne
    · simp
  all_goals
    rintro rfl
    simp at hmem

/-- A signal, and all threads end. -/
theorem finishes_orderly : ∃ s,
    program.Reachable (fun s l => Heard s l ∧ Starts s l ∧ Clears s l) s ∧ Finished s ∧
      s.accept = .ended ∧ s.handlers = 0 := by
  obtain ⟨s, hs, hp⟩ := Reachable.exists_of_runIf (M := program) (.init (s := start) rfl) isOrderly
    (fun _ _ _ hl => heard_of_isOrderly hl) orderly
    (fun s => s.main = .ended ∧ s.server = .ended ∧ s.accept = .ended ∧ s.handlers = 0)
    (by decide)
  obtain ⟨hmain, hserver, haccept, hhandlers⟩ : s.main = .ended ∧ s.server = .ended ∧
      s.accept = .ended ∧ s.handlers = 0 := by simpa using hp
  have hstill : Standstill s := (standstill_iff (inv_of_reachable hs.any)).2
    ⟨hhandlers, .inl haccept, .inl ⟨hserver, hmain⟩⟩
  exact ⟨s, hs, finishes hs hstill⟩

end Program

end Server
end WeakAyas
