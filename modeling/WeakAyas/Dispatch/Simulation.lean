/-
# The threads follow the protocol

Every step of a thread is a move of the protocol, the acceptance or closing of a
descriptor, or nothing to the protocol (`follows`).  So everything that the
protocol guarantees holds of the threads, in every reachable state
(`exists_refines`).
-/

import WeakAyas.Dispatch.PoolSteps
import WeakAyas.Dispatch.LoopSteps
import WeakAyas.Dispatch.ActiveSteps

namespace WeakAyas
namespace Dispatch

open TransitionSystem

variable {s s' : State} {P : Protocol} {t : Tid} {ch : Choice}

/-- **Every step of the threads is a step of the protocol, or nothing to it.** -/
theorem follows {n : ℕ} (h : Refines s.obs P) (hinv : P.Inv) (hn : s.next n t ch = some s') :
    Follows P s'.obs (Permits s t ch) := by
  unfold State.next at hn
  split_ifs at hn
  cases t with
  | acceptor => exact acceptNext_follows h hinv hn
  | loop => exact loopNext_follows h hinv hn
  | pool i =>
    simp only at hn
    split_ifs at hn
    exact poolNext_follows h hinv hn
  | active i =>
    obtain ⟨p, hi, hn⟩ := Option.bind_eq_some_iff.1 hn
    exact activeNext_follows h hinv hi hn

/-- **A worker refines the protocol**, with the moves that its steps permit. -/
theorem simulation (n : ℕ) {ok : State → Tid × Choice → Prop} {q : Move → Prop}
    (hok : ∀ s l m, ok s l → Permits s l.1 l.2 m → q m) :
    Simulation (worker n) ok protocol (Only q) fun s P => Refines s.obs P where
  init s hs := ⟨.start, rfl, hs ▸ refines_start⟩
  step s s' l P hP h hl hn := by
    rcases follows h (inv_of_reachable hP) hn with hsame | ⟨a, P', hnext, h', hallowed⟩
    · exact .inl hsame
    · exact .inr ⟨a, P', fun fd m ha => hok s l m hl (hallowed fd m ha), hnext, h'⟩

/-- Every reachable state of a worker refines one of the protocol. -/
theorem exists_refines {n : ℕ} {ok : State → Tid × Choice → Prop} (hs : (worker n).Reachable ok s) :
    ∃ P, Refines s.obs P ∧ P.Inv := by
  obtain ⟨P, hP, h⟩ := (simulation n (q := fun _ => True) fun _ _ _ _ _ => trivial).reachable hs
  exact ⟨P, h, inv_of_reachable hP⟩

end Dispatch
end WeakAyas
