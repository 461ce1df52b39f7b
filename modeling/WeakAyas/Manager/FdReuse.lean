/-
# Sessions and descriptor numbers

One `EpollWorker` and its `SQLManager`: `add_fd`, requests on open connections,
and the three places that close one (`EpollWorker.cpp`, lines 184-189, 288-300
and 378-383).

The session map is keyed by the descriptor number, and the kernel hands a closed
number out again.  The active thread erases the session before it closes; the
loop does so only under `#if defined(RELEASE)`, and `CMakeLists.txt` defines
`DEBUG_MODE` alone.  A connection that the loop closes while it is logged in
leaves its session to the next one with its number
(`ownSessions_iff_closed_logged_out`).
-/

import WeakAyas.Library.TransitionSystem
import WeakAyas.Manager.Sessions

namespace WeakAyas
namespace Manager

open TransitionSystem

/-- An open connection, with its own latest successful LOGIN since `add_fd`. -/
structure OpenConnection where
  login : Option (Bytes × ℤ)

/-- An `EpollWorker` as the session map sees it. -/
structure Worker where
  mgr : SQLManager
  conns : Fd → Option OpenConnection

/-- The events of a worker. -/
inductive WorkerStep where
  | addFd (fd : Fd)
  | request (db : SqlDriver) (fd : Fd) (pkg : SocketPackage)
  | handleEventClose (fd : Fd)
  | activeClose (fd : Fd)

/-- `EpollWorker::close_fd`. -/
def Worker.closeFd (w : Worker) (fd : Fd) : Worker :=
  { w with conns := Function.update w.conns fd none }

/-- `mgr_SQL.erase_fd(fd)`. -/
def Worker.eraseFd (w : Worker) (fd : Fd) : Worker := { w with mgr := Manager.eraseFd w.mgr fd }

/-- `CMakeLists.txt` does not define `RELEASE`. -/
def cmakeRelease : Bool := false

/-- A step of the worker, built with `RELEASE` or without. -/
def Worker.next (release : Bool) (w : Worker) : WorkerStep → Option Worker
  | .addFd fd => match w.conns fd with
    | some _ => none  -- an open number is not handed out
    | none => some { w with conns := Function.update w.conns fd (some ⟨none⟩) }
  | .request db fd pkg => match w.conns fd with
    | none => none
    | some conn => some
      { mgr := (handleRequest db w.mgr fd pkg).mgr
        conns := Function.update w.conns fd
          (some ⟨Call.session fd conn.login (.handleRequest db fd pkg)⟩) }
  | .handleEventClose fd => match w.conns fd with
    | none => none
    | some _ => some ((if release then w.eraseFd fd else w).closeFd fd)
  | .activeClose fd => match w.conns fd with
    | none => none
    | some _ => some ((w.eraseFd fd).closeFd fd)

/-- A worker from its constructor on. -/
def worker (release : Bool) : TransitionSystem Worker WorkerStep where
  init w := ∃ special_id, w = ⟨.fresh special_id, fun _ => none⟩
  next := Worker.next release

/-- Whoever passes `check_login` on an open connection does so by that
connection's own LOGIN. -/
def Worker.OwnSessions (w : Worker) : Prop :=
  ∀ fd conn id, w.conns fd = some conn → w.mgr.userFdToId fd = some id →
    ∃ username, conn.login = some (username, id)

/-- Open connections have the session of their own LOGIN, closed ones none. -/
structure Worker.Faithful (w : Worker) : Prop where
  opened : ∀ fd conn, w.conns fd = some conn → w.mgr.userFdToId fd = conn.login.map Prod.snd
  closed : ∀ fd, w.conns fd = none → w.mgr.userFdToId fd = none

theorem Worker.Faithful.ownSessions {w : Worker} (h : w.Faithful) : w.OwnSessions := by
  intro fd conn id hconn hid
  rw [h.opened fd conn hconn] at hid
  obtain ⟨⟨n, id'⟩, hlogin, rfl⟩ := Option.map_eq_some_iff.1 hid
  exact ⟨n, hlogin⟩

/-- The loop closes a connection only when nobody is logged in on it, or erases
the session first. -/
def ClosedLoggedOut (release : Bool) (w : Worker) : WorkerStep → Prop
  | .handleEventClose fd => release = true ∨ w.mgr.userFdToId fd = none
  | _ => True

/-- Closing a number without a session keeps the sessions faithful. -/
theorem Worker.Faithful.closeFd {w : Worker} {fd : Fd} {mgr : SQLManager} (h : w.Faithful)
    (hmgr : mgr.userFdToId = Function.update w.mgr.userFdToId fd none) :
    ({ w with mgr := mgr }.closeFd fd).Faithful := by
  constructor
  · intro fd' conn hconn
    rcases eq_or_ne fd' fd with rfl | hfd
    · simp [Worker.closeFd] at hconn
    · have := h.opened fd' conn (by simpa [Worker.closeFd, hfd] using hconn)
      simpa [Worker.closeFd, hmgr, hfd] using this
  · intro fd' hconn
    rcases eq_or_ne fd' fd with rfl | hfd
    · simp [Worker.closeFd, hmgr]
    · have := h.closed fd' (by simpa [Worker.closeFd, hfd] using hconn)
      simpa [Worker.closeFd, hmgr, hfd] using this

/-- Every step that meets the condition keeps the sessions faithful. -/
theorem Worker.Faithful.next {release : Bool} {w w' : Worker} {l : WorkerStep} (h : w.Faithful)
    (hok : ClosedLoggedOut release w l) (hn : w.next release l = some w') : w'.Faithful := by
  cases l with
  | addFd fd =>
    simp only [Worker.next] at hn
    split at hn
    · cases hn
    · rename_i hclosed
      obtain rfl := Option.some.inj hn
      constructor
      · intro fd' conn hconn
        rcases eq_or_ne fd' fd with rfl | hfd
        · obtain rfl : OpenConnection.mk none = conn := by simpa using hconn
          exact h.closed fd' hclosed
        · exact h.opened fd' conn (by simpa [hfd] using hconn)
      · intro fd' hconn
        rcases eq_or_ne fd' fd with rfl | hfd
        · simp at hconn
        · exact h.closed fd' (by simpa [hfd] using hconn)
  | request db fd pkg =>
    simp only [Worker.next] at hn
    split at hn
    · cases hn
    · rename_i conn₀ hopen
      obtain rfl := Option.some.inj hn
      -- the map changes as the history of each descriptor does
      constructor
      · intro fd' conn hconn
        rcases eq_or_ne fd' fd with rfl | hfd
        · simp only [Function.update_self, Option.some.injEq] at hconn
          subst hconn
          exact userFdToId_apply (h.opened fd' conn₀ hopen) (.handleRequest db fd' pkg)
        · have := userFdToId_apply (h.opened fd' conn (by simpa [hfd] using hconn))
            (.handleRequest db fd pkg)
          rwa [Call.session, if_neg hfd.symm] at this
      · intro fd' hconn
        rcases eq_or_ne fd' fd with rfl | hfd
        · simp at hconn
        · have := userFdToId_apply (s := none) (h.closed fd' (by simpa [hfd] using hconn))
            (.handleRequest db fd pkg)
          rwa [Call.session, if_neg hfd.symm] at this
  | handleEventClose fd =>
    simp only [Worker.next] at hn
    split at hn
    · cases hn
    · obtain rfl := Option.some.inj hn
      by_cases hr : release = true
      · rw [if_pos hr]
        exact h.closeFd (eraseFd_userFdToId w.mgr fd)
      · rw [if_neg hr]
        exact h.closeFd (Function.update_eq_self_iff.2 (hok.resolve_left hr).symm).symm
  | activeClose fd =>
    simp only [Worker.next] at hn
    split at hn
    · cases hn
    · obtain rfl := Option.some.inj hn
      exact h.closeFd (eraseFd_userFdToId w.mgr fd)

theorem faithful_of_reachable {release : Bool} {w : Worker}
    (hw : (worker release).Reachable (ClosedLoggedOut release) w) : w.Faithful := by
  refine hw.invariant ?_ fun w w' l h hok hn => h.next hok hn
  rintro _ ⟨v, rfl⟩
  exact ⟨by simp, fun _ _ => rfl⟩

/-- **Built with `RELEASE`, a connection is only ever served under its own
LOGIN.** -/
theorem ownSessions_of_release {w : Worker} (hw : (worker true).Reachable anyStep w) :
    w.OwnSessions := by
  refine (faithful_of_reachable (hw.mono fun w l _ => ?_)).ownSessions
  cases l <;> first | exact trivial | exact .inl rfl

/-- **Without it, exactly as long as the loop closes no connection that is
logged in.**  In every state of a run that never does, every session is the
connection's own; and whether that survives a close by the loop and the reuse
of the number is decided by whether somebody was logged in on it. -/
theorem ownSessions_iff_closed_logged_out {w : Worker}
    (hw : (worker cmakeRelease).Reachable (ClosedLoggedOut cmakeRelease) w) :
    w.OwnSessions ∧ ∀ fd w' w'', w.next cmakeRelease (.handleEventClose fd) = some w' →
      w'.next cmakeRelease (.addFd fd) = some w'' →
      (w''.OwnSessions ↔ ClosedLoggedOut cmakeRelease w (.handleEventClose fd)) := by
  have hfaith := faithful_of_reachable hw
  refine ⟨hfaith.ownSessions, fun fd w' w'' hclose hadd => ⟨fun hown => ?_, fun hok => ?_⟩⟩
  · simp only [Worker.next] at hclose
    split at hclose
    · cases hclose
    · obtain rfl := Option.some.inj hclose
      simp only [Worker.next, Worker.closeFd, Function.update_self, Option.some.injEq] at hadd
      obtain rfl := hadd
      -- whoever is logged in on the number is logged in on the new connection
      by_contra hlogged
      obtain ⟨id, hid⟩ := Option.ne_none_iff_exists'.1 fun h => hlogged (.inr h)
      obtain ⟨n, hlogin⟩ := hown fd ⟨none⟩ id (by simp) hid
      cases hlogin
  · have hreuse : ClosedLoggedOut cmakeRelease w' (.addFd fd) := trivial
    exact ((hfaith.next hok hclose).next hreuse hadd).ownSessions

/-- Alice logs in on 5 and sends a request, the active thread closes 5, and Bob
logs in on the number; the loop closes 6, on which nobody has logged in, and 6 is
open again. -/
def twoReused : List WorkerStep :=
  [.addFd 5,
    .request (oneUser (text "Alice") 2) 5 (fieldPackage .login (text "Alice") isField_alice),
    .request (oneUser (text "Alice") 2) 5 (fieldPackage .deleteSubmitted (text "7") (by decide)),
    .activeClose 5, .addFd 5,
    .request (oneUser (text "Bob") 3) 5 (fieldPackage .login (text "Bob") isField_bob),
    .addFd 6, .handleEventClose 6, .addFd 6]

/-- The loop closes a connection and its number is opened again. -/
def Worker.reuse (w : Worker) (fd : Fd) : Option Worker :=
  (w.next cmakeRelease (.handleEventClose fd)).bind fun w' => w'.next cmakeRelease (.addFd fd)

/-- The state between the close and the reuse. -/
theorem exists_of_reuse {w : Worker} {fd : Fd} (h : (w.reuse fd).isSome = true) :
    ∃ w' w'', w.next cmakeRelease (.handleEventClose fd) = some w' ∧
      w'.next cmakeRelease (.addFd fd) = some w'' := by
  obtain ⟨w'', hreuse⟩ := Option.isSome_iff_exists.1 h
  obtain ⟨w', hclose, hadd⟩ := Option.bind_eq_some_iff.1 hreuse
  exact ⟨w', w'', hclose, hadd⟩

/-- There the session of 5 is Bob's, by his own LOGIN; the loop may close 6, whose
next connection has no session, and may not close 5, whose next connection has
Bob's. -/
theorem ownSessions_iff_closed_logged_out_reused :
    ∃ w, (worker cmakeRelease).Reachable (ClosedLoggedOut cmakeRelease) w ∧
      w.mgr.userFdToId 5 = some 3 ∧ w.mgr.userFdToId 6 = none ∧ w.OwnSessions ∧
      (∃ w' w'', w.next cmakeRelease (.handleEventClose 6) = some w' ∧
        w'.next cmakeRelease (.addFd 6) = some w'' ∧ w''.OwnSessions) ∧
      ∃ w' w'', w.next cmakeRelease (.handleEventClose 5) = some w' ∧
        w'.next cmakeRelease (.addFd 5) = some w'' ∧ ¬ w''.OwnSessions := by
  have h₀ : (worker cmakeRelease).Reachable (ClosedLoggedOut cmakeRelease)
      ⟨.fresh 0, fun _ => none⟩ := .init ⟨0, rfl⟩
  obtain ⟨w, hw, hp⟩ := h₀.exists_of_runIf
    (fun w l => match l with
      | .handleEventClose fd => (w.mgr.userFdToId fd).isNone
      | _ => true)
    (fun w l _ h => by
      cases l with
      | handleEventClose fd => exact .inr (Option.isNone_iff_eq_none.1 h)
      | _ => trivial)
    twoReused
    (fun w => w.mgr.userFdToId 5 == some 3 && w.mgr.userFdToId 6 == none &&
      (w.reuse 6).isSome && (w.reuse 5).isSome)
    (by decide +kernel)
  simp only [Bool.and_eq_true, beq_iff_eq] at hp
  obtain ⟨⟨⟨hbob, hnone⟩, hsix⟩, hfive⟩ := hp
  have hmain := ownSessions_iff_closed_logged_out hw
  refine ⟨w, hw, hbob, hnone, hmain.1, ?_, ?_⟩
  · obtain ⟨w', w'', hclose, hadd⟩ := exists_of_reuse hsix
    exact ⟨w', w'', hclose, hadd, (hmain.2 6 w' w'' hclose hadd).2 (.inr hnone)⟩
  · obtain ⟨w', w'', hclose, hadd⟩ := exists_of_reuse hfive
    refine ⟨w', w'', hclose, hadd, fun hown => ?_⟩
    rcases (hmain.2 5 w' w'' hclose hadd).1 hown with h | h
    · cases h
    · rw [hbob] at h
      cases h

/-- Alice logs in on descriptor 5 and closes; the next connection on 5 is Alice
without a LOGIN. -/
theorem not_ownSessions_reused :
    ∃ w, (worker cmakeRelease).Reachable anyStep w ∧ ¬ w.OwnSessions := by
  refine ⟨_, Reachable.of_run (.init ⟨0, rfl⟩) [.addFd 5,
    .request (oneUser (text "Alice") 2) 5 (fieldPackage .login (text "Alice") isField_alice),
    .handleEventClose 5, .addFd 5] rfl, fun hown => ?_⟩
  have hid := userFdToId_run 0
    [.handleRequest (oneUser (text "Alice") 2) 5
      (fieldPackage .login (text "Alice") isField_alice)] 5
  rw [(run_login_oneUser isField_alice (by decide) (by decide) 5).1] at hid
  obtain ⟨n, hlogin⟩ := hown 5 ⟨none⟩ 2 rfl hid
  cases hlogin

end Manager
end WeakAyas
