/-
# The minutes of a submission

`SQLManager::handle_insert_submission` (`SQLManager.cpp`, lines 278-318) over
`SQL_Driver::InsertSubmitted` (`sql_driver.cpp`, lines 426-485).

The console asks `validate_time_spent` before it sends a time; the server asks
nobody.  It takes any three fields with a number in front and binds what
`getMinuteFromTime` makes of the third, `-1` where it makes nothing of it.  So the
minutes that an executed `INSERT` binds are those of a time exactly when the field
is the text of one (`minutes_meaningful_iff`).
-/

import WeakAyas.Manager.Backend
import WeakAyas.Manager.Sessions
import WeakAyas.Driver.Minutes
import WeakAyas.Database.Reference

namespace WeakAyas
namespace Manager

open Driver

/-- The value is the minutes of the time that the text denotes, and an `int`. -/
def MinutesOf (t : Bytes) (v : ℤ) : Prop :=
  ∃ h m s : ℕ, DenotesTime t h m s ∧ v = 60 * h + m ∧ v < 2 ^ 31

variable {Db : Type} (dbms : Dbms Db)

/-- Whatever a request makes the driver insert has the minutes of the time field. -/
def MinutesMeaningful (f : ℕ → Bool) (db : Db) (o : Outcome) (time : Bytes) : Prop :=
  ∀ m ∈ o.log.filterMap Action.mutation, m.Executes dbms f db →
    ∀ v, (5, Param.int v) ∈ m.stmt.params → MinutesOf time v

variable {f : ℕ → Bool} {db : Db} {mgr : SQLManager} {fd : Fd} {pkg : SocketPackage} {user_id : ℤ}
  {problemIdStr status time : Bytes}

/-- The changes that the request asks for: one, when its number can be read. -/
theorem mutations_handleInsertSubmission (sql : SqlDriver)
    (hlogin : mgr.userFdToId fd = some user_id)
    (hfields : getdata pkg = [problemIdStr, status, time]) :
    (handleInsertSubmission sql mgr fd pkg).log.filterMap Action.mutation =
      (stoi problemIdStr).toList.map fun n =>
        .insertSubmitted user_id n (stringToBool status) time := by
  rw [handleInsertSubmission, checkLogin, hlogin, hfields]
  dsimp only
  rcases stoi problemIdStr with _ | n
  · rfl
  · rcases hanswer : sql.insertSubmitted user_id n (stringToBool status) time with e | ok <;>
      simp [withNumber, call, hanswer, Outcome.after, sendData, Action.mutation]

/-- **The minutes are meaningful exactly when the field is a time or nothing is
inserted.**  For every descriptor with a session, every three fields, every
database and every pattern of failing calls. -/
theorem minutes_meaningful_iff (ht : SqlProtocol.ofByte pkg.cType = some .insertSubmitted)
    (hlogin : mgr.userFdToId fd = some user_id)
    (hfields : getdata pkg = [problemIdStr, status, time]) :
    MinutesMeaningful dbms f db (handleRequest (driverOn dbms f db) mgr fd pkg) time ↔
      (stoi problemIdStr ≠ none → user_id ≠ -1 → dbms.query (lockUser user_id) db ≠ [] →
        (∀ i ≤ 17, f i = false) →
        ∃ h m s : ℕ, DenotesTime time h m s ∧ 60 * h + m < 2 ^ 31) := by
  have hmutations := mutations_handleInsertSubmission (driverOn dbms f db) hlogin hfields
  rw [MinutesMeaningful, handleRequest, ht, hmutations]
  constructor
  · intro h hid huser hrow hquiet
    obtain ⟨n, hn⟩ := Option.ne_none_iff_exists'.1 hid
    have hexec : (Mutation.insertSubmitted user_id n (stringToBool status) time).Executes dbms f
        db := ⟨(goesOn_insertSubmitted dbms).2 ⟨huser, hrow⟩, hquiet⟩
    obtain ⟨h, m, s, hdenotes, hv, hlt⟩ := h _ (by simp [hn]) hexec _
      (mem_params_insertSubmitted.2 rfl)
    exact ⟨h, m, s, hdenotes, by omega⟩
  · intro h m hm hexec v hv
    obtain ⟨n, hn, rfl⟩ := List.mem_map.1 hm
    obtain ⟨huser, hrow⟩ := (goesOn_insertSubmitted dbms).1 hexec.1
    obtain ⟨h, m, s, hdenotes, hlt⟩ := h (by rintro hnone; simp [hnone] at hn) huser hrow hexec.2
    have hminutes := getMinuteFromTime_of_denotes hdenotes hlt
    rw [mem_params_insertSubmitted] at hv
    exact ⟨h, m, s, hdenotes, by omega, by omega⟩

/-! ### A text that is no time -/

/-- The database of the examples. -/
def sampleDbms : Dbms Database.Tables := Database.reference id some (text "2024-01-05")

/-- Alice's request after her login, with a text for its time. -/
def submission (time : Bytes) (h : (text "#198#1#" ++ time).length ≤ maxBuffersize) :
    SocketPackage :=
  .filled packageStartByte SqlProtocol.insertSubmitted.toByte (text "#198#1#" ++ time)
    packageEndByte h

/-- What the request makes of the sample. -/
def submitted (time : Bytes) (h : (text "#198#1#" ++ time).length ≤ maxBuffersize) : Outcome :=
  handleRequest (driverOn sampleDbms (fun _ => false) Database.sample) aliceSession 5
    (submission time h)

theorem getdata_submission_five : getdata (submission (text "00:05:00") (by decide)) =
    [text "198", text "1", text "00:05:00"] := by decide

/-- Her five minutes are bound as such. -/
theorem minutes_meaningful_iff_alice :
    MinutesMeaningful sampleDbms (fun _ => false) Database.sample
        (submitted (text "00:05:00") (by decide)) (text "00:05:00") ↔
      (stoi (text "198") ≠ none → (1 : ℤ) ≠ -1 →
        sampleDbms.query (lockUser 1) Database.sample ≠ [] →
        (∀ i ≤ 17, (fun _ : ℕ => false) i = false) →
        ∃ h m s : ℕ, DenotesTime (text "00:05:00") h m s ∧ 60 * h + m < 2 ^ 31) :=
  minutes_meaningful_iff sampleDbms rfl aliceSession_login getdata_submission_five

/-- The text `x` denotes no time. -/
theorem not_denotesTime_x (h m s : ℕ) : ¬ DenotesTime (text "x") h m s := by
  rintro ⟨hh, mm, ss, -, -, -, htext, -⟩
  have hlen := congrArg List.length htext
  simp only [List.length_append, List.length_cons] at hlen
  have hx : (text "x").length = 1 := by decide
  omega

/-- **The text `x` is inserted**, and stored with `-1` minutes. -/
theorem not_minutes_meaningful :
    ¬ MinutesMeaningful sampleDbms (fun _ => false) Database.sample
      (submitted (text "x") (by decide)) (text "x") ∧
    (databaseAfter sampleDbms (fun _ => false) (submitted (text "x") (by decide)).log
      Database.sample).submissions.map Database.Submission.timeSpentMin =
        [some 45, some 10, some 25, some 15, some (-1)] := by
  have hfields : getdata (submission (text "x") (by decide)) =
      [text "198", text "1", text "x"] := by decide
  have hlog : (submitted (text "x") (by decide)).log.filterMap Action.mutation =
      [.insertSubmitted 1 198 true (text "x")] :=
    (mutations_handleInsertSubmission _ aliceSession_login hfields).trans (by rfl)
  have hrow : sampleDbms.query (lockUser 1) Database.sample ≠ [] := by
    rw [sampleDbms, Database.query_lockUser]
    exact List.cons_ne_nil _ _
  have hgo : (Mutation.insertSubmitted 1 198 true (text "x")).goesOn sampleDbms
      Database.sample = true := (goesOn_insertSubmitted sampleDbms).2 ⟨by decide, hrow⟩
  constructor
  · intro h
    obtain ⟨h, m, s, hdenotes, -⟩ := h (.insertSubmitted 1 198 true (text "x")) (by simp [hlog])
      ⟨hgo, fun _ _ => rfl⟩ _ (mem_params_insertSubmitted.2 rfl)
    exact not_denotesTime_x h m s hdenotes
  · have hminutes : getMinuteFromTime (text "x") = -1 := by decide
    rw [databaseAfter, hlog, List.foldl_cons, List.foldl_nil, database_of_quiet sampleDbms hgo,
      sampleDbms, Database.apply_insertSubmitted, hminutes]
    rfl

end Manager
end WeakAyas
