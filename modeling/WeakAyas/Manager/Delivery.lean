/-
# How many rows a reply carries

`SQLManager::handle_unitsdata`, `handle_unitdetail` and
`handle_problem_submissions` with their tables (`SQLManager.cpp`, lines 205-275 and
359-465).

A table takes one line for each row of the query, and a line never less than the
widths of its columns (`length_tableLine`), while `build_package` refuses a text of
more than `MAX_BUFFERSIZE - 7` bytes.  A reply carries its rows exactly when their
lines and what stands around them fit (`delivered_iff_fits`); 24 submissions of one
problem are too many (`not_delivered`).
-/

import WeakAyas.Manager.Backend
import WeakAyas.Manager.Replies
import WeakAyas.Database.Reference

namespace WeakAyas
namespace Manager

open Driver

/-! ### The length of a table -/

/-- The bytes of a line: a cell takes its column's width or its own length. -/
def lineWidth (cells : List (ℕ × Bytes)) : ℕ := (cells.map fun c => max c.1 c.2.length).sum + 1

/-- A line ends in one byte. -/
@[simp] theorem length_newline : (text "\n").length = 1 := length_text_ofList _

/-- A line is as long as its cells. -/
theorem length_tableLine (cells : List (ℕ × Bytes)) :
    (tableLine cells).length = lineWidth cells := by
  have hcells : (cells.flatMap fun c => setw c.1 c.2).length =
      (cells.map fun c => max c.1 c.2.length).sum := by
    simp only [List.length_flatMap, length_setw]
  rw [tableLine, List.length_append, hcells, length_newline, lineWidth]

/-- The lines of a table add up. -/
theorem length_lines (rows : List (List (ℕ × Bytes))) :
    (rows.flatMap tableLine).length = (rows.map lineWidth).sum := by
  simp only [List.length_flatMap, length_tableLine]

/-- Rows of `width` bytes at least fill the lines. -/
theorem mul_length_le_lines {rows : List (List (ℕ × Bytes))} {width : ℕ}
    (h : ∀ cells ∈ rows, width < lineWidth cells) :
    (width + 1) * rows.length ≤ (rows.map lineWidth).sum := by
  induction rows with
  | nil => simp
  | cons cells rows ih =>
    have hcells := h cells List.mem_cons_self
    have ih := ih fun cells hmem => h cells (List.mem_cons_of_mem _ hmem)
    rw [List.length_cons, List.map_cons, List.sum_cons, Nat.mul_succ]
    omega

/-- A line is longer than its columns. -/
theorem sum_lt_lineWidth (cells : List (ℕ × Bytes)) :
    (cells.map Prod.fst).sum < lineWidth cells := by
  rw [← length_tableLine]
  exact sum_le_length_tableLine cells

/-! ### The rows of the three tables -/

/-- The line of a unit. -/
def unitsCells (u : Units) : List (ℕ × Bytes) :=
  [(15, u.unit), (10, toText u.problemsSolved), (15, toText u.totalSubmit),
    (15, solvedWithRate u.solved20min u.rate20min), (15, solvedWithRate u.solved30min u.rate30min),
    (15, solvedWithRate u.solvedOver30min u.rateOver30min)]

/-- The line of a problem. -/
def unitStatCells (us : UnitStat) : List (ℕ × Bytes) :=
  [(8, toText us.examNo), (40, us.examName), (8, toText us.totalExam), (8, toText us.solved20min),
    (8, toText us.solved30min), (8, toText us.solvedOver30min), (15, us.lastDate),
    (12, us.lastDateTime), (10, us.lastDateState)]

/-- The line of a submission. -/
def submitCells (x : ℤ × ExamInfo) : List (ℕ × Bytes) :=
  [(10, toText x.1), (10, toText x.2.userId), (12, toText x.2.problemId),
    (10, if x.2.state then text "Solved" else text "Unsolved"), (12, x.2.sSolvedtime),
    (10, toText x.2.iSolvedtime), (12, x.2.date)]

/-- The table of the units is its head and a line for each unit. -/
theorem getUnitsTable_eq (units : List Units) : ∃ head : Bytes, head.length = 169 ∧
    getUnitsTable units = head ++ (units.map unitsCells).flatMap tableLine :=
  ⟨_, by decide +kernel, rfl⟩

/-- The table of a unit is its head and a line for each problem. -/
theorem getUnitStatsTable_eq (stats : List UnitStat) : ∃ head : Bytes, head.length = 232 ∧
    getUnitStatsTable stats = head ++ (stats.map unitStatCells).flatMap tableLine :=
  ⟨_, by decide +kernel, rfl⟩

/-- The table of a problem is its head and a line for each submission. -/
theorem getProblemSubmitTable_eq (subs : Submissions) : ∃ head : Bytes, head.length = 154 ∧
    getProblemSubmitTable subs = head ++ (subs.map submitCells).flatMap tableLine :=
  ⟨_, by decide +kernel, rfl⟩

/-! ### Delivery -/

/-- One frame is sent, on `fd`, and its text ends with a line for each row. -/
def Outcome.Delivers (o : Outcome) (fd : Fd) (rows : List (List (ℕ × Bytes))) : Prop :=
  ∃ bytes pkg head, o.sent = [(fd, bytes)] ∧ parseSockpackage bytes = .ok (some pkg) ∧
    pkg.payload = head ++ rows.flatMap tableLine

section Delivery

variable {mgr : SQLManager} {fd : Fd} {rows : List (List (ℕ × Bytes))}

/-- A text that ends with the rows delivers them when it is sent at all. -/
theorem delivers_sendData (head : Bytes) {type : UInt8} {payload : Bytes}
    (hpayload : payload = head ++ rows.flatMap tableLine) :
    (sendData mgr fd type payload).Delivers fd rows ↔
      head.length + (rows.map lineWidth).sum ≤ maxBuffersize - 7 := by
  have hlen : payload.length = head.length + (rows.map lineWidth).sum := by
    rw [hpayload, List.length_append, length_lines]
  rw [Outcome.Delivers, sent_sendData, ← hlen]
  constructor
  · rintro ⟨_, _, _, hsent, -⟩
    by_contra hle
    simp [if_neg hle] at hsent
  · intro hle
    have hmax : payload.length ≤ maxBuffersize := hle.trans (Nat.sub_le _ _)
    have hparse := parseSockpackage_frame (s := []) (t := type) (g := []) (by simp) hmax
    rw [List.nil_append, List.append_nil] at hparse
    refine ⟨_, _, head, if_pos hle, hparse, ?_⟩
    rw [SocketPackage.payload_filled, hpayload]

/-- A driver that answers leaves the delivery to the rest of the handler. -/
theorem delivers_call {α : Type} {a : Action} (ha : a.sent = none)
    {answer : Except SqlException α} {r : α} (hanswer : answer = .ok r) {k : α → Outcome} :
    (call mgr a answer k).Delivers fd rows ↔ (k r).Delivers fd rows := by
  rw [Outcome.Delivers, Outcome.Delivers, sent_call ha, hanswer]

end Delivery

variable {db : SqlDriver} {mgr : SQLManager} {fd : Fd} {pkg : SocketPackage} {user_id : ℤ}

/-- What fits beside the text of the reply. -/
theorem delivers_handleUnitsdata (hlogin : mgr.userFdToId fd = some user_id) {units : List Units}
    (hdb : db.selectUnitsData user_id = .ok units) :
    (handleUnitsdata db mgr fd pkg).Delivers fd (units.map unitsCells) ↔
      213 + (toText user_id).length + ((units.map unitsCells).map lineWidth).sum ≤
        maxBuffersize - 7 := by
  obtain ⟨head, hhead, htable⟩ := getUnitsTable_eq units
  rw [handleUnitsdata, checkLogin, hlogin]
  refine (delivers_call (by rfl) hdb).trans ?_
  rw [delivers_sendData (text "[UnitsData] Send units stats for user_id = " ++
    toText user_id ++ text "\n" ++ head) (by rw [htable]; simp only [List.append_assoc])]
  have htext : (text "[UnitsData] Send units stats for user_id = ").length = 43 :=
    length_text_ofList _
  simp [htext, hhead]
  omega

/-- The same, with the name of the unit in the reply. -/
theorem delivers_handleUnitdetail (hlogin : mgr.userFdToId fd = some user_id) {unit : Bytes}
    {rest : List Bytes} (hfields : getdata pkg = unit :: rest) {stats : List UnitStat}
    (hdb : db.selectUnitdetail user_id unit = .ok stats) :
    (handleUnitdetail db mgr fd pkg).Delivers fd (stats.map unitStatCells) ↔
      268 + unit.length + (toText user_id).length +
        ((stats.map unitStatCells).map lineWidth).sum ≤ maxBuffersize - 7 := by
  obtain ⟨head, hhead, htable⟩ := getUnitStatsTable_eq stats
  rw [handleUnitdetail, checkLogin, hlogin, hfields]
  refine (delivers_call (by rfl) hdb).trans ?_
  rw [delivers_sendData (text "[UnitDetail] Unit = " ++ unit ++ text " for user_id = " ++
    toText user_id ++ text "\n" ++ head) (by rw [htable]; simp only [List.append_assoc])]
  have htext : (text "[UnitDetail] Unit = ").length = 20 := length_text_ofList _
  simp [htext, hhead]
  omega

/-- The same, with the number of the problem as it was sent. -/
theorem delivers_handleProblemSubmissions (hlogin : mgr.userFdToId fd = some user_id) {id : Bytes}
    {rest : List Bytes} (hfields : getdata pkg = id :: rest) {n : ℤ} (hid : stoi id = some n)
    {subs : Submissions} (hdb : db.getSubmissions user_id n = .ok subs) :
    (handleProblemSubmissions db mgr fd pkg).Delivers fd (subs.map submitCells) ↔
      197 + id.length + (toText user_id).length + ((subs.map submitCells).map lineWidth).sum ≤
        maxBuffersize - 7 := by
  obtain ⟨head, hhead, htable⟩ := getProblemSubmitTable_eq subs
  rw [handleProblemSubmissions, checkLogin, hlogin, hfields]
  simp only [withNumber, hid]
  refine (delivers_call (by rfl) hdb).trans ?_
  rw [delivers_sendData (text "[GetSubmissions] problem = " ++ id ++
    text " for user_id = " ++ toText user_id ++ text "\n" ++ head)
    (by rw [htable]; simp only [List.append_assoc])]
  have htext : (text "[GetSubmissions] problem = ").length = 27 := length_text_ofList _
  simp [htext, hhead]
  omega

/-- **The rows of a query are delivered exactly when their lines fit.**  For every
descriptor with a session and every answer of the database: the heading of the
reply, the header of the table and its rule take a fixed number of bytes beside
what they repeat, and the rest is the lines. -/
theorem delivered_iff_fits (db : SqlDriver) (fd : Fd) (pkg : SocketPackage)
    (hlogin : mgr.userFdToId fd = some user_id) :
    (SqlProtocol.ofByte pkg.cType = some .selectUnitsData →
      ∀ units, db.selectUnitsData user_id = .ok units →
        ((handleRequest db mgr fd pkg).Delivers fd (units.map unitsCells) ↔
          213 + (toText user_id).length + ((units.map unitsCells).map lineWidth).sum ≤
            maxBuffersize - 7)) ∧
    (SqlProtocol.ofByte pkg.cType = some .selectUnitDetail →
      ∀ unit rest stats, getdata pkg = unit :: rest →
        db.selectUnitdetail user_id unit = .ok stats →
          ((handleRequest db mgr fd pkg).Delivers fd (stats.map unitStatCells) ↔
            268 + unit.length + (toText user_id).length +
              ((stats.map unitStatCells).map lineWidth).sum ≤ maxBuffersize - 7)) ∧
    (SqlProtocol.ofByte pkg.cType = some .getProblemSubmissions →
      ∀ id rest n subs, getdata pkg = id :: rest → stoi id = some n →
        db.getSubmissions user_id n = .ok subs →
          ((handleRequest db mgr fd pkg).Delivers fd (subs.map submitCells) ↔
            197 + id.length + (toText user_id).length + ((subs.map submitCells).map lineWidth).sum ≤
              maxBuffersize - 7)) := by
  unfold handleRequest
  refine ⟨fun ht units hdb => ?_, fun ht unit rest stats hfields hdb => ?_,
    fun ht id rest n subs hfields hid hdb => ?_⟩
  · rw [ht]
    exact delivers_handleUnitsdata hlogin hdb
  · rw [ht]
    exact delivers_handleUnitdetail hlogin hfields hdb
  · rw [ht]
    exact delivers_handleProblemSubmissions hlogin hfields hid hdb

/-! ### A user with 24 submissions -/

/-- The tables with 24 submissions of Alice for problem 198. -/
def crowded : Database.Tables :=
  { Database.sample with
    submissions := (List.range 24).map fun i =>
      ⟨i + 1, some 198, some 1, some 1, some (text "00:25:00"), some 25,
        some (text "2024-01-03")⟩ }

/-- The driver on these tables. -/
def crowdedDriver : SqlDriver :=
  driverOn (Database.reference id some (text "2024-01-05")) (fun _ => false) crowded

/-- The request for the submissions of problem 198. -/
def crowdedRequest : SocketPackage := fieldPackage .getProblemSubmissions (text "198") (by decide)

/-- The driver returns all of them. -/
theorem crowded_getSubmissions :
    ∃ subs : Submissions, crowdedDriver.getSubmissions 1 198 = .ok subs ∧ subs.length = 24 := by
  have hids : (crowded.submissions.map Database.Submission.id).Nodup := by decide +kernel
  have hlen : (Database.getSubmissions 1 198 crowded).length = 24 := by decide +kernel
  obtain ⟨subs, hsubs, hperm⟩ :=
    (Database.standard_reference id some (text "2024-01-05")).perform_getSubmissions hids 1 198
  exact ⟨subs, (driverOn_getSubmissions _ _ _ _ _).trans hsubs, hperm.length_eq.trans hlen⟩

/-- It asks for problem 198. -/
theorem getdata_crowdedRequest : getdata crowdedRequest = [text "198"] := by decide

/-- The request on these tables. -/
theorem delivered_iff_fits_alice :
    ∃ subs : Submissions, crowdedDriver.getSubmissions 1 198 = .ok subs ∧
      ((handleRequest crowdedDriver aliceSession 5 crowdedRequest).Delivers 5
          (subs.map submitCells) ↔
        197 + (text "198").length + (toText 1).length + ((subs.map submitCells).map lineWidth).sum ≤
          maxBuffersize - 7) := by
  obtain ⟨subs, hsubs, -⟩ := crowded_getSubmissions
  exact ⟨subs, hsubs, (delivered_iff_fits crowdedDriver 5 crowdedRequest aliceSession_login).2.2 rfl
    (text "198") [] 198 subs getdata_crowdedRequest (by decide) hsubs⟩

/-- **Her 24 submissions are not delivered**: their lines alone take 1848 bytes. -/
theorem not_delivered :
    ∃ subs : Submissions, crowdedDriver.getSubmissions 1 198 = .ok subs ∧
      ¬ (handleRequest crowdedDriver aliceSession 5 crowdedRequest).Delivers 5
        (subs.map submitCells) := by
  obtain ⟨subs, hsubs, hlen⟩ := crowded_getSubmissions
  refine ⟨subs, hsubs, fun h => ?_⟩
  have hfits := (delivers_handleProblemSubmissions aliceSession_login getdata_crowdedRequest
    (n := 198) (by decide) hsubs).1 h
  have hlines : (76 + 1) * (subs.map submitCells).length ≤ _ :=
    mul_length_le_lines fun cells hcells => by
      obtain ⟨x, -, rfl⟩ := List.mem_map.1 hcells
      exact sum_lt_lineWidth (submitCells x)
  have hid : (text "198").length + (toText 1).length = 4 := by decide
  rw [List.length_map, hlen] at hlines
  rw [maxBuffersize] at hfits
  omega

end Manager
end WeakAyas
