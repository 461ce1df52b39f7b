/-
# The tables of a reply

`SQLManager::get_units_table`, `get_unit_stats_table` and
`get_problem_submit_table` (`SQLManager.cpp`, lines 359-465).

Every cell is written with `std::left` and `std::setw`, so a line is never
shorter than the widths of its columns and a long cell pushes the rest out.
-/

import WeakAyas.Driver.Operations
import WeakAyas.Library.Rounding
import WeakAyas.Manager.Fields
import WeakAyas.Wire.Decimal

namespace WeakAyas
namespace Manager

open Driver

/-- `std::left << std::setw(width) << s`. -/
def setw (width : ℕ) (s : Bytes) : Bytes := s ++ List.replicate (width - s.length) 32

/-- `std::fixed << std::setprecision(2) << q`: the value to the nearest hundredth, ties to
even. -/
def fixed2 (q : ℚ) : Bytes :=
  let n := (Rounding.roundHalfEven (100 * |q|)).toNat
  (if q < 0 then [45] else []) ++ toText (n / 100 : ℕ) ++ text "." ++
    toText (n / 10 % 10 : ℕ) ++ toText (n % 10 : ℕ)

/-- A row of cells and its line end. -/
def tableLine (cells : List (ℕ × Bytes)) : Bytes :=
  (cells.flatMap fun c => setw c.1 c.2) ++ text "\n"

/-- A header, a rule of dashes, and the rows. -/
def table (header : List (ℕ × Bytes)) (dashes : ℕ) (rows : List (List (ℕ × Bytes))) : Bytes :=
  tableLine header ++ List.replicate dashes 45 ++ text "\n" ++ rows.flatMap tableLine

/-- `solved << "(" << std::fixed << std::setprecision(2) << rate << "%)"`. -/
def solvedWithRate (solved : ℤ) (rate : ℚ) : Bytes :=
  toText solved ++ text "(" ++ fixed2 rate ++ text "%)"

/-- `SQLManager::get_units_table`. -/
def getUnitsTable (units : List Units) : Bytes :=
  table
    [(15, text "Unit"), (10, text "Solved"), (15, text "Total Submit"), (15, text "20min(%)"),
      (15, text "30min(%)"), (15, text ">30min(%)")]
    82
    (units.map fun u =>
      [(15, u.unit), (10, toText u.problemsSolved), (15, toText u.totalSubmit),
        (15, solvedWithRate u.solved20min u.rate20min),
        (15, solvedWithRate u.solved30min u.rate30min),
        (15, solvedWithRate u.solvedOver30min u.rateOver30min)])

/-- `SQLManager::get_unit_stats_table`. -/
def getUnitStatsTable (unitStats : List UnitStat) : Bytes :=
  table
    [(8, text "Exam_No"), (40, text "Name"), (8, text "Total"), (8, text "20min"),
      (8, text "30min"), (8, text ">30min"), (15, text "Last Date"), (12, text "Last Time"),
      (10, text "State")]
    113
    (unitStats.map fun us =>
      [(8, toText us.examNo), (40, us.examName), (8, toText us.totalExam),
        (8, toText us.solved20min), (8, toText us.solved30min), (8, toText us.solvedOver30min),
        (15, us.lastDate), (12, us.lastDateTime), (10, us.lastDateState)])

/-- `SQLManager::get_problem_submit_table`. -/
def getProblemSubmitTable (userExamSubmits : Submissions) : Bytes :=
  table
    [(10, text "SubmitID"), (10, text "UserID"), (12, text "ProblemID"), (10, text "Status"),
      (12, text "Time(s)"), (10, text "Time(min)"), (12, text "Date")]
    76
    (userExamSubmits.map fun (submitId, info) =>
      [(10, toText submitId), (10, toText info.userId), (12, toText info.problemId),
        (10, if info.state then text "Solved" else text "Unsolved"), (12, info.sSolvedtime),
        (10, toText info.iSolvedtime), (12, info.date)])

/-- A cell takes its column's width or its own length. -/
theorem length_setw (width : ℕ) (s : Bytes) : (setw width s).length = max width s.length := by
  rw [setw, List.length_append, List.length_replicate]
  omega

/-- A line is as long as its columns at least. -/
theorem sum_le_length_tableLine (cells : List (ℕ × Bytes)) :
    (cells.map Prod.fst).sum < (tableLine cells).length := by
  have h : (cells.map Prod.fst).sum ≤ (cells.flatMap fun c => setw c.1 c.2).length := by
    induction cells with
    | nil => simp
    | cons c cells ih =>
      have := length_setw c.1 c.2
      simp only [List.map_cons, List.sum_cons, List.flatMap_cons, List.length_append]
      omega
  have hnl : (text "\n").length = 1 := by decide
  rw [tableLine, List.length_append]
  omega

/-- One row of the units table, with a rate that is 14.375 when computed exactly. -/
example : tableLine [(4, text "ab"), (6, solvedWithRate 23 (Query.rate 23 160))] =
    text "ab  23(14.37%)\n" := by
  decide +kernel

end Manager
end WeakAyas
