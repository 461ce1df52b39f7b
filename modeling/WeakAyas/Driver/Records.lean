/-
# What the driver answers

The row types of `sql_driver.hpp` (`Units`, `UnitStat`, `ExamInfo`) and the one
exception of the connector, `sql::SQLException`.

The success rates are `double`s; each is kept as the rational that it stands for.
-/

import WeakAyas.Wire.Package
import Mathlib.Data.Rat.Floor

namespace WeakAyas
namespace Driver

/-- `sql::SQLException`; its text is only written to the log. -/
structure SqlException where
  deriving DecidableEq, Repr

/-- `sql_driver::Units`. -/
structure Units where
  unit : Bytes
  problemsSolved : ℤ
  totalSubmit : ℤ
  solved20min : ℤ
  solved30min : ℤ
  solvedOver30min : ℤ
  rate20min : ℚ
  rate30min : ℚ
  rateOver30min : ℚ
  deriving DecidableEq

/-- `sql_driver::UnitStat`. -/
structure UnitStat where
  examNo : ℤ
  examName : Bytes
  totalExam : ℤ
  solved20min : ℤ
  solved30min : ℤ
  solvedOver30min : ℤ
  lastDate : Bytes
  lastDateTime : Bytes
  lastDateState : Bytes
  deriving DecidableEq

/-- `sql_driver::ExamInfo`. -/
structure ExamInfo where
  userId : ℤ
  problemId : ℤ
  state : Bool
  sSolvedtime : Bytes
  iSolvedtime : ℤ
  date : Bytes
  deriving DecidableEq

/-- `std::unordered_map<long long, ExamInfo>`, in its order of iteration. -/
abbrev Submissions := List (ℤ × ExamInfo)

/-- `checkUserId`: the one operation that opens no connection. -/
def checkUserId (users_id : ℤ) : Bool := users_id != -1

end Driver
end WeakAyas
