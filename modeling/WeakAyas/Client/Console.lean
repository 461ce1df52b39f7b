/-
# The console

`ConsoleClient::get_valid_input` and `ConsoleClient::run` (`ConsoleClient.cpp`,
lines 36-263), and the validators of `ConsoleClient.hpp`.

The twelve commands that send a request have one shape: some prompts, each
repeated until its line is valid, and a package of the answers with `#` before
each.  They differ in their prompts and in the type of the package:

| command | prompts |
| --- | --- |
| `login`, `register`, `delete_user` | a name |
| `insert_problem` | a number, a title, a difficulty |
| `delete_problem`, `get_submission`, `delete_submission` | a number |
| `insert_type`, `delete_type` | a number, a type |
| `query_units_data` | |
| `query_unit_detail` | a type |
| `insert_submission` | a number, `0` or `1`, a time |

Names, titles and types have no validator: every line but an empty one and
`@back` is taken.  The console is modelled while the server is up.
-/

import WeakAyas.Wire.Decimal

namespace WeakAyas
namespace Client

/-! ### Lines -/

/-- `" \t\r\n"`. -/
def isBlank (b : UInt8) : Bool := b == 32 || b == 9 || b == 13 || b == 10

/-- `ConsoleClient::check_global_command`. -/
def checkGlobalCommand (input : Bytes) : Bool :=
  ((input.dropWhile isBlank).reverse.dropWhile isBlank).reverse == text "@back"

/-- `ConsoleClient::is_positive_integer`. -/
def isPositiveInteger (s : Bytes) : Bool :=
  !s.isEmpty && s.all isDigit && (stoll s).any (0 < ·)

/-- `ConsoleClient::validate_difficulty`. -/
def validateDifficulty (diff : Bytes) : Bool :=
  diff == text "Easy" || diff == text "Med." || diff == text "Hard"

/-- `ConsoleClient::validate_solve_status`. -/
def validateSolveStatus (status : Bytes) : Bool := status == text "0" || status == text "1"

/-- `ConsoleClient::validate_time_spent`. -/
def validateTimeSpent (time_str : Bytes) : Bool :=
  match time_str with
  | [h₁, h₂, c₁, m₁, m₂, c₂, s₁, s₂] =>
    c₁ == 58 && c₂ == 58 && [h₁, h₂, m₁, m₂, s₁, s₂].all isDigit &&
      (stoi [h₁, h₂]).any (fun hh => 0 ≤ hh ∧ hh ≤ 23) &&
      (stoi [m₁, m₂]).any (fun mm => 0 ≤ mm ∧ mm ≤ 59) &&
      (stoi [s₁, s₂]).any (fun ss => 0 ≤ ss ∧ ss ≤ 59)
  | _ => false

/-- The checks of a prompt. -/
structure Prompt where
  validator : Option (Bytes → Bool)
  checkPositiveInt : Bool

/-- A line that passes the checks. -/
def Prompt.valid (p : Prompt) (out : Bytes) : Bool :=
  (!p.checkPositiveInt || isPositiveInteger out) && p.validator.all (· out)

/-- `ConsoleClient::InputResult`, with what was read. -/
inductive InputResult (α : Type) where
  | success (out : α)
  | back
  | exit

/-- `ConsoleClient::get_valid_input` on the lines of the standard input, and the
lines it leaves. -/
def getValidInput (p : Prompt) : List Bytes → InputResult Bytes × List Bytes
  | [] => (.exit, [])
  | out :: lines =>
    if out.isEmpty || checkGlobalCommand out then (.back, lines)
    else if p.valid out then (.success out, lines)
    else getValidInput p lines

/-- The prompts of a command, one after the other. -/
def ask : List Prompt → List Bytes → InputResult (List Bytes) × List Bytes
  | [], lines => (.success [], lines)
  | p :: prompts, lines => match getValidInput p lines with
    | (.success out, lines) => match ask prompts lines with
      | (.success outs, lines) => (.success (out :: outs), lines)
      | (.back, lines) => (.back, lines)
      | (.exit, lines) => (.exit, lines)
    | (.back, lines) => (.back, lines)
    | (.exit, lines) => (.exit, lines)

/-! ### Commands -/

/-- The commands that send a request. -/
inductive Command where
  | login | register | deleteUser | insertProblem | deleteProblem | insertType | deleteType
  | queryUnitsData | queryUnitDetail | getSubmission | insertSubmission | deleteSubmission
  deriving DecidableEq, Repr

namespace Command

/-- The commands in the order of the source. -/
def all : List Command :=
  [login, register, deleteUser, insertProblem, deleteProblem, insertType, deleteType,
    queryUnitsData, queryUnitDetail, getSubmission, insertSubmission, deleteSubmission]

/-- What is typed for the command. -/
def name : Command → Bytes
  | login => text "login"
  | register => text "register"
  | deleteUser => text "delete_user"
  | insertProblem => text "insert_problem"
  | deleteProblem => text "delete_problem"
  | insertType => text "insert_type"
  | deleteType => text "delete_type"
  | queryUnitsData => text "query_units_data"
  | queryUnitDetail => text "query_unit_detail"
  | getSubmission => text "get_submission"
  | insertSubmission => text "insert_submission"
  | deleteSubmission => text "delete_submission"

/-- `nullptr`: any line. -/
def freeText : Prompt := ⟨none, false⟩

/-- `nullptr, true`: a number. -/
def number : Prompt := ⟨none, true⟩

def prompts : Command → List Prompt
  | login | register | deleteUser => [freeText]
  | insertProblem => [number, freeText, ⟨some validateDifficulty, false⟩]
  | deleteProblem => [number]
  | insertType | deleteType => [number, freeText]
  | queryUnitsData => []
  | queryUnitDetail => [freeText]
  | getSubmission => [number]
  | insertSubmission =>
    [number, ⟨some validateSolveStatus, false⟩, ⟨some validateTimeSpent, false⟩]
  | deleteSubmission => [number]

/-- The type of the package. -/
def type : Command → SqlProtocol
  | login => .login
  | register => .registerUser
  | deleteUser => .deleteUser
  | insertProblem => .insertProblem
  | deleteProblem => .deleteProblem
  | insertType => .insertProblemType
  | deleteType => .deleteProblemType
  | queryUnitsData => .selectUnitsData
  | queryUnitDetail => .selectUnitDetail
  | getSubmission => .getProblemSubmissions
  | insertSubmission => .insertSubmitted
  | deleteSubmission => .deleteSubmitted

end Command

/-- `"#" + id + "#" + title + "#" + difficulty`. -/
def payload (answers : List Bytes) : Bytes := answers.flatMap fun a => 35 :: a

/-! ### What the prompts leave -/

/-- A prompt only reads lines. -/
theorem length_getValidInput_le (p : Prompt) (lines : List Bytes) :
    (getValidInput p lines).2.length ≤ lines.length := by
  induction lines with
  | nil => rfl
  | cons out lines ih =>
    rw [getValidInput, List.length_cons]
    split_ifs
    · exact Nat.le_succ _
    · exact Nat.le_succ _
    · omega

/-- So do the prompts of a command. -/
theorem length_ask_le (prompts : List Prompt) (lines : List Bytes) :
    (ask prompts lines).2.length ≤ lines.length := by
  induction prompts generalizing lines with
  | nil => rfl
  | cons p prompts ih =>
    have hp := length_getValidInput_le p lines
    rw [ask]
    rcases hv : getValidInput p lines with ⟨out | _ | _, rest⟩
    · have hrest := ih rest
      rw [hv] at hp
      simp only
      rcases ha : ask prompts rest with ⟨outs | _ | _, rest'⟩ <;> rw [ha] at hrest <;>
        exact hrest.trans hp
    · rwa [hv] at hp
    · rwa [hv] at hp

/-- `ConsoleClient::run` on the lines of the standard input: the messages given
to `send_msg`. -/
def run : List Bytes → List Bytes
  | [] => []
  | cmd :: lines =>
    if cmd.isEmpty then run lines
    else if cmd == text "exit" then []
    else if cmd == text "help" then run lines
    else match Command.all.find? (·.name == cmd) with
      | none => run lines
      | some c => match (ask c.prompts lines).1 with
        | .success answers =>
          buildPackage c.type.toByte (payload answers) :: run (ask c.prompts lines).2
        | .back => run (ask c.prompts lines).2
        | .exit => []
termination_by lines => lines.length
decreasing_by
  all_goals first
    | exact Nat.lt_succ_self _
    | exact Nat.lt_succ_of_le (length_ask_le c.prompts lines)

end Client
end WeakAyas
