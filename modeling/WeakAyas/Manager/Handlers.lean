/-
# The request handlers

`SQLManager::handle_request`, its twelve handlers, `check_login` and `erase_fd`
(`SQLManager.cpp`, lines 68-355 and 468-618).

A handler reads the session map, asks the driver and answers on the socket.  It
is modelled by its `Outcome`: the manager afterwards, the calls it made in
order, and the exception it let through.  What the driver answers is a
parameter (`SqlDriver`), free in every call.

The handlers are built from the guards they share:

| guard | source |
| --- | --- |
| `checkLogin` | `if (!check_login(fd)) return; int user_id = userFdToId[fd];` |
| `checkSpecial` | `if(user_id != special_id) return;` |
| `withNumber` | `try { std::stoi } catch (...) { SendData; return; }` |
-/

import WeakAyas.Manager.Tables

namespace WeakAyas
namespace Manager

open Driver

/-- A socket descriptor. -/
abbrev Fd := ℤ

/-- The state of `SQLManager`: the sessions, and the id that may run the
privileged requests. -/
structure SQLManager where
  userFdToId : Fd → Option ℤ
  specialId : ℤ

/-- A new `SQLManager`: the defaulted constructor leaves `special_id` as it
finds it. -/
def SQLManager.fresh (special_id : ℤ) : SQLManager := ⟨fun _ => none, special_id⟩

/-- `userFdToId[fd] = user_id`, and `userFdToId.erase(fd)` for `none`. -/
def SQLManager.setUser (mgr : SQLManager) (fd : Fd) (user_id : Option ℤ) : SQLManager :=
  { mgr with userFdToId := Function.update mgr.userFdToId fd user_id }

/-- A session does not touch the special id. -/
@[simp] theorem SQLManager.setUser_specialId (mgr : SQLManager) (fd : Fd) (id : Option ℤ) :
    (mgr.setUser fd id).specialId = mgr.specialId := rfl

/-- The answers of `SQL_Driver` while one request is handled. -/
structure SqlDriver where
  getUserId : Bytes → Except SqlException ℤ
  registerUser : Bytes → Except SqlException Bool
  deleteUser : Bytes → Except SqlException Bool
  insertProblem : ℤ → Bytes → Bytes → Except SqlException Bool
  deleteProblem : ℤ → Except SqlException Bool
  insertProblemType : ℤ → Bytes → Except SqlException Bool
  deleteProblemType : ℤ → Bytes → Except SqlException Bool
  insertSubmitted : ℤ → ℤ → Bool → Bytes → Except SqlException Bool
  deleteSubmission : ℤ → ℤ → Except SqlException Bool
  getSubmissions : ℤ → ℤ → Except SqlException Submissions
  selectUnitsData : ℤ → Except SqlException (List Units)
  selectUnitdetail : ℤ → Bytes → Except SqlException (List UnitStat)

/-- A call that a handler makes, with its arguments. -/
inductive Action where
  | getUserId (username : Bytes)
  | checkUserId (users_id : ℤ)
  | registerUser (username : Bytes)
  | deleteUser (username : Bytes)
  | insertProblem (id : ℤ) (title difficulty : Bytes)
  | deleteProblem (problem_id : ℤ)
  | insertProblemType (problem_id : ℤ) (problem_type : Bytes)
  | deleteProblemType (problem_id : ℤ) (problem_type : Bytes)
  | insertSubmitted (users_id problem_id : ℤ) (status : Bool) (time_spent : Bytes)
  | deleteSubmission (submission_id users_id : ℤ)
  | getSubmissions (users_id problem_id : ℤ)
  | selectUnitsData (user_id : ℤ)
  | selectUnitdetail (user_id : ℤ) (unit : Bytes)
  | sendData (fd : Fd) (type : UInt8) (payload : Bytes)
  deriving DecidableEq

/-- What a handler leaves: the manager, its calls in order, and the exception
that ended it. -/
structure Outcome where
  mgr : SQLManager
  log : List Action
  error : Option SqlException

/-- `return;` -/
def finish (mgr : SQLManager) : Outcome := ⟨mgr, [], none⟩

/-- An outcome with one more call at its front. -/
def Outcome.after (o : Outcome) (a : Action) : Outcome := { o with log := a :: o.log }

/-- A call of the driver: an exception ends the handler. -/
def call {α : Type} (mgr : SQLManager) (a : Action) (answer : Except SqlException α)
    (k : α → Outcome) : Outcome :=
  match answer with
  | .ok r => (k r).after a
  | .error e => ⟨mgr, [a], some e⟩

/-- The last `SendData` of a handler; a failed write is only reported. -/
def sendData (mgr : SQLManager) (fd : Fd) (type : UInt8) (payload : Bytes) : Outcome :=
  ⟨mgr, [.sendData fd type payload], none⟩

/-- `SQLManager::check_login`, and the id of the session. -/
def checkLogin (mgr : SQLManager) (fd : Fd) (k : ℤ → Outcome) : Outcome :=
  match mgr.userFdToId fd with
  | some user_id => k user_id
  | none => sendData mgr fd SqlProtocol.login.toByte (text "Please login or register first!")

/-- `if(user_id != special_id) return;` -/
def checkSpecial (mgr : SQLManager) (user_id : ℤ) (k : Outcome) : Outcome :=
  if user_id ≠ mgr.specialId then finish mgr else k

/-- A number read from a field, or `invalid` sent back. -/
def withNumber (mgr : SQLManager) (fd : Fd) (type : UInt8) (n : Option ℤ) (invalid : Bytes)
    (k : ℤ → Outcome) : Outcome :=
  match n with
  | some n => k n
  | none => sendData mgr fd type invalid

/-- `SQLManager::erase_fd`. -/
def eraseFd (mgr : SQLManager) (fd : Fd) : SQLManager :=
  match mgr.userFdToId fd with
  | none => mgr
  | some user_id =>
    { mgr with specialId := if user_id = mgr.specialId then -1 else mgr.specialId }.setUser fd none

/-- `erase_fd` ends the session of `fd`, present or not. -/
theorem eraseFd_userFdToId (mgr : SQLManager) (fd : Fd) :
    (eraseFd mgr fd).userFdToId = Function.update mgr.userFdToId fd none := by
  unfold eraseFd
  split
  · rename_i h
    exact (Function.update_eq_self_iff.2 h.symm).symm
  · rfl

/-- `Erase_fd` of a session of the special user gives the special id up. -/
theorem eraseFd_specialId (mgr : SQLManager) (fd : Fd) :
    (eraseFd mgr fd).specialId =
      if mgr.userFdToId fd = some mgr.specialId then -1 else mgr.specialId := by
  unfold eraseFd
  split <;> rename_i h <;> simp [h]

/-! ### Accounts -/

/-- `SQLManager::handle_register`. -/
def handleRegister (db : SqlDriver) (mgr : SQLManager) (fd : Fd) (pkg : SocketPackage) : Outcome :=
  match getdata pkg with
  | [] => sendData mgr fd pkg.cType (text "[Register] Please set your account!")
  | username :: _ =>
    call mgr (.registerUser username) (db.registerUser username) fun success =>
    sendData mgr fd pkg.cType (if success
      then text "[Register] username = " ++ username ++ text " , Successful!"
      else text "[Register] username = " ++ username ++ text " , Failed!")

/-- `SQLManager::handle_login`. -/
def handleLogin (db : SqlDriver) (mgr : SQLManager) (fd : Fd) (pkg : SocketPackage) : Outcome :=
  match getdata pkg with
  | [] => sendData mgr fd pkg.cType (text "[Login] Please enter your account!")
  | username :: _ =>
    call mgr (.getUserId username) (db.getUserId username) fun user_id =>
    let mgr := if username = text "Oscar" then { mgr with specialId := user_id } else mgr
    let failed := sendData mgr fd pkg.cType (text "[Login] Fail: " ++ username)
    if user_id ≠ -1 then
      (if checkUserId user_id then
        sendData (mgr.setUser fd (some user_id)) fd pkg.cType
          (text "[Login] " ++ username ++ text " login success (user_id = " ++ toText user_id ++
            text ")")
      else failed).after (.checkUserId user_id)
    else failed

/-! ### Requests of a user -/

/-- `SQLManager::handle_unitsdata`. -/
def handleUnitsdata (db : SqlDriver) (mgr : SQLManager) (fd : Fd) (pkg : SocketPackage) : Outcome :=
  checkLogin mgr fd fun user_id =>
  call mgr (.selectUnitsData user_id) (db.selectUnitsData user_id) fun units =>
  sendData mgr fd pkg.cType
    (text "[UnitsData] Send units stats for user_id = " ++ toText user_id ++ text "\n" ++
      getUnitsTable units)

/-- `SQLManager::handle_unitdetail`. -/
def handleUnitdetail (db : SqlDriver) (mgr : SQLManager) (fd : Fd) (pkg : SocketPackage) :
    Outcome :=
  checkLogin mgr fd fun user_id =>
  match getdata pkg with
  | [] => sendData mgr fd pkg.cType (text "[UnitDetail] Please set the problem type!")
  | problem_type :: _ =>
    call mgr (.selectUnitdetail user_id problem_type) (db.selectUnitdetail user_id problem_type)
      fun stats =>
    sendData mgr fd pkg.cType
      (text "[UnitDetail] Unit = " ++ problem_type ++ text " for user_id = " ++ toText user_id ++
        text "\n" ++ getUnitStatsTable stats)

/-- `SQLManager::handle_problem_submissions`. -/
def handleProblemSubmissions (db : SqlDriver) (mgr : SQLManager) (fd : Fd) (pkg : SocketPackage) :
    Outcome :=
  checkLogin mgr fd fun user_id =>
  match getdata pkg with
  | [] => sendData mgr fd pkg.cType (text "[GetSubmissions] Please set the problem number!")
  | problemIdStr :: _ =>
    withNumber mgr fd pkg.cType (stoi problemIdStr)
      (text "[GetSubmissions] Invalid problem ID format!") fun problemId =>
    call mgr (.getSubmissions user_id problemId) (db.getSubmissions user_id problemId) fun subs =>
    sendData mgr fd pkg.cType
      (text "[GetSubmissions] problem = " ++ problemIdStr ++ text " for user_id = " ++
        toText user_id ++ text "\n" ++ getProblemSubmitTable subs)

/-- `SQLManager::handle_insert_submission`. -/
def handleInsertSubmission (db : SqlDriver) (mgr : SQLManager) (fd : Fd) (pkg : SocketPackage) :
    Outcome :=
  checkLogin mgr fd fun user_id =>
  match getdata pkg with
  | [problemIdStr, solve_statusStr, solvetime] =>
    withNumber mgr fd pkg.cType (stoi problemIdStr)
      (text "[AddSubmissions] Invalid problem ID format!") fun problemId =>
    let bsolve_status := stringToBool solve_statusStr
    let msg := text "[AddSubmissions] problem = " ++ problemIdStr ++ text ", solve status = " ++
      solve_statusStr ++ text ", solve time = " ++ solvetime ++ text " for user_id = " ++
      toText user_id
    call mgr (.insertSubmitted user_id problemId bsolve_status solvetime)
      (db.insertSubmitted user_id problemId bsolve_status solvetime) fun success =>
    sendData mgr fd pkg.cType
      (msg ++ if success then text " is successful!" else text " is fail!")
  | _ =>
    sendData mgr fd pkg.cType
      (text "[AddSubmissions] Please set the correct submitted information!")

/-- `SQLManager::handle_delete_submission`. -/
def handleDeleteSubmission (db : SqlDriver) (mgr : SQLManager) (fd : Fd) (pkg : SocketPackage) :
    Outcome :=
  checkLogin mgr fd fun user_id =>
  match getdata pkg with
  | [] =>
    sendData mgr fd pkg.cType (text "[DeleteSubmissions] Please set the correct submission ID!")
  | submissionIdStr :: _ =>
    withNumber mgr fd pkg.cType (stoll submissionIdStr)
      (text "[DeleteSubmissions] Invalid submission ID format!") fun submissionId =>
    let msg := text "[DeleteSubmissions] submission ID = " ++ submissionIdStr ++
      text " for user_id = " ++ toText user_id
    call mgr (.deleteSubmission submissionId user_id) (db.deleteSubmission submissionId user_id)
      fun success =>
    sendData mgr fd pkg.cType
      (msg ++ if success then text " is successful!" else text " is fail!")

/-! ### Privileged requests -/

/-- `SQLManager::handle_delete_user`. -/
def handleDeleteUser (db : SqlDriver) (mgr : SQLManager) (fd : Fd) (pkg : SocketPackage) :
    Outcome :=
  checkLogin mgr fd fun user_id =>
  checkSpecial mgr user_id <|
  match getdata pkg with
  | [] => sendData mgr fd pkg.cType (text "[DeleteUser] Please enter the delete user!")
  | deleteuser :: _ =>
    call mgr (.deleteUser deleteuser) (db.deleteUser deleteuser) fun success =>
    sendData mgr fd pkg.cType
      (text "[DeleteUser] user_name = " ++ deleteuser ++ text " for user_id = " ++
        toText user_id ++ if success then text " deleted successfully!" else text " deletion failed!")

/-- `SQLManager::handle_insert_problem`. -/
def handleInsertProblem (db : SqlDriver) (mgr : SQLManager) (fd : Fd) (pkg : SocketPackage) :
    Outcome :=
  checkLogin mgr fd fun user_id =>
  checkSpecial mgr user_id <|
  match getdata pkg with
  | problemIdStr :: problem_title :: problem_difficulty :: _ =>
    withNumber mgr fd pkg.cType (stoi problemIdStr)
      (text "[InsertProblem] Invalid problem ID format!") fun problemId =>
    call mgr (.insertProblem problemId problem_title problem_difficulty)
      (db.insertProblem problemId problem_title problem_difficulty) fun success =>
    sendData mgr fd pkg.cType
      (text "[InsertProblem] problemId = " ++ problemIdStr ++ text ", problem title = " ++
        problem_title ++ text " for user_id = " ++ toText user_id ++
        if success then text " is successful!" else text " is fail!")
  | _ =>
    sendData mgr fd pkg.cType
      (text "[InsertProblem] Please provide problem number, problem title, problem's difficulty!")

/-- `SQLManager::handle_delete_problem`; a bad id is answered under the name of
`handle_insert_problem`. -/
def handleDeleteProblem (db : SqlDriver) (mgr : SQLManager) (fd : Fd) (pkg : SocketPackage) :
    Outcome :=
  checkLogin mgr fd fun user_id =>
  checkSpecial mgr user_id <|
  match getdata pkg with
  | [] => sendData mgr fd pkg.cType (text "[DeleteProblem] Please provide problem number!")
  | problemIdStr :: _ =>
    withNumber mgr fd pkg.cType (stoi problemIdStr)
      (text "[InsertProblem] Invalid problem ID format!") fun problemId =>
    call mgr (.deleteProblem problemId) (db.deleteProblem problemId) fun success =>
    sendData mgr fd pkg.cType
      (text "[DeleteProblem] problemId = " ++ problemIdStr ++ text " for user_id = " ++
        toText user_id ++ if success then text " deleted successfully!" else text " deletion failed!")

/-- `SQLManager::handle_insert_problem_type`. -/
def handleInsertProblemType (db : SqlDriver) (mgr : SQLManager) (fd : Fd) (pkg : SocketPackage) :
    Outcome :=
  checkLogin mgr fd fun user_id =>
  checkSpecial mgr user_id <|
  match getdata pkg with
  | problemIdStr :: problem_type :: _ =>
    withNumber mgr fd pkg.cType (stoi problemIdStr)
      (text "[InsertProblemType] Invalid problem ID format!") fun problemId =>
    call mgr (.insertProblemType problemId problem_type)
      (db.insertProblemType problemId problem_type) fun success =>
    sendData mgr fd pkg.cType
      (text "[InsertProblemType] problemId = " ++ problemIdStr ++ text ", problem type = " ++
        problem_type ++ text " for user_id = " ++ toText user_id ++
        if success then text " inserted successfully!" else text " insertion failed!")
  | _ =>
    sendData mgr fd pkg.cType
      (text "[InsertProblemType] Please provide problem_id and problem type!")

/-- `SQLManager::handle_delete_problem_type`. -/
def handleDeleteProblemType (db : SqlDriver) (mgr : SQLManager) (fd : Fd) (pkg : SocketPackage) :
    Outcome :=
  checkLogin mgr fd fun user_id =>
  checkSpecial mgr user_id <|
  match getdata pkg with
  | problemIdStr :: problem_type :: _ =>
    withNumber mgr fd pkg.cType (stoi problemIdStr)
      (text "[DeleteProblemType] Invalid problem ID format!") fun problemId =>
    call mgr (.deleteProblemType problemId problem_type)
      (db.deleteProblemType problemId problem_type) fun success =>
    sendData mgr fd pkg.cType
      (text "[DeleteProblemType] problemId = " ++ problemIdStr ++ text ", problem type = " ++
        problem_type ++ text " for user_id = " ++ toText user_id ++
        if success then text " deleted successfully!" else text " deletion failed!")
  | _ =>
    sendData mgr fd pkg.cType
      (text "[DeleteProblemType] Please provide problemId and problem type!")

/-- `SQLManager::handle_request`; an unknown type is only logged. -/
def handleRequest (db : SqlDriver) (mgr : SQLManager) (fd : Fd) (pkg : SocketPackage) : Outcome :=
  match SqlProtocol.ofByte pkg.cType with
  | some .registerUser => handleRegister db mgr fd pkg
  | some .login => handleLogin db mgr fd pkg
  | some .selectUnitsData => handleUnitsdata db mgr fd pkg
  | some .selectUnitDetail => handleUnitdetail db mgr fd pkg
  | some .getProblemSubmissions => handleProblemSubmissions db mgr fd pkg
  | some .insertSubmitted => handleInsertSubmission db mgr fd pkg
  | some .deleteSubmitted => handleDeleteSubmission db mgr fd pkg
  | some .deleteUser => handleDeleteUser db mgr fd pkg
  | some .insertProblem => handleInsertProblem db mgr fd pkg
  | some .deleteProblem => handleDeleteProblem db mgr fd pkg
  | some .insertProblemType => handleInsertProblemType db mgr fd pkg
  | some .deleteProblemType => handleDeleteProblemType db mgr fd pkg
  | none => finish mgr

end Manager
end WeakAyas
