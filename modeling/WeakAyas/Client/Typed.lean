/-
# What is typed is what is stored

From the prompts of `ConsoleClient::run` to the calls of
`SQLManager::handle_request`.

The console puts `#` before every answer and the server splits at every `#`
(`SQLManager.cpp`, lines 142-154).  Names, titles and types are taken as typed, so
the fields are the answers exactly when no answer has a `#` of its own
(`typed_stored_iff`).
-/

import WeakAyas.Client.Console
import WeakAyas.Manager.Sessions

namespace WeakAyas
namespace Client

open Manager

/-! ### Accepted answers -/

/-- An answer that a prompt takes: not an empty line, and valid. -/
def Prompt.Accepts (p : Prompt) (out : Bytes) : Prop := out ≠ [] ∧ p.valid out = true

/-- An answer that is taken is accepted by its prompt. -/
theorem accepts_of_getValidInput {p : Prompt} {lines rest : List Bytes} {out : Bytes}
    (h : getValidInput p lines = (.success out, rest)) : p.Accepts out := by
  induction lines with
  | nil => simp [getValidInput] at h
  | cons line lines ih =>
    rw [getValidInput] at h
    split_ifs at h with hback hvalid
    · simp at h
    · obtain ⟨rfl, rfl⟩ : line = out ∧ lines = rest := by simpa using h
      simp only [Bool.or_eq_true, List.isEmpty_iff, not_or] at hback
      exact ⟨hback.1, hvalid⟩
    · exact ih h

/-- **A command has one accepted answer for each of its prompts.** -/
theorem accepts_of_ask {prompts : List Prompt} {lines rest answers : List Bytes}
    (h : ask prompts lines = (.success answers, rest)) :
    List.Forall₂ Prompt.Accepts prompts answers := by
  induction prompts generalizing lines answers with
  | nil =>
    obtain ⟨rfl, rfl⟩ : [] = answers ∧ lines = rest := by simpa [ask] using h
    exact .nil
  | cons p prompts ih =>
    rw [ask] at h
    rcases hp : getValidInput p lines with ⟨out | _ | _, lines'⟩ <;> rw [hp] at h
    · rcases ha : ask prompts lines' with ⟨outs | _ | _, rest'⟩ <;> simp only [ha] at h
      · obtain ⟨rfl, rfl⟩ : out :: outs = answers ∧ rest' = rest := by simpa using h
        exact .cons (accepts_of_getValidInput hp) (ih ha)
      · simp at h
      · simp at h
    · simp at h
    · simp at h

/-- An accepted number has digits only. -/
theorem digits_of_number {s : Bytes} (h : Command.number.Accepts s) : s.all isDigit = true := by
  have hv : isPositiveInteger s = true := by simpa [Prompt.valid, Command.number] using h.2
  simp only [isPositiveInteger, Bool.and_eq_true] at hv
  exact hv.1.2

/-- A number that is accepted and fits is converted to its value. -/
theorem stoi_number {s : Bytes} (h : Command.number.Accepts s) (hlt : decimal s < 2 ^ 31) :
    stoi s = some (decimal s) :=
  stoiBits_digits h.1 (digits_of_number h) (by exact_mod_cast hlt)

/-- So does `stoll`, on the same numbers. -/
theorem stoll_number {s : Bytes} (h : Command.number.Accepts s) (hlt : decimal s < 2 ^ 31) :
    stoll s = some (decimal s) :=
  stoiBits_digits h.1 (digits_of_number h) (by push_cast; omega)

/-- A digit is not the separator, so a number has none. -/
theorem fieldSeparator_notMem_number {s : Bytes} (h : Command.number.Accepts s) :
    fieldSeparator ∉ s := by
  have hdigits := List.all_eq_true.1 (digits_of_number h)
  exact fun hmem => absurd (hdigits _ hmem) (by decide)

/-- A status is 0 or 1. -/
theorem status_of_accepts {status : Bytes}
    (h : (⟨some validateSolveStatus, false⟩ : Prompt).Accepts status) :
    status = text "0" ∨ status = text "1" := by
  have hv := h.2
  simpa only [Prompt.valid, validateSolveStatus, Bool.not_false, Bool.true_or, Bool.true_and,
    Option.all_some, Bool.or_eq_true, beq_iff_eq] using hv

/-! ### Splitting what was joined -/

/-- Answers without the separator are read back one by one, the empty ones left
out. -/
theorem getlines_payload {answers : List Bytes} {item : Bytes}
    (hsep : ∀ a ∈ answers, fieldSeparator ∉ a) :
    getlines item (payload answers) = pushField item (answers.filter (!·.isEmpty)) := by
  induction answers generalizing item with
  | nil => rfl
  | cons a answers ih =>
    have ih := @ih a fun b hb => hsep b (by simp [hb])
    have hstep : payload (a :: answers) = fieldSeparator :: (a ++ payload answers) := rfl
    have hpush : pushField a (answers.filter (!·.isEmpty)) =
        (a :: answers).filter (!·.isEmpty) := by
      rw [pushField, List.filter_cons]
      cases a.isEmpty <;> rfl
    rw [hstep, getlines, if_pos (by simp), getlines_append (hsep a (by simp)), List.nil_append, ih,
      hpush]

/-- Of answers without a separator the parser gives those that are not empty. -/
theorem getdata_payload_filter {pkg : SocketPackage} {answers : List Bytes}
    (hp : pkg.payload = payload answers) (hsep : ∀ a ∈ answers, fieldSeparator ∉ a) :
    getdata pkg = answers.filter (!·.isEmpty) := by
  rw [getdata, hp, getlines_payload hsep]
  rfl

/-- Of answers that are not empty either it gives all. -/
theorem getdata_payload_answers {pkg : SocketPackage} {answers : List Bytes}
    (hp : pkg.payload = payload answers) (hne : ∀ a ∈ answers, a ≠ [])
    (hsep : ∀ a ∈ answers, fieldSeparator ∉ a) : getdata pkg = answers := by
  rw [getdata_payload_filter hp hsep, List.filter_eq_self]
  simpa using hne

/-! ### The call that is meant -/

namespace Command

/-- The call of the driver that the answers are typed for, by the user of the
session. -/
def operation (user_id : ℤ) : Command → List Bytes → Option Action
  | login, [username] => some (.getUserId username)
  | register, [username] => some (.registerUser username)
  | deleteUser, [username] => some (.deleteUser username)
  | insertProblem, [id, title, difficulty] => some (.insertProblem (decimal id) title difficulty)
  | deleteProblem, [id] => some (.deleteProblem (decimal id))
  | insertType, [id, type] => some (.insertProblemType (decimal id) type)
  | deleteType, [id, type] => some (.deleteProblemType (decimal id) type)
  | queryUnitsData, [] => some (.selectUnitsData user_id)
  | queryUnitDetail, [type] => some (.selectUnitdetail user_id type)
  | getSubmission, [id] => some (.getSubmissions user_id (decimal id))
  | insertSubmission, [id, status, time] =>
    some (.insertSubmitted user_id (decimal id) (status == text "1") time)
  | deleteSubmission, [id] => some (.deleteSubmission (decimal id) user_id)
  | _, _ => none

/-- The session may run the command: every command but `login` and `register`
needs a user, the privileged ones the special user. -/
def AllowedOn (mgr : SQLManager) (fd : Fd) (user_id : ℤ) : Command → Prop
  | login | register => True
  | queryUnitsData | queryUnitDetail | getSubmission | insertSubmission | deleteSubmission =>
    mgr.userFdToId fd = some user_id
  | deleteUser | insertProblem | deleteProblem | insertType | deleteType =>
    mgr.userFdToId fd = some user_id ∧ user_id = mgr.specialId

/-- The numbers among the answers are in the range of `int`. -/
def InRange (c : Command) (answers : List Bytes) : Prop :=
  ∀ q ∈ c.prompts.zip answers, q.1.checkPositiveInt = true → decimal q.2 < 2 ^ 31

instance (c : Command) (answers : List Bytes) : Decidable (c.InRange answers) :=
  inferInstanceAs (Decidable (∀ q ∈ _, _))

variable {c : Command} {answers : List Bytes}

/-- Accepted answers say what to call. -/
theorem exists_operation (h : List.Forall₂ Prompt.Accepts c.prompts answers) (user_id : ℤ) :
    ∃ op, c.operation user_id answers = some op := by
  have hlen := h.length_eq
  cases c <;> simp only [prompts, List.length_cons, List.length_nil] at hlen
  all_goals
    rcases answers with _ | ⟨a, _ | ⟨b, _ | ⟨d, _ | ⟨e, answers⟩⟩⟩⟩ <;>
      simp only [List.length_cons, List.length_nil] at hlen <;>
      first | exact ⟨_, rfl⟩ | omega

/-- Every answer of a command is a text of the call, or cannot hold a separator:
numbers, difficulties and the status are checked at the prompt. -/
theorem mem_texts_or_notMem (h : List.Forall₂ Prompt.Accepts c.prompts answers) {user_id : ℤ}
    {op : Action} (hop : c.operation user_id answers = some op) :
    ∀ a ∈ answers, a ∈ op.texts ∨ fieldSeparator ∉ a := by
  cases c <;> simp only [prompts, List.forall₂_cons_left_iff, List.forall₂_nil_left_iff] at h
  case login | register | deleteUser | queryUnitDetail =>
    obtain ⟨username, _, -, rfl, rfl⟩ := h
    cases hop
    simp [Action.texts]
  case deleteProblem | getSubmission | deleteSubmission =>
    obtain ⟨id, _, hid, rfl, rfl⟩ := h
    simpa using .inr (fieldSeparator_notMem_number hid)
  case insertType | deleteType =>
    obtain ⟨id, _, hid, ⟨type, _, -, rfl, rfl⟩, rfl⟩ := h
    cases hop
    simpa [Action.texts] using .inr (fieldSeparator_notMem_number hid)
  case insertProblem =>
    obtain ⟨id, _, hid, ⟨title, _, -, ⟨difficulty, _, -, rfl, rfl⟩, rfl⟩, rfl⟩ := h
    cases hop
    simpa [Action.texts] using .inr (fieldSeparator_notMem_number hid)
  case insertSubmission =>
    obtain ⟨id, _, hid, ⟨status, _, hstatus, ⟨time, _, -, rfl, rfl⟩, rfl⟩, rfl⟩ := h
    cases hop
    have hstatus : fieldSeparator ∉ status := by
      rcases status_of_accepts hstatus with rfl | rfl <;> decide
    simpa [Action.texts] using ⟨.inr (fieldSeparator_notMem_number hid), .inr hstatus⟩
  case queryUnitsData =>
    subst h
    simp

end Command

/-! ### The call that is made -/

variable {db : SqlDriver} {mgr : SQLManager} {fd : Fd} {pkg : SocketPackage}

/-- **The handler of a command calls what the fields say**, when the fields are
the answers. -/
theorem operation_mem_log {c : Command} {answers : List Bytes} {user_id : ℤ} {op : Action}
    (h : List.Forall₂ Prompt.Accepts c.prompts answers) (hids : c.InRange answers)
    (hallowed : c.AllowedOn mgr fd user_id) (htype : pkg.cType = c.type.toByte)
    (hfields : getdata pkg = answers) (hop : c.operation user_id answers = some op) :
    op ∈ (handleRequest db mgr fd pkg).log := by
  unfold handleRequest
  rw [htype, SqlProtocol.ofByte_toByte]
  cases c <;> simp only [Command.prompts, List.forall₂_cons_left_iff,
    List.forall₂_nil_left_iff] at h
  case login | register =>
    obtain ⟨username, _, -, rfl, rfl⟩ := h
    cases hop
    simp only [Command.type, handleLogin, handleRegister, hfields]
    exact mem_log_call
  case queryUnitDetail =>
    obtain ⟨type, _, -, rfl, rfl⟩ := h
    cases hop
    have huser : mgr.userFdToId fd = some user_id := hallowed
    simp only [Command.type, handleUnitdetail, checkLogin, huser, hfields]
    exact mem_log_call
  case deleteUser =>
    obtain ⟨username, _, -, rfl, rfl⟩ := h
    cases hop
    obtain ⟨huser, rfl⟩ : mgr.userFdToId fd = some user_id ∧ user_id = mgr.specialId := hallowed
    simp only [Command.type, handleDeleteUser, checkLogin, huser, checkSpecial, hfields, ne_eq,
      not_true_eq_false, if_false]
    exact mem_log_call
  case queryUnitsData =>
    subst h
    cases hop
    have huser : mgr.userFdToId fd = some user_id := hallowed
    simp only [Command.type, handleUnitsdata, checkLogin, huser]
    exact mem_log_call
  case getSubmission =>
    obtain ⟨id, _, hid, rfl, rfl⟩ := h
    cases hop
    have huser : mgr.userFdToId fd = some user_id := hallowed
    have hn := stoi_number hid (hids _ (.head _) rfl)
    simp only [Command.type, handleProblemSubmissions, checkLogin, huser, hfields, withNumber, hn]
    exact mem_log_call
  case deleteSubmission =>
    obtain ⟨id, _, hid, rfl, rfl⟩ := h
    cases hop
    have huser : mgr.userFdToId fd = some user_id := hallowed
    have hn := stoll_number hid (hids _ (.head _) rfl)
    simp only [Command.type, handleDeleteSubmission, checkLogin, huser, hfields, withNumber, hn]
    exact mem_log_call
  case insertSubmission =>
    obtain ⟨id, _, hid, ⟨status, _, hstatus, ⟨time, _, -, rfl, rfl⟩, rfl⟩, rfl⟩ := h
    cases hop
    have huser : mgr.userFdToId fd = some user_id := hallowed
    have hn := stoi_number hid (hids _ (.head _) rfl)
    have hbool : stringToBool status = (status == text "1") := by
      rcases status_of_accepts hstatus with rfl | rfl <;> decide
    simp only [Command.type, handleInsertSubmission, checkLogin, huser, hfields, withNumber, hn,
      hbool]
    exact mem_log_call
  case deleteProblem =>
    obtain ⟨id, _, hid, rfl, rfl⟩ := h
    cases hop
    obtain ⟨huser, rfl⟩ : mgr.userFdToId fd = some user_id ∧ user_id = mgr.specialId := hallowed
    have hn := stoi_number hid (hids _ (.head _) rfl)
    simp only [Command.type, handleDeleteProblem, checkLogin, huser, checkSpecial, hfields, ne_eq,
      not_true_eq_false, if_false, withNumber, hn]
    exact mem_log_call
  case insertType | deleteType =>
    obtain ⟨id, _, hid, ⟨type, _, -, rfl, rfl⟩, rfl⟩ := h
    cases hop
    obtain ⟨huser, rfl⟩ : mgr.userFdToId fd = some user_id ∧ user_id = mgr.specialId := hallowed
    have hn := stoi_number hid (hids _ (.head _) rfl)
    simp only [Command.type, handleInsertProblemType, handleDeleteProblemType, checkLogin, huser,
      checkSpecial, hfields, ne_eq, not_true_eq_false, if_false, withNumber, hn]
    exact mem_log_call
  case insertProblem =>
    obtain ⟨id, _, hid, ⟨title, _, -, ⟨difficulty, _, -, rfl, rfl⟩, rfl⟩, rfl⟩ := h
    cases hop
    obtain ⟨huser, rfl⟩ : mgr.userFdToId fd = some user_id ∧ user_id = mgr.specialId := hallowed
    have hn := stoi_number hid (hids _ (.head _) rfl)
    simp only [Command.type, handleInsertProblem, checkLogin, huser, checkSpecial, hfields, ne_eq,
      not_true_eq_false, if_false, withNumber, hn]
    exact mem_log_call

/-- The console finds every command by its name. -/
theorem Command.find_name (c : Command) : Command.all.find? (·.name == c.name) = some c := by
  cases c <;> decide

/-- No command is empty, `exit` or `help`. -/
theorem Command.name_plain (c : Command) : c.name.isEmpty = false ∧
    (c.name == text "exit") = false ∧ (c.name == text "help") = false := by
  cases c <;> decide

/-- A command whose answers are completed is sent. -/
theorem run_name {c : Command} (lines rest answers : List Bytes)
    (h : ask c.prompts lines = (.success answers, rest)) :
    run (c.name :: lines) = buildPackage c.type.toByte (payload answers) :: run rest := by
  rw [run, c.name_plain.1, c.name_plain.2.1, c.name_plain.2.2]
  simp only [Bool.false_eq_true, if_false, c.find_name, h]

/-- One that is given up is not. -/
theorem run_name_back {c : Command} {lines rest : List Bytes}
    (h : ask c.prompts lines = (.back, rest)) : run (c.name :: lines) = run rest := by
  rw [run, c.name_plain.1, c.name_plain.2.1, c.name_plain.2.2]
  simp only [Bool.false_eq_true, if_false, c.find_name, h]

/-- An `exit` among the answers ends the console. -/
theorem run_name_exit {c : Command} {lines rest : List Bytes}
    (h : ask c.prompts lines = (.exit, rest)) : run (c.name :: lines) = [] := by
  rw [run, c.name_plain.1, c.name_plain.2.1, c.name_plain.2.2]
  simp only [Bool.false_eq_true, if_false, c.find_name, h]

/-- **What is typed is what is stored exactly when nothing typed has a `#`.**
For every command and all lines that its prompts accept, the package that the
console sends is parsed in one read, and on a session that may run the command
the handler calls the driver with the answers as typed iff no answer contains
the separator. -/
theorem typed_stored_iff (c : Command) {lines rest answers : List Bytes}
    (hask : ask c.prompts lines = (.success answers, rest))
    (hfit : (payload answers).length ≤ maxBuffersize - 7) (hids : c.InRange answers)
    (db : SqlDriver) (mgr : SQLManager) (fd : Fd) (user_id : ℤ)
    (hallowed : c.AllowedOn mgr fd user_id) :
    ∃ msg pkg op, run (c.name :: lines) = msg :: run rest ∧
      parseSockpackage msg = .ok (some pkg) ∧ c.operation user_id answers = some op ∧
      (op ∈ (handleRequest db mgr fd pkg).log ↔ ∀ a ∈ answers, fieldSeparator ∉ a) := by
  have haccepts := accepts_of_ask hask
  obtain ⟨op, hop⟩ := Command.exists_operation haccepts user_id
  have hparse := parseSockpackage_frame (g := []) (s := []) (t := c.type.toByte) (by simp)
    (hfit.trans (Nat.sub_le _ _))
  rw [List.nil_append, List.append_nil, ← buildPackage_eq_frame hfit] at hparse
  refine ⟨_, _, op, run_name lines rest answers hask, hparse, hop, fun hlog a ha => ?_,
    fun hsep => ?_⟩
  · rcases Command.mem_texts_or_notMem haccepts hop a ha with htext | hsep
    · exact (isField_of_mem_getdata (handleRequest_textsFrom mgr fd db _ op hlog htext)).2.1
    · exact hsep
  · have hne : ∀ a ∈ answers, a ≠ [] := by
      intro a ha
      obtain ⟨i, hi, rfl⟩ := List.mem_iff_getElem.1 ha
      exact ((List.forall₂_iff_get.1 haccepts).2 i (haccepts.length_eq ▸ hi) hi).1
    exact operation_mem_log haccepts hids hallowed rfl
      (getdata_payload_answers (SocketPackage.payload_filled ..) hne hsep) hop

/-- Oscar, logged in as user 7 on descriptor 5. -/
def oscarOn5 : SQLManager := ⟨fun fd => if fd = 5 then some 7 else none, 7⟩

/-- A title without `#` is stored as typed. -/
theorem typed_stored_iff_title :
    ∃ msg pkg op,
      run (text "insert_problem" :: [text "1", text "Two Sum", text "Easy"]) = msg :: run [] ∧
      parseSockpackage msg = .ok (some pkg) ∧
      Command.insertProblem.operation 7 [text "1", text "Two Sum", text "Easy"] = some op ∧
      (op ∈ (handleRequest (oneUser oscar 7) oscarOn5 5 pkg).log ↔
        ∀ a ∈ [text "1", text "Two Sum", text "Easy"], fieldSeparator ∉ a) :=
  typed_stored_iff .insertProblem (by rfl) (by decide) (by decide) _ oscarOn5 5 7 ⟨rfl, rfl⟩

/-- The title `C# basics` is accepted, and its problem is stored under another
title and with a part of it as the difficulty. -/
theorem not_stored_insertProblem :
    ∃ answers pkg op, ask Command.insertProblem.prompts answers = (.success answers, []) ∧
      (payload answers).length ≤ maxBuffersize - 7 ∧ Command.insertProblem.InRange answers ∧
      Command.insertProblem.AllowedOn oscarOn5 5 7 ∧
      run (Command.insertProblem.name :: answers) =
        [buildPackage Command.insertProblem.type.toByte (payload answers)] ∧
      parseSockpackage (buildPackage Command.insertProblem.type.toByte (payload answers)) =
        .ok (some pkg) ∧
      Command.insertProblem.operation 7 answers = some op ∧
      op ∉ (handleRequest (oneUser oscar 7) oscarOn5 5 pkg).log := by
  have hfit : (payload [text "1", text "C# basics", text "Easy"]).length ≤ maxBuffersize := by
    decide
  refine ⟨[text "1", text "C# basics", text "Easy"], SocketPackage.filled packageStartByte
    Command.insertProblem.type.toByte _ packageEndByte hfit, _, by rfl, by decide, by decide,
    ⟨rfl, rfl⟩, ?_, ?_, rfl, ?_⟩
  · rw [run_name _ [] [text "1", text "C# basics", text "Easy"] (by rfl), run]
  · exact parseSockpackage_frame (g := []) (s := []) (by simp) hfit
  · have hfields : getdata (.filled packageStartByte Command.insertProblem.type.toByte
        (payload [text "1", text "C# basics", text "Easy"]) packageEndByte hfit) =
        [text "1", text "C", text " basics", text "Easy"] := by
      rw [getdata, SocketPackage.payload_filled]
      decide
    have htype : SqlProtocol.ofByte (SocketPackage.filled packageStartByte
        Command.insertProblem.type.toByte (payload [text "1", text "C# basics", text "Easy"])
        packageEndByte hfit).cType = some .insertProblem := rfl
    rw [handleRequest, htype]
    simp only [handleInsertProblem, hfields]
    change _ ∉ [Action.insertProblem 1 (text "C") (text " basics"), Action.sendData 5 _ _]
    rw [List.mem_cons, List.mem_singleton, Action.insertProblem.injEq, not_or]
    exact ⟨by decide, by simp⟩

end Client
end WeakAyas
