/-
# Which commands are answered

The nine commands of `SQLManager::handle_request` that change something or log in
(`SQLManager.cpp`, lines 68-132, 158-202, 278-355 and 468-618).

A handler answers with its last `SendData`.  Two things keep the answer from the
client.  A privileged command of another user returns at `if(user_id !=
special_id) return;` before anything is sent, where the guard above it,
`check_login`, sends a message.  And the answer repeats what the client sent, so
that with its own words around it may outgrow `MAX_BUFFERSIZE - 7`, which
`build_package` refuses.  `ReplyFits` says when neither happens
(`answered_iff_replyFits`).
-/

import WeakAyas.Manager.SendData
import WeakAyas.Manager.Sessions

namespace WeakAyas
namespace Manager

open Driver

/-- One frame is sent, on `fd`. -/
def Outcome.Answered (o : Outcome) (fd : Fd) : Prop :=
  ∃ type payload, payload.length ≤ maxBuffersize - 7 ∧ o.sent = [(fd, frame type payload)]

/-- The three requests that read statistics and submissions. -/
def isQuery : SqlProtocol → Bool
  | .selectUnitsData | .selectUnitDetail | .getProblemSubmissions => true
  | _ => false

/-- The driver answers, and there is room to say so: the reply has `success` or
`failure` bytes of its own beside the `echoed` ones. -/
def Reported (answer : Except SqlException Bool) (success failure echoed : ℕ) : Prop :=
  ∃ ok, answer = .ok ok ∧ (if ok then success else failure) + echoed ≤ maxBuffersize - 7

/-- The reply to a registration or a login has room.  A request that is refused
for its fields always is answered. -/
def AccountReplyFits (db : SqlDriver) : SqlProtocol → List Bytes → Prop
  | .registerUser, username :: _ => Reported (db.registerUser username) 36 32 username.length
  | .login, username :: _ => ∃ id, db.getUserId username = .ok id ∧
    (if id = -1 then 14 else 35 + (toText id).length) + username.length ≤ maxBuffersize - 7
  | _, _ => True

/-- The reply to a command of `user_id` has room. -/
def UserReplyFits (db : SqlDriver) (user_id : ℤ) : SqlProtocol → List Bytes → Prop
  | .insertSubmitted, [id, status, time] => ∀ n, stoi id = some n →
    Reported (db.insertSubmitted user_id n (stringToBool status) time) 89 83
      (id.length + status.length + time.length + (toText user_id).length)
  | .deleteSubmitted, id :: _ => ∀ n, stoll id = some n →
    Reported (db.deleteSubmission n user_id) 66 60 (id.length + (toText user_id).length)
  | .deleteUser, username :: _ =>
    Reported (db.deleteUser username) 62 57 (username.length + (toText user_id).length)
  | .insertProblem, id :: title :: difficulty :: _ => ∀ n, stoi id = some n →
    Reported (db.insertProblem n title difficulty) 76 70
      (id.length + title.length + (toText user_id).length)
  | .deleteProblem, id :: _ => ∀ n, stoi id = some n →
    Reported (db.deleteProblem n) 65 60 (id.length + (toText user_id).length)
  | .insertProblemType, id :: type :: _ => ∀ n, stoi id = some n →
    Reported (db.insertProblemType n type) 87 82
      (id.length + type.length + (toText user_id).length)
  | .deleteProblemType, id :: type :: _ => ∀ n, stoi id = some n →
    Reported (db.deleteProblemType n type) 86 81
      (id.length + type.length + (toText user_id).length)
  | _, _ => True

/-- When a command is answered: without a session it is, and with one a
privileged command is only for the special user. -/
def ReplyFits (db : SqlDriver) (mgr : SQLManager) (fd : Fd) (t : SqlProtocol)
    (fields : List Bytes) : Prop :=
  match t with
  | .registerUser | .login => AccountReplyFits db t fields
  | .insertSubmitted | .deleteSubmitted => ∀ user_id, mgr.userFdToId fd = some user_id →
    UserReplyFits db user_id t fields
  | .deleteUser | .insertProblem | .deleteProblem | .insertProblemType | .deleteProblemType =>
    ∀ user_id, mgr.userFdToId fd = some user_id →
      user_id = mgr.specialId ∧ UserReplyFits db user_id t fields
  | .selectUnitsData | .selectUnitDetail | .getProblemSubmissions => True

/-! ### The guards -/

section Guards

variable {mgr : SQLManager} {fd : Fd}

/-- A reply is sent if it fits. -/
theorem answered_sendData {type : UInt8} {payload : Bytes} :
    (sendData mgr fd type payload).Answered fd ↔ payload.length ≤ maxBuffersize - 7 := by
  rw [Outcome.Answered, sent_sendData]
  constructor
  · rintro ⟨_, _, -, h⟩
    by_contra hle
    simp [if_neg hle] at h
  · intro hle
    exact ⟨type, payload, hle, if_pos hle⟩

/-- An early return is no reply. -/
theorem not_answered_finish : ¬ (finish mgr).Answered fd := by
  rintro ⟨_, _, -, h⟩
  simp at h

/-- A call that sends nothing does not matter. -/
theorem answered_after {o : Outcome} {a : Action} (ha : a.sent = none) :
    (o.after a).Answered fd ↔ o.Answered fd := by
  rw [Outcome.Answered, Outcome.Answered, Outcome.sent_after ha]

/-- A call that throws ends the handler without a reply. -/
theorem answered_call {α : Type} {a : Action} (ha : a.sent = none)
    {answer : Except SqlException α} {k : α → Outcome} :
    (call mgr a answer k).Answered fd ↔ ∃ r, answer = .ok r ∧ (k r).Answered fd := by
  unfold Outcome.Answered
  rw [sent_call ha]
  rcases answer with e | r <;> simp

/-- Without a session the client is told to log in. -/
theorem answered_checkLogin {k : ℤ → Outcome} :
    (checkLogin mgr fd k).Answered fd ↔
      ∀ user_id, mgr.userFdToId fd = some user_id → (k user_id).Answered fd := by
  unfold checkLogin
  rcases mgr.userFdToId fd with _ | user_id
  · exact iff_of_true (answered_sendData.2 (length_text_le (by decide))) (by simp)
  · simp

/-- Another user than the special one is told nothing. -/
theorem answered_checkSpecial {user_id : ℤ} {k : Outcome} :
    (checkSpecial mgr user_id k).Answered fd ↔ user_id = mgr.specialId ∧ k.Answered fd := by
  unfold checkSpecial
  split_ifs with h
  · exact iff_of_false not_answered_finish fun hk => h hk.1
  · exact (and_iff_right (not_not.1 h)).symm

/-- The two guards of a privileged handler together. -/
theorem answered_privileged {k : ℤ → Outcome} :
    (checkLogin mgr fd fun user_id => checkSpecial mgr user_id (k user_id)).Answered fd ↔
      ∀ user_id, mgr.userFdToId fd = some user_id →
        user_id = mgr.specialId ∧ (k user_id).Answered fd := by
  simp only [answered_checkLogin, answered_checkSpecial]

/-- A number that is none is answered at once. -/
theorem answered_withNumber {type : UInt8} {n : Option ℤ} {invalid : Bytes} {k : ℤ → Outcome}
    (hinvalid : invalid.length ≤ maxBuffersize - 7) :
    (withNumber mgr fd type n invalid k).Answered fd ↔ ∀ m, n = some m → (k m).Answered fd := by
  rcases n with _ | n
  · exact iff_of_true (answered_sendData.2 hinvalid) (by simp)
  · simp [withNumber]

/-- The end of a handler: the driver is asked, and its answer reported. -/
theorem answered_report {a : Action} (ha : a.sent = none) {answer : Except SqlException Bool}
    {type : UInt8} {msg : Bool → Bytes} {success failure echoed : ℕ}
    (hlen : ∀ ok, (msg ok).length = (if ok then success else failure) + echoed) :
    (call mgr a answer fun ok => sendData mgr fd type (msg ok)).Answered fd ↔
      Reported answer success failure echoed := by
  simp only [answered_call ha, answered_sendData, hlen, Reported]

end Guards

/-! ### The handlers -/

section Texts

/-- The texts of the replies have fixed lengths. -/
@[simp] theorem length_forUserId : (text " for user_id = ").length = 15 := length_text_ofList _

/-- The text after an account or a submission that is made. -/
@[simp] theorem length_isSuccessful : (text " is successful!").length = 15 := length_text_ofList _

/-- The text after one that is not. -/
@[simp] theorem length_isFail : (text " is fail!").length = 9 := length_text_ofList _

/-- The text after an insertion. -/
@[simp] theorem length_inserted : (text " inserted successfully!").length = 23 :=
  length_text_ofList _

/-- The text after one that failed. -/
@[simp] theorem length_notInserted : (text " insertion failed!").length = 18 :=
  length_text_ofList _

/-- The text after a deletion. -/
@[simp] theorem length_deleted : (text " deleted successfully!").length = 22 :=
  length_text_ofList _

/-- The text after one that failed. -/
@[simp] theorem length_notDeleted : (text " deletion failed!").length = 17 :=
  length_text_ofList _

end Texts

section Handlers

variable (db : SqlDriver) (mgr : SQLManager) (fd : Fd) (pkg : SocketPackage)

/-- The handlers, each by its guards and what its reply repeats. -/
theorem answered_handleRegister : (handleRegister db mgr fd pkg).Answered fd ↔
    AccountReplyFits db .registerUser (getdata pkg) := by
  unfold handleRegister
  rcases getdata pkg with _ | ⟨username, rest⟩
  · exact iff_of_true (answered_sendData.2 (length_text_le (by decide))) trivial
  · refine answered_report rfl fun ok => ?_
    have hhead : (text "[Register] username = ").length = 22 := length_text_ofList _
    have hsuccess : (text " , Successful!").length = 14 := length_text_ofList _
    have hfailed : (text " , Failed!").length = 10 := length_text_ofList _
    cases ok <;> simp [hhead, hsuccess, hfailed] <;> omega

/-- The reply repeats the name. -/
theorem answered_handleLogin : (handleLogin db mgr fd pkg).Answered fd ↔
    AccountReplyFits db .login (getdata pkg) := by
  unfold handleLogin
  rcases getdata pkg with _ | ⟨username, rest⟩
  · exact iff_of_true (answered_sendData.2 (length_text_le (by decide))) trivial
  · refine (answered_call rfl).trans (exists_congr fun id => and_congr_right fun _ => ?_)
    by_cases hid : id = -1
    · have hfail : (text "[Login] Fail: ").length = 14 := length_text_ofList _
      simp only [hid, ne_eq, not_true_eq_false, if_false, if_true]
      rw [answered_sendData, List.length_append, hfail]
    · have hcheck : checkUserId id = true := by simpa [checkUserId] using hid
      simp only [hid, ne_eq, not_false_eq_true, if_true, if_false, hcheck]
      rw [answered_after (by rfl), answered_sendData]
      have hhead : (text "[Login] ").length = 8 := length_text_ofList _
      have hsuccess : (text " login success (user_id = ").length = 26 := length_text_ofList _
      have hend : (text ")").length = 1 := length_text_ofList _
      simp only [List.length_append, hhead, hsuccess, hend]
      omega

/-- The reply repeats the three fields and the user. -/
theorem answered_handleInsertSubmission : (handleInsertSubmission db mgr fd pkg).Answered fd ↔
    ∀ user_id, mgr.userFdToId fd = some user_id →
      UserReplyFits db user_id .insertSubmitted (getdata pkg) := by
  refine answered_checkLogin.trans (forall₂_congr fun user_id _ => ?_)
  rcases getdata pkg with _ | ⟨id, _ | ⟨status, _ | ⟨time, _ | ⟨extra, rest⟩⟩⟩⟩
  case cons.cons.cons.nil =>
    refine (answered_withNumber (length_text_le (by decide))).trans (forall₂_congr fun n _ => ?_)
    refine answered_report (by rfl) fun ok => ?_
    have hhead : (text "[AddSubmissions] problem = ").length = 27 := length_text_ofList _
    have hstatus : (text ", solve status = ").length = 17 := length_text_ofList _
    have htime : (text ", solve time = ").length = 15 := length_text_ofList _
    cases ok <;> simp [hhead, hstatus, htime] <;> omega
  -- another number of fields is refused
  all_goals exact iff_of_true (answered_sendData.2 (length_text_le (by decide))) trivial

/-- The reply repeats the submission and the user. -/
theorem answered_handleDeleteSubmission : (handleDeleteSubmission db mgr fd pkg).Answered fd ↔
    ∀ user_id, mgr.userFdToId fd = some user_id →
      UserReplyFits db user_id .deleteSubmitted (getdata pkg) := by
  refine answered_checkLogin.trans (forall₂_congr fun user_id _ => ?_)
  rcases getdata pkg with _ | ⟨id, rest⟩
  · exact iff_of_true (answered_sendData.2 (length_text_le (by decide))) trivial
  · refine (answered_withNumber (length_text_le (by decide))).trans (forall₂_congr fun n _ => ?_)
    refine answered_report (by rfl) fun ok => ?_
    have hhead : (text "[DeleteSubmissions] submission ID = ").length = 36 := length_text_ofList _
    cases ok <;> simp [hhead] <;> omega

/-- Behind the second guard the reply repeats the name and the user. -/
theorem answered_handleDeleteUser : (handleDeleteUser db mgr fd pkg).Answered fd ↔
    ∀ user_id, mgr.userFdToId fd = some user_id →
      user_id = mgr.specialId ∧ UserReplyFits db user_id .deleteUser (getdata pkg) := by
  refine answered_privileged.trans (forall₂_congr fun user_id _ => and_congr_right fun _ => ?_)
  rcases getdata pkg with _ | ⟨username, rest⟩
  · exact iff_of_true (answered_sendData.2 (length_text_le (by decide))) trivial
  · refine answered_report (by rfl) fun ok => ?_
    have hhead : (text "[DeleteUser] user_name = ").length = 25 := length_text_ofList _
    cases ok <;> simp [hhead] <;> omega

/-- Behind the second guard the reply repeats the number and the title. -/
theorem answered_handleInsertProblem : (handleInsertProblem db mgr fd pkg).Answered fd ↔
    ∀ user_id, mgr.userFdToId fd = some user_id →
      user_id = mgr.specialId ∧ UserReplyFits db user_id .insertProblem (getdata pkg) := by
  refine answered_privileged.trans (forall₂_congr fun user_id _ => and_congr_right fun _ => ?_)
  rcases getdata pkg with _ | ⟨id, _ | ⟨title, _ | ⟨difficulty, rest⟩⟩⟩
  case cons.cons.cons =>
    refine (answered_withNumber (length_text_le (by decide))).trans (forall₂_congr fun n _ => ?_)
    refine answered_report (by rfl) fun ok => ?_
    have hhead : (text "[InsertProblem] problemId = ").length = 28 := length_text_ofList _
    have htitle : (text ", problem title = ").length = 18 := length_text_ofList _
    cases ok <;> simp [hhead, htitle] <;> omega
  all_goals exact iff_of_true (answered_sendData.2 (length_text_le (by decide))) trivial

/-- Behind the second guard the reply repeats the number. -/
theorem answered_handleDeleteProblem : (handleDeleteProblem db mgr fd pkg).Answered fd ↔
    ∀ user_id, mgr.userFdToId fd = some user_id →
      user_id = mgr.specialId ∧ UserReplyFits db user_id .deleteProblem (getdata pkg) := by
  refine answered_privileged.trans (forall₂_congr fun user_id _ => and_congr_right fun _ => ?_)
  rcases getdata pkg with _ | ⟨id, rest⟩
  · exact iff_of_true (answered_sendData.2 (length_text_le (by decide))) trivial
  · refine (answered_withNumber (length_text_le (by decide))).trans (forall₂_congr fun n _ => ?_)
    refine answered_report (by rfl) fun ok => ?_
    have hhead : (text "[DeleteProblem] problemId = ").length = 28 := length_text_ofList _
    cases ok <;> simp [hhead] <;> omega

/-- Behind the second guard the reply repeats the number and the type. -/
theorem answered_handleInsertProblemType :
    (handleInsertProblemType db mgr fd pkg).Answered fd ↔
      ∀ user_id, mgr.userFdToId fd = some user_id →
        user_id = mgr.specialId ∧ UserReplyFits db user_id .insertProblemType (getdata pkg) := by
  refine answered_privileged.trans (forall₂_congr fun user_id _ => and_congr_right fun _ => ?_)
  rcases getdata pkg with _ | ⟨id, _ | ⟨type, rest⟩⟩
  case cons.cons =>
    refine (answered_withNumber (length_text_le (by decide))).trans (forall₂_congr fun n _ => ?_)
    refine answered_report (by rfl) fun ok => ?_
    have hhead : (text "[InsertProblemType] problemId = ").length = 32 := length_text_ofList _
    have htype : (text ", problem type = ").length = 17 := length_text_ofList _
    cases ok <;> simp [hhead, htype] <;> omega
  all_goals exact iff_of_true (answered_sendData.2 (length_text_le (by decide))) trivial

/-- Behind the second guard the reply repeats the number and the type. -/
theorem answered_handleDeleteProblemType :
    (handleDeleteProblemType db mgr fd pkg).Answered fd ↔
      ∀ user_id, mgr.userFdToId fd = some user_id →
        user_id = mgr.specialId ∧ UserReplyFits db user_id .deleteProblemType (getdata pkg) := by
  refine answered_privileged.trans (forall₂_congr fun user_id _ => and_congr_right fun _ => ?_)
  rcases getdata pkg with _ | ⟨id, _ | ⟨type, rest⟩⟩
  case cons.cons =>
    refine (answered_withNumber (length_text_le (by decide))).trans (forall₂_congr fun n _ => ?_)
    refine answered_report (by rfl) fun ok => ?_
    have hhead : (text "[DeleteProblemType] problemId = ").length = 32 := length_text_ofList _
    have htype : (text ", problem type = ").length = 17 := length_text_ofList _
    cases ok <;> simp [hhead, htype] <;> omega
  all_goals exact iff_of_true (answered_sendData.2 (length_text_le (by decide))) trivial

end Handlers

/-! ### Requests -/

/-- **A command is answered exactly when its reply fits and its user may run
it.**  In every state that calls lead to, for every descriptor, request and
answer of the database. -/
theorem answered_iff_replyFits (special_id : ℤ) (calls : List Call) (db : SqlDriver) (fd : Fd)
    (pkg : SocketPackage) {t : SqlProtocol} (ht : SqlProtocol.ofByte pkg.cType = some t)
    (hcommand : isQuery t = false) :
    (handleRequest db (run (.fresh special_id) calls) fd pkg).Answered fd ↔
      ReplyFits db (run (.fresh special_id) calls) fd t (getdata pkg) := by
  rw [handleRequest, ht]
  cases t with
  | registerUser => exact answered_handleRegister ..
  | login => exact answered_handleLogin ..
  | insertSubmitted => exact answered_handleInsertSubmission ..
  | deleteSubmitted => exact answered_handleDeleteSubmission ..
  | deleteUser => exact answered_handleDeleteUser ..
  | insertProblem => exact answered_handleInsertProblem ..
  | deleteProblem => exact answered_handleDeleteProblem ..
  | insertProblemType => exact answered_handleInsertProblemType ..
  | deleteProblemType => exact answered_handleDeleteProblemType ..
  | selectUnitsData | selectUnitDetail | getProblemSubmissions => cases hcommand

/-- A registration is answered. -/
theorem answered_iff_replyFits_alice :
    (handleRequest (oneUser oscar 1) (run (.fresh 0) []) 5
      (fieldPackage .registerUser (text "Alice") (by decide))).Answered 5 ↔
    ReplyFits (oneUser oscar 1) (run (.fresh 0) []) 5 .registerUser
      (getdata (fieldPackage .registerUser (text "Alice") (by decide))) :=
  answered_iff_replyFits 0 [] _ 5 (fieldPackage .registerUser (text "Alice") (by decide)) rfl rfl

/-- A name of `n` letters. -/
theorem isField_replicate {n : ℕ} (hpos : 0 < n) (hn : n ≤ maxBuffersize) :
    IsField (List.replicate n 97) := by
  refine ⟨by simp; omega, fun hmem => ?_, by rwa [List.length_replicate]⟩
  exact absurd (List.eq_of_mem_replicate hmem) (by decide)

/-- Beyond 2005 bytes a registered name does not fit into its reply. -/
theorem not_answered_register {n : ℕ} (hlong : 2005 < n) (hn : n ≤ maxBuffersize) (mgr : SQLManager)
    (fd : Fd) :
    ¬ (handleRequest (oneUser oscar 1) mgr fd
      (fieldPackage .registerUser (List.replicate n 97)
        (isField_replicate (by omega) hn))).Answered fd := by
  have hfields : getdata (fieldPackage .registerUser (List.replicate n 97)
      (isField_replicate (by omega) hn)) = [List.replicate n 97] :=
    getdata_payload (isField_replicate (by omega) hn) (by simp [fieldPackage])
  intro h
  replace h := (answered_handleRegister _ _ _ _).1 h
  rw [hfields] at h
  obtain ⟨ok, hok, hfit⟩ := h
  obtain rfl : true = ok := by simpa [oneUser] using hok
  rw [if_pos rfl, List.length_replicate, maxBuffersize] at hfit
  omega

/-- Alice, who is not Oscar, deletes a user and hears nothing; and a registration
under a name of 2006 bytes goes through without an answer. -/
theorem not_answered :
    (∃ pkg : SocketPackage, pkg.nLen ≤ maxBuffersize - 7 ∧
      SqlProtocol.ofByte pkg.cType = some .deleteUser ∧
      ¬ (handleRequest (oneUser (text "Alice") 2) (run (.fresh 0)
        [.handleRequest (oneUser (text "Alice") 2) 5
          (fieldPackage .login (text "Alice") (by decide))]) 5 pkg).Answered 5) ∧
    ∃ pkg : SocketPackage, pkg.nLen ≤ maxBuffersize - 7 ∧
      SqlProtocol.ofByte pkg.cType = some .registerUser ∧
      ¬ (handleRequest (oneUser oscar 1) (run (.fresh 0) []) 5 pkg).Answered 5 := by
  constructor
  · refine ⟨fieldPackage .deleteUser (text "Bob") (by decide), by decide, rfl, fun h => ?_⟩
    have hdenied := (answered_handleDeleteUser _ _ _ _).1 h 2 (by decide +kernel)
    exact absurd hdenied.1 (by decide +kernel)
  · refine ⟨_, ?_, rfl, not_answered_register (n := 2006) (by decide) (by decide) _ 5⟩
    change (List.replicate 2006 97).length ≤ maxBuffersize - 7
    rw [List.length_replicate]
    decide

end Manager
end WeakAyas
