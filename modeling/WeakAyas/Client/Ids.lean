/-
# What an id is

`ConsoleClient::is_positive_integer` (`ConsoleClient.hpp`, lines 69-79) and the
`std::stoi` and `std::stoll` of the seven handlers that take an id
(`SQLManager.cpp`, lines 244-355 and 492-618).

The console looks at the whole string and for a positive number, and it asks
`std::stoll` whatever the id is for.  A handler takes the number that the string
starts with, zero and negative ones too, if it fits in an `int` (a `long long` for
`delete_submission`).  The two agree on the strings of `SameId` and on no others
(`ids_agree_iff`).
-/

import WeakAyas.Client.Typed

namespace WeakAyas
namespace Client

open Manager

/-! ### Two readings -/

/-- The bits of the number that the handler reads, for the commands that start with
an id. -/
def Command.idBits : Command → Option ℕ
  | getSubmission | insertSubmission | insertProblem | deleteProblem | insertType | deleteType =>
    some 32
  | deleteSubmission => some 64
  | login | register | deleteUser | queryUnitsData | queryUnitDetail => none

/-- The id that a call gives to the driver. -/
def idOf : Action → Option ℤ
  | .insertProblem id _ _ | .deleteProblem id | .insertProblemType id _ | .deleteProblemType id _
  | .insertSubmitted _ id _ _ | .deleteSubmission id _ | .getSubmissions _ id => some id
  | .getUserId _ | .checkUserId _ | .registerUser _ | .deleteUser _ | .selectUnitsData _
  | .selectUnitdetail _ _ | .sendData _ _ _ => none

/-- The handler goes on with the number: it calls the driver with it. -/
def GoesOnWith (o : Outcome) (n : ℤ) : Prop := ∃ a ∈ o.log, idOf a = some n

/-- The strings that console and handler read in the same way: nothing, a positive
number of the handler's range or one beyond every range, and, where a string has
other bytes, one without a number of the range in front. -/
def SameId (bits : ℕ) (s : Bytes) : Prop :=
  if s.all isDigit = true then
    s = [] ∨ (1 ≤ decimal s ∧ decimal s < 2 ^ (bits - 1)) ∨ 2 ^ 63 ≤ decimal s
  else stoiBits bits s = none

/-- What `std::stoi` makes of digits. -/
theorem stoiBits_digits_iff {bits : ℕ} {s : Bytes} (hne : s ≠ []) (hs : s.all isDigit = true)
    (n : ℤ) : stoiBits bits s = some n ↔ decimal s < 2 ^ (bits - 1) ∧ n = decimal s := by
  constructor
  · intro h
    have hn := eq_decimal_of_stoiBits hne hs h
    have hlt := (stoiBits_bounds h).2
    rw [hn] at hlt
    exact ⟨by exact_mod_cast hlt, hn⟩
  · rintro ⟨hlt, rfl⟩
    exact stoiBits_digits hne hs (by exact_mod_cast hlt)

/-- What the console takes. -/
theorem isPositiveInteger_iff {s : Bytes} :
    isPositiveInteger s = true ↔
      s ≠ [] ∧ s.all isDigit = true ∧ 1 ≤ decimal s ∧ decimal s < 2 ^ 63 := by
  simp only [isPositiveInteger, Bool.and_eq_true, Bool.not_eq_true', List.isEmpty_eq_false_iff,
    Option.any_eq_true, decide_eq_true_eq, and_assoc]
  refine and_congr_right fun hne => and_congr_right fun hs => ?_
  have hstoll : ∀ n, stoll s = some n ↔ decimal s < 2 ^ 63 ∧ n = decimal s :=
    stoiBits_digits_iff hne hs
  constructor
  · rintro ⟨n, hn, hpos⟩
    obtain ⟨hlt, rfl⟩ := (hstoll n).1 hn
    exact ⟨by omega, hlt⟩
  · rintro ⟨hpos, hlt⟩
    exact ⟨_, (hstoll _).2 ⟨hlt, rfl⟩, by omega⟩

/-- An empty text is no number. -/
theorem stoiBits_nil (bits : ℕ) : stoiBits bits [] = none := rfl

/-- **The two readings agree on these strings and on no others.** -/
theorem sameId_iff {bits : ℕ} (hbits : bits ≤ 64) (s : Bytes) :
    (∀ n : ℤ, stoiBits bits s = some n ↔ isPositiveInteger s = true ∧ n = decimal s) ↔
      SameId bits s := by
  have hpow : 2 ^ (bits - 1) ≤ 2 ^ 63 := Nat.pow_le_pow_right (by decide) (by omega)
  have hpos : 0 < 2 ^ (bits - 1) := Nat.two_pow_pos _
  rw [SameId]
  split_ifs with hs
  · rcases eq_or_ne s [] with rfl | hne
    · simp [stoiBits_nil, isPositiveInteger]
    · simp only [stoiBits_digits_iff hne hs, isPositiveInteger_iff, hs, hne, ne_eq,
        not_false_eq_true, true_and, false_or]
      constructor
      · intro h
        have := (h (decimal s)).trans (and_iff_left rfl)
        omega
      · intro h n
        refine and_congr_left fun _ => ?_
        omega
  · have hfalse : isPositiveInteger s = false := by simp [isPositiveInteger, hs]
    simp [hfalse, Option.eq_none_iff_forall_ne_some]

/-! ### The handlers -/

section Handlers

variable {mgr : SQLManager} {fd : Fd} {n : ℤ}

/-- A reply has no id. -/
theorem idOf_sendData (type : UInt8) (payload : Bytes) :
    idOf (.sendData fd type payload) = none := rfl

/-- A handler that only replies goes on with no number. -/
theorem goesOnWith_sendData {type : UInt8} {payload : Bytes} :
    ¬ GoesOnWith (sendData mgr fd type payload) n := by
  simp [GoesOnWith, sendData, idOf]

/-- A handler goes on with the number it reads, and reports what the driver makes of
it. -/
theorem goesOnWith_number {α : Type} {type : UInt8} {number : Option ℤ} {invalid : Bytes}
    {a : ℤ → Action} {answer : ℤ → Except Driver.SqlException α} {msg : ℤ → α → Bytes}
    (ha : ∀ m, idOf (a m) = some m) :
    GoesOnWith (withNumber mgr fd type number invalid fun m =>
      call mgr (a m) (answer m) fun r => sendData mgr fd type (msg m r)) n ↔ number = some n := by
  rcases number with _ | m
  · exact iff_of_false goesOnWith_sendData (by simp)
  · rcases hanswer : answer m with e | r <;>
      simp [GoesOnWith, withNumber, call, hanswer, Outcome.after, sendData, idOf_sendData, ha]

end Handlers

variable {db : SqlDriver} {mgr : SQLManager} {fd : Fd} {pkg : SocketPackage} {user_id : ℤ}

section Commands

variable {c : Command} {bits : ℕ} {n : ℤ}

/-- All fields there, the first is what counts. -/
theorem exists_head_iff {P : Bytes → Prop} {s : Bytes} {rest : List Bytes} {k : ℕ}
    (hk : rest.length + 1 = k) :
    P s ↔ (s :: rest).length = k ∧ ∃ a ∈ (s :: rest).head?, P a := by
  simp [hk]

/-- A handler goes on when it gets as many fields as the console asks for, with what
its conversion reads of the first; a field short it goes on with nothing. -/
theorem goesOnWith_fields (hbits : c.idBits = some bits) (hallowed : c.AllowedOn mgr fd user_id)
    (htype : pkg.cType = c.type.toByte) {fields : List Bytes} (hfields : getdata pkg = fields)
    (hlen : fields.length ≤ c.prompts.length) :
    GoesOnWith (handleRequest db mgr fd pkg) n ↔
      fields.length = c.prompts.length ∧ ∃ s ∈ fields.head?, stoiBits bits s = some n := by
  unfold handleRequest
  rw [htype, SqlProtocol.ofByte_toByte]
  cases c <;> simp only [Command.idBits, Option.some.injEq, reduceCtorEq] at hbits <;>
    subst hbits <;> simp only [Command.prompts, List.length_cons, List.length_nil] at hlen ⊢
  case getSubmission | deleteSubmission =>
    have huser : mgr.userFdToId fd = some user_id := hallowed
    simp only [Command.type, handleProblemSubmissions, handleDeleteSubmission, checkLogin, huser,
      hfields]
    rcases fields with _ | ⟨s, rest⟩
    · exact iff_of_false goesOnWith_sendData (by simp)
    · refine (goesOnWith_number fun _ => rfl).trans (exists_head_iff (P := (stoiBits _ · = _)) ?_)
      rw [List.length_cons] at hlen
      omega
  case insertSubmission =>
    have huser : mgr.userFdToId fd = some user_id := hallowed
    simp only [Command.type, handleInsertSubmission, checkLogin, huser, hfields]
    rcases fields with _ | ⟨s, _ | ⟨status, _ | ⟨time, _ | ⟨extra, rest⟩⟩⟩⟩
    case cons.cons.cons.nil =>
      exact (goesOnWith_number fun _ => rfl).trans (exists_head_iff (P := (stoiBits _ · = _)) rfl)
    case cons.cons.cons.cons =>
      simp only [List.length_cons] at hlen
      omega
    all_goals exact iff_of_false goesOnWith_sendData (by simp)
  case deleteProblem =>
    obtain ⟨huser, rfl⟩ : mgr.userFdToId fd = some user_id ∧ user_id = mgr.specialId := hallowed
    simp only [Command.type, handleDeleteProblem, checkLogin, huser, checkSpecial, ne_eq,
      not_true_eq_false, if_false, hfields]
    rcases fields with _ | ⟨s, rest⟩
    · exact iff_of_false goesOnWith_sendData (by simp)
    · refine (goesOnWith_number fun _ => rfl).trans (exists_head_iff (P := (stoiBits _ · = _)) ?_)
      rw [List.length_cons] at hlen
      omega
  case insertType | deleteType =>
    obtain ⟨huser, rfl⟩ : mgr.userFdToId fd = some user_id ∧ user_id = mgr.specialId := hallowed
    simp only [Command.type, handleInsertProblemType, handleDeleteProblemType, checkLogin, huser,
      checkSpecial, ne_eq, not_true_eq_false, if_false, hfields]
    rcases fields with _ | ⟨s, _ | ⟨type, rest⟩⟩
    case cons.cons =>
      refine (goesOnWith_number fun _ => rfl).trans (exists_head_iff (P := (stoiBits _ · = _)) ?_)
      simp only [List.length_cons] at hlen ⊢
      omega
    all_goals exact iff_of_false goesOnWith_sendData (by simp)
  case insertProblem =>
    obtain ⟨huser, rfl⟩ : mgr.userFdToId fd = some user_id ∧ user_id = mgr.specialId := hallowed
    simp only [Command.type, handleInsertProblem, checkLogin, huser, checkSpecial, ne_eq,
      not_true_eq_false, if_false, hfields]
    rcases fields with _ | ⟨s, _ | ⟨title, _ | ⟨difficulty, rest⟩⟩⟩
    case cons.cons.cons =>
      refine (goesOnWith_number fun _ => rfl).trans (exists_head_iff (P := (stoiBits _ · = _)) ?_)
      simp only [List.length_cons] at hlen ⊢
      omega
    all_goals exact iff_of_false goesOnWith_sendData (by simp)

/-- **A handler goes on with what its conversion reads**, of the string put before
the other answers of the command; an empty one leaves the handler a field short. -/
theorem goesOnWith_iff (hbits : c.idBits = some bits) (hallowed : c.AllowedOn mgr fd user_id)
    (htype : pkg.cType = c.type.toByte) {s : Bytes} {rest : List Bytes}
    (hlen : rest.length + 1 = c.prompts.length)
    (hrest : ∀ a ∈ rest, a ≠ []) (hfields : getdata pkg = (s :: rest).filter (!·.isEmpty)) :
    GoesOnWith (handleRequest db mgr fd pkg) n ↔ stoiBits bits s = some n := by
  have hall : rest.filter (!·.isEmpty) = rest := List.filter_eq_self.2 (by simpa using hrest)
  rw [List.filter_cons, hall] at hfields
  rcases s with _ | ⟨b, s⟩
  · have hshort : getdata pkg = rest := hfields
    rw [goesOnWith_fields hbits hallowed htype hshort (by omega)]
    exact iff_of_false (fun h => by omega) (by simp [stoiBits_nil])
  · rw [goesOnWith_fields hbits hallowed htype hfields hlen.le]
    exact (exists_head_iff (P := (stoiBits _ · = _)) hlen).symm

end Commands

/-- **Console and server agree on a string exactly when it is one of `SameId`.**  For
every command with an id, on every session that may run it, with every string
without a separator in the place of the id and whatever the database answers. -/
theorem ids_agree_iff {c : Command} {bits : ℕ} (hbits : c.idBits = some bits)
    (hallowed : c.AllowedOn mgr fd user_id) (htype : pkg.cType = c.type.toByte) {s : Bytes}
    {rest : List Bytes} (hp : pkg.payload = payload (s :: rest))
    (hlen : rest.length + 1 = c.prompts.length) (hrest : ∀ a ∈ rest, a ≠ [] ∧ fieldSeparator ∉ a)
    (hsep : fieldSeparator ∉ s) :
    (∀ n : ℤ, GoesOnWith (handleRequest db mgr fd pkg) n ↔
        isPositiveInteger s = true ∧ n = decimal s) ↔ SameId bits s := by
  have hle : bits ≤ 64 := by
    cases c <;> simp only [Command.idBits, Option.some.injEq, reduceCtorEq] at hbits <;> omega
  have hfields := getdata_payload_filter hp
    (List.forall_mem_cons.2 ⟨hsep, fun a ha => (hrest a ha).2⟩)
  rw [← sameId_iff hle s]
  exact forall_congr' fun n => iff_congr (goesOnWith_iff hbits hallowed htype hlen
    (fun a ha => (hrest a ha).1) hfields) Iff.rfl

/-! ### A number with something behind it -/

/-- Oscar deletes the problem with this number. -/
def deleteRequest (s : Bytes) (h : (payload [s]).length ≤ maxBuffersize) : SocketPackage :=
  .filled packageStartByte Command.deleteProblem.type.toByte (payload [s]) packageEndByte h

/-- The string `12abc`. -/
theorem ids_agree_iff_twelve :
    (∀ n : ℤ, GoesOnWith (handleRequest (oneUser oscar 7) oscarOn5 5
        (deleteRequest (text "12abc") (by decide))) n ↔
      isPositiveInteger (text "12abc") = true ∧ n = decimal (text "12abc")) ↔
      SameId 32 (text "12abc") :=
  ids_agree_iff (c := .deleteProblem) rfl ⟨rfl, rfl⟩ rfl (SocketPackage.payload_filled ..) rfl
    (by simp) (by decide)

/-- **`12abc` is no id to the console, and problem 12 to the server**, which asks the
database to delete it. -/
theorem not_ids_agree :
    ¬ ∀ n : ℤ, GoesOnWith (handleRequest (oneUser oscar 7) oscarOn5 5
        (deleteRequest (text "12abc") (by decide))) n ↔
      isPositiveInteger (text "12abc") = true ∧ n = decimal (text "12abc") := by
  intro h
  have hfields : getdata (deleteRequest (text "12abc") (by decide)) =
      [text "12abc"].filter (!·.isEmpty) :=
    getdata_payload_filter (SocketPackage.payload_filled ..) (by decide)
  have hallowed : Command.deleteProblem.AllowedOn oscarOn5 5 7 := ⟨rfl, rfl⟩
  have hgoes : GoesOnWith (handleRequest (oneUser oscar 7) oscarOn5 5
      (deleteRequest (text "12abc") (by decide))) 12 :=
    (goesOnWith_iff (c := .deleteProblem) rfl hallowed rfl rfl (by simp) hfields).2 (by decide)
  exact absurd ((h 12).1 hgoes).1 (by decide)

/-- The console takes a number that no `int` holds, and refuses 0. -/
example : isPositiveInteger (text "3000000000") = true ∧ stoi (text "3000000000") = none ∧
    isPositiveInteger (text "0") = false ∧ stoi (text "0") = some 0 := by decide

end Client
end WeakAyas
