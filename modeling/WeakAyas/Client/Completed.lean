/-
# What the console sends

`ConsoleClient::get_valid_input` and `ConsoleClient::run` (`ConsoleClient.cpp`,
lines 36-261) against what a session at the console is.

A line at a prompt is one of three: it goes back, it is tried again, or it is
taken.  The prompts of a command are answered, abandoned, or left when the input
ends (`Answers`, `Abandons`, `Unfinished`), and these are the three results of
`ask` on the lines they use up (`Answers.ask`, `Abandons.ask`, `Unfinished.ask`).  A
session cuts its lines into commands and what their prompts use up (`Session`).
Every input is one session (`exists_session`, `Session.unique`), and `run` sends the
commands that it completes (`Session.run`).
-/

import WeakAyas.Client.Typed

namespace WeakAyas
namespace Client

/-! ### A line at a prompt -/

/-- An empty line, or `@back` between blanks. -/
def GoesBack (line : Bytes) : Prop :=
  line = [] ∨ ∃ l r : Bytes, (∀ b ∈ l, isBlank b = true) ∧ (∀ b ∈ r, isBlank b = true) ∧
    line = l ++ text "@back" ++ r

/-- The prompt takes the line as its answer. -/
def Prompt.Takes (p : Prompt) (line : Bytes) : Prop := ¬ GoesBack line ∧ p.valid line = true

/-- The prompt asks again. -/
def Prompt.Retries (p : Prompt) (line : Bytes) : Prop := ¬ GoesBack line ∧ p.valid line = false

/-- What is dropped is a prefix of such bytes, up to one that is none. -/
theorem dropWhile_of_append {q : UInt8 → Bool} {l s : Bytes} (hl : ∀ b ∈ l, q b = true)
    (hs : ∀ b ∈ s.head?, q b = false) : (l ++ s).dropWhile q = s := by
  rw [List.dropWhile_append_of_pos hl]
  cases s with
  | nil => rfl
  | cons b s => rw [List.dropWhile_cons_of_neg (by simpa using hs b rfl)]

/-- `check_global_command` trims the blanks and compares. -/
theorem checkGlobalCommand_iff {input : Bytes} :
    checkGlobalCommand input = true ↔
      ∃ l r : Bytes, (∀ b ∈ l, isBlank b = true) ∧ (∀ b ∈ r, isBlank b = true) ∧
        input = l ++ text "@back" ++ r := by
  rw [checkGlobalCommand, beq_iff_eq]
  constructor
  · intro h
    have hr := List.takeWhile_append_dropWhile (p := isBlank)
      (l := (input.dropWhile isBlank).reverse)
    refine ⟨input.takeWhile isBlank, ((input.dropWhile isBlank).reverse.takeWhile isBlank).reverse,
      fun b hb => List.mem_takeWhile_imp hb, fun b hb => ?_, ?_⟩
    · exact List.mem_takeWhile_imp (List.mem_reverse.1 hb)
    · rw [← h, List.append_assoc, ← List.reverse_append, hr, List.reverse_reverse,
        List.takeWhile_append_dropWhile]
  · rintro ⟨l, r, hl, hr, rfl⟩
    have hleft : (l ++ text "@back" ++ r).dropWhile isBlank = text "@back" ++ r := by
      rw [List.append_assoc]
      exact dropWhile_of_append hl (by simp [text, isBlank])
    rw [hleft, List.reverse_append,
      dropWhile_of_append (by simpa using hr) (by simp [text, isBlank]), List.reverse_reverse]

/-- The test of the source. -/
theorem goesBack_iff {line : Bytes} :
    GoesBack line ↔ (line.isEmpty || checkGlobalCommand line) = true := by
  rw [Bool.or_eq_true, List.isEmpty_iff, checkGlobalCommand_iff, GoesBack]

variable {p : Prompt} {c : Command} {prompts : List Prompt} {used lines answers : List Bytes}

/-- A line is an answer, goes back or is asked for again. -/
theorem Prompt.takes_or_retries {line : Bytes} (h : ¬ GoesBack line) :
    p.Takes line ∨ p.Retries line := by
  cases hv : p.valid line with
  | true => exact .inl ⟨h, hv⟩
  | false => exact .inr ⟨h, hv⟩

/-! ### What a prompt reads -/

/-- Lines that are tried again leave the prompt as it was. -/
theorem getValidInput_retries {retried : List Bytes} (h : ∀ line ∈ retried, p.Retries line) :
    getValidInput p (retried ++ lines) = getValidInput p lines := by
  induction retried with
  | nil => rfl
  | cons line retried ih =>
    have hline := h line (List.mem_cons_self ..)
    rw [List.cons_append, getValidInput, if_neg (goesBack_iff.not.1 hline.1),
      if_neg (by simp [hline.2]), ih fun x hx => h x (List.mem_cons_of_mem _ hx)]

/-- An answer is taken. -/
theorem getValidInput_takes {out : Bytes} (h : p.Takes out) :
    getValidInput p (out :: lines) = (.success out, lines) := by
  rw [getValidInput, if_neg (goesBack_iff.not.1 h.1), if_pos h.2]

/-- A global command, or an empty line, leaves the command. -/
theorem getValidInput_goesBack {line : Bytes} (h : GoesBack line) :
    getValidInput p (line :: lines) = (.back, lines) := by
  rw [getValidInput, if_pos (goesBack_iff.1 h)]

/-- The input may end while a prompt asks again. -/
theorem getValidInput_ended (h : ∀ line ∈ lines, p.Retries line) :
    getValidInput p lines = (.exit, []) := by
  rw [← List.append_nil lines, getValidInput_retries h, getValidInput]

/-- The first line that is not tried again goes back or is the answer. -/
theorem exists_retried (p : Prompt) (lines : List Bytes) :
    (∀ line ∈ lines, p.Retries line) ∨ ∃ retried out rest,
      (∀ line ∈ retried, p.Retries line) ∧ lines = retried ++ out :: rest ∧
        (p.Takes out ∨ GoesBack out) := by
  induction lines with
  | nil => exact .inl (by simp)
  | cons line lines ih =>
    by_cases hback : GoesBack line
    · exact .inr ⟨[], line, lines, by simp, rfl, .inr hback⟩
    rcases Prompt.takes_or_retries (p := p) hback with htakes | hretries
    · exact .inr ⟨[], line, lines, by simp, rfl, .inl htakes⟩
    rcases ih with hall | ⟨retried, out, rest, hretried, rfl, hout⟩
    · exact .inl (List.forall_mem_cons.2 ⟨hretries, hall⟩)
    · exact .inr ⟨line :: retried, out, rest, List.forall_mem_cons.2 ⟨hretries, hretried⟩, rfl,
        hout⟩

/-! ### What the prompts of a command read -/

/-- The lines `used` answer the prompts: for each prompt the first line that it
does not try again. -/
inductive Answers : List Prompt → List Bytes → List Bytes → Prop
  | nil : Answers [] [] []
  | cons {p : Prompt} {prompts : List Prompt} {retried used answers : List Bytes} {out : Bytes} :
      (∀ line ∈ retried, p.Retries line) → p.Takes out → Answers prompts used answers →
        Answers (p :: prompts) (retried ++ out :: used) (out :: answers)

/-- The lines `used` end with one that goes back from one of the prompts. -/
inductive Abandons : List Prompt → List Bytes → Prop
  | here {p : Prompt} {prompts : List Prompt} {retried : List Bytes} {back : Bytes} :
      (∀ line ∈ retried, p.Retries line) → GoesBack back →
        Abandons (p :: prompts) (retried ++ [back])
  | later {p : Prompt} {prompts : List Prompt} {retried used : List Bytes} {out : Bytes} :
      (∀ line ∈ retried, p.Retries line) → p.Takes out → Abandons prompts used →
        Abandons (p :: prompts) (retried ++ out :: used)

/-- The lines end before one of the prompts is answered. -/
inductive Unfinished : List Prompt → List Bytes → Prop
  | here {p : Prompt} {prompts : List Prompt} {lines : List Bytes} :
      (∀ line ∈ lines, p.Retries line) → Unfinished (p :: prompts) lines
  | later {p : Prompt} {prompts : List Prompt} {retried lines : List Bytes} {out : Bytes} :
      (∀ line ∈ retried, p.Retries line) → p.Takes out → Unfinished prompts lines →
        Unfinished (p :: prompts) (retried ++ out :: lines)

/-- Answered prompts give their answers, and leave the lines after them. -/
theorem Answers.ask (h : Answers prompts used answers) (lines : List Bytes) :
    Client.ask prompts (used ++ lines) = (.success answers, lines) := by
  induction h with
  | nil => rfl
  | cons hretried hout _ ih =>
    rw [List.append_assoc, List.cons_append, Client.ask, getValidInput_retries hretried,
      getValidInput_takes hout]
    simp only [ih]

/-- A command that is left leaves the lines after it. -/
theorem Abandons.ask (h : Abandons prompts used) (lines : List Bytes) :
    Client.ask prompts (used ++ lines) = (.back, lines) := by
  induction h with
  | here hretried hback =>
    rw [List.append_assoc, List.singleton_append, Client.ask, getValidInput_retries hretried,
      getValidInput_goesBack hback]
  | later hretried hout _ ih =>
    rw [List.append_assoc, List.cons_append, Client.ask, getValidInput_retries hretried,
      getValidInput_takes hout]
    simp only [ih]

/-- An input that ends in a command ends the console. -/
theorem Unfinished.ask (h : Unfinished prompts lines) :
    Client.ask prompts lines = (.exit, []) := by
  induction h with
  | here hretried => rw [Client.ask, getValidInput_ended hretried]
  | later hretried hout _ ih =>
    rw [Client.ask, getValidInput_retries hretried, getValidInput_takes hout]
    simp only [ih]

/-- The prompts are answered, abandoned, or left. -/
theorem exists_used (prompts : List Prompt) (lines : List Bytes) :
    (∃ used rest answers, lines = used ++ rest ∧ Answers prompts used answers) ∨
      (∃ used rest, lines = used ++ rest ∧ Abandons prompts used) ∨
        Unfinished prompts lines := by
  induction prompts generalizing lines with
  | nil => exact .inl ⟨[], lines, [], rfl, .nil⟩
  | cons p prompts ih =>
    rcases exists_retried p lines with hall | ⟨retried, out, rest, hretried, rfl, htakes | hback⟩
    · exact .inr (.inr (.here hall))
    · rcases ih rest with ⟨used, rest', answers, rfl, h⟩ | ⟨used, rest', rfl, h⟩ | h
      · exact .inl ⟨retried ++ out :: used, rest', out :: answers, by simp,
          .cons hretried htakes h⟩
      · exact .inr (.inl ⟨retried ++ out :: used, rest', by simp, .later hretried htakes h⟩)
      · exact .inr (.inr (.later hretried htakes h))
    · exact .inr (.inl ⟨retried ++ [out], rest, by simp, .here hretried hback⟩)

/-! ### Sessions -/

/-- The call of `send_msg` for a command and its answers. -/
def message (completed : Command × List Bytes) : Bytes :=
  buildPackage completed.1.type.toByte (payload completed.2)

/-- What the lines of the standard input are: commands, each with the lines that
its prompts use up, until `exit` or the end.  The list has the commands whose
prompts were all answered, with the answers. -/
inductive Session : List Bytes → List (Command × List Bytes) → Prop
  | ended : Session [] []
  | exit (lines : List Bytes) : Session (text "exit" :: lines) []
  | other {cmd : Bytes} {lines : List Bytes} {completed : List (Command × List Bytes)} :
      cmd ≠ text "exit" → (∀ c : Command, c.name ≠ cmd) → Session lines completed →
        Session (cmd :: lines) completed
  | answered {c : Command} {used lines answers : List Bytes}
      {completed : List (Command × List Bytes)} :
      Answers c.prompts used answers → Session lines completed →
        Session (c.name :: (used ++ lines)) ((c, answers) :: completed)
  | abandoned {c : Command} {used lines : List Bytes} {completed : List (Command × List Bytes)} :
      Abandons c.prompts used → Session lines completed →
        Session (c.name :: (used ++ lines)) completed
  | unfinished {c : Command} {lines : List Bytes} :
      Unfinished c.prompts lines → Session (c.name :: lines) []

/-- `exit` is the name of no command. -/
theorem Command.name_ne_exit (c : Command) : c.name ≠ text "exit" :=
  beq_eq_false_iff_ne.1 c.name_plain.2.1

/-- No two commands have one name. -/
theorem Command.name_injective : Function.Injective Command.name := by
  intro c d h
  have hd := d.find_name
  rw [← h, c.find_name] at hd
  exact Option.some.inj hd

/-- Every input is a session. -/
theorem exists_session (lines : List Bytes) : ∃ completed, Session lines completed := by
  -- the prompts of a command use up lines, so the induction is on their number
  induction hn : lines.length using Nat.strong_induction_on generalizing lines with
  | _ n ih =>
    subst hn
    rcases lines with _ | ⟨cmd, lines⟩
    · exact ⟨[], .ended⟩
    by_cases hexit : cmd = text "exit"
    · subst hexit
      exact ⟨[], .exit lines⟩
    by_cases hname : ∃ c : Command, c.name = cmd
    · obtain ⟨c, rfl⟩ := hname
      have hlt : ∀ used rest : List Bytes, rest.length < (c.name :: (used ++ rest)).length := by
        intro used rest
        simp only [List.length_cons, List.length_append]
        omega
      rcases exists_used c.prompts lines with
        ⟨used, rest, answers, rfl, h⟩ | ⟨used, rest, rfl, h⟩ | h
      · obtain ⟨completed, hrest⟩ := ih _ (hlt used rest) rest rfl
        exact ⟨(c, answers) :: completed, .answered h hrest⟩
      · obtain ⟨completed, hrest⟩ := ih _ (hlt used rest) rest rfl
        exact ⟨completed, .abandoned h hrest⟩
      · exact ⟨[], .unfinished h⟩
    · obtain ⟨completed, hrest⟩ := ih lines.length (by simp) lines rfl
      exact ⟨completed, .other hexit (not_exists.1 hname) hrest⟩

namespace Session

variable {completed completed' : List (Command × List Bytes)}

/-- Nothing is completed after `exit`. -/
theorem of_exit (h : Session (text "exit" :: lines) completed) : completed = [] := by
  generalize hinput : text "exit" :: lines = input at h
  cases h with
  | ended => rfl
  | exit => rfl
  | other hexit => exact absurd (List.cons.inj hinput).1.symm hexit
  | answered => exact absurd (List.cons.inj hinput).1.symm (Command.name_ne_exit _)
  | abandoned => exact absurd (List.cons.inj hinput).1.symm (Command.name_ne_exit _)
  | unfinished => rfl

/-- A line that is neither `exit` nor a command is passed over. -/
theorem of_other {cmd : Bytes} (hexit : cmd ≠ text "exit") (hname : ∀ c : Command, c.name ≠ cmd)
    (h : Session (cmd :: lines) completed) : Session lines completed := by
  generalize hinput : cmd :: lines = input at h
  cases h with
  | ended => simp at hinput
  | exit => exact absurd (List.cons.inj hinput).1 hexit
  | other _ _ hrest => exact (List.cons.inj hinput).2 ▸ hrest
  | answered => exact absurd (List.cons.inj hinput).1.symm (hname _)
  | abandoned => exact absurd (List.cons.inj hinput).1.symm (hname _)
  | unfinished => exact absurd (List.cons.inj hinput).1.symm (hname _)

/-- A session that starts with a command goes on as its prompts end. -/
theorem of_name (h : Session (c.name :: lines) completed) :
    (∀ answers rest, ask c.prompts lines = (.success answers, rest) →
      ∃ completed', completed = (c, answers) :: completed' ∧ Session rest completed') ∧
    (∀ rest, ask c.prompts lines = (.back, rest) → Session rest completed) ∧
    (∀ rest, ask c.prompts lines = (.exit, rest) → completed = []) := by
  generalize hinput : c.name :: lines = input at h
  cases h with
  | ended => simp at hinput
  | exit => exact absurd (List.cons.inj hinput).1 c.name_ne_exit
  | other _ hname => exact absurd (List.cons.inj hinput).1 (hname c)
  | @answered c' used rest answers completed' hused hrest =>
    obtain ⟨hc, rfl⟩ := List.cons.inj hinput
    obtain rfl := Command.name_injective hc
    rw [hused.ask]
    refine ⟨fun answers' rest' heq => ?_, fun rest' heq => ?_, fun rest' heq => ?_⟩
    · obtain ⟨rfl, rfl⟩ : answers = answers' ∧ rest = rest' := by simpa using heq
      exact ⟨completed', rfl, hrest⟩
    · simp at heq
    · simp at heq
  | @abandoned c' used rest completed' hused hrest =>
    obtain ⟨hc, rfl⟩ := List.cons.inj hinput
    obtain rfl := Command.name_injective hc
    rw [hused.ask]
    refine ⟨fun answers' rest' heq => ?_, fun rest' heq => ?_, fun rest' heq => ?_⟩
    · simp at heq
    · obtain rfl : rest = rest' := by simpa using heq
      exact hrest
    · simp at heq
  | unfinished hlines =>
    obtain ⟨hc, rfl⟩ := List.cons.inj hinput
    obtain rfl := Command.name_injective hc
    rw [hlines.ask]
    exact ⟨fun _ _ heq => by simp at heq, fun _ heq => by simp at heq, fun _ _ => rfl⟩

/-- An input is one session only. -/
theorem unique (h : Session lines completed) (h' : Session lines completed') :
    completed' = completed := by
  induction h generalizing completed' with
  | ended => cases h'; rfl
  | exit => exact of_exit h'
  | other hexit hname _ ih => exact ih (of_other hexit hname h')
  | answered hused _ ih =>
    obtain ⟨rest, rfl, hrest⟩ := (of_name h').1 _ _ (hused.ask _)
    rw [ih hrest]
  | abandoned hused _ ih => exact ih ((of_name h').2.1 _ (hused.ask _))
  | unfinished hlines => exact (of_name h').2.2 _ hlines.ask

end Session

/-! ### The run -/

/-- `exit` ends the console. -/
theorem run_exit (lines : List Bytes) : run (text "exit" :: lines) = [] := by
  rw [run, if_neg (by decide), if_pos (by simp)]

/-- A line that is no command is passed over. -/
theorem run_other {cmd : Bytes} (hexit : cmd ≠ text "exit") (hname : ∀ c : Command, c.name ≠ cmd) :
    run (cmd :: lines) = run lines := by
  have hfind : Command.all.find? (·.name == cmd) = none :=
    List.find?_eq_none.2 fun c _ => by simpa using hname c
  have hexit : (cmd == text "exit") = false := by simpa using hexit
  simp only [run, hexit, hfind, Bool.false_eq_true, if_false, ite_self]

/-- **The console sends the commands that its session completes.** -/
theorem Session.run {completed : List (Command × List Bytes)} (h : Session lines completed) :
    Client.run lines = completed.map message := by
  induction h with
  | ended => rw [Client.run, List.map_nil]
  | exit lines => rw [run_exit, List.map_nil]
  | other hexit hname _ ih => rw [run_other hexit hname, ih]
  | answered hused _ ih => rw [run_name _ _ _ (hused.ask _), ih, List.map_cons, message]
  | abandoned hused _ ih => rw [run_name_back (hused.ask _), ih]
  | unfinished hlines => rw [run_name_exit hlines.ask, List.map_nil]

/-- **The console sends exactly the completed commands.**  All lines are one
session, and what `run` gives to `send_msg` is one package for each command whose
prompts were all answered in it, in that order, with `#` before each answer. -/
theorem run_completed (lines : List Bytes) :
    ∃ completed, Session lines completed ∧
      (∀ completed', Session lines completed' → completed' = completed) ∧
      run lines = completed.map message := by
  obtain ⟨completed, h⟩ := exists_session lines
  exact ⟨completed, h, fun _ h' => h.unique h', h.run⟩

/-- The status is asked for a second time, `login` is left before its name is typed, and
nothing is read after `exit`: one message, with its fifteen bytes of payload. -/
example : run [text "insert_submission", text "198", text "solved", text "1", text "00:05:00",
    text "login", text " @back ", text "exit", text "login"] =
    [[0x2A, 6, 0, 0, 0, 15] ++ text "#198#1#00:05:00" ++ [0x0D]] := by
  have hinsert : ask Command.insertSubmission.prompts [text "198", text "solved", text "1",
      text "00:05:00", text "login", text " @back ", text "exit", text "login"] =
      (.success [text "198", text "1", text "00:05:00"],
        [text "login", text " @back ", text "exit", text "login"]) := rfl
  have hlogin : ask Command.login.prompts [text " @back ", text "exit", text "login"] =
      (.back, [text "exit", text "login"]) := rfl
  have hback : run [text "login", text " @back ", text "exit", text "login"] = [] :=
    (run_name_back hlogin).trans (run_exit _)
  exact (run_name _ _ _ hinsert).trans (hback ▸ by decide +kernel)

end Client
end WeakAyas
