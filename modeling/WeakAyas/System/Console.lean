/-
# A session at the console

From the lines that are typed to the texts that are shown and the tables behind
them: `ConsoleClient::run`, the connection, `EpollWorker::handle_event`,
`SQLManager::handle_request`, the driver, `SendData` and `ClientTCP::recv_loop`, on
one connection, each message in one read.

Where no answer has a `#`, every number fits in an `int` and every message in a
package, the lines have the meaning of the commands that they complete, and the
replies that fit are shown (`converse_eq`).
-/

import WeakAyas.Client.Completed
import WeakAyas.Client.RecvLoop
import WeakAyas.Database.Integrity
import WeakAyas.System.Meaning

namespace WeakAyas
namespace System

open Driver Database Manager Client
open Dispatch (Connection serve packages)

variable {κ : Type} [DecidableEq κ] {collation : Bytes → κ} {fits : Mutation → Prop}
  {dbms : Dbms Tables}

/-! ### The programs -/

/-- The packages of a connection, one after the other on an undisturbed database: the
manager and the tables at the end, and what is written to `fd`. -/
def handleAll (dbms : Dbms Tables) (fd : Fd) :
    SQLManager → Tables → List SocketPackage → (SQLManager × Tables) × List Bytes
  | mgr, db, [] => ((mgr, db), [])
  | mgr, db, pkg :: pkgs =>
    let f := refusals dbms db (asks mgr fd pkg)
    let o := handleRequest (driverOn dbms f db) mgr fd pkg
    let rest := handleAll dbms fd o.mgr (databaseAfter dbms f o.log db) pkgs
    (rest.1, (o.sent.filter (·.1 == fd)).map Prod.snd ++ rest.2)

/-- The console, the worker and the receiving thread on the typed lines: the manager
and the tables at the end, and the texts that are shown. -/
def converse (dbms : Dbms Tables) (fd : Fd) (mgr : SQLManager) (db : Tables)
    (lines : List Bytes) : Except OutOfRange ((SQLManager × Tables) × List Bytes) := do
  let c ← serve .fresh (run lines)
  let served := handleAll dbms fd mgr db c.handled
  let texts ← recvLoop (served.2.map .data)
  return (served.1, texts)

/-! ### What is meant -/

/-- The commands one after the other, and what answers them. -/
inductive Converses (collation : Bytes → κ) (fits : Mutation → Prop) :
    Desk → List (Command × List Bytes) → Desk → List Bytes → Prop
  | nil (d : Desk) : Converses collation fits d [] d []
  | cons {d d' d'' : Desk} {c : Command} {answers : List Bytes}
      {completed : List (Command × List Bytes)} {reply : Option Bytes} {replies : List Bytes} :
      Does collation fits d c answers d' reply → Converses collation fits d' completed d'' replies →
        Converses collation fits d ((c, answers) :: completed) d'' (reply.toList ++ replies)

/-- What is shown of a reply: the text up to a NUL, when it is sent at all. -/
def shown (reply : Bytes) : Option Bytes :=
  if reply.length ≤ maxBuffersize - 7 then
    some ((reply ++ [packageEndByte]).takeWhile (· != 0))
  else none

/-- A command whose message fits in a package and is read as it was typed. -/
def Legible (x : Command × List Bytes) : Prop :=
  (payload x.2).length ≤ maxBuffersize - 7 ∧ x.1.InRange x.2 ∧ ∀ a ∈ x.2, fieldSeparator ∉ a

instance (x : Command × List Bytes) : Decidable (Legible x) :=
  inferInstanceAs (Decidable (_ ∧ _ ∧ _))

/-- What a command does keeps the keys. -/
theorem Does.keys {d d' : Desk} {c : Command} {answers : List Bytes} {reply : Option Bytes}
    (h : Does collation fits d c answers d' reply) (hkeys : Keys collation d.db) :
    Keys collation d'.db := by
  cases h with
  | changed _ _ hp hfresh => exact keys_effect hkeys hp.2.2 hfresh
  | _ => exact hkeys

/-! ### The completed commands -/

/-- No accepted answer is empty. -/
theorem ne_nil_of_accepts {prompts : List Prompt} {answers : List Bytes}
    (h : List.Forall₂ Prompt.Accepts prompts answers) : ∀ a ∈ answers, a ≠ [] := by
  induction h with
  | nil => simp
  | cons hout _ ih => exact List.forall_mem_cons.2 ⟨hout.1, ih⟩

/-- A completed command has an accepted answer for each of its prompts. -/
theorem accepts_of_session {lines : List Bytes} {completed : List (Command × List Bytes)}
    (h : Session lines completed) :
    ∀ x ∈ completed, List.Forall₂ Prompt.Accepts x.1.prompts x.2 := by
  induction h with
  | ended | exit | unfinished => simp
  | other _ _ _ ih | abandoned _ _ ih => exact ih
  | answered hused _ ih =>
    exact List.forall_mem_cons.2 ⟨accepts_of_ask (hused.ask []), ih⟩

/-! ### The worker -/

/-- The frames that are written for a reply are shown as it says. -/
theorem recvLoop_sends {fd : Fd} {sent : List (Fd × Bytes)} {reply : Option Bytes}
    (h : Sends fd sent reply) {reads : List ReadResult} {texts : List Bytes}
    (hreads : recvLoop reads = .ok texts) :
    recvLoop (((sent.filter (·.1 == fd)).map Prod.snd).map .data ++ reads) =
      .ok (reply.toList.filterMap shown ++ texts) := by
  rcases reply with _ | reply
  · obtain rfl : sent = [] := h
    exact hreads
  · obtain ⟨type, rfl⟩ := h
    rw [Option.toList_some, List.filterMap_cons, List.filterMap_nil, shown]
    split_ifs with hle
    · have hreceived := received_package (t := type) hle
      rw [buildPackage_eq_frame hle] at hreceived
      simp only [List.filter_cons, beq_self_eq_true, if_true, List.filter_nil, List.map_cons,
        List.map_nil, List.singleton_append, recvLoop, hreceived, hreads]
      rfl
    · exact hreads

/-- **The worker answers every command as it is meant.** -/
theorem exists_converses_handleAll (h : Enforces collation fits dbms) (fd : Fd) (mgr : SQLManager)
    {db : Tables} {completed : List (Command × List Bytes)} {pkgs : List SocketPackage}
    (hkeys : Keys collation db)
    (haccepts : ∀ x ∈ completed, List.Forall₂ Prompt.Accepts x.1.prompts x.2)
    (hlegible : ∀ x ∈ completed, Legible x)
    (hpkgs : pkgs.map (fun pkg => (pkg.cType, pkg.payload)) =
      completed.map fun x => (x.1.type.toByte, payload x.2)) :
    ∃ mgr' db' frames replies, handleAll dbms fd mgr db pkgs = ((mgr', db'), frames) ∧
      Converses collation fits (deskOf mgr fd db) completed (deskOf mgr' fd db') replies ∧
      recvLoop (frames.map .data) = .ok (replies.filterMap shown) := by
  induction completed generalizing mgr db pkgs with
  | nil =>
    obtain rfl : pkgs = [] := List.map_eq_nil_iff.1 hpkgs
    exact ⟨mgr, db, [], [], rfl, .nil _, rfl⟩
  | cons x completed ih =>
    obtain ⟨c, answers⟩ := x
    rcases pkgs with _ | ⟨pkg, pkgs⟩
    · simp at hpkgs
    obtain ⟨hpkg, hpkgs⟩ := List.cons.inj hpkgs
    obtain ⟨htype, hpayload⟩ := Prod.mk.inj hpkg
    obtain ⟨hacc, haccepts⟩ := List.forall_mem_cons.1 haccepts
    obtain ⟨⟨-, hids, hsep⟩, hlegible⟩ := List.forall_mem_cons.1 hlegible
    have hfields : getdata pkg = answers :=
      getdata_payload_answers hpayload (ne_nil_of_accepts hacc) hsep
    obtain ⟨mgr₁, db₁, reply, hleaves, hdoes⟩ := exists_does_handleRequest mgr fd
      h hkeys.submissionsId hacc hids htype hfields rfl
    obtain ⟨mgr', db', frames, replies, hall, hconverses, hloop⟩ :=
      @ih mgr₁ db₁ pkgs (hdoes.keys hkeys) haccepts hlegible hpkgs
    have hframes := recvLoop_sends hleaves.sends hloop
    rw [← List.map_append, ← List.filterMap_append] at hframes
    refine ⟨mgr', db', _, _, ?_, .cons hdoes hconverses, hframes⟩
    rw [handleAll, hleaves.mgr_eq, hleaves.database_eq, hall]

/-- **A session at the console means what is typed.**  For all lines whose completed
commands are legible, every database that enforces its keys, every manager and all
tables with their keys: the server has taken the commands one after the other, each
doing what it does to the session and the tables, and the texts that are shown are
their replies. -/
theorem converse_eq (h : Enforces collation fits dbms) (fd : Fd) (mgr : SQLManager) (db : Tables)
    (hkeys : Keys collation db) (lines : List Bytes)
    (hlegible : ∀ completed, Session lines completed → ∀ x ∈ completed, Legible x) :
    ∃ completed mgr' db' replies, Session lines completed ∧
      Converses collation fits (deskOf mgr fd db) completed (deskOf mgr' fd db') replies ∧
      converse dbms fd mgr db lines = .ok ((mgr', db'), replies.filterMap shown) := by
  obtain ⟨completed, hsession⟩ := exists_session lines
  have hlegible := hlegible completed hsession
  have hrun : run lines = packages (completed.map fun x => (x.1.type.toByte, payload x.2)) := by
    rw [hsession.run, packages, List.map_map]
    rfl
  have hfit : ∀ r ∈ completed.map fun x => (x.1.type.toByte, payload x.2),
      r.2.length ≤ maxBuffersize - 7 := by
    intro r hr
    obtain ⟨x, hx, rfl⟩ := List.mem_map.1 hr
    exact (hlegible x hx).1
  -- the worker gets the messages one by one
  obtain ⟨c, hserve, hrequests⟩ := Dispatch.serve_packages _ .fresh hfit rfl rfl
  have hpkgs : c.handled.map (fun pkg => (pkg.cType, pkg.payload)) =
      completed.map fun x => (x.1.type.toByte, payload x.2) := hrequests
  obtain ⟨mgr', db', frames, replies, hall, hconverses, hloop⟩ :=
    exists_converses_handleAll h fd mgr hkeys (accepts_of_session hsession) hlegible hpkgs
  refine ⟨completed, mgr', db', replies, hsession, hconverses, ?_⟩
  rw [converse, hrun, hserve]
  simp only [bind, Except.bind, hall, hloop]
  rfl

/-- Answers of the first try. -/
theorem answers_of_takes {prompts : List Prompt} {answers : List Bytes}
    (h : List.Forall₂ Prompt.Takes prompts answers) : Answers prompts answers answers := by
  induction h with
  | nil => exact .nil
  | cons hout _ ih => exact @Answers.cons _ _ [] _ _ _ (by simp) hout ih

/-- Alice logs in and submits a solution of the problem 198. -/
def aliceTypes : List Bytes :=
  [text "login", text "Alice", text "insert_submission", text "198", text "1", text "00:05:00"]

/-- She logs in and submits. -/
theorem session_aliceTypes : Session aliceTypes
    [(.login, [text "Alice"]), (.insertSubmission, [text "198", text "1", text "00:05:00"])] := by
  have htakes : ∀ {p : Prompt} {line : Bytes},
      (line.isEmpty || checkGlobalCommand line) = false → p.valid line = true → p.Takes line :=
    fun hback hvalid => ⟨goesBack_iff.not.2 (by simp [hback]), hvalid⟩
  have hlogin : Answers Command.login.prompts [text "Alice"] [text "Alice"] :=
    answers_of_takes (.cons (htakes (by decide) (by decide)) .nil)
  have hsubmit : Answers Command.insertSubmission.prompts [text "198", text "1", text "00:05:00"]
      [text "198", text "1", text "00:05:00"] :=
    answers_of_takes (.cons (htakes (by decide) (by decide))
      (.cons (htakes (by decide) (by decide)) (.cons (htakes (by decide) (by decide)) .nil)))
  exact .answered hlogin (.answered hsubmit .ended)

/-- Her two commands are taken one after the other, and answered. -/
theorem converse_eq_alice : ∃ completed mgr' db' replies, Session aliceTypes completed ∧
    Converses id (fun _ => True) (deskOf (.fresh 0) 6 sample) completed (deskOf mgr' 6 db')
        replies ∧
      converse (enforcing id some (text "2024-01-05")) 6 (.fresh 0) sample aliceTypes =
        .ok ((mgr', db'), replies.filterMap shown) := by
  refine converse_eq (enforces_enforcing id some (text "2024-01-05")) 6 (.fresh 0) sample
    keys_sample aliceTypes fun completed h => ?_
  rw [session_aliceTypes.unique h]
  decide

/-- What she is shown. -/
example : ((converse (enforcing id some (text "2024-01-05")) 6 (.fresh 0) sample
    aliceTypes).toOption.map Prod.snd) =
      some [text "[Login] Alice login success (user_id = 1)\r",
        text "[AddSubmissions] problem = 198, solve status = 1, solve time = 00:05:00" ++
          text " for user_id = 1 is successful!\r"] := by decide +kernel

end System
end WeakAyas
