/-
# The server and its clients as processes

`Weak_ayas` starts `Weak_ayas_server` and `Weak_ayas_client`, which meet over a port and
a file: `main` of the server (`Weak_ayas_server.cpp`, lines 68-127) creates the ready
flag after each `start`, and `main` of a client (`Weak_ayas_client.cpp`, lines 64-124)
connects when it has removed the flag, or after ten seconds.

Each flag lets in one client, and a client that has it finds the server listening,
unless this server has closed its socket meanwhile (`ready_flag`).  A flag that its
server has left behind is still there for the next client.

Of `TCPServer` only the socket counts here: `listen`, the rest of `start`, `running`,
and the closes of `stop`.
-/

import WeakAyas.Client.Process

namespace WeakAyas
namespace System

open TransitionSystem Client

/-! ### The server process -/

/-- Why a `TCPServer` is destroyed. -/
inductive Leave where
  | restart
  | stopped
  | failed
  deriving DecidableEq, Repr

/-- `main` of the server: the test of the loop, `start` before and after `listen`, the
ready flag, the wait, the test behind it, the destructor, and the end with its result. -/
inductive HostPc where
  | test
  | listen
  | create
  | flag
  | wait
  | again
  | closeClients (leave : Leave)
  | closeListener (leave : Leave)
  | returned (ok : Bool)
  deriving DecidableEq, Repr

/-- `g_stop_flag` and `running`, with how often the process has begun to listen and has
closed the socket again. -/
structure Host where
  pc : HostPc
  stopFlag : Bool
  running : Bool
  opened : ℕ
  closed : ℕ
  deriving DecidableEq, Repr

/-- The steps: of `main`, with what the calls of `start` up to `listen`, those behind it
and the creation of the file return, `notify_false` of the accept thread, a signal. -/
inductive HostStep where
  | main
  | listens (ok : Bool)
  | creates (ok : Bool)
  | flags (ok : Bool)
  | falls
  | signal
  deriving DecidableEq, Repr

namespace Host

/-- A server of the process listens. -/
def listening (s : Host) : Bool := s.closed < s.opened

def next (s : Host) : HostStep → Option Host
  | .main => match s.pc with
    | .test => some { s with pc := if s.stopFlag then .returned true else .listen }
    | .wait => if !s.running || s.stopFlag then some { s with pc := .again } else none
    | .again =>
      some { s with pc := .closeClients (if s.stopFlag then .stopped else .restart) }
    | .closeClients leave => some { s with running := false, pc := .closeListener leave }
    | .closeListener leave =>
      some { s with
        closed := s.closed + 1
        pc := match leave with
          | .restart => .test
          | .stopped => .returned true
          | .failed => .returned false }
    | .listen | .create | .flag | .returned _ => none
  | .listens ok =>
    if s.pc = .listen then
      some (if ok then { s with opened := s.opened + 1, pc := .create }
        else { s with pc := .returned false })
    else none
  | .creates ok =>
    if s.pc = .create then
      some (if ok then { s with running := true, pc := .flag }
        else { s with pc := .closeClients .failed })
    else none
  | .flags _ => if s.pc = .flag then some { s with pc := .wait } else none
  | .falls => if s.running then some { s with running := false } else none
  | .signal => some { s with stopFlag := true }

end Host

/-! ### The processes -/

/-- Who has created the ready flag: somebody before, or the server that was the `n`-th
to listen. -/
inductive Origin where
  | before
  | server (n : ℕ)
  deriving DecidableEq, Repr

/-- A server, the ready flag, and its clients; `held` is the flag that a client has
removed and not used yet, and `taken` are all that were removed. -/
structure Processes (κ : Type*) where
  host : Host
  readyFlag : Option Origin
  client : κ → ClientProcess
  held : κ → Option Origin
  taken : List Origin

inductive ProcessesStep (κ : Type*) where
  | host (l : HostStep)
  | client (k : κ) (l : ProcessStep)

/-- With this step a client uses the flag it has. -/
def usesFlag : ProcessStep → Bool
  | .client (.connect _) | .client (.socket none) => true
  | _ => false

namespace Processes

variable {κ : Type*} [DecidableEq κ]

/-- `remove(READY_FLAG)` succeeds where the file is, and `connect` where the server
listens. -/
def permits (s : Processes κ) : ProcessStep → Bool
  | .ready removed => !removed || s.readyFlag.isSome
  | .client (.connect ok) => !ok || s.host.listening
  | _ => true

def next (s : Processes κ) : ProcessesStep κ → Option (Processes κ)
  | .host l => (s.host.next l).map fun host =>
    { s with
      host := host
      readyFlag := if l = .flags true then some (.server s.host.closed) else s.readyFlag }
  | .client k l =>
    if s.permits l then ((s.client k).next l).map fun p =>
      if l = .ready true then
        { s with
          client := Function.update s.client k p
          readyFlag := none
          held := Function.update s.held k s.readyFlag
          taken := s.taken ++ s.readyFlag.toList }
      else
        { s with
          client := Function.update s.client k p
          held := if usesFlag l then Function.update s.held k none else s.held }
    else none

/-- The processes before they run, with a flag that may be left from before. -/
structure IsStart (lines : κ → List Bytes) (s : Processes κ) : Prop where
  host : s.host = ⟨.test, false, false, 0, 0⟩
  readyFlag : s.readyFlag = none ∨ s.readyFlag = some .before
  client : ∀ k, (s.client k).IsStart (lines k)
  held : ∀ k, s.held k = none
  taken : s.taken = []

end Processes

/-- The runs of the processes, with these lines on the standard input of each client. -/
def processes {κ : Type*} [DecidableEq κ] (lines : κ → List Bytes) :
    TransitionSystem (Processes κ) (ProcessesStep κ) where
  init := Processes.IsStart lines
  next := Processes.next

namespace Processes

variable {κ : Type*} {lines : κ → List Bytes} {s t : Processes κ}

/-! ### The flags -/

/-- The socket of the server listens. -/
def isOpen : HostPc → Bool
  | .create | .flag | .wait | .again | .closeClients _ | .closeListener _ => true
  | _ => false

/-- The server has not created its flag yet. -/
def beforeFlag : HostPc → Bool
  | .create | .flag => true
  | _ => false

/-- What holds of the flags: each server that has listened creates one at most, and each
is taken once, by one client. -/
structure Flags (s : Processes κ) : Prop where
  listening : s.host.opened = s.host.closed + if isOpen s.host.pc then 1 else 0
  readyFlag : ∀ o, s.readyFlag = some o → o ∉ s.taken
  nodup : s.taken.Nodup
  opened : ∀ n, .server n ∈ s.taken ∨ s.readyFlag = some (.server n) →
    n < s.host.opened ∧ (beforeFlag s.host.pc = true → n < s.host.closed)
  held : ∀ k o, s.held k = some o → o ∈ s.taken ∧ ∀ k', s.held k' = some o → k' = k

/-- Before any process runs. -/
theorem flags_start (h : IsStart lines s) : Flags s := by
  obtain ⟨hhost, hflag, -, hheld, htaken⟩ := h
  refine ⟨by rw [hhost]; rfl, by simp [htaken], by simp [htaken], ?_, by simp [hheld]⟩
  rcases hflag with hflag | hflag <;> simp [htaken, hflag]

/-- A step of the server that creates no flag. -/
theorem Flags.of_host (h : Flags s) {host : Host}
    (hlistening : host.opened = host.closed + if isOpen host.pc then 1 else 0)
    (hopened : s.host.opened ≤ host.opened) (hclosed : s.host.closed ≤ host.closed)
    (hbefore : beforeFlag host.pc = true → beforeFlag s.host.pc = true ∨
      s.host.opened ≤ host.closed) : Flags { s with host := host } where
  listening := hlistening
  readyFlag := h.readyFlag
  nodup := h.nodup
  opened n hn := by
    obtain ⟨hlt, hlast⟩ := h.opened n hn
    refine ⟨by dsimp only; omega, fun hb => ?_⟩
    rcases hbefore hb with hb | hle
    · have := hlast hb
      dsimp only
      omega
    · dsimp only
      omega
  held := h.held

/-! ### The steps -/

variable [DecidableEq κ]

/-- A step of a client is one of its own, and takes a flag or does not. -/
theorem next_client_cases {k : κ} {a : ProcessStep} (hn : s.next (.client k a) = some t) :
    ∃ p, (s.client k).next a = some p ∧
      ((∃ o, a = .ready true ∧ s.readyFlag = some o ∧ t = { s with
          client := Function.update s.client k p
          readyFlag := none
          held := Function.update s.held k (some o)
          taken := s.taken ++ [o] }) ∨
        (a ≠ .ready true ∧ t = { s with
          client := Function.update s.client k p
          held := if usesFlag a then Function.update s.held k none else s.held })) := by
  simp only [next, Option.ite_none_right_eq_some, Option.map_eq_some_iff] at hn
  obtain ⟨hpermits, p, hp, rfl⟩ := hn
  refine ⟨p, hp, ?_⟩
  by_cases ha : a = .ready true
  · subst ha
    obtain ⟨o, ho⟩ := Option.isSome_iff_exists.1 (show s.readyFlag.isSome = true from hpermits)
    exact .inl ⟨o, rfl, ho, by rw [if_pos rfl, ho]; rfl⟩
  · exact .inr ⟨ha, if_neg ha⟩

/-- Every client runs as it would alone. -/
theorem client_of_reachable (hs : (processes lines).Reachable anyStep s) (k : κ) :
    (clientProcess (lines k)).Reachable anyStep (s.client k) := by
  induction hs with
  | init hinit => exact .init (hinit.client k)
  | @step s t l _ _ hn ih =>
    cases l with
    | host a =>
      obtain ⟨host, -, rfl⟩ := Option.map_eq_some_iff.1 hn
      exact ih
    | client k' a =>
      obtain ⟨p, hp, ⟨o, -, -, rfl⟩ | ⟨-, rfl⟩⟩ := next_client_cases hn
      all_goals
        rcases eq_or_ne k k' with rfl | hne
        · simpa using ih.step trivial hp
        · simpa [hne] using ih

/-- A step of the host. -/
theorem flags_host (h : Flags s) {a : HostStep} (hn : s.next (.host a) = some t) : Flags t := by
  obtain ⟨host, hhost, rfl⟩ := Option.map_eq_some_iff.1 hn
  have hlistening := h.listening
  cases a with
  | main =>
    cases hpc : s.host.pc <;> simp only [Host.next, hpc, reduceCtorEq, Option.some.injEq,
      Option.ite_none_right_eq_some] at hhost <;> rw [hpc] at hlistening
    case test =>
      subst hhost
      refine h.of_host ?_ le_rfl le_rfl ?_ <;> cases s.host.stopFlag <;>
        simp_all [isOpen, beforeFlag]
    case closeListener leave =>
      subst hhost
      refine h.of_host ?_ le_rfl (Nat.le_succ _) ?_ <;> cases leave <;>
        simp_all [isOpen, beforeFlag]
    case wait =>
      obtain ⟨-, rfl⟩ := hhost
      exact h.of_host hlistening le_rfl le_rfl fun hb => by cases hb
    all_goals
      subst hhost
      exact h.of_host hlistening le_rfl le_rfl fun hb => by cases hb
  | listens ok =>
    simp only [Host.next, Option.ite_none_right_eq_some, Option.some.injEq] at hhost
    obtain ⟨hpc, rfl⟩ := hhost
    rw [hpc] at hlistening
    cases ok with
    | false => exact h.of_host hlistening le_rfl le_rfl fun hb => by cases hb
    | true =>
      exact h.of_host (congrArg (· + 1) hlistening) (Nat.le_succ _) le_rfl
        fun _ => .inr (Nat.le_of_eq hlistening)
  | creates ok =>
    simp only [Host.next, Option.ite_none_right_eq_some, Option.some.injEq] at hhost
    obtain ⟨hpc, rfl⟩ := hhost
    rw [hpc] at hlistening
    cases ok with
    | false => exact h.of_host hlistening le_rfl le_rfl fun hb => by cases hb
    | true => exact h.of_host hlistening le_rfl le_rfl fun _ => .inl (by rw [hpc]; rfl)
  | flags ok =>
    simp only [Host.next, Option.ite_none_right_eq_some, Option.some.injEq] at hhost
    obtain ⟨hpc, rfl⟩ := hhost
    rw [hpc] at hlistening
    cases ok with
    | false => exact h.of_host hlistening le_rfl le_rfl fun hb => by cases hb
    | true =>
      -- the flag is the first one of this server
      refine ⟨hlistening, ?_, h.nodup, fun n hn => ⟨?_, fun hb => by cases hb⟩, h.held⟩
      · rintro o ho hmem
        obtain rfl := Option.some.inj ho
        exact absurd ((h.opened _ (.inl hmem)).2 (by rw [hpc]; rfl)) (Nat.lt_irrefl _)
      · rcases hn with hmem | hnew
        · exact (h.opened n (.inl hmem)).1
        · obtain rfl : s.host.closed = n := by simpa using hnew
          dsimp only
          rw [hlistening]
          exact Nat.lt_succ_self _
  | falls =>
    simp only [Host.next, Option.ite_none_right_eq_some, Option.some.injEq] at hhost
    obtain ⟨-, rfl⟩ := hhost
    exact h.of_host hlistening le_rfl le_rfl .inl
  | signal =>
    obtain rfl := Option.some.inj hhost
    exact h.of_host hlistening le_rfl le_rfl .inl

/-- A step of a client. -/
theorem flags_client (h : Flags s) {k : κ} {a : ProcessStep}
    (hn : s.next (.client k a) = some t) : Flags t := by
  obtain ⟨p, -, ⟨o, -, ho, rfl⟩ | ⟨-, rfl⟩⟩ := next_client_cases hn
  · have hnew := h.readyFlag o ho
    refine ⟨h.listening, by simp, ?_, fun n hn => h.opened n ?_, fun k₁ o₁ hheld => ?_⟩
    · refine List.nodup_append.2 ⟨h.nodup, by simp, fun o₁ h₁ o₂ h₂ heq => hnew ?_⟩
      rwa [← List.mem_singleton.1 h₂, ← heq]
    · rcases hn with hmem | hnone
      · rcases List.mem_append.1 hmem with hmem | hmem
        · exact .inl hmem
        · exact .inr (by rw [ho, List.mem_singleton.1 hmem])
      · cases hnone
    · dsimp only at hheld ⊢
      rcases eq_or_ne k₁ k with rfl | hne
      · obtain rfl : o = o₁ := by simpa using hheld
        refine ⟨by simp, fun k₂ hk₂ => ?_⟩
        by_contra hne
        rw [Function.update_of_ne hne] at hk₂
        exact hnew (h.held k₂ o hk₂).1
      · rw [Function.update_of_ne hne] at hheld
        obtain ⟨hmem, honly⟩ := h.held k₁ o₁ hheld
        refine ⟨List.mem_append_left _ hmem, fun k₂ hk₂ => ?_⟩
        rcases eq_or_ne k₂ k with rfl | hne₂
        · obtain rfl : o = o₁ := by simpa using hk₂
          exact absurd hmem hnew
        · rw [Function.update_of_ne hne₂] at hk₂
          exact honly k₂ hk₂
  · refine ⟨h.listening, h.readyFlag, h.nodup, h.opened, fun k₁ o₁ hheld => ?_⟩
    have hkept : ∀ k₂, (if usesFlag a then Function.update s.held k none else s.held) k₂ =
        some o₁ → s.held k₂ = some o₁ := by
      intro k₂ hk₂
      split at hk₂
      · rcases eq_or_ne k₂ k with rfl | hne
        · simp at hk₂
        · rwa [Function.update_of_ne hne] at hk₂
      · exact hk₂
    obtain ⟨hmem, honly⟩ := h.held k₁ o₁ (hkept k₁ hheld)
    exact ⟨hmem, fun k₂ hk₂ => honly k₂ (hkept k₂ hk₂)⟩

/-- The flags are right in every state. -/
theorem flags_of_reachable (hs : (processes lines).Reachable anyStep s) : Flags s := by
  refine hs.invariant (I := Flags) (fun _ hinit => flags_start hinit) fun s t l h _ hn => ?_
  cases l with
  | host a => exact flags_host h hn
  | client k a => exact flags_client h hn

/-! ### The client with a flag -/

/-- Before `connect` a client goes on to `connect` alone. -/
theorem owner_of_next {c d : ClientTCP} {k : ClientStep} (hc : c.Control)
    (howner : c.owner = .socket ∨ c.owner = .connect) (hk : usesFlag (.client k) = false)
    (hother : k ≠ .sigpipe false) (hn : c.next k = some d) :
    d.owner = .socket ∨ d.owner = .connect := by
  have hended : c.recv = .ended := by
    have hholds := hc.owner
    rcases howner with hs | hs <;> rw [hs] at hholds
    · exact hholds.2.2.2.2
    · exact hholds.2.2.2.2
  cases k with
  | socket fd =>
    simp only [ClientTCP.next, Option.ite_none_right_eq_some, Option.map_eq_some_iff] at hn
    obtain ⟨-, table, -, rfl⟩ := hn
    cases fd with
    | none => cases hk
    | some fd => exact .inr rfl
  | connect ok => cases hk
  | typed => rcases howner with hs | hs <;> simp [ClientTCP.next, ClientTCP.typedNext, hs] at hn
  | sigpipe own =>
    cases own with
    | false => exact absurd rfl hother
    | true => rcases howner with hs | hs <;> simp [ClientTCP.next, ClientTCP.sends, hs] at hn
  | recv => simp [ClientTCP.next, ClientTCP.recvNext, hended] at hn
  | read r => simp [ClientTCP.next, ClientTCP.readNext, hended] at hn
  | opens fd | closes fd =>
    simp only [ClientTCP.next, Option.ite_none_right_eq_some, Option.some.injEq] at hn
    obtain ⟨-, rfl⟩ := hn
    exact howner
  | owner =>
    rcases howner with hs | hs <;> simp [ClientTCP.next, ClientTCP.ownerNext, hs] at hn
  | epoll fd | eventfd fd | stopAgain =>
    rcases howner with hs | hs <;> simp [ClientTCP.next, hs] at hn
  | wake events | interrupted | epollFails => simp [ClientTCP.next, hended] at hn

/-- The process is between the ready flag and `connect`. -/
def Connects (p : ClientProcess) : Prop :=
  p.pc = .client ∧ (p.tcp.owner = .socket ∨ p.tcp.owner = .connect)

/-- A step that does not use the flag keeps a client that connects. -/
theorem connects_next {p q : ClientProcess} {a : ProcessStep} (ho : p.Ordered) (h : Connects p)
    (ha : usesFlag a = false) (hn : p.next a = some q) : Connects q := by
  obtain ⟨hpc, howner⟩ := h
  rcases ClientProcess.next_cases hn with ⟨hne, -⟩ | ⟨-, -, hn⟩ | ⟨-, -, hn⟩ |
    ⟨k, t, rfl, hk, -, ht, rfl⟩ | ⟨-, -, rfl⟩
  · exact absurd hpc hne
  · rcases howner with hs | hs <;>
      simp [ClientProcess.ownerNext, hs, ClientTCP.ownerNext] at hn
  · have hs := (ClientProcess.typedNext_cases hn).1
    rcases howner with hs' | hs' <;> simp [hs'] at hs
  · exact ⟨hpc, owner_of_next ho.control howner ha hk.2.2 ht⟩
  · exact ⟨hpc, howner⟩

/-- A client that has taken a flag is about to connect, or has. -/
theorem connects_of_held (hs : (processes lines).Reachable anyStep s) {k : κ} {o : Origin}
    (hheld : s.held k = some o) : Connects (s.client k) := by
  induction hs generalizing o with
  | init hinit => simp [hinit.held k] at hheld
  | @step s t l hr _ hn ih =>
    cases l with
    | host a =>
      obtain ⟨host, -, rfl⟩ := Option.map_eq_some_iff.1 hn
      exact ih hheld
    | client k' a =>
      have ho := ClientProcess.ordered_of_reachable (client_of_reachable hr k')
      obtain ⟨p, hp, ⟨o', rfl, -, rfl⟩ | ⟨-, rfl⟩⟩ := next_client_cases hn
      all_goals
        rcases eq_or_ne k k' with rfl | hne
      · simp only [ClientProcess.next, Option.ite_none_right_eq_some, Option.some.injEq] at hp
        obtain ⟨hpc, rfl⟩ := hp
        simpa [Connects] using .inl (ho.outside (by simp [hpc]))
      · simp only [Function.update_of_ne hne] at hheld ⊢
        exact ih hheld
      · cases ha : usesFlag a with
        | true => simp [ha] at hheld
        | false =>
          rw [ha, if_neg Bool.false_ne_true] at hheld
          simpa using connects_next ho (ih hheld) ha hp
      · simp only [Function.update_of_ne hne]
        refine ih (o := o) ?_
        dsimp only at hheld
        split at hheld
        · rwa [Function.update_of_ne hne] at hheld
        · exact hheld

/-- **Each ready flag lets in one client**: no flag is taken twice, a client that has one
is before its `connect`, and the server that has created it listens unless it has closed
its socket meanwhile. -/
theorem ready_flag (hs : (processes lines).Reachable anyStep s) :
    s.taken.Nodup ∧
      (∀ k o, s.held k = some o → o ∈ s.taken ∧ Connects (s.client k) ∧
        ∀ k', s.held k' = some o → k' = k) ∧
      ∀ k n, s.held k = some (.server n) → s.host.closed ≤ n → s.host.listening = true := by
  have hflags := flags_of_reachable hs
  refine ⟨hflags.nodup, fun k o hheld => ?_, fun k n hheld hle => ?_⟩
  · obtain ⟨hmem, honly⟩ := hflags.held k o hheld
    exact ⟨hmem, connects_of_held hs hheld, honly⟩
  · have hlt := (hflags.opened n (.inl (hflags.held k _ hheld).1)).1
    exact decide_eq_true (by omega)

/-- A server and a client with nothing on its standard input, without a flag. -/
def launched : Processes Unit where
  host := ⟨.test, false, false, 0, 0⟩
  readyFlag := none
  client := fun _ => .atMain []
  held := fun _ => none
  taken := []

/-- Nothing has run yet. -/
theorem isStart_launched : IsStart (fun _ => []) launched where
  host := rfl
  readyFlag := .inl rfl
  client := fun _ => ClientProcess.isStart_atMain []
  held := fun _ => rfl
  taken := rfl

/-- The server listens and creates its flag. -/
def comesUp : List (ProcessesStep Unit) :=
  [.host .main, .host (.listens true), .host (.creates true), .host (.flags true)]

/-- The client removes the flag. -/
def takesFlag : List (ProcessesStep Unit) :=
  [.client () .main, .client () (.ready true), .client () (.client (.socket (some 3)))]

/-- A server writes its flag, and the client takes it. -/
theorem ready_flag_launched : ∃ s : Processes Unit,
    s.held () = some (.server 0) ∧ s.host.listening = true ∧ s.taken.Nodup ∧
      (∀ k o, s.held k = some o → o ∈ s.taken ∧ Connects (s.client k) ∧
        ∀ k', s.held k' = some o → k' = k) ∧
      ∀ k n, s.held k = some (.server n) → s.host.closed ≤ n → s.host.listening = true := by
  obtain ⟨s, hs, hp⟩ := Reachable.exists_of_run (M := processes fun _ => [])
    (.init isStart_launched) (comesUp ++ takesFlag)
    (fun s => s.held () = some (.server 0) ∧ s.host.closed = 0) (fun _ _ _ => trivial) (by decide)
  obtain ⟨hheld, hclosed⟩ : s.held () = some (.server 0) ∧ s.host.closed = 0 := by simpa using hp
  have hflag := ready_flag hs
  exact ⟨s, hheld, hflag.2.2 () 0 hheld (by omega), hflag⟩

/-- A flag that outlives its server sends the client to a port where nobody listens. -/
example : ((processes fun _ => []).run launched (comesUp ++ [.host .falls, .host .main,
    .host .main, .host .main, .host .main] ++ takesFlag)).any (fun s =>
      s.held () = some (.server 0) ∧ s.host.listening = false ∧ s.host.stopFlag = false) := by
  decide

end Processes

end System
end WeakAyas
