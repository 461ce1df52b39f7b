/-
# Sessions and the users table

The `SQLManager`s of all `EpollWorker`s on one database: requests, and closes that
erase a session (`SQLManager.cpp`, lines 115-132 and 467-490; `sql_driver.cpp`,
lines 179-210).

A session is the id that a LOGIN has read from `users`.  `deleteUser` removes the
row and nothing else: the session maps, of its own manager and of the others, keep
the id.  Sessions refer to users of the table in every run in which no DELETE_USER
names a user who is logged in somewhere, and such a request breaks this
(`sessions_exist`).

What `users` does is the database's own: `Accounts` says it as the statements of
`init.sql` have it.
-/

import Mathlib.Data.List.Nodup
import WeakAyas.Database.Tables
import WeakAyas.Library.TransitionSystem
import WeakAyas.Manager.Backend
import WeakAyas.Manager.Sessions

namespace WeakAyas
namespace Manager

open Driver Database TransitionSystem

variable {Db κ W : Type} [DecidableEq κ] [DecidableEq W]

/-- The `users` table of a database: its rows, the ids that `AUTO_INCREMENT` has
given out, and what the three statements on users do.  No other statement of the
driver touches it. -/
structure Accounts (collation : Bytes → κ) (dbms : Dbms Db) where
  users : Db → List User
  issued : Db → ℤ → Prop
  nodup : ∀ db, ((users db).map User.id).Nodup
  issued_of_mem : ∀ db, ∀ u ∈ users db, issued db u.id
  select : ∀ username db, ∀ r ∈ dbms.query ((Query.getUserId username).stmt db) db,
    ∃ u ∈ users db, collation u.username = collation username ∧ u.id = r.int "id"
  insert : ∀ username db,
    (users ((Mutation.registerUser username).apply dbms db) = users db ∧
      ∀ id, issued ((Mutation.registerUser username).apply dbms db) id ↔ issued db id) ∨
    ∃ u, ¬ issued db u.id ∧
      users ((Mutation.registerUser username).apply dbms db) = users db ++ [u] ∧
      ∀ id, issued ((Mutation.registerUser username).apply dbms db) id ↔ issued db id ∨ id = u.id
  delete : ∀ username db,
    users ((Mutation.deleteUser username).apply dbms db) =
      (users db).filter (fun u => collation u.username ≠ collation username) ∧
    ∀ id, issued ((Mutation.deleteUser username).apply dbms db) id ↔ issued db id
  other : ∀ (m : Mutation) db, (∀ username, m ≠ .registerUser username) →
    (∀ username, m ≠ .deleteUser username) →
    users (m.apply dbms db) = users db ∧ ∀ id, issued (m.apply dbms db) id ↔ issued db id

variable {collation : Bytes → κ} {dbms : Dbms Db} (acc : Accounts collation dbms)

namespace Accounts

/-- The id has been given out and its user is gone. -/
def Gone (db : Db) (id : ℤ) : Prop := acc.issued db id ∧ ∀ u ∈ acc.users db, u.id ≠ id

/-- What a statement of the driver does to the users: a new one, those of a name
deleted, or nothing. -/
theorem apply_cases (m : Mutation) (db : Db) :
    (∃ u, ¬ acc.issued db u.id ∧ acc.users (m.apply dbms db) = acc.users db ++ [u] ∧
      ∀ id, acc.issued (m.apply dbms db) id ↔ acc.issued db id ∨ id = u.id) ∨
    (∃ username, m = .deleteUser username ∧ acc.users (m.apply dbms db) =
        (acc.users db).filter (fun u => collation u.username ≠ collation username) ∧
      ∀ id, acc.issued (m.apply dbms db) id ↔ acc.issued db id) ∨
    acc.users (m.apply dbms db) = acc.users db ∧
      ∀ id, acc.issued (m.apply dbms db) id ↔ acc.issued db id := by
  by_cases hinsert : ∃ username, m = .registerUser username
  · obtain ⟨username, rfl⟩ := hinsert
    rcases acc.insert username db with h | h
    · exact .inr (.inr h)
    · exact .inl h
  by_cases hdelete : ∃ username, m = .deleteUser username
  · obtain ⟨username, rfl⟩ := hdelete
    exact .inr (.inl ⟨username, rfl, acc.delete username db⟩)
  · push Not at hinsert hdelete
    exact .inr (.inr (acc.other m db hinsert hdelete))

/-- A user stays, unless deleted under the own name. -/
theorem mem_apply {db : Db} {u : User} (hu : u ∈ acc.users db) {m : Mutation}
    (hm : ∀ username, m = .deleteUser username → collation u.username ≠ collation username) :
    u ∈ acc.users (m.apply dbms db) := by
  rcases acc.apply_cases m db with ⟨v, -, h, -⟩ | ⟨username, hdelete, h, -⟩ | ⟨h, -⟩ <;> rw [h]
  · exact List.mem_append_left _ hu
  · exact List.mem_filter.2 ⟨hu, by simpa using hm username hdelete⟩
  · exact hu

/-- What has been given out stays so. -/
theorem issued_apply {db : Db} {id : ℤ} (h : acc.issued db id) (m : Mutation) :
    acc.issued (m.apply dbms db) id := by
  rcases acc.apply_cases m db with ⟨v, -, -, hids⟩ | ⟨username, -, -, hids⟩ | ⟨-, hids⟩
  · exact (hids id).2 (.inl h)
  · exact (hids id).2 h
  · exact (hids id).2 h

/-- **An id that is gone stays gone**: it is not given out again. -/
theorem gone_apply {db : Db} {id : ℤ} (h : acc.Gone db id) (m : Mutation) :
    acc.Gone (m.apply dbms db) id := by
  refine ⟨acc.issued_apply h.1 m, fun u hu => ?_⟩
  rcases acc.apply_cases m db with ⟨v, hfresh, husers, -⟩ | ⟨username, -, husers, -⟩ |
    ⟨husers, -⟩ <;> rw [husers] at hu
  · rcases List.mem_append.1 hu with hu | hu
    · exact h.2 u hu
    · -- a new user gets an id that has not been given out
      obtain rfl := List.mem_singleton.1 hu
      exact fun heq => hfresh (heq ▸ h.1)
  · exact h.2 u (List.mem_filter.1 hu).1
  · exact h.2 u hu

/-- `getUserId` answers `-1` or the id of a user. -/
theorem exists_user_of_getUserId {f : ℕ → Bool} {db : Db} {username : Bytes} {id : ℤ}
    (h : (driverOn dbms f db).getUserId username = .ok id) (hid : id ≠ -1) :
    ∃ u ∈ acc.users db, u.id = id := by
  rcases Query.eq_of_perform_getUserId dbms h with rfl | ⟨row, rows, hq, rfl⟩
  · exact absurd rfl hid
  · obtain ⟨u, hu, -, hrow⟩ := acc.select username db row (by simp [hq])
    exact ⟨u, hu, hrow⟩

end Accounts

/-! ### The managers of all workers -/

/-- The managers, one a worker, and the database they share. -/
structure Service (W Db : Type) where
  mgrs : W → SQLManager
  db : Db

/-- A request on a descriptor of a worker, with the connector calls that fail in
it, and the close of one. -/
inductive ServiceStep (W : Type) where
  | request (w : W) (f : ℕ → Bool) (fd : Fd) (pkg : SocketPackage)
  | eraseFd (w : W) (fd : Fd)

/-- A step of the service. -/
def Service.next (dbms : Dbms Db) (s : Service W Db) : ServiceStep W → Option (Service W Db)
  | .request w f fd pkg =>
    let o := handleRequest (driverOn dbms f s.db) (s.mgrs w) fd pkg
    some ⟨Function.update s.mgrs w o.mgr, databaseAfter dbms f o.log s.db⟩
  | .eraseFd w fd => some { s with mgrs := Function.update s.mgrs w (eraseFd (s.mgrs w) fd) }

/-- New managers on any database. -/
def service (W : Type) [DecidableEq W] (dbms : Dbms Db) :
    TransitionSystem (Service W Db) (ServiceStep W) where
  init s := ∃ special_id : W → ℤ, s.mgrs = fun w => .fresh (special_id w)
  next := Service.next dbms

/-- Whoever passes `check_login` does so as a user of the table. -/
def Service.SessionsExist (s : Service W Db) : Prop :=
  ∀ w fd id, (s.mgrs w).userFdToId fd = some id → ∃ u ∈ acc.users s.db, u.id = id

/-- A DELETE_USER request of a session that may make it names no user who is
logged in anywhere. -/
def DeletesLoggedOut (s : Service W Db) : ServiceStep W → Prop
  | .request w _ fd pkg => SqlProtocol.ofByte pkg.cType = some .deleteUser →
    (s.mgrs w).userFdToId fd = some (s.mgrs w).specialId →
    ∀ username fields, getdata pkg = username :: fields →
      ∀ u ∈ acc.users s.db, collation u.username = collation username →
        ∀ w' fd', (s.mgrs w').userFdToId fd' ≠ some u.id
  | .eraseFd _ _ => True

/-- A user is deleted by a DELETE_USER request of the special session that names
the user first. -/
theorem of_deleteUser_mem_log {db : SqlDriver} {mgr : SQLManager} {fd : Fd} {pkg : SocketPackage}
    {username : Bytes} (h : .deleteUser username ∈ (handleRequest db mgr fd pkg).log) :
    SqlProtocol.ofByte pkg.cType = some .deleteUser ∧
      mgr.userFdToId fd = some mgr.specialId ∧ ∃ fields, getdata pkg = username :: fields := by
  have hsession : mgr.userFdToId fd = some mgr.specialId :=
    handleRequest_permitted mgr fd db pkg _ h
  have ht : SqlProtocol.ofByte pkg.cType = some .deleteUser := by
    rcases handleRequest_requestType mgr fd db pkg _ h with ht | ht
    · cases ht
    · exact ht.symm
  refine ⟨ht, hsession, ?_⟩
  simp only [handleRequest, ht, handleDeleteUser, checkLogin, hsession, checkSpecial, ne_eq,
    not_true_eq_false, if_false] at h
  split at h
  · simp [sendData] at h
  · rename_i deleteuser fields hd
    rcases hq : db.deleteUser deleteuser with e | ok <;>
      simp only [call, hq, Outcome.after, sendData, List.mem_cons, List.not_mem_nil, or_false,
        Action.deleteUser.injEq, reduceCtorEq] at h
    · exact ⟨fields, h ▸ hd⟩
    · exact ⟨fields, h ▸ hd⟩

/-- A login changes no table. -/
theorem mutation_of_loginAttempt {db : SqlDriver} {mgr : SQLManager} {fd : Fd} {pkg : SocketPackage}
    {n : Bytes} {id : ℤ} (h : loginAttempt db pkg = some (n, id)) :
    (handleRequest db mgr fd pkg).log.filterMap Action.mutation = [] := by
  have ht : SqlProtocol.ofByte pkg.cType = some .login := by
    unfold loginAttempt at h
    split at h
    · assumption
    · cases h
  refine List.filterMap_eq_nil_iff.2 fun a ha => ?_
  have htype := handleRequest_requestType mgr fd db pkg a ha
  rw [ht] at htype
  cases a <;> first | rfl | simp [Action.requestType] at htype

/-! ### Runs -/

variable {acc}

omit [DecidableEq W] in
/-- Every user who is not deleted by the request is still there after it. -/
theorem mem_users_databaseAfter {s : Service W Db} {w : W} {f : ℕ → Bool} {fd : Fd}
    {pkg : SocketPackage} (hok : DeletesLoggedOut acc s (.request w f fd pkg)) {u : User}
    (hu : u ∈ acc.users s.db) {w' : W} {fd' : Fd}
    (hsession : (s.mgrs w').userFdToId fd' = some u.id) :
    u ∈ acc.users (databaseAfter dbms f
      (handleRequest (driverOn dbms f s.db) (s.mgrs w) fd pkg).log s.db) := by
  refine databaseAfter_induction dbms (P := fun db => u ∈ acc.users db)
    (fun a ha m hm db hdb => ?_) hu
  refine acc.mem_apply hdb fun username hdelete hname => ?_
  have ha' : a = .deleteUser username := by
    subst hdelete
    cases a <;> simp_all [Action.mutation]
  obtain ⟨ht, hspecial, fields, hd⟩ := of_deleteUser_mem_log (ha' ▸ ha)
  exact hok ht hspecial username fields hd u hu hname w' fd' hsession

/-- **A step that deletes nobody who is logged in keeps the sessions.** -/
theorem Service.SessionsExist.next {s s' : Service W Db} {l : ServiceStep W}
    (h : s.SessionsExist acc) (hok : DeletesLoggedOut acc s l) (hn : s.next dbms l = some s') :
    s'.SessionsExist acc := by
  intro w' fd' id hid
  cases l with
  | eraseFd w fd =>
    obtain rfl := Option.some.inj hn
    dsimp only at hid
    rcases eq_or_ne w' w with rfl | hw
    · rw [Function.update_self, eraseFd_userFdToId] at hid
      rcases eq_or_ne fd' fd with rfl | hfd
      · simp at hid
      · rw [Function.update_of_ne hfd] at hid
        exact h _ _ _ hid
    · rw [Function.update_of_ne hw] at hid
      exact h _ _ _ hid
  | request w f fd pkg =>
    obtain rfl := Option.some.inj hn
    -- the sessions of before keep their users
    have hkeep : ∀ w' fd' id, (s.mgrs w').userFdToId fd' = some id → ∃ u ∈ acc.users
        (databaseAfter dbms f (handleRequest (driverOn dbms f s.db) (s.mgrs w) fd pkg).log s.db),
        u.id = id := by
      intro w' fd' id hsession
      obtain ⟨u, hu, rfl⟩ := h w' fd' id hsession
      exact ⟨u, mem_users_databaseAfter hok hu hsession, rfl⟩
    dsimp only at hid ⊢
    rcases eq_or_ne w' w with rfl | hw
    · rw [Function.update_self, handleRequest_mgr] at hid
      rcases hattempt : loginAttempt (driverOn dbms f s.db) pkg with _ | ⟨n, id'⟩
      · rw [hattempt] at hid
        exact hkeep _ _ _ hid
      · rw [hattempt] at hid
        by_cases hnew : id' ≠ -1 ∧ fd' = fd
        · -- the session of this login
          obtain ⟨hid', rfl⟩ := hnew
          obtain rfl : id' = id := by simpa [SQLManager.attempted, hid'] using hid
          rw [databaseAfter, mutation_of_loginAttempt hattempt]
          exact acc.exists_user_of_getUserId (getUserId_of_loginAttempt hattempt).1 hid'
        · refine hkeep w' fd' id ?_
          by_cases hid' : id' = -1
          · simpa [SQLManager.attempted, hid'] using hid
          · have hfd : fd' ≠ fd := fun heq => hnew ⟨hid', heq⟩
            simpa [SQLManager.attempted, hid', hfd] using hid
    · rw [Function.update_of_ne hw] at hid
      exact hkeep _ _ _ hid

/-- A step brings nobody back. -/
theorem gone_next {s s' : Service W Db} {l : ServiceStep W} {id : ℤ} (h : acc.Gone s.db id)
    (hn : s.next dbms l = some s') : acc.Gone s'.db id := by
  cases l with
  | eraseFd w fd =>
    obtain rfl := Option.some.inj hn
    exact h
  | request w f fd pkg =>
    obtain rfl := Option.some.inj hn
    exact databaseAfter_induction dbms (P := fun db => acc.Gone db id)
      (fun _ _ m _ db hdb => acc.gone_apply hdb m) h

/-- Nor does a run. -/
theorem gone_run {s s' : Service W Db} {ls : List (ServiceStep W)} {id : ℤ}
    (h : acc.Gone s.db id) (hrun : (service W dbms).run s ls = some s') : acc.Gone s'.db id := by
  induction ls generalizing s with
  | nil => exact Option.some.inj hrun ▸ h
  | cons l ls ih =>
    rw [TransitionSystem.run] at hrun
    split at hrun
    · cases hrun
    · rename_i t ht
      exact ih (gone_next h ht) hrun

omit [DecidableEq W] in
/-- What a DELETE_USER request asks of the database. -/
theorem databaseAfter_deleteUser {s : Service W Db} {w : W} {f : ℕ → Bool} {fd : Fd}
    {pkg : SocketPackage} {username : Bytes} {fields : List Bytes}
    (ht : SqlProtocol.ofByte pkg.cType = some .deleteUser)
    (hspecial : (s.mgrs w).userFdToId fd = some (s.mgrs w).specialId)
    (hd : getdata pkg = username :: fields) :
    databaseAfter dbms f (handleRequest (driverOn dbms f s.db) (s.mgrs w) fd pkg).log s.db =
      ((Mutation.deleteUser username).perform dbms f s.db).2 := by
  have hlog : (handleRequest (driverOn dbms f s.db) (s.mgrs w) fd pkg).log.filterMap
      Action.mutation = [.deleteUser username] := by
    simp only [handleRequest, ht, handleDeleteUser, checkLogin, hspecial, checkSpecial, hd,
      ne_eq, not_true_eq_false, if_false]
    rcases (driverOn dbms f s.db).deleteUser username with e | ok <;> rfl
  rw [databaseAfter, hlog, List.foldl_cons, List.foldl_nil]

/-- **A request that deletes somebody who is logged in leaves that session
behind**, when no connector call fails. -/
theorem not_sessionsExist_of_deleted {s s' : Service W Db} {w : W} {fd : Fd} {pkg : SocketPackage}
    (hok : ¬ DeletesLoggedOut acc s (.request w (fun _ => false) fd pkg))
    (hn : s.next dbms (.request w (fun _ => false) fd pkg) = some s') : ¬ s'.SessionsExist acc := by
  simp only [DeletesLoggedOut] at hok
  push Not at hok
  obtain ⟨ht, hspecial, username, fields, hd, u, hu, hname, w', fd', hsession⟩ := hok
  obtain rfl := Option.some.inj hn
  have hattempt : loginAttempt (driverOn dbms (fun _ => false) s.db) pkg = none := by
    simp [loginAttempt, ht]
  have hgo : (Mutation.deleteUser username).goesOn dbms s.db = true := rfl
  intro h
  obtain ⟨v, hv, hid⟩ := h w' fd' u.id (by
    rcases eq_or_ne w' w with rfl | hw
    · simpa [handleRequest_mgr, hattempt] using hsession
    · simpa [hw] using hsession)
  dsimp only at hv
  rw [databaseAfter_deleteUser ht hspecial hd, database_of_quiet dbms hgo,
    (acc.delete username s.db).1, List.mem_filter] at hv
  obtain rfl : v = u := List.inj_on_of_nodup_map (acc.nodup s.db) hv.1 hu hid
  simp [hname] at hv

variable (acc)

/-- **Sessions refer to existing users in every run that deletes nobody who is
logged in**, so that nobody who is gone has a session; an id that is gone stays
gone.  The condition is exact: a DELETE_USER of somebody who is logged in, on
whatever worker, leaves that session behind. -/
theorem sessions_exist :
    (∀ s, (service W dbms).Reachable (DeletesLoggedOut acc) s → s.SessionsExist acc ∧
      ∀ id, acc.Gone s.db id → ∀ w fd, (s.mgrs w).userFdToId fd ≠ some id) ∧
    (∀ s l s' ls s'', Service.next (W := W) dbms s l = some s' →
      (service W dbms).run s' ls = some s'' → ∀ u ∈ acc.users s.db,
        (∀ v ∈ acc.users s'.db, v.id ≠ u.id) → acc.Gone s''.db u.id) ∧
    ∀ s s' w fd pkg, ¬ DeletesLoggedOut (W := W) acc s (.request w (fun _ => false) fd pkg) →
      s.next dbms (.request w (fun _ => false) fd pkg) = some s' → ¬ s'.SessionsExist acc := by
  refine ⟨fun s hs => ?_, fun s l s' ls s'' hn hrun u hu hdeleted => ?_,
    fun s s' w fd pkg => not_sessionsExist_of_deleted⟩
  · have hexist : s.SessionsExist acc := by
      refine hs.invariant (fun s hinit w fd id hid => ?_) fun s s' l h hok hn => h.next hok hn
      obtain ⟨special_id, hmgrs⟩ := hinit
      simp [hmgrs, SQLManager.fresh] at hid
    refine ⟨hexist, fun id hgone w fd hid => ?_⟩
    obtain ⟨u, hu, heq⟩ := hexist w fd id hid
    exact hgone.2 u hu heq
  · refine gone_run ⟨?_, hdeleted⟩ hrun
    have hissued := acc.issued_of_mem s.db u hu
    cases l with
    | eraseFd w fd =>
      obtain rfl := Option.some.inj hn
      exact hissued
    | request w f fd pkg =>
      obtain rfl := Option.some.inj hn
      exact databaseAfter_induction dbms (P := fun db => acc.issued db u.id)
        (fun _ _ m _ db hdb => acc.issued_apply hdb m) hissued

/-! ### A users table -/

/-- The rows of `users` and the next id. -/
structure UserTable where
  users : List User
  nextId : ℤ
  nodup : (users.map User.id).Nodup
  lt_nextId : ∀ u ∈ users, u.id < nextId

/-- A new user, unless the name is taken. -/
def UserTable.insert (t : UserTable) (username : Bytes) : UserTable × ℕ :=
  if t.users.any (·.username == username) then (t, 0)
  else
    ({ users := t.users ++ [⟨t.nextId, username, none⟩]
       nextId := t.nextId + 1
       nodup := by
        rw [List.map_append, List.nodup_append]
        refine ⟨t.nodup, by simp, fun i hi j hj => ?_⟩
        obtain ⟨u, hu, rfl⟩ := List.mem_map.1 hi
        obtain rfl : j = t.nextId := by simpa using hj
        exact (t.lt_nextId u hu).ne
       lt_nextId := fun u hu => by
        rcases List.mem_append.1 hu with hu | hu
        · exact (t.lt_nextId u hu).trans (lt_add_one _)
        · rw [List.mem_singleton.1 hu]
          exact lt_add_one _ }, 1)

/-- The table without the users of the name. -/
def UserTable.delete (t : UserTable) (username : Bytes) : UserTable × ℕ :=
  ({ t with
     users := t.users.filter fun u => u.username ≠ username
     nodup := t.nodup.sublist (List.filter_sublist.map _)
     lt_nextId := fun u hu => t.lt_nextId u (List.mem_filter.1 hu).1 },
    t.users.countP fun u => u.username = username)

/-- A deletion that meets no row changes nothing. -/
theorem UserTable.delete_unchanged {t : UserTable} {username : Bytes}
    (h : (t.delete username).2 = 0) : (t.delete username).1 = t := by
  have hall : (t.users.filter fun u => u.username ≠ username) = t.users :=
    List.filter_eq_self.2 fun u hu => by simpa using List.countP_eq_zero.1 h u hu
  obtain ⟨users, nextId, hnodup, hlt⟩ := t
  simp only [UserTable.delete, UserTable.mk.injEq, and_true]
  exact hall

/-- The texts of the statements. -/
def registerUserSql : String := (Mutation.registerUser []).stmt.sql
def deleteUserSql : String := (Mutation.deleteUser []).stmt.sql
def getUserIdSql : String := ((Query.getUserId []).stmt ()).sql

/-- The two statements are told apart by their text. -/
theorem deleteUserSql_ne : deleteUserSql ≠ registerUserSql := by decide +kernel

/-- The three statements on users, by their text. -/
def usersDbms : Dbms UserTable where
  query p t := match p with
    | ⟨sql, [(1, .str username)]⟩ =>
      if sql = getUserIdSql then
        (t.users.filter fun u => u.username = username).map fun u =>
          ⟨fun _ => u.id, fun _ => u.username, fun _ => false⟩
      else []
    | _ => []
  update p t := match p with
    | ⟨sql, [(1, .str username)]⟩ =>
      if sql = registerUserSql then t.insert username
      else if sql = deleteUserSql then t.delete username
      else (t, 0)
    | _ => (t, 0)
  unchanged p t := by
    split
    · split_ifs
      · unfold UserTable.insert
        split_ifs
        · exact fun _ => rfl
        · simp
      · exact UserTable.delete_unchanged
      · exact fun _ => rfl
    · exact fun _ => rfl

/-- A registration inserts. -/
theorem apply_registerUser (username : Bytes) (t : UserTable) :
    (Mutation.registerUser username).apply usersDbms t = (t.insert username).1 := by
  have hstmt : (Mutation.registerUser username).stmt = ⟨registerUserSql, [(1, .str username)]⟩ :=
    rfl
  simp only [Mutation.apply, hstmt, usersDbms, if_true]

/-- A deletion deletes. -/
theorem apply_deleteUser (username : Bytes) (t : UserTable) :
    (Mutation.deleteUser username).apply usersDbms t = (t.delete username).1 := by
  have hstmt : (Mutation.deleteUser username).stmt = ⟨deleteUserSql, [(1, .str username)]⟩ := rfl
  simp only [Mutation.apply, hstmt, usersDbms, deleteUserSql_ne, if_false, if_true]

/-- The other statements leave the users. -/
theorem apply_other {m : Mutation} (t : UserTable)
    (hinsert : ∀ username, m ≠ .registerUser username)
    (hdelete : ∀ username, m ≠ .deleteUser username) : m.apply usersDbms t = t := by
  cases m with
  | registerUser username => exact absurd rfl (hinsert username)
  | deleteUser username => exact absurd rfl (hdelete username)
  | _ => rfl

/-- **There is a users table.** -/
def userAccounts : Accounts id usersDbms where
  users t := t.users
  issued t i := i < t.nextId
  nodup t := t.nodup
  issued_of_mem t := t.lt_nextId
  select username t r hr := by
    have hstmt : (Query.getUserId username).stmt t = ⟨getUserIdSql, [(1, .str username)]⟩ := rfl
    simp only [usersDbms, hstmt, if_true] at hr
    obtain ⟨u, hu, rfl⟩ := List.mem_map.1 hr
    obtain ⟨hmem, hname⟩ := List.mem_filter.1 hu
    exact ⟨u, hmem, by simpa using hname, rfl⟩
  insert username t := by
    rw [apply_registerUser, UserTable.insert]
    split_ifs
    · exact .inl ⟨rfl, fun _ => Iff.rfl⟩
    · refine .inr ⟨_, lt_irrefl _, rfl, fun i => ?_⟩
      exact Int.lt_add_one_iff.trans Int.le_iff_lt_or_eq
  delete username t := by
    rw [apply_deleteUser]
    exact ⟨rfl, fun _ => Iff.rfl⟩
  other m t hinsert hdelete := by
    rw [apply_other t hinsert hdelete]
    exact ⟨rfl, fun _ => Iff.rfl⟩

/-- Oscar and Alice. -/
def twoUsers : UserTable where
  users := [⟨1, oscar, none⟩, ⟨2, text "Alice", none⟩]
  nextId := 3
  nodup := by decide
  lt_nextId := by decide

/-- Oscar, Alice and Bob. -/
def threeUsers : UserTable where
  users := [⟨1, oscar, none⟩, ⟨2, text "Alice", none⟩, ⟨3, text "Bob", none⟩]
  nextId := 4
  nodup := by decide
  lt_nextId := by decide

/-- Alice is logged in on one worker, Oscar on another. -/
def loggedIn : Service Bool UserTable where
  mgrs := Function.update
    (Function.update (fun _ => .fresh 0) true ((SQLManager.fresh 0).attempted 6 (text "Alice") 2))
    false ((SQLManager.fresh 0).attempted 5 oscar 1)
  db := threeUsers

/-- The state is reached without a deletion of somebody logged in. -/
theorem reachable_loggedIn :
    (service Bool usersDbms).Reachable (DeletesLoggedOut userAccounts) loggedIn := by
  have hstart : (service Bool usersDbms).Reachable (DeletesLoggedOut userAccounts)
      ⟨fun _ => .fresh 0, threeUsers⟩ := .init ⟨fun _ => 0, rfl⟩
  refine ((hstart.step (l := .request true (fun _ => false) 6
      (fieldPackage .login (text "Alice") (by decide))) ?_ rfl).step
    (l := .request false (fun _ => false) 5 (fieldPackage .login oscar (by decide))) ?_ rfl)
  all_goals exact fun ht => by cases ht

/-- Oscar deletes Bob. -/
def deletesBob : ServiceStep Bool :=
  .request false (fun _ => false) 5 (fieldPackage .deleteUser (text "Bob") isField_bob)

/-- Nobody is logged in as Bob. -/
theorem deletesLoggedOut_deletesBob : DeletesLoggedOut userAccounts loggedIn deletesBob := by
  intro _ _ username fields hd u hu hname w fd hsession
  obtain rfl : text "Bob" = username := (List.cons.inj hd).1
  have hall : ∀ u ∈ threeUsers.users, u.username = text "Bob" → u.id = 3 := by decide
  rw [hall u hu hname] at hsession
  cases w <;> simp [loggedIn, SQLManager.attempted, SQLManager.fresh, Function.update_apply]
    at hsession

/-- Alice's session outlives Bob, whose id is gone for good. -/
theorem sessions_exist_loggedIn :
    ∃ s, (service Bool usersDbms).Reachable (DeletesLoggedOut userAccounts) s ∧
      (s.mgrs true).userFdToId 6 = some 2 ∧ userAccounts.Gone s.db 3 ∧
      s.SessionsExist userAccounts ∧
      ∀ id, userAccounts.Gone s.db id → ∀ w fd, (s.mgrs w).userFdToId fd ≠ some id := by
  obtain ⟨s, hn⟩ : ∃ s, (service Bool usersDbms).next loggedIn deletesBob = some s := ⟨_, rfl⟩
  have hs := reachable_loggedIn.step deletesLoggedOut_deletesBob hn
  obtain ⟨hexist, hgone, -⟩ := sessions_exist (W := Bool) userAccounts
  have hrest : ∀ v ∈ s.db.users, v.id ≠ 3 := by
    cases hn
    decide +kernel
  have hbob := hgone loggedIn deletesBob s [] s hn rfl ⟨3, text "Bob", none⟩ (by decide) hrest
  refine ⟨s, hs, ?_, hbob, hexist s hs⟩
  cases hn
  rfl

/-- Alice logs in on one worker, Oscar on another, and he deletes her: her session
stays. -/
theorem not_sessionsExist_alice :
    ∃ s, (service Bool usersDbms).Reachable anyStep s ∧ ¬ s.SessionsExist userAccounts := by
  have hstart : (service Bool usersDbms).Reachable anyStep ⟨fun _ => .fresh 0, twoUsers⟩ :=
    .init ⟨fun _ => 0, rfl⟩
  obtain ⟨s, hs, hstale⟩ := hstart.exists_of_run
    [.request true (fun _ => false) 6 (fieldPackage .login (text "Alice") (by decide)),
      .request false (fun _ => false) 5 (fieldPackage .login oscar (by decide)),
      .request false (fun _ => false) 5 (fieldPackage .deleteUser (text "Alice") (by decide))]
    (fun s => (s.mgrs true).userFdToId 6 == some 2 && s.db.users.all (·.id != 2))
    (fun _ _ _ => trivial) (by decide +kernel)
  refine ⟨s, hs, fun h => ?_⟩
  simp only [Bool.and_eq_true, beq_iff_eq, List.all_eq_true, bne_iff_ne] at hstale
  obtain ⟨u, hu, hid⟩ := h true 6 2 hstale.1
  exact hstale.2 u hu hid

end Manager
end WeakAyas
