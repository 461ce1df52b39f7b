/-
# The tables

The four tables of `init.sql` with their keys.  A column that may be null is an
`Option`; a text column is compared by its collation, given by the sort key of a
string.

| table | keys |
| --- | --- |
| `users` | `id`; `username` unique |
| `problems` | `id`; `title` unique |
| `problem_type_map` | `(problem_id, problem_type)`; `problem_id` of a problem |
| `submissions` | `id`; `users_id` of a user, `problem_id` of a problem |
-/

import WeakAyas.Driver.Records

namespace WeakAyas
namespace Database

/-- A row of `users`. -/
structure User where
  id : ℤ
  username : Bytes
  createdAt : Option Bytes
  deriving DecidableEq

/-- A row of `problems`. -/
structure Problem where
  id : ℤ
  title : Bytes
  difficulty : Option Bytes
  deriving DecidableEq

/-- A row of `problem_type_map`. -/
structure ProblemType where
  problemId : ℤ
  problemType : Bytes
  deriving DecidableEq

/-- A row of `submissions`; a date and a time are kept as their text. -/
structure Submission where
  id : ℤ
  problemId : Option ℤ
  usersId : Option ℤ
  status : Option ℤ
  timeSpent : Option Bytes
  timeSpentMin : Option ℤ
  submitDate : Option Bytes
  deriving DecidableEq

/-- The database `leetcode_tracker`. -/
structure Tables where
  users : List User
  problems : List Problem
  problemTypeMap : List ProblemType
  submissions : List Submission

/-- `users_id = ?` for a submission: not true of a null. -/
def Submission.ofUser (user_id : ℤ) (s : Submission) : Bool := s.usersId == some user_id

/-- `s.problem_id = p.id`. -/
def Submission.ofProblem (problem_id : ℤ) (s : Submission) : Bool := s.problemId == some problem_id

/-- The keys of `init.sql`. -/
structure Keys {κ : Type} (collation : Bytes → κ) (db : Tables) : Prop where
  usersId : (db.users.map User.id).Nodup
  usersUsername : (db.users.map fun u => collation u.username).Nodup
  problemsId : (db.problems.map Problem.id).Nodup
  problemsTitle : (db.problems.map fun p => collation p.title).Nodup
  problemTypeMap : (db.problemTypeMap.map fun t => (t.problemId, collation t.problemType)).Nodup
  submissionsId : (db.submissions.map Submission.id).Nodup
  typeOfProblem : ∀ t ∈ db.problemTypeMap, ∃ p ∈ db.problems, p.id = t.problemId
  submissionOfUser : ∀ s ∈ db.submissions, ∀ i ∈ s.usersId, ∃ u ∈ db.users, u.id = i
  submissionOfProblem : ∀ s ∈ db.submissions, ∀ i ∈ s.problemId, ∃ p ∈ db.problems, p.id = i

/-- What a user's statistics can depend on: the problems, their types, and the
user's own submissions, in any order. -/
def AgreeFor (user_id : ℤ) (db db' : Tables) : Prop :=
  db.problems.Perm db'.problems ∧ db.problemTypeMap.Perm db'.problemTypeMap ∧
    (db.submissions.filter (·.ofUser user_id)).Perm (db'.submissions.filter (·.ofUser user_id))

/-- A database agrees with itself. -/
theorem AgreeFor.refl (user_id : ℤ) (db : Tables) : AgreeFor user_id db db := ⟨.rfl, .rfl, .rfl⟩

/-- Agreement goes from one change to the next. -/
theorem AgreeFor.trans {user_id : ℤ} {db db' db'' : Tables} (h : AgreeFor user_id db db')
    (h' : AgreeFor user_id db' db'') : AgreeFor user_id db db'' :=
  ⟨h.1.trans h'.1, h.2.1.trans h'.2.1, h.2.2.trans h'.2.2⟩

end Database
end WeakAyas
