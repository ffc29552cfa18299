import Cmall.UserApi

/-!
The first administrator.

The first registration of a process starts a detached task that makes the new user an
administrator when there is none. Here are the registrations and these tasks, over any
number of process lifetimes, with the attempts of `retry_database_op` one by one: a value
that an attempt has drawn from a sequence is gone, whatever becomes of the attempt.
-/

namespace Cmall.Bootstrap

/-- Where a registration, and the task it may start, waits. -/
inductive Phase where
  /-- `async_add(new_user)`. -/
  | addUser (newUser : CmallUser)
  /-- The row is there, `handle_user_login` is about to continue. -/
  | addedUser (newUser : CmallUser)
  /-- `async_load_all<administrators>`. -/
  | loadAdmins (newUser : CmallUser)
  /-- `async_add(admin)`. -/
  | addAdmin (newUser : CmallUser)
  | done
  deriving DecidableEq, Repr

/-- How an attempt of a database operation ends. -/
inductive Attempt where
  | committed
  /-- It is committed, but the connection is lost before the answer; there is another attempt. -/
  | answerLost
  /-- A recoverable error; there is another attempt. -/
  | rolledBack
  /-- An error that ends the operation with an exception. -/
  | gaveUp
  deriving DecidableEq, Repr

/-- The attempt has written its row. -/
def Attempt.writes : Attempt → Bool
  | committed | answerLost => true
  | rolledBack | gaveUp => false

structure State where
  db : Db := {}
  /-- `check_admin_flag`. -/
  checkAdminFlag : Bool := false
  tasks : List Phase := []
  deriving DecidableEq, Repr

inductive Step where
  /-- `handle_user_login` has found no user with the phone. -/
  | register (activePhone : String)
  | resume (task : Nat) (attempt : Attempt)
  /-- The server is started anew. -/
  | restart
  deriving DecidableEq, Repr

/-- `persist(new_user)`; the uid is written into the object before the row is committed. -/
def persistUser (db : Db) (u : CmallUser) (writes : Bool) : CmallUser × Db :=
  if writes then db.persistUser u
  else ((db.persistUser u).1, { db with seq := { db.seq with user := db.seq.user + 1 } })

/-- `persist(admin)`: the value of `admin.uid_` is ignored, the column is `auto`. -/
def persistAdmin (db : Db) (admin : AdministratorsRow) (writes : Bool) : Db :=
  if writes then db.persistAdministrators admin.user
  else { db with seq := { db.seq with administrators := db.seq.administrators + 1 } }

/-- One attempt, or one segment, of a task. -/
def advance (s : State) : Phase → Attempt → State × Phase
  | .addUser u, attempt =>
    let (newUser, db) := persistUser s.db u attempt.writes
    ({ s with db := db }, match attempt with
      | .committed => .addedUser newUser
      | .answerLost | .rolledBack => .addUser newUser
      | .gaveUp => .done)
  -- `std::call_once`
  | .addedUser newUser, _ =>
    if s.checkAdminFlag then (s, .done)
    else ({ s with checkAdminFlag := true }, .loadAdmins newUser)
  | .loadAdmins newUser, attempt =>
    match attempt with
    | .committed => (s, if s.db.administrators = [] then .addAdmin newUser else .done)
    | .answerLost | .rolledBack => (s, .loadAdmins newUser)
    | .gaveUp => (s, .done)
  | .addAdmin newUser, attempt =>
    let admin : AdministratorsRow := ⟨newUser.uid, some newUser.uid⟩
    ({ s with db := persistAdmin s.db admin attempt.writes }, match attempt with
      | .committed | .gaveUp => .done
      | .answerLost | .rolledBack => .addAdmin newUser)
  | .done, _ => (s, .done)

def step (s : State) : Step → State
  | .register phone => { s with tasks := s.tasks ++ [.addUser { activePhone := phone }] }
  | .resume i attempt =>
    match s.tasks[i]? with
    | some phase =>
      let (t, next) := advance s phase attempt
      { t with tasks := t.tasks.set i next }
    | none => s
  | .restart => { s with checkAdminFlag := false, tasks := [] }

end Cmall.Bootstrap
