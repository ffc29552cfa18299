import Mathlib.Data.List.Basic

/-!
`active_users`, the index from a user to the connections that are logged in as that user,
with everything that touches it: the acceptors that number the connections, the requests
that make somebody the user of a session, and the end of a connection.

The container is keyed by values that live in the connection: the id that its acceptor drew
and the `uid_` of the user of its session. An element is hashed when it is inserted, so it
stays in the bucket of the uid it had then; the look-up compares the uid it has now.

A request is followed from one `co_await` to the next. What the session holds besides the
users, and the pool threads, do not matter here.
-/

namespace Cmall.Active

/-! ## Connections -/

/-- The acceptor templates; each has a `static std::atomic_size_t id` of its own. -/
inductive Acceptor where
  | tcp | ssl | unix
  deriving DecidableEq, Repr

/-- `client_session`: the uids of `user_info`, and of the users that the `administrators`
rows in `admin_info` and `original_user` point to, if they do. -/
structure Session where
  userInfo : Option Nat := none
  adminInfo : Option (Option Nat) := none
  sudoMode : Bool := false
  originalUser : Option (Option Nat) := none
  deriving DecidableEq, Repr

/-- `client_session::clear`. -/
def Session.clear (x : Session) : Session := { x with userInfo := none, adminInfo := none }

/-- `client_connection`. `sessionInfo` is the object behind the `shared_ptr`, and
`generation` counts the objects it has pointed to. -/
structure Connection where
  acceptor : Acceptor
  connectionId : Nat
  connected : Bool := true
  sessionInfo : Option Session := none
  generation : Nat := 0
  deriving DecidableEq, Repr

/-- `session_info->user_info->uid_`. -/
def Connection.user (k : Connection) : Option Nat := k.sessionInfo.bind Session.userInfo

/-- `isAdmin` comes and goes with `admin_info`. -/
def Connection.isAdmin (k : Connection) : Bool := k.sessionInfo.any fun x => x.adminInfo.isSome

/-! ## Requests -/

/-- Where a request waits. `cookie` is recovery by cookie in `client_connected`, otherwise
it is by `recover_session`; `g` is the session object that the handler holds a reference to. -/
inductive Phase where
  /-- `session_cache_map.exist`. -/
  | exist (cookie : Bool)
  /-- `session_cache_map.load`. -/
  | load (cookie : Bool)
  /-- `alloca_sessionid` saves the new session. -/
  | alloca
  /-- `update_lifetime`, after which `load_user_info` may follow. -/
  | lifetime (userFollows : Bool)
  /-- `load_user_info`. -/
  | loadUser (g uid : Nat) (cookie : Bool)
  | loadMerchant (cookie : Bool)
  | loadAdmin (cookie : Bool)
  | loadOriginal (cookie : Bool)
  /-- `recover_session` with an api token. -/
  | token
  | tokenUser
  | tokenMerchant
  | tokenAdmin
  /-- `handle_user_login`. -/
  | lookUp (g : Nat)
  | loginMerchant (g : Nat)
  | loginAdmin (g : Nat)
  | addUser (g : Nat)
  | loginSave
  /-- `admin_sudo`. -/
  | sudoUser (g target : Nat)
  | sudoMerchant (g target : Nat)
  /-- `admin_sudo_cancel`. -/
  | cancelMerchant (g : Nat)
  /-- `save`, after which there is only the reply. -/
  | save
  | done
  /-- An empty optional, a null pointer or a freed session was dereferenced. -/
  | undefined
  deriving DecidableEq, Repr

/-- What an operation that a request waits for comes back with. -/
inductive Answer where
  /-- An exception. -/
  | error
  | no
  | yes
  /-- The row of a user. -/
  | user (uid : Nat)
  /-- The row of an administrator and the user that it points to. -/
  | admin (link : Option Nat)
  /-- A stored session. -/
  | stored (x : Session)
  deriving DecidableEq, Repr

/-- What a request does to `active_users`. -/
inductive IndexOp where
  | keep
  /-- `active_users.push_back(connection_ptr)`. -/
  | push
  /-- `active_users.get<1>().erase(connection_ptr->connection_id_)`. -/
  | erase
  deriving DecidableEq, Repr

/-- What a request does between two suspension points: to its connection, to the index, and
where it waits next. -/
structure Outcome where
  connection : Connection
  index : IndexOp := .keep
  next : Phase
  deriving DecidableEq, Repr

inductive Request where
  /-- The session cookies of an HTTP request. -/
  | cookie
  /-- `recover_session`, with a `sessionid` or without. -/
  | recoverSession (sessionid : Bool)
  | recoverToken
  /-- `alloca_sessionid` for a browser or a microapp without a session. -/
  | alloca
  /-- `user_login` and `user_fastlogin`, once the code is verified. -/
  | login
  | sudo (target : Nat)
  | sudoCancel
  | logout
  deriving DecidableEq, Repr

section Segments

variable (k : Connection)

/-- `session_info = std::make_shared<client_session>(x)`. -/
def Connection.newSession (x : Session) : Connection :=
  { k with sessionInfo := some x, generation := k.generation + 1 }

/-- Write into the session that the handler refers to, which must be that of the connection
still. -/
def change (g : Nat) (f : Session → Session) (next : Phase) : Outcome :=
  match k.sessionInfo with
  | some x =>
    if g = k.generation then { connection := { k with sessionInfo := some (f x) }, next }
    else { connection := k, next := .undefined }
  | none => { connection := k, next := .undefined }

/-- `active_users.push_back` reads the user. -/
def pushActive (next : Phase) : Outcome :=
  match k.user with
  | some _ => { connection := k, index := .push, next }
  | none => { connection := k, next := .undefined }

/-- `load_user_info` begins. -/
def loadUserInfo (cookie : Bool) : Phase :=
  match k.user with
  | some uid => .loadUser k.generation uid cookie
  | none => .undefined

/-- What follows `load_user_info`. -/
def afterLoadUserInfo (cookie : Bool) : Phase := if cookie then .lifetime false else .done

/-- `recover_session` goes on when there is a session. -/
def recoverUser : Phase := if k.user.isSome then loadUserInfo k false else .done

/-- The segment that starts a request. -/
def start : Request → Outcome
  | .cookie => { connection := k, next := if k.sessionInfo.isNone then .exist true else .done }
  | .recoverSession sessionid =>
    if k.sessionInfo.isSome then { connection := k, next := recoverUser k }
    else if sessionid then { connection := k, next := .exist false }
    else { connection := k.newSession {}, next := .alloca }
  | .recoverToken => { connection := k, next := .token }
  | .alloca =>
    if k.sessionInfo.isSome then { connection := k, next := .done }
    else { connection := k.newSession {}, next := .save }
  | .login =>
    { connection := k, next := if k.sessionInfo.isSome then .lookUp k.generation else .done }
  | .sudo target =>
    { connection := k
      next := if k.user.isSome ∧ k.isAdmin ∧ k.user ≠ some target then
          .sudoUser k.generation target
        else .done }
  | .sudoCancel =>
    match k.sessionInfo.bind fun x => if x.sudoMode then x.originalUser else none with
    | some (some _) => { connection := k, next := .cancelMerchant k.generation }
    | some none => { connection := k, next := .undefined }
    | none => { connection := k, next := .done }
  | .logout =>
    match k.sessionInfo with
    | some x =>
      { connection := { k with sessionInfo := some x.clear }, index := .erase, next := .save }
    | none => { connection := k, next := .done }

/-- `load_user_info` after the row of the administrator. -/
def loadSudo (cookie : Bool) : Outcome :=
  match k.sessionInfo with
  | some x =>
    if x.sudoMode then
      { connection := k
        next := if x.originalUser.isSome then .loadOriginal cookie else .undefined }
    else pushActive k (afterLoadUserInfo cookie)
  | none => { connection := k, next := .undefined }

/-- The fields of the session that the row of an administrator fills. -/
def Answer.fillAdmin : Answer → Session → Session
  | .admin link, x => { x with adminInfo := some link }
  | _, x => x

/-- The segment after an operation that did not throw. -/
def proceed : Phase → Answer → Outcome
  | .exist cookie, .no =>
    if cookie then { connection := k, next := .done }
    else { connection := k.newSession {}, next := .alloca }
  | .exist cookie, _ => { connection := k, next := .load cookie }
  | .load cookie, .stored x =>
    { connection := k.newSession x
      next := if cookie then
          if x.userInfo.isSome then loadUserInfo (k.newSession x) true else .lifetime false
        else .lifetime true }
  | .alloca, _ => { connection := k, next := recoverUser k }
  | .lifetime userFollows, _ =>
    { connection := k, next := if userFollows then recoverUser k else .done }
  | .loadUser _ _ cookie, .no =>
    change k k.generation (fun x => { x with userInfo := none }) (afterLoadUserInfo cookie)
  | .loadUser g uid cookie, _ =>
    if k.user.isSome then
      change k g (fun x => { x with userInfo := some uid }) (.loadMerchant cookie)
    else { connection := k, next := .undefined }
  | .loadMerchant cookie, _ =>
    { connection := k, next := if k.user.isSome then .loadAdmin cookie else .undefined }
  | .loadAdmin cookie, answer =>
    let k := { k with sessionInfo := k.sessionInfo.map answer.fillAdmin }
    loadSudo k cookie
  | .loadOriginal cookie, answer =>
    let original := match answer with
      | .admin link => link
      | _ => none
    let k := { k with
      sessionInfo := k.sessionInfo.map fun x => { x with originalUser := some original } }
    pushActive k (afterLoadUserInfo cookie)
  | .token, .no => { connection := k, next := .done }
  | .token, _ => { connection := k, next := .tokenUser }
  | .tokenUser, .user uid =>
    { connection := k.newSession { userInfo := some uid }, next := .tokenMerchant }
  | .tokenMerchant, _ => { connection := k, next := .tokenAdmin }
  | .tokenAdmin, answer =>
    { connection := { k with sessionInfo := k.sessionInfo.map answer.fillAdmin }, next := .done }
  | .lookUp g, .user uid =>
    change k g (fun x => { x with userInfo := some uid }) (.loginMerchant g)
  | .lookUp g, _ => { connection := k, next := .addUser g }
  | .loginMerchant g, .no => { connection := k, next := .loginAdmin g }
  | .loginMerchant g, _ => change k g id (.loginAdmin g)
  | .loginAdmin g, answer => change k g answer.fillAdmin .loginSave
  | .addUser g, .user uid => change k g (fun x => { x with userInfo := some uid }) .loginSave
  | .loginSave, _ => pushActive k .done
  | .sudoUser _ _, .no => { connection := k, next := .done }
  | .sudoUser g target, _ => { connection := k, next := .sudoMerchant g target }
  | .sudoMerchant g target, _ =>
    change k g (fun x => { x with
      originalUser := x.adminInfo, adminInfo := none, sudoMode := true
      userInfo := some target }) .save
  | .cancelMerchant g, _ =>
    match k.sessionInfo.bind Session.originalUser with
    | some (some uid) =>
      change k g (fun x => { x with
        adminInfo := x.originalUser, userInfo := some uid, sudoMode := false
        originalUser := none }) .save
    | _ => { connection := k, next := .undefined }
  | _, _ => { connection := k, next := .done }

/-- An exception ends the request. -/
def resume (phase : Phase) (answer : Answer) : Outcome :=
  if answer = .error then { connection := k, next := .done } else proceed k phase answer

end Segments

/-! ## The service -/

/-- An element of `active_users`: a connection and the uid by which it was hashed. -/
structure Entry where
  conn : Nat
  bucket : Nat
  deriving DecidableEq, Repr

structure Task where
  conn : Nat
  phase : Phase
  deriving DecidableEq, Repr

/-- Connections and requests go by their place in the lists. -/
structure State where
  nextId : Acceptor → Nat := fun _ => 0
  conns : List Connection := []
  activeUsers : List Entry := []
  tasks : List Task := []

inductive Step where
  /-- An acceptor draws an id and a client connects. -/
  | accept (acceptor : Acceptor)
  | request (conn : Nat) (r : Request)
  | resume (task : Nat) (answer : Answer)
  /-- The connection has ended and `client_disconnected` runs. -/
  | disconnect (conn : Nat)
  deriving DecidableEq, Repr

namespace State

variable (s : State)

def connectionId (c : Nat) : Option Nat := (s.conns[c]?).map Connection.connectionId

def user (c : Nat) : Option Nat := (s.conns[c]?).bind Connection.user

/-- `hashed_unique` refuses an element whose connection id is there. -/
def pushBack (c uid : Nat) : List Entry :=
  if s.activeUsers.any fun e => s.connectionId e.conn = s.connectionId c then s.activeUsers
  else s.activeUsers ++ [⟨c, uid⟩]

def eraseId (id : Nat) : List Entry :=
  s.activeUsers.filter fun e => s.connectionId e.conn ≠ some id

/-- `equal_range` compares the elements in the bucket of `uid`. -/
def equalRange (uid : Nat) : List Nat :=
  (s.activeUsers.filter fun e => e.bucket = uid ∧ s.user e.conn = some uid).map Entry.conn

/-- The index after a segment on connection `c`. -/
def index (c : Nat) (k : Connection) : IndexOp → List Entry
  | .keep => s.activeUsers
  | .push =>
    match k.user with
    | some uid => s.pushBack c uid
    | none => s.activeUsers
  | .erase => s.eraseId k.connectionId

/-- A segment on connection `c`; `tasks` are the requests with the one it belongs to. -/
def apply (c : Nat) (o : Outcome) (tasks : List Task) : State :=
  { s with
    conns := s.conns.set c o.connection
    activeUsers := s.index c o.connection o.index
    tasks := tasks }

end State

def step (s : State) : Step → State
  | .accept acceptor =>
    { s with
      nextId := fun b => if b = acceptor then s.nextId b + 1 else s.nextId b
      conns := s.conns ++ [{ acceptor, connectionId := s.nextId acceptor }] }
  | .request c r =>
    match s.conns[c]? with
    | some k =>
      let o := start k r
      s.apply c o (s.tasks ++ [⟨c, o.next⟩])
    | none => s
  | .resume i answer =>
    match s.tasks[i]? with
    | some t =>
      match s.conns[t.conn]? with
      | some k =>
        let o := resume k t.phase answer
        s.apply t.conn o (s.tasks.set i ⟨t.conn, o.next⟩)
      | none => s
    | none => s
  | .disconnect c =>
    match s.conns[c]? with
    | some k =>
      { s with
        conns := s.conns.set c { k with connected := false }
        activeUsers := s.eraseId k.connectionId }
    | none => s

end Cmall.Active
