import Cmall.Service

/-!
`handle_jsonrpc_user_api`: prelogin, login, logout and the requests of a
logged-in user, with the login continuation `handle_user_login` they share.
`a` is the session object that `session_info` refers to since the handler began.
-/

namespace Cmall
open Coroutine

/-! ## Database operations -/

/-- The look-up of `handle_user_login`, recorded when it finds nobody. -/
def loadUserByPhone (ctx : Ctx) (a : Nat) (tel : String) : M (Option CmallUser) :=
  tx ctx .tx
    (fun _ s => match s.db.userByPhone tel with
      | some u => (some (some u), s)
      | none => (some none, { s with trace := .userMissed ctx.req tel :: s.trace }))
    (fun u => .lookedUp a tel u)

def Db.persistUser (db : Db) (u : CmallUser) : CmallUser × Db :=
  let row := { u with uid := db.seq.user + 1 }
  (row, { db with
    users := db.users ++ [row]
    seq := { db.seq with user := db.seq.user + 1 } })

/-- `async_add(new_user)`: the row comes back with the uid it was given. -/
def addUser (ctx : Ctx) (u : CmallUser) : M CmallUser :=
  tx ctx (.addUser u.activePhone)
    (fun _ s =>
      (some (s.db.persistUser u).1,
        { s with
          db := (s.db.persistUser u).2
          trace := .userAdded ctx.req u.activePhone :: s.trace }))
    (fun _ => .addedUser)

/-- Write a loaded row over the user object in the session at `a`. The object
exists only while the optional is engaged. -/
def Mem.overwriteUser (s : Mem) (a : Nat) (row : CmallUser) : Mem :=
  if (s.heap a).userInfo.isSome then
    s.setSession a { s.heap a with userInfo := some row }
  else s

/-- `async_load<cmall_user>(uid, *(session_info.user_info))`: the row is loaded
into the session itself. -/
def reloadUser (ctx : Ctx) (a uid : Nat) (after : Bool → Spot := fun _ => .back) : M Bool :=
  tx ctx (.reload a uid)
    (fun _ s => match s.db.findUser uid with
      | some row => (some true, s.overwriteUser a row)
      | none => (some false, s))
    after

/-- `async_update<cmall_user>(uid, updater)` where the updater also assigns the
new value to the user of the session at `a`. -/
def updateUser (ctx : Ctx) (a uid : Nat) (f : CmallUser → CmallUser) : M Bool :=
  tx ctx (.reload a uid)
    (fun _ s => match s.db.findUser uid with
      | some old =>
        let s := s.overwriteUser a (f old)
        (some true, { s with db := { s.db with
          users := Table.update CmallUser.uid s.db.users { f old with updatedAt := s.clock } } })
      | none => (some false, s))
    (fun _ => .back)

/-- `max_application_seq` over the applications of `uid`. -/
def Db.maxApplicationSeq (db : Db) (uid : Nat) : Option Nat :=
  ((db.applys.filter fun x => x.applicant = uid).filterMap (·.seq)).max?

def Db.persistApply (db : Db) (x : CmallApplyForMechant) : Option (Unit × Db) :=
  if db.applys.any (fun y => y.applicant = x.applicant ∧ y.seq = x.seq ∧ x.seq.isSome) then none
  else some ((), { db with
    applys := db.applys ++ [{ x with id := db.seq.apply + 1 }]
    seq := { db.seq with apply := db.seq.apply + 1 } })

/-- The private store, or the public one. -/
def Db.kvTable (db : Db) (pub : Bool) : List Cmall3rdKvStore := if pub then db.pubkvs else db.kvs

def Db.setKvTable (db : Db) (pub : Bool) (t : List Cmall3rdKvStore) : Db :=
  if pub then { db with pubkvs := t } else { db with kvs := t }

def Db.upsetKv (db : Db) (pub : Bool) (kv : Cmall3rdKvStore) : Db :=
  match Table.find Cmall3rdKvStore.key (db.kvTable pub) kv.key with
  | some _ => db.setKvTable pub (Table.update Cmall3rdKvStore.key (db.kvTable pub) kv)
  | none => db.setKvTable pub (db.kvTable pub ++ [kv])

/-! ## Login -/

/-- `std::call_once(check_admin_flag, ...)`: the check itself is a detached
coroutine, `checkAdmin`. -/
def Mem.callCheckAdmin (s : Mem) (u : CmallUser) : Mem :=
  match s.checkAdmin with
  | none => { s with checkAdmin := some (some u) }
  | some _ => s

/-- A login switches the merchant role on if there is a normal merchant row. -/
def loginMerchant (ctx : Ctx) (a uid : Nat) : M Unit := do
  match ← asyncLoad ctx (fun db => db.findMerchant uid) (fun _ => .role a uid) with
  | some m =>
    if m.state = .normal then
      modifySession a fun c => { c with merchantInfo := some m, isMerchant := true }
  | none => pure ()

/-- A login switches the administrator role on if there is a row. -/
def loginAdmin (ctx : Ctx) (a uid : Nat) : M Unit := do
  match ← asyncLoad ctx (fun db => db.findAdministrators uid) (fun _ => .role a uid) with
  | some admin => modifySession a fun c => { c with adminInfo := some admin, isAdmin := true }
  | none => pure ()

/-- The branch of a login for a phone without a user. The phone is read from the
session again, not from the parameter. -/
def loginNewUser (ctx : Ctx) : M Unit := do
  let phone := (← getSession (← thisSession ctx)).verifyTelephone
  let now ← localTime
  let newUser ← addUser ctx { activePhone := phone, createdAt := now, updatedAt := now }
  let b ← thisSession ctx
  modifySession b fun c => { c with userInfo := some newUser }
  emit (.identified ctx.req b newUser)
  became ctx b .login
  Co.modify fun s => s.callCheckAdmin newUser

def handleUserLogin (ctx : Ctx) (a : Nat) (telephone : String) : M Reply := do
  match ← loadUserByPhone ctx a telephone with
  | some user =>
    modifySession a fun c => { c with userInfo := some user }
    emit (.identified ctx.req a user)
    became ctx a .login
    loginMerchant ctx a user.uid
    loginAdmin ctx a user.uid
  | none => loginNewUser ctx
  modifySession a fun c => { c with verifySessionCookie := none }
  saveSession ctx
  let c ← getSession a
  pushActive ctx
  return .login c.isMerchant c.isAdmin c.sudoMode

def Db.persistAdministrators (db : Db) (user : Option Nat) : Db :=
  { db with
    administrators := db.administrators ++ [⟨db.seq.administrators + 1, user⟩]
    seq := { db.seq with administrators := db.seq.administrators + 1 } }

/-- The detached coroutine of `handle_user_login` that makes the first user of an
empty administrators table an administrator. -/
def checkAdmin (ctx : Ctx) : M Unit := do
  match (← Co.get).checkAdmin with
  | some (some newUser) =>
    Co.modify fun s => { s with checkAdmin := some none }
    let admins ← asyncLoad ctx fun db => db.administrators
    if admins.isEmpty then
      asyncWrite ctx fun s => some ((), s.db.persistAdministrators (some newUser.uid))
  | _ => pure ()

def userPrelogin (ctx : Ctx) (a : Nat) (params : JsonObject) : M Reply := do
  let tel := Json.jsonAsString (Json.get params "telephone" (.string ""))
  match ← asyncLoad ctx fun db => db.userByPhone tel with
  | some user =>
    if user.state = .banned then
      Co.throw (.system .userBanned)
  | none => pure ()
  modifySession a fun c => { c with verifyTelephone := tel }
  let cookie ← sendVerifyCode ctx tel
  modifySession a fun c => { c with verifySessionCookie := some cookie }
  saveSession ctx
  return .bool true

def userLogin (ctx : Ctx) (a : Nat) (params : JsonObject) : M Reply := do
  let verifyCode := Json.getString params "verify_code"
  match (← getSession a).verifySessionCookie with
  | some cookie =>
    if ← verifyVerifyCode verifyCode cookie then
      emit (.codeAccepted ctx.req cookie verifyCode)
      handleUserLogin ctx a (← getSession a).verifyTelephone
    else
      Co.throw (.system .invalidVerifyCode)
  | none => Co.throw (.system .invalidVerifyCode)

/-- `get_user_phone` of the one-click login service gives the phone. -/
def userFastlogin (ctx : Ctx) (a : Nat) : M Reply := do
  let realphone ← external ctx
  if realphone = "" then
    Co.throw (.system .internalServerError)
  else
    modifySession a fun c => { c with verifyTelephone := realphone }
    handleUserLogin ctx a (← getSession a).verifyTelephone

def userLogout (ctx : Ctx) : M Reply := do
  eraseActive ctx
  let a ← thisSession ctx
  modifySession a ClientSession.clear
  emit (.loggedOut ctx.req a)
  became ctx a .logout
  if (← getSession a).sessionId ≠ "" then
    saveSession ctx
  return .logout

/-! ## Requests of a logged-in user -/

def userApplyMerchant (ctx : Ctx) (a : Nat) : M Reply := do
  let uid := (← thisUser a).uid
  match ← asyncLoad ctx fun db => db.findMerchant uid with
  | some _ => Co.throw (.system .alreadyAMerchant)
  | none =>
    let uid := (← thisUser a).uid
    let seq := match ← asyncLoad ctx fun db => db.maxApplicationSeq uid with
      | some last => last + 1
      | none => 0
    let uid := (← thisUser a).uid
    let waiting ← asyncLoad ctx fun db =>
      Table.queryOne db.applys fun x => x.applicant = uid ∧ x.state = .waiting
    match waiting with
    | some _ => Co.throw (.system .alreadyExist)
    | none =>
      let user ← thisUser (← thisSession ctx)
      let now ← localTime
      asyncWrite ctx fun s => s.db.persistApply
        { applicant := user.uid, seq := some seq, createdAt := now, updatedAt := now }
      return .bool true

def userAddRecipientAddress (ctx : Ctx) (a : Nat) (params : JsonObject) : M Reply := do
  let telephone ← liftExcept (Json.sub params "telephone").asString
  let address ← liftExcept (Json.sub params "address").asString
  let name ← liftExcept (Json.sub params "name").asString
  let newAddress : Recipient := { name, telephone, address }
  let uid := (← thisUser a).uid
  let ok ← updateUser ctx a uid fun v => { v with recipients := v.recipients ++ [newAddress] }
  return .bool ok

def userEraseReceiptAddress (ctx : Ctx) (a : Nat) (params : JsonObject) : M Reply := do
  let id ← liftExcept (Json.sub params "recipient_id").asInt64
  let uid := (← thisUser a).uid
  let ok ← updateUser ctx a uid fun v =>
    if 0 ≤ id ∧ id < v.recipients.length then
      { v with recipients := v.recipients.eraseIdx id.toNat }
    else v
  return .bool ok

def user3rdKvPut (ctx : Ctx) (a : Nat) (pub : Bool) (params : JsonObject) : M Reply := do
  let keyValue ← liftExcept (Json.sub params "key_value").asString
  let value ← liftExcept (Json.sub params "value").asString
  let uid := (← thisUser a).uid
  asyncWrite ctx fun s => some ((), s.db.upsetKv pub ⟨uid, keyValue, value⟩)
  return .bool true

/-- `async_reload` of the row with the given key. -/
def kvGet (ctx : Ctx) (uid : Nat) (keyValue : String) (pub : Bool) : M Reply := do
  match ← asyncLoad ctx fun db =>
      Table.find Cmall3rdKvStore.key (db.kvTable pub) (uid, keyValue) with
  | some kv => return .text kv.value
  | none => Co.throw (.system .kvStoreKeyNotFound)

def user3rdKvGet (ctx : Ctx) (a : Nat) (pub : Bool) (params : JsonObject) : M Reply := do
  let keyValue ← liftExcept (Json.sub params "key_value").asString
  let uid := (← thisUser a).uid
  kvGet ctx uid keyValue pub

def handleJsonrpcUserApi (cfg : Config) (ctx : Ctx) (method : ReqMethod) (params : JsonObject) :
    M Reply := do
  let a ← thisSession ctx
  match method with
  | .userPrelogin => userPrelogin ctx a params
  | .userLogin => userLogin ctx a params
  | .userFastlogin => userFastlogin ctx a
  | .userLogout => userLogout ctx
  | .userIslogin => return .bool (← getSession a).userInfo.isSome
  | .userInfo =>
    let uid := (← thisUser a).uid
    return .user ((← asyncLoad ctx fun db => db.findUser uid).getD {})
  | .userApplyMerchant => userApplyMerchant ctx a
  | .userApplyInfo =>
    let uid := (← thisUser a).uid
    return .applys (← asyncLoad ctx fun db =>
      db.applys.filter fun x => x.applicant = uid ∧ x.deletedAt = none)
  | .userAddFace =>
    -- the group look-up of the face service, then one of two calls to it
    let _ ← thisUser a
    let _ ← external ctx
    let _ ← external ctx
    return .bool true
  | .userSearchByFace =>
    match (← external ctx).toNat? with
    | none => return .null
    | some uid =>
      match ← asyncLoad ctx fun db => db.findUser uid with
      | some u => return .user u
      | none => return .null
  | .userListRecipientAddress =>
    let uid := (← thisUser a).uid
    let _ ← reloadUser ctx a uid
    return .recipients (← thisUser a).recipients
  | .userAddRecipientAddress => userAddRecipientAddress ctx a params
  | .userModifyReceiptAddress => return .empty
  | .userEraseReceiptAddress => userEraseReceiptAddress ctx a params
  | .userGetWxOpenid =>
    if Json.getString params "appid" ∈ cfg.wxpayAppids then
      return .text (← external ctx)
    else
      Co.throw (.system .merchantDoesNotSupportMicroappWxpay)
  | .user3rdKvPut => user3rdKvPut ctx a false params
  | .user3rdKvGet => user3rdKvGet ctx a false params
  | .user3rdKvPutPubkey => user3rdKvPut ctx a true params
  | .user3rdKvGetPubkey => user3rdKvGet ctx a true params
  | _ => Co.throw (.other "this should never be executed")

end Cmall
