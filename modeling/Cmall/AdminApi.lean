import Cmall.GoodsApi
import Cmall.MerchantApi

/-!
`handle_jsonrpc_admin_api`: users, merchants, applications, the index page and
sudo. `a` is the session object that `session_info` refers to since the handler
began.
-/

namespace Cmall
open Coroutine

/-! ## Database operations -/

/-- `async_transacton` is not wrapped in the retries: its exceptions come as they are. -/
def asyncTransacton {α : Type} (x : M α) : M α := x.tryCatch fun _ => Co.throw (.std "odb")

/-- `update<cmall_user>(uid, updater)` of `admin_user_ban`. -/
def Db.banUser (db : Db) (uid : Nat) (now : PTime) : Db :=
  match db.findUser uid with
  | some old =>
    let row := { old with state := .banned, updatedAt := now }
    { db with users := Table.update CmallUser.uid db.users row }
  | none => db

/-- `db.find(apply_id, apply)`: the row, and the user it points to. -/
def Db.findApply (db : Db) (applyId : Nat) : Option (CmallApplyForMechant × Option CmallUser) :=
  (Table.find CmallApplyForMechant.id db.applys applyId).map fun x => (x, db.findUser x.applicant)

/-- The writes of `admin_approve_merchant` for the row and the user that were found; `none`
when they throw. -/
def Db.approveMerchant (db : Db) (x : CmallApplyForMechant) (u : CmallUser) (password : String)
    (now : PTime) : Option (CmallMerchant × Db) :=
  match Table.find CmallApplyForMechant.id db.applys x.id, db.findMerchant u.uid with
  | some _, none =>
    let row := { x with state := .approved, deletedAt := some now }
    let m : CmallMerchant :=
      { uid := u.uid, name := u.name, giteaPassword := some password
        createdAt := now, updatedAt := now }
    some (m, { db with
      applys := Table.update CmallApplyForMechant.id db.applys row
      merchants := db.merchants ++ [m] })
  | _, _ => none

/-- The write of `admin_deny_applicant` for the row that was found. -/
def Db.denyApplicant (db : Db) (x : CmallApplyForMechant) (reason : String) (now : PTime) :
    Option (Unit × Db) :=
  match Table.find CmallApplyForMechant.id db.applys x.id with
  | some _ =>
    let row := { x with state := .denied, ext := reason, updatedAt := now }
    some ((), { db with applys := Table.update CmallApplyForMechant.id db.applys row })
  | none => none

def Db.setMerchantStates (db : Db) (mids : List Nat) (state : MerchantState) (now : PTime) : Db :=
  { db with merchants := db.merchants.map fun m =>
      if m.uid ∈ mids then { m with state := state, updatedAt := now } else m }

/-- `update(target_m)`: the whole row. -/
def Db.storeMerchant (db : Db) (m : CmallMerchant) (now : PTime) : Option (Unit × Db) :=
  match db.findMerchant m.uid with
  | some _ =>
    let row := { m with updatedAt := now }
    some ((), { db with merchants := Table.update CmallMerchant.uid db.merchants row })
  | none => none

def Db.persistIndexGoods (db : Db) (g : CmallIndexPageGoods) : Db :=
  { db with
    indexGoods := db.indexGoods ++ [{ g with id := db.seq.indexGoods + 1 }]
    seq := { db.seq with indexGoods := db.seq.indexGoods + 1 } }

/-- `erase_query` of all rows counts them; nothing is done when there were none. -/
def Db.setIndexGoods (db : Db) (goods : List CmallIndexPageGoods) : Bool × Db :=
  if db.indexGoods = [] then (false, db)
  else (true, goods.foldl Db.persistIndexGoods { db with indexGoods := [] })

/-! ## Users and merchants -/

def adminUserBan (ctx : Ctx) (params : JsonObject) : M Reply := do
  let uid ← liftExcept (Json.get params "uid" (.int64 (-1))).asInt64
  if uid < 0 then
    Co.throw (.system .invalidParams)
  asyncWrite ctx fun s => some ((), s.db.banUser uid.toNat s.clock)
  let _ ← asyncWrite ctx fun s => some (s.db.updateMerchant uid.toNat s.clock fun m =>
    { m with state := .banned })
  return .bool true

/-- The transaction of `admin_approve_merchant`: without a result when it is rolled back.
The row is selected and then written back as a whole; under `READ COMMITTED` other
transactions can commit in between. -/
def approveTransaction (ctx : Ctx) (applyId : Nat) : M (Option CmallMerchant) :=
  asyncTransacton do
    match ← asyncLoad ctx fun db => db.findApply applyId with
    | none => return none
    | some (_, none) => Co.throw (.std "object_not_persistent")
    | some (x, some u) =>
      if x.state ≠ .waiting then return none
      else
        let password ← genUuid ctx
        let m ← asyncWrite ctx (fun s => s.db.approveMerchant x u password s.clock) (.approve x)
        return some m

/-- `create_user` and `create_repo` of the gitea service: done when the status is 201. -/
def giteaCreate (ctx : Ctx) (created : Event) : M Bool := do
  if (← external ctx) = "201" then
    emit created
    return true
  else
    return false

/-- `gitea_service.init_user`. -/
def initUser (ctx : Ctx) (uid : Nat) : M Bool := do
  if ← giteaCreate ctx (.giteaUser ctx.req uid) then
    giteaCreate ctx (.giteaRepo ctx.req uid)
  else
    return false

/-- `load_merchant_git`: a repository that is not there is forgotten; one that is there
comes with a `setRepo`. -/
def loadMerchantGit (ctx : Ctx) (uid : Nat) : M Bool := do
  if (← external ctx) = "true" then
    return true
  else
    Co.modify fun s => { s with repos := fun m => if m = uid then none else s.repos m }
    return false

/-- What is done for a new merchant; the results are not looked at. -/
def initMerchant (ctx : Ctx) (applyId uid : Nat) : M Reply := do
  let _ ← initUser ctx uid
  let _ ← loadMerchantGit ctx uid
  sendNotifyMessage ctx applyId "\x7b\x7b\"topic\":\"status_updated\"\x7d\x7d"
  return .bool true

def adminApproveMerchant (ctx : Ctx) (params : JsonObject) : M Reply := do
  let applyId ← liftExcept (Json.get params "apply_id" (.int64 (-1))).asInt64
  if applyId < 0 then
    Co.throw (.system .invalidParams)
  match ← approveTransaction ctx applyId.toNat with
  | none => return .bool true
  | some m => initMerchant ctx applyId.toNat m.uid

/-- The query of `admin_deny_applicant`. -/
def Db.findWaiting (db : Db) (applyId : Nat) : Option CmallApplyForMechant :=
  Table.queryOne db.applys fun x => x.id = applyId ∧ x.state = .waiting

/-- `async_update<cmall_apply_for_mechant>(query, updater)` selects the row and writes it
back as a whole. -/
def denyWaiting (ctx : Ctx) (applyId : Nat) (reason : String) : M Unit := do
  match ← asyncLoad ctx fun db => db.findWaiting applyId with
  | some x => asyncWrite ctx (fun s => s.db.denyApplicant x reason s.clock) (.deny x)
  | none => pure ()

def adminDenyApplicant (ctx : Ctx) (params : JsonObject) : M Reply := do
  let applyId ← liftExcept (Json.get params "apply_id" (.int64 (-1))).asInt64
  let reason := Json.getString params "reason"
  if applyId < 0 then
    Co.throw (.system .invalidParams)
  denyWaiting ctx applyId.toNat reason
  return .bool true

/-- The non-negative integers of the array. -/
def merchantIds (l : List Json) : List Nat :=
  l.filterMap fun
    | .int64 i => if 0 ≤ i then some i.toNat else none
    | _ => none

/-- `admin_disable_merchants` and `admin_reenable_merchants`. -/
def adminSetMerchantStates (ctx : Ctx) (state : MerchantState) (params : JsonObject) :
    M Reply := do
  match Json.get params "merchants" .null with
  | .array l =>
    if merchantIds l ≠ [] then
      asyncWrite ctx fun s => some ((), s.db.setMerchantStates (merchantIds l) state s.clock)
    return .bool true
  | _ => Co.throw (.system .invalidParams)

def adminSetMerchantWxpaySubmchid (ctx : Ctx) (params : JsonObject) : M Reply := do
  let merchantId ← liftExcept (Json.get params "merchant_id" (.int64 (-1))).asInt64
  let subMchid := Json.getString params "sub_mchid"
  match ← asyncLoad ctx fun db => db.findMerchant (toUint64 merchantId) with
  | some m =>
    asyncWrite ctx fun s => s.db.storeMerchant { m with exinfoWxMchid := some subMchid } s.clock
    return .bool true
  | none => return .bool false

/-! ## Sudo -/

/-- What `admin_sudo` makes of the session; without a merchant row the merchant
side is reset. -/
def ClientSession.sudoTo (c : ClientSession) (user : CmallUser) (merchant : Option CmallMerchant) :
    ClientSession :=
  { c with
    originalUser := c.adminInfo
    adminInfo := none
    isAdmin := false
    isMerchant := merchant.isSome
    sudoMode := true
    merchantInfo := merchant
    userInfo := some user }

/-- The user `actor` takes on the identity of `targetUid`. -/
def adminSudoTo (ctx : Ctx) (a actor targetUid : Nat) : M Reply := do
  match ← asyncLoad ctx fun db => db.findUser targetUid with
  | none => Co.throw (.system .internalServerError)
  | some targetUser =>
    let targetMerchant ← asyncLoad ctx (fun db => db.findMerchant targetUid) (fun _ => .sudo a actor)
    modifySession a fun c => c.sudoTo targetUser targetMerchant
    emit (.sudoed ctx.req a targetUid)
    became ctx a (.sudo actor)
    saveSession ctx
    let c ← getSession a
    return .sudoResult c.isMerchant c.isAdmin

def adminSudo (ctx : Ctx) (a : Nat) (params : JsonObject) : M Reply := do
  let targetUid ← match Json.get params "target_uid" .null with
    | .int64 i => pure (toUint64 i)
    | .uint64 n => pure n
    | _ => Co.throw (.system .invalidParams)
  let actor := (← thisUser a).uid
  if targetUid = actor then
    Co.throw (.system .cannotSudo)
  else
    adminSudoTo ctx a actor targetUid

/-- What `admin_sudo_cancel` makes of a session whose original user is `u`. -/
def ClientSession.sudoCancel (c : ClientSession) (u : CmallUser)
    (merchant : Option CmallMerchant) : ClientSession :=
  { c with
    isAdmin := true
    adminInfo := c.originalUser
    userInfo := some u
    sudoMode := false
    isMerchant := merchant.isSome
    merchantInfo := merchant
    originalUser := none }

/-- `session_info.original_user->user`, dereferenced. -/
def originalUser (a : Nat) : M CmallUser := do
  match (← getSession a).originalUser with
  | none => Co.throw (.undefined "original_user")
  | some o =>
    match o.user with
    | none => Co.throw (.undefined "original_user->user")
    | some u => return u

def adminSudoCancel (ctx : Ctx) (a : Nat) : M Reply := do
  let uid := (← originalUser a).uid
  let merchant ← asyncLoad ctx (fun db => db.findMerchant uid) (.sudoCancel a uid)
  let u ← originalUser a
  modifySession a fun c => c.sudoCancel u merchant
  became ctx a .sudoCancel
  saveSession ctx
  let c ← getSession a
  return .sudoResult c.isMerchant c.isAdmin

/-! ## The index page -/

/-- The rows `admin_set_index_goods` builds; the constructor of `json_accessor`
needs an object. -/
def indexGoodsOf : List Json → Int → Except Exn (List CmallIndexPageGoods)
  | [], _ => .ok []
  | ref :: rest, n => do
    let obj ← ref.asObject
    let merchantId ← (Json.get obj "merchant_id" (.int64 (-1))).asInt64
    let tail ← indexGoodsOf rest (n + 1)
    let row : CmallIndexPageGoods :=
      { merchantId := toUint64 merchantId, goods := Json.getString obj "goods_id"
        order := Int.bmod n (2 ^ 32) }
    return row :: tail

def adminSetIndexGoods (ctx : Ctx) (params : JsonObject) : M Reply := do
  let list ← liftExcept (Json.getArray params "list")
  let goods ← liftExcept (indexGoodsOf list 0)
  return .bool (← asyncTransacton (asyncWrite ctx fun s => some (s.db.setIndexGoods goods)))

def adminAddIndexGoods (ctx : Ctx) (params : JsonObject) : M Reply := do
  let goods := Json.getString params "goods_id"
  let merchantId := toUint64 (← liftExcept (Json.get params "merchant_id" (.int64 (-1))).asInt64)
  let _ ← getProduct ctx merchantId goods "x"
  let maxOrder ← asyncLoad ctx fun db => ((db.indexGoods.map (·.order)).max?).getD 0
  let row : CmallIndexPageGoods :=
    { merchantId, goods, order := Int.bmod (maxOrder + 1) (2 ^ 32) }
  asyncWrite ctx fun s => some ((), s.db.persistIndexGoods row)
  return .bool true

def adminRemoveIndexGoods (ctx : Ctx) (params : JsonObject) : M Reply := do
  let goods := Json.getString params "goods_id"
  let merchantId := toUint64 (← liftExcept (Json.get params "merchant_id" (.int64 (-1))).asInt64)
  asyncWrite ctx fun s => some ((), { s.db with
    indexGoods :=
      Table.eraseQuery s.db.indexGoods fun g => g.merchantId = merchantId ∧ g.goods = goods })
  return .bool true

def handleJsonrpcAdminApi (ctx : Ctx) (method : ReqMethod) (params : JsonObject) :
    M Reply := do
  let a ← thisSession ctx
  match method with
  | .adminUserList => return .users (← asyncLoad ctx fun db => db.users)
  | .adminUserBan => adminUserBan ctx params
  | .adminUserDetail =>
    let uid ← liftExcept (Json.get params "uid" (.int64 (-1))).asInt64
    if uid < 0 then
      Co.throw (.system .invalidParams)
    match ← asyncLoad ctx fun db => db.findUser uid.toNat with
    | some u => return .user u
    | none => Co.throw (.system .userNotFound)
  | .adminListMerchants =>
    return .merchants (← asyncLoad ctx fun db =>
      Table.query db.merchants fun m => m.deletedAt = none)
  | .adminListApplicants => return .applys (← asyncLoad ctx fun db => db.applys)
  | .adminApproveMerchant => adminApproveMerchant ctx params
  | .adminDenyApplicant => adminDenyApplicant ctx params
  | .adminDisableMerchants => adminSetMerchantStates ctx .disabled params
  | .adminReenableMerchants => adminSetMerchantStates ctx .normal params
  | .adminSetMerchantWxpaySubmchid => adminSetMerchantWxpaySubmchid ctx params
  | .adminSetWxpayDetail =>
    -- the table of configuration values is not modelled
    asyncWrite ctx fun s => some ((), s.db)
    return .bool true
  | .adminSudo => adminSudo ctx a params
  | .adminSudoCancel => adminSudoCancel ctx a
  | .adminListIndexGoods => return .products (← listIndexGoods ctx)
  | .adminSetIndexGoods => adminSetIndexGoods ctx params
  | .adminAddIndexGoods => adminAddIndexGoods ctx params
  | .adminRemoveIndexGoods => adminRemoveIndexGoods ctx params
  | .adminSetProfitSharing => return .empty
  | _ => Co.throw (.other "this should never be executed")

end Cmall
