import Cmall.AdminApi
import Cmall.CartApi

/-!
`handle_jsonrpc_call` with session recovery, and the programs of the service: one
coroutine for every request, connection, WeChat notification and background task.
-/

namespace Cmall
open Coroutine

/-! ## Session recovery -/

def allocaSessionid (ctx : Ctx) : M Unit := do
  newSession ctx (← freshSession ctx)
  saveSession ctx

/-- Session recovery switches the merchant role on if there is a row, in whatever
session the connection refers to by then. -/
def recoverMerchant (ctx : Ctx) (uid : Nat) : M Unit := do
  match ← asyncLoad ctx (fun db => db.findMerchant uid) (fun _ => .connRole uid) with
  | some m => modifySession (← thisSession ctx) fun c =>
      { c with merchantInfo := some m, isMerchant := true }
  | none => pure ()

def recoverAdmin (ctx : Ctx) (uid : Nat) : M Unit := do
  match ← asyncLoad ctx (fun db => db.findAdministrators uid) (fun _ => .connRole uid) with
  | some admin => modifySession (← thisSession ctx) fun c =>
      { c with adminInfo := some admin, isAdmin := true }
  | none => pure ()

/-- In sudo mode the original user is loaded anew as well. -/
def recoverSudo (ctx : Ctx) : M Unit := do
  let c ← getSession (← thisSession ctx)
  if c.sudoMode then
    match c.originalUser with
    | none => Co.throw (.undefined "original_user")
    | some o =>
      let loaded ← asyncLoad ctx (fun db => db.findAdministrators o.uid) (fun _ => .original o.uid)
      modifySession (← thisSession ctx) fun c => { c with originalUser := some (loaded.getD {}) }

/-- `load_user_info`: every `this_client.session_info` in it is read anew. -/
def loadUserInfo (ctx : Ctx) : M Unit := do
  let a ← thisSession ctx
  let uid := (← thisUser a).uid
  let found ← reloadUser ctx a uid fun ok => if ok then .back else .userVanished
  if ¬ found then
    modifySession (← thisSession ctx) fun c => { c with userInfo := none }
  else
    recoverMerchant ctx (← thisUser (← thisSession ctx)).uid
    recoverAdmin ctx (← thisUser (← thisSession ctx)).uid
    recoverSudo ctx
    pushActive ctx

/-- The session a stored id stands for, loaded into the connection. -/
def restoreSession (ctx : Ctx) (sessionid : String) : M Unit := do
  newSession ctx (← loadSession ctx sessionid)

/-- `session_cache_map.exist`. -/
def sessionExists (ctx : Ctx) (sessionid : String) : M Bool :=
  asyncLoad ctx fun db => (db.findSession sessionid).isSome

/-- `recover_session` without an api token. -/
def recoverBySessionid (ctx : Ctx) (sessionid : String) : M Reply := do
  if ((← Co.get).conn ctx.conn).sessionInfo = none then
    if sessionid = "" then
      allocaSessionid ctx
    else if ¬ (← sessionExists ctx sessionid) then
      allocaSessionid ctx
    else
      restoreSession ctx sessionid
      updateLifetime ctx sessionid
  if (← getSession (← thisSession ctx)).userInfo.isSome then
    loadUserInfo ctx
  let c ← getSession (← thisSession ctx)
  return .session c.sessionId c.isAdmin c.isMerchant c.userInfo.isSome c.sudoMode

/-- The number before the first `-` of a temporary api token. -/
def tempTokenUid (token : String) : Option Nat :=
  let digits := token.toList.takeWhile Char.isDigit
  match token.toList.dropWhile Char.isDigit with
  | '-' :: _ :: _ => (String.ofList digits).toNat?
  | _ => none

/-- The uid an api token stands for. -/
def apiTokenUid (ctx : Ctx) (apiToken : String) : M Nat := do
  if apiToken ∈ (← Co.get).tempApiToken then
    match tempTokenUid apiToken with
    | some uid => return uid
    | none => Co.throw (.system .internalServerError)
  else
    match ← asyncLoad ctx fun db =>
        Table.queryOne db.apptokens fun t => t.apptoken = apiToken with
    | some t => return t.uid
    | none => Co.throw (.system .apitokenInvalid)

def recoverByApiToken (ctx : Ctx) (apiToken : String) : M Reply := do
  let uid ← apiTokenUid ctx apiToken
  match ← asyncLoad ctx fun db => db.findUser uid with
  | none => return .loginFailed
  | some user =>
    newSession ctx { ← freshSession ctx with userInfo := some user }
    emit (.identified ctx.req (← thisSession ctx) user)
    recoverMerchant ctx uid
    recoverAdmin ctx uid
    let c ← getSession (← thisSession ctx)
    return .login c.isMerchant c.isAdmin c.sudoMode

def recoverSession (ctx : Ctx) (params : JsonObject) : M Reply := do
  setConnection ctx fun c => { c with baseurl := Json.getString params "baseurl" }
  let apiToken := Json.getString params "api-token"
  if apiToken = "" then
    recoverBySessionid ctx (Json.getString params "sessionid")
  else
    recoverByApiToken ctx apiToken

/-- The session part of `client_connected`: the first cookie whose session exists. -/
def recoverByCookie (ctx : Ctx) : List String → M Unit
  | [] => return ()
  | sessionid :: rest => do
    if sessionid = "" then
      recoverByCookie ctx rest
    else if ← sessionExists ctx sessionid then
      restoreSession ctx sessionid
      if (← getSession (← thisSession ctx)).userInfo.isSome then
        loadUserInfo ctx
      updateLifetime ctx sessionid
    else
      recoverByCookie ctx rest

/-! ## The dispatcher -/

def ensureLogin (ctx : Ctx) (checkAdmin checkMerchant : Bool := false) : M Unit := do
  let c ← getSession (← thisSession ctx)
  if c.userInfo.isNone then Co.throw (.system .loginRequired)
  else if checkAdmin ∧ ¬ c.isAdmin then Co.throw (.system .adminUserRequired)
  else if checkMerchant ∧ ¬ c.isMerchant then Co.throw (.system .merchantUserRequired)

/-- Which handler a method goes to. -/
inductive Api where
  | recover | ping
  | user (login : Bool)
  | cart | fav | order | goods | merchant | admin | sudoCancel | misc | none
  deriving DecidableEq, Repr

def ReqMethod.api : ReqMethod → Api
  | recoverSession => .recover
  | ping => .ping
  | userFastlogin | userPrelogin | userLogin | userIslogin | userLogout
  | userSearchByFace => .user false
  | userInfo | userApplyMerchant | userApplyInfo | userListRecipientAddress
  | userAddRecipientAddress | userModifyReceiptAddress | userEraseReceiptAddress
  | userGetWxOpenid | user3rdKvPut | user3rdKvGet | user3rdKvPutPubkey
  | user3rdKvGetPubkey | userAddFace => .user true
  | cartAdd | cartMod | cartDel | cartList => .cart
  | favAdd | favDel | favList => .fav
  | orderCreateCart | orderCreateDirect | orderDetail | orderClose | orderList
  | orderGetPaymethods | orderGetPayUrl | orderGetWxpayPrepayId | orderGetWxpayObject
  | orderCheckPayment => .order
  | searchGoods | goodsList | goodsDetail | goodsMarkdown | goodsMerchantIndex => .goods
  | merchantInfo | merchantGetSoldOrderDetail | merchantSoldOrdersCheckPayment
  | merchantSoldOrdersMarkPayed | merchantAlterOrderPrice | merchantGoodsList
  | merchantKeywordsList | merchantListSoldOrders | merchantSoldOrdersAddKuaidi
  | merchantDeleteSoldOrders | merchantGetGiteaPassword | merchantResetGiteaPassword
  | merchantCreateApptoken | merchantListApptoken | merchantDeleteApptoken
  | merchantAlterName | merchantUserKvGet => .merchant
  | adminUserDetail | adminUserList | adminUserBan | adminListApplicants
  | adminApproveMerchant | adminDenyApplicant | adminListMerchants | adminDisableMerchants
  | adminReenableMerchants | adminSetMerchantWxpaySubmchid | adminSetWxpayDetail | adminSudo
  | adminListIndexGoods | adminSetIndexGoods | adminAddIndexGoods
  | adminRemoveIndexGoods => .admin
  | adminSudoCancel => .sudoCancel
  | wxDirectPay => .misc
  | adminSetProfitSharing => .none

def handleJsonrpcCall (cfg : Config) (ctx : Ctx) (method : ReqMethod) (params : JsonObject) :
    M Reply := do
  if method ≠ .recoverSession ∧ ((← Co.get).conn ctx.conn).sessionInfo = none then
    Co.throw (.system .sessionNeeded)
  else
    match method.api with
    | .recover => recoverSession ctx params
    | .ping => return .text "pong"
    | .user login =>
      if login then ensureLogin ctx
      handleJsonrpcUserApi cfg ctx method params
    | .cart =>
      ensureLogin ctx
      handleJsonrpcCartApi ctx method params
    | .fav =>
      ensureLogin ctx
      handleJsonrpcFavApi ctx method params
    | .order =>
      ensureLogin ctx
      handleJsonrpcOrderApi cfg ctx method params
    | .goods => handleJsonrpcGoodsApi ctx method params
    | .merchant =>
      ensureLogin ctx false true
      handleJsonrpcMerchantApi cfg ctx method params
    | .admin =>
      ensureLogin ctx true
      handleJsonrpcAdminApi ctx method params
    | .sudoCancel =>
      let c ← getSession (← thisSession ctx)
      if c.sudoMode ∧ c.originalUser.isSome then
        handleJsonrpcAdminApi ctx method params
      else
        Co.throw (.system .notInSudoMode)
    | .misc => handleJsonrpcMiscApi cfg ctx method params
    | .none => Co.throw (.system .notImplemented)

/-! ## Programs -/

/-- What starts a coroutine of the service. -/
inductive Request where
  /-- A JSON-RPC request on a connection. -/
  | jsonrpc (conn : Nat) (method : ReqMethod) (params : JsonObject)
  /-- A new connection with the session cookies it sends; browsers and microapps
  are given a session when they have none. -/
  | connect (conn : Nat) (ip : String) (cookies : List String) (alloca : Bool)
  | disconnect (conn : Nat)
  /-- A WeChat notification whose signature was accepted. -/
  | wxCallback (msg : NotifyMessage)
  /-- The detached administrator check of the first registration. -/
  | checkAdmin
  /-- The purge loop of `timedmap` drops an expired code. -/
  | purgeCode (cookie : String)
  /-- The repository of a merchant is loaded, or has changed. -/
  | setRepo (merchantId : Nat) (repo : Repo)
  | setSearch (searchGoods : List String → List (Nat × String))
  /-- Time passes. -/
  | tick (clock : PTime)

/-- The connection of a request; the background tasks have none. -/
def Request.conn : Request → Nat
  | .jsonrpc c _ _ | .connect c _ _ _ | .disconnect c => c
  | _ => 0

def Request.method : Request → Option ReqMethod
  | .jsonrpc _ m _ => some m
  | _ => none

def clientConnected (ctx : Ctx) (ip : String) (cookies : List String) (alloca : Bool) :
    M Unit := do
  setConnection ctx fun c => { c with xRealIp := ip }
  if ((← Co.get).conn ctx.conn).sessionInfo = none then
    recoverByCookie ctx cookies
  if alloca ∧ ((← Co.get).conn ctx.conn).sessionInfo = none then
    allocaSessionid ctx

/-- The body of a program, after the first suspension. -/
def serve (cfg : Config) (ctx : Ctx) : Request → M Unit
  | .jsonrpc _ method params => do
    let reply ← handleJsonrpcCall cfg ctx method params
    emit (.replied ctx.req reply)
  | .connect _ ip cookies alloca => clientConnected ctx ip cookies alloca
  | .disconnect _ => eraseActive ctx
  | .wxCallback msg => do
    let reply ← handleOrderWxCallback ctx msg
    emit (.replied ctx.req reply)
  | .checkAdmin => checkAdmin ctx
  | .purgeCode cookie =>
    Co.modify fun s => { s with codes := s.codes.filter fun e => ¬ e.1 = cookie }
  | .setRepo merchantId repo =>
    Co.modify fun s => { s with repos := fun m => if m = merchantId then some repo else s.repos m }
  | .setSearch searchGoods => Co.modify fun s => { s with searchGoods := searchGoods }
  | .tick clock => Co.modify fun s => { s with clock := clock }

/-- The coroutine of request number `r`. -/
def prog (cfg : Config) (r : Nat) (q : Request) : M Unit := do
  let _ ← Co.suspend ⟨⟨q.conn, r⟩, .start q.method⟩
  serve cfg ⟨q.conn, r⟩ q

/-- A state of the service: its memory and the coroutines started so far. -/
abbrev Service := Sys Request Mem Input Point Exn Unit

end Cmall
