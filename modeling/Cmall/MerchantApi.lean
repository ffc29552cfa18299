import Cmall.OrderApi

/-!
`handle_jsonrpc_merchant_api`: the requests of a merchant on its orders, its
repository and its tokens. `a` is the session object that `session_info` refers
to since the handler began.
-/

namespace Cmall
open Coroutine

/-- Dereference `session_info.merchant_info`. -/
def thisMerchant (a : Nat) : M CmallMerchant := do
  match (← getSession a).merchantInfo with
  | some m => return m
  | none => Co.throw (.undefined "merchant_info")

/-- The references at the entry of the handler: `session_info`, `this_user` and
`this_merchant`. -/
def merchantEntry (ctx : Ctx) : M Nat := do
  let a ← thisSession ctx
  let _ ← thisUser a
  let _ ← thisMerchant a
  return a

theorem merchantEntry_bind {α : Type} (ctx : Ctx) (k : Nat → M α) :
    (merchantEntry ctx >>= k) =
      (thisSession ctx >>= fun a => thisUser a >>= fun _ => thisMerchant a >>= fun _ => k a) := by
  simp only [merchantEntry, Co.bind_assoc]
  rfl

/-- Assign to a member of `this_merchant`. -/
def modifyMerchantInfo (a : Nat) (f : CmallMerchant → CmallMerchant) : M Unit :=
  modifySession a fun c => { c with merchantInfo := c.merchantInfo.map f }

/-- `update<cmall_merchant>(uid, updater)`: false without such a row. -/
def Db.updateMerchant (db : Db) (uid : Nat) (now : PTime) (f : CmallMerchant → CmallMerchant) :
    Bool × Db :=
  match db.findMerchant uid with
  | some old =>
    let row := { f old with updatedAt := now }
    (true, { db with merchants := Table.update CmallMerchant.uid db.merchants row })
  | none => (false, db)

/-! ## Sold orders -/

/-- The order `orderid` of the merchant who asks. -/
def loadSoldOrder (ctx : Ctx) (a : Nat) (params : JsonObject) : M CmallOrder := do
  let uid := (← thisUser a).uid
  loadOneOrder ctx (.seller uid) (Json.getString params "orderid")

def merchantSoldOrdersCheckPayment (ctx : Ctx) (a : Nat) (params : JsonObject) : M Reply := do
  let order ← loadSoldOrder ctx a params
  if order.payedAt.isSome then return .bool true
  else
    let seller := do return (← thisMerchant a).uid
    return .bool (← orderCheckPayment ctx order seller)

def merchantSoldOrdersMarkPayed (ctx : Ctx) (a : Nat) (params : JsonObject) : M Reply := do
  let order ← loadSoldOrder ctx a params
  if order.payedAt.isSome then return .bool true
  else
    let seller := do return (← thisMerchant a).uid
    return .bool (← orderMarkPayed ctx order seller)

/-- A decimal of the request; the empty string means no change. -/
def newNumeric (cfg : Config) (text : String) : M (Option CppNumeric) :=
  if text = "" then .ret none
  else match cfg.numeric text with
    | some x => .ret (some x)
    | none => Co.throw (.std "cpp_numeric")

def merchantAlterOrderPrice (cfg : Config) (ctx : Ctx) (a : Nat) (params : JsonObject) :
    M Reply := do
  let order ← loadSoldOrder ctx a params
  let newPrice ← newNumeric cfg (Json.getString params "new_price")
  let newKuaidifei ← newNumeric cfg (Json.getString params "new_kuaidifei")
  asyncUpdateOrder ctx (.alterPrice newPrice newKuaidifei)
    { order with
      price := newPrice.getD order.price
      kuaidifei := newKuaidifei.getD order.kuaidifei }
  return .bool true

/-- The entry `merchant_sold_orders_add_kuaidi` adds. -/
def kuaidiInfo (params : JsonObject) : KuaidiInfo :=
  { kuaidihao := Json.getString params "kuaidihao"
    kuaidigongsi := Json.getString params "kuaidigongsi" }

def merchantSoldOrdersAddKuaidi (ctx : Ctx) (a : Nat) (params : JsonObject) : M Reply := do
  let order ← loadSoldOrder ctx a params
  asyncUpdateOrder ctx (.addKuaidi (kuaidiInfo params))
    { order with kuaidi := order.kuaidi ++ [kuaidiInfo params] }
  return .bool true

/-- The row is removed softly, and its payment time is set as well. -/
def merchantDeleteSoldOrders (ctx : Ctx) (a : Nat) (params : JsonObject) : M Reply := do
  let order ← loadSoldOrder ctx a params
  let now ← localTime
  asyncSoftRemoveOrder ctx (.delete now) { order with payedAt := some now }
  return .bool true

/-! ## Account, tokens and keys -/

def merchantInfo (ctx : Ctx) (a : Nat) : M Reply := do
  let uid := (← thisMerchant a).uid
  match ← asyncLoad ctx (fun db => db.findMerchant uid) (fun _ => .role a uid) with
  | some m =>
    modifySession a fun c => { c with merchantInfo := some m }
    return .merchant m
  | none => Co.throw (.system .merchantVanished)

def merchantResetGiteaPassword (ctx : Ctx) (a : Nat) : M Reply := do
  let giteaPassword ← genUuid ctx
  let ok := (← external ctx) = "true"
  if ok then
    modifyMerchantInfo a fun m => { m with giteaPassword := some giteaPassword }
    let uid := (← thisMerchant a).uid
    let _ ← asyncWrite ctx fun s => some (s.db.updateMerchant uid s.clock fun m =>
      { m with giteaPassword := some giteaPassword })
  return .bool ok

def merchantCreateApptoken (ctx : Ctx) (a : Nat) : M Reply := do
  let uid := (← thisUser a).uid
  let apptoken ← genUuid ctx
  asyncWrite ctx fun s => some ((), { s.db with apptokens := s.db.apptokens ++ [⟨apptoken, uid⟩] })
  return .text apptoken

def merchantDeleteApptoken (ctx : Ctx) (params : JsonObject) : M Reply := do
  let apptoken := Json.getString params "apptoken"
  asyncWrite ctx fun s => some ((), { s.db with
    apptokens := Table.eraseQuery s.db.apptokens fun t => t.apptoken = apptoken })
  return .bool true

def merchantAlterName (ctx : Ctx) (a : Nat) (params : JsonObject) : M Reply := do
  let newName := Json.getString params "name"
  let uid := (← thisMerchant a).uid
  let ok ← asyncWrite ctx fun s =>
    some (s.db.updateMerchant uid s.clock fun m => { m with name := newName })
  if ok then
    modifyMerchantInfo a fun m => { m with name := newName }
  return .bool ok

def handleJsonrpcMerchantApi (cfg : Config) (ctx : Ctx) (method : ReqMethod)
    (params : JsonObject) : M Reply := do
  let a ← merchantEntry ctx
  match method with
  | .merchantInfo => merchantInfo ctx a
  | .merchantGetSoldOrderDetail => return .order (← loadSoldOrder ctx a params)
  | .merchantSoldOrdersCheckPayment => merchantSoldOrdersCheckPayment ctx a params
  | .merchantSoldOrdersMarkPayed => merchantSoldOrdersMarkPayed ctx a params
  | .merchantAlterOrderPrice => merchantAlterOrderPrice cfg ctx a params
  | .merchantGoodsList =>
    let uid := (← thisMerchant a).uid
    let repo ← getMerchantGitRepo uid
    return .products (← readRepo ctx uid repo Repo.getProducts)
  | .merchantKeywordsList =>
    let _ ← thisMerchant a
    return .text (← external ctx)
  | .merchantListSoldOrders =>
    let uid := (← thisUser a).uid
    listOrders ctx params fun o => o.seller = uid
  | .merchantSoldOrdersAddKuaidi => merchantSoldOrdersAddKuaidi ctx a params
  | .merchantDeleteSoldOrders => merchantDeleteSoldOrders ctx a params
  | .merchantGetGiteaPassword =>
    match (← thisMerchant a).giteaPassword with
    | some p => return .text p
    | none => return .null
  | .merchantResetGiteaPassword => merchantResetGiteaPassword ctx a
  | .merchantCreateApptoken => merchantCreateApptoken ctx a
  | .merchantListApptoken =>
    let uid := (← thisUser a).uid
    let rows ← asyncLoad ctx fun db => Table.query db.apptokens fun t => t.uid = uid
    return .texts (rows.map CmallApptoken.apptoken)
  | .merchantDeleteApptoken => merchantDeleteApptoken ctx params
  | .merchantAlterName => merchantAlterName ctx a params
  | .merchantUserKvGet =>
    let keyValue ← liftExcept (Json.sub params "key_value").asString
    let userId ← liftExcept (Json.sub params "user_id").asInt64
    kvGet ctx (toUint64 userId) keyValue true
  | _ => Co.throw (.other "this should never be executed")

end Cmall
