import Cmall.OrderPayment
import Cmall.UserApi

/-!
`handle_jsonrpc_order_api`: creation of an order from the goods of a request,
lists, and the ways to pay one. `a` is the session object that `session_info`
refers to since the handler began.
-/

namespace Cmall
open Coroutine

/-! ## Creation -/

/-- The state of the loop over the goods of an order. -/
structure OrderDraft where
  order : CmallOrder
  totalPrice : CppNumeric := 0
  totalKuaidifei : CppNumeric := 0
  cache : List (Nat × CmallMerchant) := []

/-- The entry of the request that chooses for the option `title`. -/
def findOption (title : String) : List Json → Except Exn (Option JsonObject)
  | [] => .ok none
  | v :: rest => do
    let obj ← v.asObject
    let name ← (← Json.atKey obj "option").asString
    if name = title then return some obj else findOption title rest

/-- Add the price and the name of every selection to the snapshot. -/
def selectOptions (optionsOfGoods : List Json) :
    List ProductOption → GoodsSnapshot → Except Exn GoodsSnapshot
  | [], snap => .ok snap
  | option :: rest, snap => do
    match ← findOption option.optionTitle optionsOfGoods with
    | none => .error (.system .goodOptionInvalid)
    | some obj =>
      let userSelect := Json.jsonAsString (← Json.atKey obj "select")
      match option.selections.find? fun s => s.selectionName = userSelect with
      | none => .error (.system .goodOptionInvalid)
      | some s =>
        selectOptions optionsOfGoods rest { snap with
          price := snap.price + s.selectionPrice
          selection := snap.selection ++ option.optionTitle ++ ":" ++ s.selectionName ++ ";" }

/-- The snapshot of a product with the options the request chooses. -/
def snapshotOf (cfg : Config) (merchantId : Nat) (optionsOfGoods : List Json) (p : Product) :
    Except Exn GoodsSnapshot := do
  let price ← match cfg.numeric p.productPrice with
    | some x => pure x
    | none => .error (.std "cpp_numeric")
  let snap : GoodsSnapshot :=
    { merchantId, goodsId := p.productId, name := p.productTitle, price
      description := p.productDescription, goodVersionGit := p.gitVersion, selection := "" }
  if p.options.isEmpty then return snap
  else if optionsOfGoods.length ≠ p.options.length then .error (.system .goodOptionNeeded)
  else selectOptions optionsOfGoods p.options snap

/-- Append a product to the order. -/
def OrderDraft.push (d : OrderDraft) (cfg : Config) (merchantId : Nat)
    (optionsOfGoods : List Json) (p : Product) : Except Exn OrderDraft := do
  if d.order.seller ≠ 0 ∧ d.order.seller ≠ merchantId then
    .error (.system .shouldBeSameMerchant)
  let snap ← snapshotOf cfg merchantId optionsOfGoods p
  let kuaidifei ← if p.kuaidifei = "" then pure 0 else
    match cfg.numeric p.kuaidifei with
    | some x => pure x
    | none => .error (.std "cpp_numeric")
  return { d with
    order := { d.order with
      seller := merchantId
      snapGitVersion := p.gitVersion
      boughtGoods := d.order.boughtGoods ++ [snap] }
    totalPrice := d.totalPrice + snap.price
    totalKuaidifei := d.totalKuaidifei + kuaidifei }

/-- The merchant of an item, from the cache or the table. -/
def cachedMerchant (ctx : Ctx) (cache : List (Nat × CmallMerchant)) (merchantId : Nat) :
    M (Option (CmallMerchant × List (Nat × CmallMerchant))) := do
  match cache.lookup merchantId with
  | some m => return some (m, cache)
  | none =>
    match ← asyncLoad ctx (fun db => db.findMerchant merchantId)
        (fun found => .foundMerchant merchantId found) with
    | some m => return some (m, (merchantId, m) :: cache)
    | none => return none

/-- One item of the goods array. -/
def orderGoods (cfg : Config) (ctx : Ctx) (d : OrderDraft) (goods : Json) : M OrderDraft := do
  let goodsRef ← liftExcept goods.asObject
  let merchantId := toUint64 (← liftExcept (Json.sub goodsRef "merchant_id").asInt64)
  let goodsId ← liftExcept (Json.sub goodsRef "goods_id").asString
  let options ← match Json.at? goodsRef "options" with
    | some v => liftExcept v.asArray
    | none => pure []
  match ← cachedMerchant ctx d.cache merchantId with
  | none => return d
  | some (m, cache) =>
    let d := { d with cache := cache }
    if m.state ≠ .normal then return d
    else
      let p ← getProduct ctx merchantId goodsId m.name
      liftExcept (d.push cfg merchantId options p)

def orderGoodsList (cfg : Config) (ctx : Ctx) : List Json → OrderDraft → M OrderDraft
  | [], d => return d
  | goods :: rest, d => do
    let d ← orderGoods cfg ctx d goods
    orderGoodsList cfg ctx rest d

/-- `order_create_cart` and `order_create_direct`. -/
def orderCreate (cfg : Config) (ctx : Ctx) (a : Nat) (params : JsonObject) : M Reply := do
  let uid := (← thisUser a).uid
  let _ ← reloadUser ctx a uid
  let userInfo ← thisUser (← thisSession ctx)
  let goods ← liftExcept (Json.get params "goods" (.array [])).asArray
  let recipientId ← liftExcept (Json.get params "recipient_id" (.int64 (-1))).asInt64
  if recipientId < 0 then
    Co.throw (.system .recipientIdOutOfRange)
  else
    match userInfo.recipients[recipientId.toNat]? with
    | none => Co.throw (.system .recipientIdOutOfRange)
    | some recipient =>
      let oid ← genUuid ctx
      let now ← localTime
      let d ← orderGoodsList cfg ctx goods { order :=
        { oid, buyer := userInfo.uid, recipient := [recipient], createdAt := now, updatedAt := now } }
      let order := { d.order with price := d.totalPrice, kuaidifei := d.totalKuaidifei }
      asyncWrite ctx fun s => some ((), s.db.persistOrder order)
      return .orderid oid

/-! ## Lists -/

/-- The filter `status` adds to the list of orders. -/
def statusMatches (status : String) (o : CmallOrder) : Bool :=
  (status = "unpay" → o.payedAt = none) ∧ (status = "payed" → o.payedAt.isSome) ∧
    (status = "closed" → o.closeAt.isSome)

/-- `order_list` and `merchant_list_sold_orders`: the count, then one page. -/
def listOrders (ctx : Ctx) (params : JsonObject) (mine : CmallOrder → Bool) : M Reply := do
  let page ← liftExcept (Json.get params "page" (.int64 0)).asInt64
  let pageSize ← liftExcept (Json.get params "page_size" (.int64 20)).asInt64
  let status := Json.getString params "status"
  let rows := fun db : Db => Table.query db.orders fun o =>
    mine o ∧ o.deletedAt = none ∧ statusMatches status o
  let count ← asyncLoad ctx fun db => (rows db).length
  let orders ← asyncLoadPage ctx CmallOrder.id CmallOrder.createdAt page pageSize rows
  return .orders orders count

/-! ## Payment -/

/-- `is_sigle_merchant_order` on an order whose first goods is at hand. -/
def isSigleMerchantOrder (order : CmallOrder) (first : GoodsSnapshot) : Bool :=
  order.boughtGoods.all fun item => item.merchantId = first.merchantId

/-- Load the order to pay; deleted ones are found too. -/
def loadOrderToPay (ctx : Ctx) (a : Nat) (params : JsonObject) : M CmallOrder := do
  let orderid := Json.getString params "orderid"
  let uid := (← thisUser a).uid
  match ← asyncLoadOrder ctx (.buyer uid) (fun o => o.oid = orderid ∧ o.buyer = uid)
      (.loadToPay uid orderid) with
  | some order => return order
  | none => Co.throw (.system .orderNotFound)

/-- `bought_goods[0]`. -/
def firstGoods (order : CmallOrder) : M GoodsSnapshot :=
  match order.boughtGoods with
  | first :: _ => .ret first
  | [] => Co.throw (.undefined "bought_goods[0]")

/-- The one merchant of an order. -/
def orderMerchant (order : CmallOrder) : M Nat := do
  let first ← firstGoods order
  if isSigleMerchantOrder order first then return first.merchantId
  else Co.throw (.system .combileOrderNotSupported)

def orderGetPaymethods (ctx : Ctx) (a : Nat) (params : JsonObject) : M Reply := do
  let order ← loadOrderToPay ctx a params
  let merchantId ← orderMerchant order
  let repo ← getMerchantGitRepo merchantId
  let methods ← readRepo ctx merchantId repo Repo.getSupportedPayment
  if methods = [] then Co.throw (.system .merchantHasNoPaymentsSupported)
  else return .texts methods

/-- `get_payurl` runs the script and drops the last character it prints. -/
def orderGetPayUrl (ctx : Ctx) (a : Nat) (params : JsonObject) : M Reply := do
  let order ← loadOrderToPay ctx a params
  let merchantId ← orderMerchant order
  let repo ← getMerchantGitRepo merchantId
  let content ← readRepo ctx merchantId repo fun repo => repo.getFileContent "scripts/getpayurl.js"
  if scriptContent content = "" then Co.throw (.system .noPaymentScriptSupplyed)
  else
    emit (.payurl ctx.req (Json.getString params "orderid"))
    let uri ← external ctx
    return .url (String.ofList uri.toList.dropLast)

/-- `convert_to<std::int64_t>`: towards zero, clamped to the range. -/
def convertToInt64 (x : CppNumeric) : Int :=
  max (-2 ^ 63) (min (2 ^ 63 - 1) (x.num.tdiv x.den))

/-- The total of a prepay, in cents. -/
def amountInCents (amount : CppNumeric) : Int := convertToInt64 (amount * 100)

def orderGetWxpayPrepayId (cfg : Config) (ctx : Ctx) (a : Nat) (params : JsonObject) :
    M Reply := do
  let appid := Json.getString params "wx_microapp_appid"
  let order ← loadOrderToPay ctx a params
  let merchantId ← orderMerchant order
  match ← asyncLoad ctx fun db => db.findMerchant merchantId with
  | none => Co.throw (.system .merchantVanished)
  | some m =>
    if m.exinfoWxMchid = none then
      Co.throw (.system .merchantDoesNotSupportMicroappWxpay)
    else if appid ∉ cfg.wxpayAppids then
      Co.throw (.system .merchantDoesNotSupportMicroappWxpay)
    else
      let _ ← Co.suspend ⟨ctx, .prepay order⟩
      emit (.prepay ctx.req (Json.getString params "orderid")
        (amountInCents (order.price + order.kuaidifei)))
      let prepayId ← external ctx
      if prepayId = "" then Co.throw (.system .wxpayServerError)
      else return .text prepayId

/-- The buyer's `order_check_payment`. -/
def buyerCheckPayment (ctx : Ctx) (a : Nat) (params : JsonObject) : M Reply := do
  let uid := (← thisUser a).uid
  let order ← loadOneOrder ctx (.buyer uid) (Json.getString params "orderid")
  if order.payedAt.isSome then return .bool true
  else
    match ← asyncLoad ctx fun db => db.findMerchant order.seller with
    | some m => return .bool (← orderCheckPayment ctx order (pure m.uid))
    | none => return .bool false

def handleJsonrpcOrderApi (cfg : Config) (ctx : Ctx) (method : ReqMethod) (params : JsonObject) :
    M Reply := do
  let a ← thisSession ctx
  match method with
  | .orderCreateCart => orderCreate cfg ctx a params
  | .orderCreateDirect => orderCreate cfg ctx a params
  | .orderDetail =>
    let uid := (← thisUser a).uid
    return .order (← loadOneOrder ctx (.buyer uid) (Json.getString params "orderid"))
  | .orderClose => return .empty
  | .orderList =>
    let uid := (← thisUser a).uid
    listOrders ctx params fun o => o.buyer = uid
  | .orderGetPaymethods => orderGetPaymethods ctx a params
  | .orderGetPayUrl => orderGetPayUrl ctx a params
  | .orderGetWxpayPrepayId => orderGetWxpayPrepayId cfg ctx a params
  | .orderGetWxpayObject =>
    if Json.getString params "wx_microapp_appid" ∈ cfg.wxpayAppids then
      return .text (← external ctx)
    else
      Co.throw (.system .merchantDoesNotSupportMicroappWxpay)
  | .orderCheckPayment => buyerCheckPayment ctx a params
  | _ => Co.throw (.other "this should never be executed")

end Cmall
