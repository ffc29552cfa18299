import Cmall.OrderApi

/-!
`handle_jsonrpc_goods_api` and `handle_jsonrpc_misc_api`: what anyone with a
session can read, and direct payments.
-/

namespace Cmall
open Coroutine

/-! ## Goods -/

/-- The product shown where the real one cannot be read. -/
def unhintProduct (merchantId : Nat) (goods : String) : Product :=
  { productId := goods, productTitle := "", productDescription := "", productPrice := ""
    kuaidifei := "", gitVersion := "", merchantId, merchantName := "", options := [] }

/-- The loop of `list_index_goods`; any exception of the look-up is caught. -/
def indexGoodsProducts (ctx : Ctx) (cache : List CmallMerchant) :
    List CmallIndexPageGoods → M (List Product)
  | [] => return []
  | gref :: rest => do
    let name := ((Table.find CmallMerchant.uid cache gref.merchantId).map (·.name)).getD ""
    let p ← (getProduct ctx gref.merchantId gref.goods name).tryCatch
      fun _ => .ret (unhintProduct gref.merchantId gref.goods)
    return p :: (← indexGoodsProducts ctx cache rest)

/-- `list_index_goods`. -/
def listIndexGoods (ctx : Ctx) : M (List Product) := do
  let merchants ← asyncLoad ctx fun db => Table.query db.merchants fun m => m.deletedAt = none
  let rows ← tx ctx .tx (fun i s =>
    let before := fun x y : CmallIndexPageGoods => x.order < y.order ∨
      x.order = y.order ∧ i.ties.idxOf x.id ≤ i.ties.idxOf y.id
    (some (s.db.indexGoods.insertionSort before), s)) (fun _ => .back)
  indexGoodsProducts ctx merchants rows

/-- The loop of `search_goods`; a merchant without a row reads as a normal one. -/
def searchProducts (ctx : Ctx) : List (Nat × String) → List (Nat × CmallMerchant) →
    M (List Product)
  | [], _ => return []
  | (merchantId, goodsId) :: rest, cache => do
    let (m, cache) ← match cache.lookup merchantId with
      | some m => pure (m, cache)
      | none =>
        let m := (← asyncLoad ctx fun db => db.findMerchant merchantId).getD {}
        pure (m, (merchantId, m) :: cache)
    if m.state = .normal then
      let p ← getProduct ctx merchantId goodsId m.name
      return p :: (← searchProducts ctx rest cache)
    else
      searchProducts ctx rest cache

def goodsList (ctx : Ctx) (params : JsonObject) : M Reply := do
  match (Json.getString params "merchant").toNat? with
  | none => return .products (← listIndexGoods ctx)
  | some merchantId =>
    let merchants ← asyncLoad ctx fun db => Table.query db.merchants fun m =>
      m.uid = merchantId ∧ m.state = .normal ∧ m.deletedAt = none
    match merchants with
    | [] => return .products []
    | m :: _ =>
      match (← Co.get).repos m.uid with
      | none => return .products []
      | some repo => return .products (← readRepo ctx m.uid repo Repo.getProducts)

def goodsDetail (ctx : Ctx) (params : JsonObject) : M Reply := do
  match (Json.get params "merchant_id" (.int64 (-1))).asInt64 with
  | .error _ => Co.throw (.system .invalidParams)
  | .ok merchantId =>
    let goodsId := Json.getString params "goods_id"
    if goodsId = "" then
      Co.throw (.system .invalidParams)
    else
      match ← asyncLoad ctx fun db => db.findMerchant (toUint64 merchantId) with
      | some m => return .products [← getProduct ctx (toUint64 merchantId) goodsId m.name]
      | none => Co.throw (.system .merchantVanished)

/-- `goods_markdown` and `goods_merchant_index` read one file. -/
def goodsFile (ctx : Ctx) (params : JsonObject) : M Reply := do
  let merchantId ← liftExcept (Json.get params "merchant_id" (.int64 (-1))).asInt64
  let _ ← getMerchantGitRepo (toUint64 merchantId)
  return .text (← external ctx)

def handleJsonrpcGoodsApi (ctx : Ctx) (method : ReqMethod) (params : JsonObject) : M Reply := do
  match method with
  | .searchGoods =>
    let found := (← Co.get).searchGoods ((Json.getString params "q").splitOn " ")
    return .products (← searchProducts ctx found [])
  | .goodsList => goodsList ctx params
  | .goodsDetail => goodsDetail ctx params
  | .goodsMarkdown =>
    if Json.getString params "goods_id" = "" then Co.throw (.system .invalidParams)
    else goodsFile ctx params
  | .goodsMerchantIndex => goodsFile ctx params
  | _ => Co.throw (.other "this should never be executed")

/-! ## Direct payment -/

def handleJsonrpcMiscApi (cfg : Config) (ctx : Ctx) (method : ReqMethod) (params : JsonObject) :
    M Reply := do
  match method with
  | .wxDirectPay =>
    if Json.getString params "appid" ∉ cfg.wxpayAppids then
      Co.throw (.system .merchantDoesNotSupportMicroappWxpay)
    else
      let orderid ← genUuid ctx
      match cfg.numeric (Json.getString params "amount") with
      | none => Co.throw (.std "cpp_numeric")
      | some amount =>
        emit (.directPay ctx.req orderid (amountInCents amount))
        let prepayId ← external ctx
        if prepayId = "" then Co.throw (.system .wxpayServerError)
        else return .text (← external ctx)
  | _ => Co.throw (.other "this should never be executed")

end Cmall
