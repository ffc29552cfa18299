import Cmall.Service

/-!
`handle_jsonrpc_cart_api` and `handle_jsonrpc_fav_api`. `a` is the session object
that `session_info` refers to since the handler began.
-/

namespace Cmall
open Coroutine

/-! ## Database operations -/

def Db.persistCart (db : Db) (item : CmallCart) : Db :=
  { db with
    carts := db.carts ++ [{ item with id := db.seq.cart + 1 }]
    seq := { db.seq with cart := db.seq.cart + 1 } }

/-- `update(item)`: the whole row; throws when there is no such row. -/
def Db.updateCart (db : Db) (item : CmallCart) (now : PTime) : Option (Unit × Db) :=
  match db.findCart item.id with
  | some _ =>
    let row := { item with updatedAt := now }
    some ((), { db with carts := Table.update CmallCart.id db.carts row })
  | none => none

/-- `update(item_id, updater)` of `cart_mod`. -/
def Db.updateCartCount (db : Db) (itemId count : Nat) (now : PTime) : Db :=
  match db.findCart itemId with
  | some old =>
    let row := { old with count := count, updatedAt := now }
    { db with carts := Table.update CmallCart.id db.carts row }
  | none => db

/-- `hard_remove`: erasing a row that is not there throws. -/
def Db.removeCart (db : Db) (itemId : Nat) : Option (Unit × Db) :=
  match db.findCart itemId with
  | some _ => some ((), { db with carts := Table.erase CmallCart.id db.carts itemId })
  | none => none

def Db.persistFav (db : Db) (item : CmallUserFav) : Db :=
  { db with
    favs := db.favs ++ [{ item with id := db.seq.fav + 1 }]
    seq := { db.seq with fav := db.seq.fav + 1 } }

/-! ## Lists whose rows name a merchant -/

/-- Insert into a `std::set`. -/
def setInsert (n : Nat) (s : List Nat) : List Nat :=
  if n ∈ s then s else s.orderedInsert (· ≤ ·) n

/-- The loop of `cart_list` and `fav_list`: fill in the merchant names and
collect the merchants that have no row. A merchant that was found is not looked
up again, one that was not found is. -/
def fillMerchantName {α : Type} (ctx : Ctx) (merchantId : α → Nat) (setName : α → String → α) :
    List α → List (Nat × CmallMerchant) → List Nat → M (List α × List Nat)
  | [], _, vanished => return ([], vanished)
  | cc :: items, cache, vanished => do
    match cache.lookup (merchantId cc) with
    | some m =>
      let (rest, vanished) ← fillMerchantName ctx merchantId setName items cache vanished
      return (setName cc m.name :: rest, vanished)
    | none =>
      match ← asyncLoad ctx fun db => db.findMerchant (merchantId cc) with
      | some m =>
        let (rest, vanished) ← fillMerchantName ctx merchantId setName items
          ((merchantId cc, m) :: cache) vanished
        return (setName cc m.name :: rest, vanished)
      | none =>
        let (rest, vanished) ← fillMerchantName ctx merchantId setName items cache
          (setInsert (merchantId cc) vanished)
        return (cc :: rest, vanished)

/-- `async_erase` of the rows of each vanished merchant in turn. -/
def eraseVanished (ctx : Ctx) (erase : Db → Nat → Db) : List Nat → M Unit
  | [] => return ()
  | merchantId :: rest => do
    asyncWrite ctx (fun s => some ((), erase s.db merchantId)) (.eraseVanished merchantId)
    eraseVanished ctx erase rest

def Db.eraseCartsOf (db : Db) (merchantId : Nat) : Db :=
  { db with carts := Table.eraseQuery db.carts fun x => x.merchantId = merchantId }

def Db.eraseFavsOf (db : Db) (merchantId : Nat) : Db :=
  { db with favs := Table.eraseQuery db.favs fun x => x.merchantId = merchantId }

/-! ## Cart -/

/-- `"{}:{};"` for every selection. -/
def selectionString : List Json → Except Exn String
  | [] => .ok ""
  | s :: rest => do
    let obj ← s.asObject
    let tail ← selectionString rest
    return Json.jsonAsString (Json.sub obj "option") ++ ":" ++
      Json.jsonAsString (Json.sub obj "select") ++ ";" ++ tail

def notifyCartChanged (ctx : Ctx) (a : Nat) : M Unit := do
  let uid := (← thisUser a).uid
  let sessionId := (← getSession (← thisSession ctx)).sessionId
  sendNotifyMessage ctx uid
    ("\x7b\"topic\":\"cart_changed\", \"session_id\": \"" ++ sessionId ++ "\"\x7d")

/-- `async_update(item)` of a row that was found, `async_add(item)` otherwise. -/
def storeCart (ctx : Ctx) (found : Option CmallCart) (item : CmallCart) : M Unit :=
  tx ctx (.storeCart found item)
    (fun _ s =>
      match if found.isSome then s.db.updateCart item s.clock else some ((), s.db.persistCart item) with
      | some ((), db) =>
        (some (), { s with db := db, trace := .cartStored ctx.req item :: s.trace })
      | none => (none, s))
    (fun _ => .back)

/-- `cart_add` once its parameters are read: the row of the key is looked up, then
written with one more or inserted. -/
def cartAddTo (ctx : Ctx) (a merchantId : Nat) (goodsId selection : String) : M Reply := do
  let uid := (← thisUser a).uid
  let found ← asyncLoad ctx fun db => Table.queryOne db.carts fun x =>
    x.uid = uid ∧ x.merchantId = merchantId ∧ x.goodsId = goodsId ∧ x.selection = selection
  match found with
  | some item => storeCart ctx found { item with count := item.count + 1 }
  | none =>
    let uid := (← thisUser a).uid
    let now ← localTime
    storeCart ctx found
      { uid, merchantId, goodsId, selection, count := 1, createdAt := now, updatedAt := now }
  notifyCartChanged ctx a
  return .bool true

def cartAdd (ctx : Ctx) (a : Nat) (params : JsonObject) : M Reply := do
  let merchantId ← liftExcept (Json.get params "merchant_id" (.int64 (-1))).asInt64
  let goodsId := Json.getString params "goods_id"
  if merchantId < 0 ∨ goodsId = "" then
    Co.throw (.system .invalidParams)
  let selections ← match Json.at? params "selection" with
    | some v => liftExcept v.asArray
    | none => pure []
  let selection ← liftExcept (selectionString selections)
  cartAddTo ctx a merchantId.toNat goodsId selection

/-- The check `cart_mod` and `cart_del` make on the row they are given. -/
def cartOwned (ctx : Ctx) (a : Nat) (itemId : Nat) : M Unit := do
  match ← asyncLoad ctx fun db => db.findCart itemId with
  | none => Co.throw (.system .cartGoodsNotFound)
  | some item =>
    if item.uid ≠ (← thisUser a).uid then
      Co.throw (.system .invalidParams)

def cartMod (ctx : Ctx) (a : Nat) (params : JsonObject) : M Reply := do
  let itemId ← liftExcept (Json.get params "item_id" (.int64 (-1))).asInt64
  let count ← liftExcept (Json.get params "count" (.int64 0)).asInt64
  if itemId < 0 ∨ count ≤ 0 then
    Co.throw (.system .invalidParams)
  cartOwned ctx a itemId.toNat
  asyncWrite ctx fun s => some ((), s.db.updateCartCount itemId.toNat count.toNat s.clock)
  notifyCartChanged ctx a
  return .bool true

def cartDel (ctx : Ctx) (a : Nat) (params : JsonObject) : M Reply := do
  let itemId ← liftExcept (Json.get params "item_id" (.int64 (-1))).asInt64
  if itemId < 0 then
    Co.throw (.system .invalidParams)
  cartOwned ctx a itemId.toNat
  asyncWrite ctx fun s => s.db.removeCart itemId.toNat
  notifyCartChanged ctx a
  return .bool true

def cartList (ctx : Ctx) (a : Nat) (params : JsonObject) : M Reply := do
  let page ← liftExcept (Json.get params "page" (.int64 0)).asInt64
  let pageSize ← liftExcept (Json.get params "page_size" (.int64 20)).asInt64
  let uid := (← thisUser a).uid
  let items ← asyncLoadPage ctx CmallCart.id CmallCart.createdAt page pageSize fun db =>
    Table.query db.carts fun x => x.uid = uid
  let (items, vanished) ← fillMerchantName ctx CmallCart.merchantId
    (fun cc name => { cc with merchantName := name }) items [] []
  eraseVanished ctx Db.eraseCartsOf vanished
  return .carts items

def handleJsonrpcCartApi (ctx : Ctx) (method : ReqMethod) (params : JsonObject) : M Reply := do
  let a ← thisSession ctx
  match method with
  | .cartAdd => cartAdd ctx a params
  | .cartMod => cartMod ctx a params
  | .cartDel => cartDel ctx a params
  | .cartList => cartList ctx a params
  | _ => Co.throw (.other "this should never be executed")

/-! ## Favourites -/

def favAdd (ctx : Ctx) (a : Nat) (params : JsonObject) : M Reply := do
  let merchantId ← liftExcept (Json.get params "merchant_id" (.int64 (-1))).asInt64
  if merchantId ≤ 0 then
    Co.throw (.system .invalidParams)
  let uid := (← thisUser a).uid
  let found ← asyncLoad ctx fun db => Table.queryOne db.favs fun x =>
    x.uid = uid ∧ x.merchantId = merchantId.toNat
  match found with
  | some _ => pure ()
  | none =>
    let uid := (← thisUser a).uid
    let now ← localTime
    asyncWrite ctx fun s => some ((), s.db.persistFav
      { uid, merchantId := merchantId.toNat, createdAt := now, updatedAt := now })
  return .bool true

def favDel (ctx : Ctx) (a : Nat) (params : JsonObject) : M Reply := do
  let merchantId ← liftExcept (Json.get params "merchant_id" (.int64 (-1))).asInt64
  if merchantId < 0 then
    Co.throw (.system .invalidParams)
  let uid := (← thisUser a).uid
  asyncWrite ctx fun s => some ((), { s.db with
    favs := Table.eraseQuery s.db.favs fun x => x.uid = uid ∧ x.merchantId = merchantId.toNat })
  return .bool true

def favList (ctx : Ctx) (a : Nat) (params : JsonObject) : M Reply := do
  let page ← liftExcept (Json.get params "page" (.int64 0)).asInt64
  let pageSize ← liftExcept (Json.get params "page_size" (.int64 20)).asInt64
  let uid := (← thisUser a).uid
  let items ← asyncLoadPage ctx CmallUserFav.id CmallUserFav.createdAt page pageSize fun db =>
    Table.query db.favs fun x => x.uid = uid
  let (items, vanished) ← fillMerchantName ctx CmallUserFav.merchantId
    (fun cc name => { cc with merchantName := name }) items [] []
  eraseVanished ctx Db.eraseFavsOf vanished
  return .favs items

def handleJsonrpcFavApi (ctx : Ctx) (method : ReqMethod) (params : JsonObject) : M Reply := do
  let a ← thisSession ctx
  match method with
  | .favAdd => favAdd ctx a params
  | .favDel => favDel ctx a params
  | .favList => favList ctx a params
  | _ => Co.throw (.other "this should never be executed")

end Cmall
