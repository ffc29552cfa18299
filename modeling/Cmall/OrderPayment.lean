import Cmall.Service

/-!
Loading and writing back orders, and the functions that settle one:
`order_check_payment`, `order_mark_payed` and `handle_order_wx_callback`.

Every change of an order loads the row in one transaction and writes the whole
row back in a second one.
-/

namespace Cmall
open Coroutine

/-! ## Database operations -/

/-- `m_db->update(row)` throws when there is no such row. -/
def Db.updateOrder (db : Db) (row : CmallOrder) : Option Db :=
  match db.findOrder row.id with
  | some _ => some { db with orders := Table.update CmallOrder.id db.orders row }
  | none => none

def Db.persistOrder (db : Db) (order : CmallOrder) : Db :=
  { db with
    orders := db.orders ++ [{ order with id := db.seq.order + 1 }]
    seq := { db.seq with order := db.seq.order + 1 } }

/-- `async_load<cmall_order>(query, orders)`, recorded with the rows it found. -/
def asyncLoadOrders (ctx : Ctx) (who : Actor) (p : CmallOrder → Bool) : M (List CmallOrder) :=
  tx ctx .tx
    (fun _ s => (some (Table.query s.db.orders p),
      { s with trace := .ordersLoaded ctx.req who (Table.query s.db.orders p) :: s.trace }))
    (fun _ => .back)

/-- `async_load<cmall_order>(query, order)`. -/
def asyncLoadOrder (ctx : Ctx) (who : Actor) (p : CmallOrder → Bool) (spot : Spot := .tx) :
    M (Option CmallOrder) :=
  tx ctx spot
    (fun _ s => (some (Table.queryOne s.db.orders p),
      { s with
        trace := .ordersLoaded ctx.req who (Table.queryOne s.db.orders p).toList :: s.trace }))
    (fun _ => .back)

/-- Write the row back as `stamp` makes it at the time of the transaction. -/
def storeOrder (ctx : Ctx) (change : OrderChange) (row : CmallOrder)
    (stamp : PTime → CmallOrder → CmallOrder) : M Unit :=
  tx ctx (.storeOrder change row)
    (fun _ s => match s.db.updateOrder (stamp s.clock row) with
      | some db => (some (), { s with
          db := db
          trace := .orderStored ctx.req change (stamp s.clock row) :: s.trace })
      | none => (none, s))
    (fun _ => .back)

/-- `async_update<cmall_order>(row)`. -/
def asyncUpdateOrder (ctx : Ctx) (change : OrderChange) (row : CmallOrder) : M Unit :=
  storeOrder ctx change row fun now row => { row with updatedAt := now }

/-- `async_soft_remove<cmall_order>(row)`. -/
def asyncSoftRemoveOrder (ctx : Ctx) (change : OrderChange) (row : CmallOrder) : M Unit :=
  storeOrder ctx change row fun now row => { row with deletedAt := some now }

/-! ## Payment -/

/-- The orders a buyer or a seller can name by `orderid`. -/
def Actor.sees (who : Actor) (orderid : String) (o : CmallOrder) : Bool :=
  match who with
  | .buyer uid => o.oid = orderid ∧ o.buyer = uid ∧ o.deletedAt = none
  | .seller uid => o.oid = orderid ∧ o.seller = uid ∧ o.deletedAt = none
  | .wechat => o.oid = orderid

/-- Load the order `orderid` and require that there is exactly one. -/
def loadOneOrder (ctx : Ctx) (who : Actor) (orderid : String) : M CmallOrder := do
  match ← asyncLoadOrders ctx who (who.sees orderid) with
  | [order] => return order
  | _ => Co.throw (.system .orderNotFound)

/-- `seller` is a reference to the merchant: its uid is read when it is needed. -/
def orderMarkPayed (ctx : Ctx) (order : CmallOrder) (seller : M Nat) : M Bool := do
  let now ← localTime
  asyncUpdateOrder ctx (.markPayed now) { order with payedAt := some now }
  let merchantId ← seller
  match (← Co.get).repos merchantId with
  | none => return true
  | some repo =>
    match ← readRepo ctx merchantId repo fun repo =>
        repo.getFileContent "scripts/orderstatus.js" with
    | .ok content =>
      if content ≠ "" then
        emit (.orderstatus ctx.req order.oid)
      return true
    | .error _ => return true

def orderCheckPayment (ctx : Ctx) (order : CmallOrder) (seller : M Nat) : M Bool := do
  let merchantId ← seller
  let repo ← getMerchantGitRepo merchantId
  let content ← readRepo ctx merchantId repo fun repo => repo.getFileContent "scripts/checkpay.js"
  if scriptContent content = "" then
    Co.throw (.system .noPaycheckScriptSpplyed)
  else
    let payCheckResult ← external ctx
    emit (.checkpay ctx.req order.oid payCheckResult)
    if payCheckResult = "payed" ∨ payCheckResult = "payed\n" then
      orderMarkPayed ctx order seller
    else
      return false

/-- `handle_order_wx_callback`, the way a WeChat notification takes. -/
def handleOrderWxCallback (ctx : Ctx) (msg : NotifyMessage) : M Reply := do
  match ← asyncLoadOrder ctx .wechat (Actor.sees .wechat msg.outTradeNo) with
  | some payedOrder =>
    if msg.tradeState = .success then
      asyncUpdateOrder ctx (.wxPayed msg.successTime)
        { payedOrder with payedAt := some msg.successTime }
      return .bool true
    else
      return .bool false
  | none => return .bool false

end Cmall
