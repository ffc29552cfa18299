import Cmall.OrderApi
import Cmall.Wxpay

/-!
The prepay request of `wxpay_service.cpp`: the JSON that `get_prepay_id` sends, and what it
takes from the answer.
-/

namespace Cmall

/-- What `wxpay_service_impl` identifies itself with. -/
structure WxpayAccount where
  spAppid : String
  spMchid : String
  notifyUrl : String
  deriving DecidableEq, Repr

/-- The arguments of `get_prepay_id`. -/
structure PrepayCall where
  subMchid : String
  outTradeNo : String
  amount : CppNumeric
  goodsDescription : String
  payerOpenid : String
  profitSharing : Bool

/-- The call for an order; `first` is the first of its goods. -/
def PrepayCall.ofOrder (order : CmallOrder) (first : GoodsSnapshot)
    (subMchid payerOpenid : String) (profitSharing : Bool) : PrepayCall where
  subMchid
  outTradeNo := order.oid
  amount := order.price + order.kuaidifei
  goodsDescription := first.description
  payerOpenid
  profitSharing

/-- The object that is serialised. -/
def getPrepayIdParams (account : WxpayAccount) (call : PrepayCall) : JsonObject :=
  let payerObj : JsonObject := [("sp_openid", .string call.payerOpenid)]
  let amountObj : JsonObject :=
    [("currency", .string "CNY"), ("total", .int64 (amountInCents call.amount))]
  let settleInfo : JsonObject := [("profit_sharing", .bool true)]
  let params : JsonObject := [("sp_mchid", .string account.spMchid),
    ("sp_appid", .string account.spAppid), ("sub_mchid", .string call.subMchid),
    ("out_trade_no", .string call.outTradeNo), ("description", .string call.goodsDescription),
    ("notify_url", .string account.notifyUrl), ("payer", .object payerObj),
    ("amount", .object amountObj)]
  if call.profitSharing then params ++ [("settle_info", .object settleInfo)] else params

/-- What is returned for an answer; `none` is a body that is no JSON. -/
def prepayIdOf (answer : Option Json) : Except Exn String :=
  match answer with
  | none => .ok ""
  | some jv => do
    match Json.get (← Json.asObject jv) "prepay_id" .null with
    | .string prepayId => return prepayId
    | _ => return ""

end Cmall
