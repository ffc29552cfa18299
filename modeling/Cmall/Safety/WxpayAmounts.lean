import Cmall.Prepay
import Mathlib.Data.Rat.Cast.Order
import Mathlib.Tactic.Linarith

/-!
WeChat amounts.

An amount is sent in cents, what is below a cent is cut off. The total of a prepay is the
amount of the order, and a notification of that total reports the amount, exactly when the
amount is a number of cents.
-/

namespace Cmall

/-- The total that a request or a notification holds. -/
def TotalOf (obj : JsonObject) (total : Int) : Prop :=
  ∃ amount, Json.at? obj "amount" = some (.object amount) ∧
    Json.at? amount "total" = some (.int64 total)

/-- A notification that can be decoded. -/
structure Notification (lib : Libraries) (obj : JsonObject) : Prop where
  outTradeNo : ∃ text, Json.at? obj "out_trade_no" = some (.string text)
  transactionId : ∃ jv, Json.at? obj "transaction_id" = some jv
  tradeState : ∃ text, Json.at? obj "trade_state" = some (.string text)
  successTime : ∃ text time, Json.at? obj "success_time" = some (.string text) ∧
    lib.ptime text = some time
  payerTotal : ∃ amount payer, Json.at? obj "amount" = some (.object amount) ∧
    Json.at? amount "payer_total" = some (.int64 payer)

/-- The prepay asks for the amount, and a notification of what it asks for reports it. -/
structure AmountExact (lib : Libraries) (params : JsonObject) (amount : CppNumeric) : Prop where
  sent : ∃ total : Int, TotalOf params total ∧ (total : CppNumeric) = amount * 100
  reported : ∀ (total : Int) (obj : JsonObject), TotalOf params total → TotalOf obj total →
    Notification lib obj → ∃ msg, NotifyMessage.ofJson lib (.object obj) = .ok msg ∧
      msg.orderAmount = amount

/-! ## Cents -/

theorem convertToInt64_eq_iff {x : CppNumeric} (h0 : 0 ≤ x) (h : x ≤ 2 ^ 62) :
    (convertToInt64 x : CppNumeric) = x ↔ x.den = 1 := by
  constructor
  · intro heq
    rw [← heq]
    exact Rat.den_intCast _
  · intro hden
    have hx : (x.num : CppNumeric) = x := Rat.den_eq_one_iff x |>.mp hden
    rw [← hx] at h0 h
    have hlow : 0 ≤ x.num := by exact_mod_cast h0
    have hhigh : x.num ≤ 2 ^ 62 := by exact_mod_cast h
    have hconvert : convertToInt64 x = x.num := by
      rw [convertToInt64, hden, Nat.cast_one, Int.tdiv_one]
      omega
    rw [hconvert, hx]

/-! ## The request and the notification -/

theorem totalOf_params (account : WxpayAccount) (call : PrepayCall) (total : Int) :
    TotalOf (getPrepayIdParams account call) total ↔ total = amountInCents call.amount := by
  have hamount : Json.at? (getPrepayIdParams account call) "amount" =
      some (.object [("currency", .string "CNY"), ("total", .int64 (amountInCents call.amount))]) := by
    unfold getPrepayIdParams
    cases call.profitSharing <;> rfl
  have htotal : Json.at? [("currency", .string "CNY"),
      ("total", .int64 (amountInCents call.amount))] "total" =
      some (.int64 (amountInCents call.amount)) := rfl
  constructor
  · rintro ⟨amount, h, h'⟩
    rw [hamount] at h
    cases h
    rw [htotal] at h'
    cases h'
    rfl
  · rintro rfl
    exact ⟨_, hamount, htotal⟩

theorem orderAmount_of_total {lib : Libraries} {obj : JsonObject} {total : Int}
    (htotal : TotalOf obj total) (h : Notification lib obj) :
    ∃ msg, NotifyMessage.ofJson lib (.object obj) = .ok msg ∧ msg.orderAmount = total / 100 := by
  obtain ⟨amount, hamount, htotal⟩ := htotal
  obtain ⟨outTradeNo, hno⟩ := h.outTradeNo
  obtain ⟨transactionId, hid⟩ := h.transactionId
  obtain ⟨tradeState, hstate⟩ := h.tradeState
  obtain ⟨text, time, htext, htime⟩ := h.successTime
  obtain ⟨amount', payer, hamount', hpayer⟩ := h.payerTotal
  rw [hamount] at hamount'
  cases hamount'
  refine ⟨{
    outTradeNo
    tradeState := (PayStatus.ofString tradeState).getD .queryFailed
    orderAmount := total / 100
    payedAmount := payer / 100
    successTime := time }, ?_, rfl⟩
  simp only [NotifyMessage.ofJson, hno, hid, Json.asString, Json.atKey, hstate, htext, hamount,
    htotal, hpayer, ptimeOfJson, htime, Json.asObject, longOfJson, bind, Except.bind, pure,
    Except.pure]

/-- The amount of an order is sent and reported exactly when it is a number of cents. -/
theorem order_amount_exact_iff (lib : Libraries) (account : WxpayAccount) (order : CmallOrder)
    (first : GoodsSnapshot) (subMchid payerOpenid : String) (profitSharing : Bool)
    (h0 : 0 ≤ order.price + order.kuaidifei) (h : order.price + order.kuaidifei ≤ 2 ^ 62 / 100) :
    AmountExact lib (getPrepayIdParams account
        (.ofOrder order first subMchid payerOpenid profitSharing)) (order.price + order.kuaidifei) ↔
      ((order.price + order.kuaidifei) * 100).den = 1 := by
  have hiff := convertToInt64_eq_iff (x := (order.price + order.kuaidifei) * 100) (by linarith)
    (by linarith)
  rw [← hiff]
  constructor
  · rintro ⟨⟨total, htotal, heq⟩, -⟩
    rw [totalOf_params] at htotal
    rw [htotal] at heq
    exact heq
  · intro heq
    refine ⟨⟨_, (totalOf_params _ _ _).mpr rfl, heq⟩, fun total obj hsent htotal hnotification => ?_⟩
    rw [totalOf_params] at hsent
    obtain ⟨msg, hmsg, hreported⟩ := orderAmount_of_total htotal hnotification
    refine ⟨msg, hmsg, ?_⟩
    have hcents : (total : CppNumeric) = (order.price + order.kuaidifei) * 100 := by
      rw [hsent]
      exact heq
    rw [hreported, hcents]
    exact mul_div_cancel_right₀ _ (by norm_num)

/-- Everything succeeds, and every text is the time 0. -/
def Libraries.accepting : Libraries where
  digestVerify _ _ _ := 1
  decryptInit _ := 1
  decryptAad _ := 1
  decryptUpdate _ := (1, "")
  decryptFinal _ := (1, "")
  parse _ := none
  ptime _ := some 0
  exactLong _ := none

def teaSnapshot (price : CppNumeric) : GoodsSnapshot := ⟨1, "tea", "Tea", price, "", "", ""⟩

def microapp : WxpayAccount := ⟨"app", "shop", "https://shop/notify"⟩

theorem order_amount_exact_of_ten :
    AmountExact .accepting (getPrepayIdParams microapp
      (.ofOrder { oid := "A", price := 10 } (teaSnapshot 10) "m" "u" false)) (10 + 0) := by
  have hcents : (((10 : CppNumeric) + 0) * 100).den = 1 := by
    have hint : ((10 : CppNumeric) + 0) * 100 = ((1000 : Int) : CppNumeric) := by norm_num
    rw [hint]
    exact Rat.den_intCast _
  exact (order_amount_exact_iff .accepting microapp { oid := "A", price := 10 } (teaSnapshot 10)
    "m" "u" false (by norm_num) (by norm_num)).mpr hcents

/-- An amount of 10.001 is asked for as 10.00. -/
theorem thousandths_are_cut_off :
    ¬ AmountExact .accepting (getPrepayIdParams microapp
      (.ofOrder { oid := "A", price := 10001 / 1000 } (teaSnapshot (10001 / 1000)) "m" "u" false))
      (10001 / 1000 + 0) := by
  intro hexact
  obtain ⟨total, -, heq⟩ := hexact.sent
  have hcents : (total : CppNumeric) * 10 = 10001 := by
    rw [heq]
    norm_num
  have hint : total * 10 = 10001 := by exact_mod_cast hcents
  omega

end Cmall
