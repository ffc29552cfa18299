import Cmall.Safety.OrderUpdates
import Mathlib.Algebra.Field.Rat

/-!
Paid means paid in full.

The total of a prepay is fixed when it is requested, from a row loaded before, and
`handle_order_wx_callback` compares it with nothing. The order is paid in full as
long as its amount is a whole number of cents, is what the prepay says, and does
not change once there is a prepay for it.
-/

namespace Cmall
open Coroutine Protocol

/-- What the order costs. -/
def CmallOrder.amount (o : CmallOrder) : CppNumeric := o.price + o.kuaidifei

/-- The totals of the prepays requested for the order. -/
def prepaysOf (oid : String) : List Event → List Int
  | [] => []
  | .prepay _ oid' total :: rest =>
    if oid' = oid then total :: prepaysOf oid rest else prepaysOf oid rest
  | _ :: rest => prepaysOf oid rest

/-! ## The condition -/

/-- A row is written back with the amount the order has, once there is a prepay for
it; a prepay is requested for the amount the order has, which it can express. -/
def Spot.keepsAmount (s : Mem) : Spot → Bool
  | .storeOrder _ row => prepaysOf row.oid s.trace = [] ||
      (s.db.findOrder row.id).all fun o => row.amount = o.amount
  | .prepay row => ((s.db.findOrder row.id).all fun o => row.amount = o.amount) &&
      (amountInCents row.amount : CppNumeric) = row.amount * 100
  | _ => true

def amountKept : Guard := fun _ _ p _ s => p.spot.keepsAmount s = true

/-- WeChat notifies with the total of a prepay requested before. -/
def Request.notifiesPrepay (s : Mem) : Request → Bool
  | .wxCallback msg =>
    (prepaysOf msg.outTradeNo s.trace).any fun total => msg.orderAmount = total / 100
  | _ => true

def amountProtocol (cfg : Config) : Protocol Request Mem Input Point :=
  orderProtocol cfg amountKept fun q s => q.notifiesPrepay s = true

instance (cfg : Config) (r : Nat) (q : Request) (p : Point) (i : Input) (s : Mem) :
    Decidable ((amountProtocol cfg).guard r q p i s) :=
  inferInstanceAs (Decidable (p.spot.keepsAmount s = true))

instance (cfg : Config) (q : Request) (s : Mem) : Decidable ((amountProtocol cfg).permit q s) :=
  inferInstanceAs (Decidable (q.notifiesPrepay s = true))

/-! ## The invariant -/

structure AmountInv (qs : List Request) (s : Mem) : Prop where
  oids : (s.db.orders.map CmallOrder.oid).Nodup
  /-- Every prepay is for the amount of its order. -/
  amounts : ∀ oid, ∀ total ∈ prepaysOf oid s.trace, ∀ o ∈ s.db.orders, o.oid = oid →
    total / 100 = o.amount
  hasOrder : ∀ oid, prepaysOf oid s.trace ≠ [] → ∃ o ∈ s.db.orders, o.oid = oid
  notified : ∀ (r : Nat) msg, qs[r]? = some (.wxCallback msg) →
    ∃ total ∈ prepaysOf msg.outTradeNo s.trace, msg.orderAmount = total / 100
  own : ∀ e ∈ s.trace, e.req < qs.length
  /-- The row a notification has written is the row of its order, paid in full. -/
  callback : ∀ r c row msg, .orderStored r c row ∈ s.trace → qs[r]? = some (.wxCallback msg) →
    row.oid = msg.outTradeNo ∧ row.payedAt = some msg.successTime ∧ msg.orderAmount = row.amount

theorem prepaysOf_append {oid : String} {es trace : List Event} (h : ∀ e ∈ es, e.tracked = false) :
    prepaysOf oid (es ++ trace) = prepaysOf oid trace := by
  induction es with
  | nil => rfl
  | cons e es ih =>
    have hrest := ih fun e' he' => h e' (List.mem_cons_of_mem _ he')
    have he := h e (List.mem_cons_self ..)
    cases e <;> first | exact hrest | simp [Event.tracked] at he

theorem AmountInv.spawn {qs : List Request} {s : Mem} {q : Request} (h : AmountInv qs s)
    (hq : q.notifiesPrepay s = true) : AmountInv (qs ++ [q]) s where
  oids := h.oids
  amounts := h.amounts
  hasOrder := h.hasOrder
  notified r msg hr := by
    rw [List.getElem?_append] at hr
    split at hr
    · exact h.notified r msg hr
    · rw [List.getElem?_singleton] at hr
      split at hr
      · cases hr
        simpa [Request.notifiesPrepay] using hq
      · cases hr
  own e he := Nat.lt_of_lt_of_le (h.own e he) (by simp)
  callback r c row msg he hr := by
    have hlt : r < qs.length := h.own _ he
    rw [List.getElem?_append_left hlt] at hr
    exact h.callback r c row msg he hr

section Steps

variable {cfg : Config} {r : Nat} {q : Request} {s t : Mem} {qs : List Request}

/-- A notification finds its order at the amount it reports. -/
theorem AmountInv.orderAmount {msg : NotifyMessage} (h : AmountInv qs s)
    (hq : qs[r]? = some (.wxCallback msg)) {o : CmallOrder} (ho : o ∈ s.db.orders)
    (hoid : o.oid = msg.outTradeNo) : msg.orderAmount = o.amount := by
  obtain ⟨total, hmem, hamount⟩ := h.notified r msg hq
  exact hamount.trans (h.amounts _ total hmem o ho hoid)

/-- Steps that touch neither the rows nor the prepays. -/
theorem AmountInv.of_same (h : AmountInv qs s) (horders : t.db.orders = s.db.orders)
    (hprepays : ∀ oid, prepaysOf oid t.trace = prepaysOf oid s.trace)
    (hown : ∀ e ∈ t.trace, e.req < qs.length)
    (hstored : ∀ r' c row, .orderStored r' c row ∈ t.trace → .orderStored r' c row ∈ s.trace) :
    AmountInv qs t where
  oids := horders ▸ h.oids
  amounts oid total ht o ho := h.amounts oid total (hprepays oid ▸ ht) o (horders ▸ ho)
  hasOrder oid hne := horders ▸ h.hasOrder oid (hprepays oid ▸ hne)
  notified r' msg hr := hprepays _ ▸ h.notified r' msg hr
  own := hown
  callback r' c row msg he := h.callback r' c row msg (hstored r' c row he)

theorem AmountInv.step (h : AmountInv qs s) (hi : OrderInv s) (hq : qs[r]? = some q)
    (hstep : OrderStep cfg amountKept r q s t) : AmountInv qs t := by
  have hown : ∀ e ∈ t.trace, e.req < qs.length := by
    obtain ⟨es, hes, hreq⟩ := hstep.own
    intro e he
    rcases List.mem_append.mp (hes ▸ he) with he | he
    · rw [hreq e he]
      exact (List.getElem?_eq_some_iff.mp hq).1
    · exact h.own e he
  cases hstep with
  | other horders hseq huuids htrace =>
    obtain ⟨es, hes, hes'⟩ := htrace
    have huntracked : ∀ e ∈ es, e.tracked = false := fun e he => (hes' e he).2.1
    refine h.of_same horders (fun oid => by rw [hes, prepaysOf_append huntracked]) hown ?_
    intro r' c row he
    rcases List.mem_append.mp (hes ▸ he) with he | he
    · have hf := huntracked _ he
      simp [Event.tracked] at hf
    · exact he
  | load who rows hrows =>
    exact h.of_same rfl (fun _ => rfl) hown fun _ _ _ he => by simpa using he
  | store ctx i c old cur hguard hload hcause hcur hident =>
    have hmem : cur ∈ s.db.orders := Table.mem_of_find hcur
    have hoid : cur.oid = old.oid := CmallOrder.oid_of_ident hident
    have hamount : (c.apply s.clock old).amount = (c.draft old).amount := by cases c <;> rfl
    have hdraft : (c.draft old).ident = old.ident := by cases c <;> rfl
    -- with a prepay outstanding, the amount of the order does not move
    have hkept : prepaysOf old.oid s.trace ≠ [] → (c.apply s.clock old).amount = cur.amount := by
      intro hne
      have hg : (Spot.storeOrder c (c.draft old)).keepsAmount s = true := hguard
      rw [Spot.keepsAmount, CmallOrder.oid_of_ident hdraft, CmallOrder.id_of_ident hdraft,
        hcur] at hg
      rw [hamount]
      simpa [hne] using hg
    refine ⟨?_, fun oid total ht o ho heq => ?_, fun oid hne => ?_, h.notified, hown,
      fun r' c' row msg he hr => ?_⟩
    · have hident' : (Table.update CmallOrder.id s.db.orders (c.apply s.clock old)).map
          CmallOrder.ident = s.db.orders.map CmallOrder.ident := store_ident hcur hident
      have hmap := congrArg (List.map fun x : Nat × String × Nat × Nat => x.2.1) hident'
      simp only [List.map_map] at hmap
      exact hmap ▸ h.oids
    · rcases Table.mem_update ho with rfl | ho
      · rw [c.apply_oid] at heq
        subst heq
        have ht' : total ∈ prepaysOf old.oid s.trace := ht
        rw [hkept (List.ne_nil_of_mem ht')]
        exact h.amounts _ total ht' cur hmem hoid
      · exact h.amounts oid total ht o ho heq
    · obtain ⟨o, ho, heq⟩ := h.hasOrder oid hne
      have hmem' : o.ident ∈
          (Table.update CmallOrder.id s.db.orders (c.apply s.clock old)).map CmallOrder.ident :=
        store_ident hcur hident ▸ List.mem_map_of_mem ho
      obtain ⟨o', ho', hident'⟩ := List.mem_map.mp hmem'
      exact ⟨o', ho', (CmallOrder.oid_of_ident hident').trans heq⟩
    · rcases List.mem_cons.mp he with heq | he
      · cases heq
        cases hq.symm.trans hr
        cases c with
        | wxPayed time =>
          obtain ⟨msg', hmsg, -, hout, rfl⟩ := hcause
          cases hmsg
          obtain ⟨total, hmem', -⟩ := h.notified r msg hr
          refine ⟨hout.symm, rfl, ?_⟩
          rw [hkept (hout ▸ List.ne_nil_of_mem hmem')]
          exact h.orderAmount hr hmem (hoid.trans hout.symm)
        | markPayed time =>
          rcases hcause with ⟨hm, -⟩ | ⟨hm | hm, -⟩ <;> simp [Request.method] at hm
        | alterPrice p k => simp [OrderChange.Cause, Request.method] at hcause
        | addKuaidi info => simp [OrderChange.Cause, Request.method] at hcause
        | delete time => simp [OrderChange.Cause, Request.method] at hcause
      · exact h.callback r' c' row msg he hr
  | persist order n hoid hn hfresh hpayed =>
    refine ⟨?_, fun oid total ht o ho heq => ?_, fun oid hne => ?_, h.notified, hown, h.callback⟩
    · show ((s.db.orders ++ [_]).map CmallOrder.oid).Nodup
      rw [List.map_append, List.map_singleton]
      refine List.nodup_append.mpr ⟨h.oids, List.nodup_singleton _, fun x hx y hy hxy => ?_⟩
      have hy' : y = order.oid := List.mem_singleton.mp hy
      obtain ⟨o, ho, hox⟩ := List.mem_map.mp hx
      exact hfresh o ho (hox.trans (hxy.trans hy'))
    · rcases List.mem_append.mp ho with ho | ho
      · exact h.amounts oid total ht o ho heq
      · -- there is no prepay for an order that does not exist yet
        rw [List.mem_singleton.mp ho] at heq
        obtain ⟨o', ho', heq'⟩ := h.hasOrder oid (List.ne_nil_of_mem ht)
        exact absurd (heq'.trans heq.symm) (hfresh o' ho')
    · obtain ⟨o, ho, heq⟩ := h.hasOrder oid hne
      exact ⟨o, List.mem_append_left _ ho, heq⟩
  | prepay ctx i order hguard hload =>
    obtain ⟨-, who, rows, he, hv⟩ := lastLoaded_mem hload
    obtain ⟨cur, hcur, hident⟩ := hi.loaded r who order ⟨rows, he, hv⟩
    have hmem : cur ∈ s.db.orders := Table.mem_of_find hcur
    have hoid : cur.oid = order.oid := CmallOrder.oid_of_ident hident
    have hg : order.amount = cur.amount ∧
        (amountInCents order.amount : CppNumeric) = order.amount * 100 := by
      simpa [amountKept, Spot.keepsAmount, hcur] using hguard
    have hnew : (amountInCents order.amount : CppNumeric) / 100 = cur.amount := by
      rw [hg.2, mul_div_cancel_right₀ _ (by decide)]
      exact hg.1
    refine ⟨h.oids, fun oid total ht o ho heq => ?_, fun oid hne => ?_, fun r' msg hr => ?_, hown,
      fun r' c row msg he => h.callback r' c row msg (by simpa using he)⟩
    · simp only [prepaysOf] at ht
      split at ht
      · rename_i horder
        rcases List.mem_cons.mp ht with rfl | ht
        · have hocur : o = cur :=
            List.inj_on_of_nodup_map h.oids ho hmem (heq.trans (horder.symm.trans hoid.symm))
          rw [hocur]
          exact hnew
        · exact h.amounts oid total ht o ho heq
      · exact h.amounts oid total ht o ho heq
    · by_cases horder : order.oid = oid
      · exact ⟨cur, hmem, hoid.trans horder⟩
      · exact h.hasOrder oid (by simpa [prepaysOf, horder] using hne)
    · obtain ⟨total, hmem', hamount⟩ := h.notified r' msg hr
      refine ⟨total, ?_, hamount⟩
      simp only [prepaysOf]
      split
      · exact List.mem_cons_of_mem _ hmem'
      · exact hmem'

end Steps

/-- In every run in which the amount of an order is what its prepays say and WeChat
notifies with the total of a prepay: the row a notification writes is the row of
its order, paid in full; and in every state every order costs what the
notifications for it report. -/
theorem payed_in_full (cfg : Config) (m : Mem) (ls : List (Label Request Input))
    (hm : FreshStart m) (hoids : (m.db.orders.map CmallOrder.oid).Nodup)
    (hls : (amountProtocol cfg).Admissible (prog cfg) (Sys.idle m) ls) :
    let s := (Sys.idle m : Service).run (prog cfg) ls
    ∀ (r : Nat) msg, s.reqs[r]? = some (.wxCallback msg) →
      (∀ c row, .orderStored r c row ∈ s.mem.trace → row.oid = msg.outTradeNo ∧
        row.payedAt = some msg.successTime ∧ msg.orderAmount = row.price + row.kuaidifei) ∧
      ∀ o ∈ s.mem.db.orders, o.oid = msg.outTradeNo → msg.orderAmount = o.price + o.kuaidifei := by
  have hstart : AmountInv [] m :=
    ⟨hoids, by simp [hm.trace, prepaysOf], by simp [hm.trace, prepaysOf], by simp,
      by simp [hm.trace], by simp⟩
  obtain ⟨-, hinv⟩ := order_run (J := AmountInv) hm hls (fun _ _ q hq h => h.spawn hq)
    (fun _ _ _ _ _ hi hq hstep h => h.step hi hq hstep) hstart
  intro s r msg hq
  exact ⟨fun c row he => hinv.callback r c row msg he hq, fun o ho hoid =>
    hinv.orderAmount hq ho hoid⟩

/-! ## A price change after the prepay -/

/-- User 2 on connection 0 has bought from merchant 1 on connection 1. -/
def oneBoughtOrder : Mem where
  db :=
    { orders := [{ id := 1, oid := "A", buyer := 2, seller := 1, price := 10
                   boughtGoods := [{ merchantId := 1, goodsId := "g", name := "", price := 10
                                     description := "", goodVersionGit := "", selection := "" }] }]
      merchants := [{ uid := 1, exinfoWxMchid := some "m" }]
      seq := { order := 1 } }
  heap a :=
    if a = 0 then { sessionId := "b", userInfo := some { uid := 2 } }
    else { sessionId := "s", userInfo := some { uid := 1 }, merchantInfo := some { uid := 1 }
           isMerchant := true }
  heapTop := 2
  conn c := { sessionInfo := some c }

/-- The only price a request can name is 20; one app is configured. -/
def shopConfig : Config where
  numeric text := if text = "20" then some 20 else none
  wxpayAppids := ["app"]

/-- Request 0 gets a prepay id for the order. -/
def prepaid : List (Label Request Input) :=
  .spawn (.jsonrpc 0 .orderGetWxpayPrepayId
      (stringParams [("orderid", "A"), ("wx_microapp_appid", "app")])) ::
    resumes 0 6 ++ [.resume 0 { answer := some "p" }]

/-- The buyer has paid the 10 of the prepay. -/
def payed10 : NotifyMessage :=
  { outTradeNo := "A", tradeState := .success, orderAmount := 10, payedAmount := 10
    successTime := 5 }

theorem oneBoughtOrder_freshStart : FreshStart oneBoughtOrder := by
  refine ⟨rfl, by decide, by decide, fun o ho r n h => ?_⟩
  have hoid : o.oid = "A" := by simp_all [oneBoughtOrder]
  rw [hoid] at h
  simpa [uuidOf] using congrArg String.toList h

/-- A prepay and its notification. -/
theorem payed_in_full_after_prepay :
    let s := (Sys.idle oneBoughtOrder : Service).run (prog shopConfig)
      (prepaid ++ .spawn (.wxCallback payed10) :: resumes 1 5)
    ∀ (r : Nat) msg, s.reqs[r]? = some (.wxCallback msg) →
      (∀ c row, .orderStored r c row ∈ s.mem.trace → row.oid = msg.outTradeNo ∧
        row.payedAt = some msg.successTime ∧ msg.orderAmount = row.price + row.kuaidifei) ∧
      ∀ o ∈ s.mem.db.orders, o.oid = msg.outTradeNo → msg.orderAmount = o.price + o.kuaidifei :=
  payed_in_full shopConfig oneBoughtOrder _ oneBoughtOrder_freshStart (by decide)
    (by decide +kernel)

/-- The merchant changes the price to 20 between the prepay and the notification. -/
def raisedPrice : List (Label Request Input) :=
  prepaid ++ .spawn (.jsonrpc 1 .merchantAlterOrderPrice
    (stringParams [("orderid", "A"), ("new_price", "20")])) :: resumes 1 5

/-- The notification for 10 marks the order of 20 paid. -/
theorem notification_of_old_price_pays :
    let s := (Sys.idle oneBoughtOrder : Service).run (prog shopConfig) raisedPrice
    let t := (Sys.idle oneBoughtOrder : Service).run (prog shopConfig)
      (raisedPrice ++ .spawn (.wxCallback payed10) :: resumes 2 5)
    (Request.wxCallback payed10).notifiesPrepay s.mem = true ∧ s.mem.db.payed 1 = false ∧
      t.mem.db.payed 1 = true ∧
      ∀ o ∈ t.mem.db.findOrder 1, payed10.orderAmount ≠ o.price + o.kuaidifei := by
  decide +kernel

end Cmall
