import Cmall.Safety.PaidInFull

/-!
Charges for settled orders.

`order_get_pay_url` and `order_get_wxpay_prepay_id` load the order of the caller with a
query of their own and test neither the time of payment nor that of deletion. They start
a charge only for unsettled orders as long as an order is not settled yet when it is
loaded to be paid.
-/

namespace Cmall
open Coroutine Protocol

/-! ## The condition -/

/-- The order a request asks to pay. -/
def Request.paysFor : Request → Option String
  | .jsonrpc _ .orderGetPayUrl params => some (Json.getString params "orderid")
  | .jsonrpc _ .orderGetWxpayPrepayId params => some (Json.getString params "orderid")
  | _ => none

/-- Neither paid nor deleted. -/
def CmallOrder.unsettled (o : CmallOrder) : Bool := o.payedAt.isNone && o.deletedAt.isNone

/-- The order that is about to be loaded to be paid is unsettled. -/
def Spot.loadsUnsettled (db : Db) : Spot → Bool
  | .loadToPay uid orderid =>
    (Table.queryOne db.orders fun o => o.oid = orderid ∧ o.buyer = uid).all CmallOrder.unsettled
  | _ => true

/-- The user of the session a connection refers to. -/
def Mem.userOf (s : Mem) (c : Nat) : Option Nat :=
  (s.conn c).sessionInfo.bind fun a => (s.heap a).userInfo.map CmallUser.uid

/-- Request `r₀` is begun in a session of `who`; a request to pay loads an unsettled order. -/
def unsettledGuard (r₀ : Nat) (who : Option Nat) : Guard := fun r q p _ s =>
  (r = r₀ → p.spot = .start q.method → s.userOf q.conn = who) ∧
    (q.paysFor.isSome = true → p.spot.loadsUnsettled s.db = true)

instance (r₀ : Nat) (who : Option Nat) (r : Nat) (q : Request) (p : Point) (i : Input) (s : Mem) :
    Decidable (unsettledGuard r₀ who r q p i s) :=
  inferInstanceAs (Decidable ((_ → _ → _) ∧ (_ → _)))

/-! ## The protocol -/

/-- The events of a request that has got somewhere: the script or WeChat has been
contacted, or the request has been answered without an error. -/
def Event.contacts : Event → Bool
  | .payurl .. | .prepay .. | .replied .. => true
  | _ => false

/-- The order a charge is for. -/
def Event.isFor (orderid : String) : Event → Prop
  | .payurl _ oid => oid = orderid
  | .prepay _ oid _ => oid = orderid
  | _ => True

/-- Request `r` has loaded the order `orderid` of `who`, neither paid nor deleted. -/
def LoadedUnsettled (r : Nat) (who : Option Nat) (orderid : String) (trace : List Event) : Prop :=
  ∃ u o, who = some u ∧ .ordersLoaded r (.buyer u) [o] ∈ trace ∧ o.oid = orderid ∧ o.buyer = u ∧
    o.payedAt = none ∧ o.deletedAt = none

theorem LoadedUnsettled.mono {r : Nat} {who : Option Nat} {orderid : String} {tr tr' : List Event}
    (h : LoadedUnsettled r who orderid tr) (hsub : ∀ e ∈ tr, e ∈ tr') :
    LoadedUnsettled r who orderid tr' := by
  obtain ⟨u, o, hu, he, ho⟩ := h
  exact ⟨u, o, hu, hsub _ he, ho⟩

/-- What the event of request `r` says about the order it is for. -/
def Event.Charged (r₀ : Nat) (who : Option Nat) (r : Nat) (q : Request) (trace : List Event)
    (e : Event) : Prop :=
  r = r₀ → e.contacts = true → ∀ orderid, q.paysFor = some orderid →
    e.isFor orderid ∧ LoadedUnsettled r who orderid trace

/-- The events of request `r` are its own, and those of a charge are for an unsettled order. -/
def OwnCharges (r₀ : Nat) (who : Option Nat) (r : Nat) (q : Request) (s t : Mem) : Prop :=
  ∃ es, t.trace = es ++ s.trace ∧ ∀ e ∈ es, e.req = r ∧ e.Charged r₀ who r q t.trace

theorem OwnCharges.refl (r₀ : Nat) (who : Option Nat) (r : Nat) (q : Request) (s : Mem) :
    OwnCharges r₀ who r q s s := ⟨[], rfl, by simp⟩

theorem OwnCharges.trans {r₀ : Nat} {who : Option Nat} {r : Nat} {q : Request} {s t u : Mem}
    (h : OwnCharges r₀ who r q s t) (h' : OwnCharges r₀ who r q t u) :
    OwnCharges r₀ who r q s u := by
  obtain ⟨es, hes, hown⟩ := h
  obtain ⟨es', hes', hown'⟩ := h'
  refine ⟨es' ++ es, by rw [hes', hes, List.append_assoc], fun e he => ?_⟩
  rcases List.mem_append.mp he with he | he
  · exact hown' e he
  · refine ⟨(hown e he).1, fun hr hc orderid hq => ?_⟩
    obtain ⟨hfor, hload⟩ := (hown e he).2 hr hc orderid hq
    exact ⟨hfor, hload.mono fun e he => hes' ▸ List.mem_append_right _ he⟩

def chargeProtocol (r₀ : Nat) (who : Option Nat) : Protocol Request Mem Input Point where
  inv _ := True
  rely _ _ s t := ∀ e ∈ s.trace, e ∈ t.trace
  guar := OwnCharges r₀ who
  guard := unsettledGuard r₀ who
  permit _ _ := True
  rely_refl _ _ _ _ he := he
  rely_trans _ _ _ _ _ h h' e he := h' e (h e he)
  guar_refl := .refl r₀ who
  guar_trans _ _ _ _ _ := .trans
  guar_inv _ _ _ _ _ _ := trivial
  guar_rely _ _ _ _ _ _ _ _ h e he := by
    obtain ⟨es, hes, -⟩ := h
    exact hes ▸ List.mem_append_right _ he

instance (r₀ : Nat) (who : Option Nat) (r : Nat) (q : Request) (p : Point) (i : Input) (s : Mem) :
    Decidable ((chargeProtocol r₀ who).guard r q p i s) :=
  inferInstanceAs (Decidable (unsettledGuard r₀ who r q p i s))

instance (r₀ : Nat) (who : Option Nat) (q : Request) (s : Mem) :
    Decidable ((chargeProtocol r₀ who).permit q s) := .isTrue trivial

/-! ## Handlers -/

section Handlers

variable {r₀ r : Nat} {who : Option Nat} {q : Request} {cfg : Config} {ctx : Ctx} {α : Type}
  {orderid : String} {params : JsonObject}

/-- The order of the request has been loaded, unsettled. -/
abbrev HasUnsettled (r : Nat) (who : Option Nat) (orderid : String) (s : Mem) : Prop :=
  LoadedUnsettled r who orderid s.trace

theorem stable_hasUnsettled :
    (chargeProtocol r₀ who).Stable r q (HasUnsettled r who orderid) :=
  fun _ _ _ hst h => h.mono hst

/-- Steps without events of a charge. -/
theorem ownCharges_of_keeps {K : List Part} {s t : Mem} (hk : Keeps K r s t)
    (hK : .orderEvents ∉ K) (hK' : .otherEvents ∉ K) : OwnCharges r₀ who r q s t := by
  obtain ⟨es, hes, hown⟩ := hk.trace
  refine ⟨es, hes, fun e he => ⟨(hown e he).1, fun _ hc => ?_⟩⟩
  have hpart := (hown e he).2
  cases e with
  | payurl => exact absurd hpart hK
  | prepay => exact absurd hpart hK
  | replied => exact absurd hpart hK'
  | _ => cases hc

/-- An event for the order that has been loaded. -/
theorem ownCharges_cons {e : Event} {s : Mem} (hr : e.req = r) (hfor : e.isFor orderid)
    (hq : q.paysFor = some orderid) (h : HasUnsettled r who orderid s) :
    OwnCharges r₀ who r q s { s with trace := e :: s.trace } := by
  refine ⟨[e], rfl, fun e' he' => ?_⟩
  rw [List.mem_singleton.mp he']
  refine ⟨hr, fun _ _ orderid' hq' => ?_⟩
  cases hq.symm.trans hq'
  exact ⟨hfor, h.mono fun e he => List.mem_cons_of_mem _ he⟩

theorem hasUnsettled_of_each {x : M α} (hx : x.Each (Keeps [] r)) :
    (chargeProtocol r₀ who).Triple r q (HasUnsettled r who orderid) x
      (fun _ => HasUnsettled r who orderid) (fun _ => True) := by
  refine .conseq (.each hx stable_hasUnsettled fun s t _ h hk => ?_) (fun _ _ h => h)
    (fun _ _ _ h => h) fun _ _ _ => trivial
  refine ⟨ownCharges_of_keeps hk (by simp) (by simp), h.mono fun e he => ?_⟩
  obtain ⟨es, hes, -⟩ := hk.trace
  exact hes ▸ List.mem_append_right _ he

theorem hasUnsettled_emit {e : Event} (hr : e.req = r) (hfor : e.isFor orderid)
    (hq : q.paysFor = some orderid) :
    (chargeProtocol r₀ who).Triple r q (HasUnsettled r who orderid) (emit e)
      (fun _ => HasUnsettled r who orderid) (fun _ => True) :=
  .modify fun _ _ h => ⟨ownCharges_cons hr hfor hq h, h.mono fun _ he => List.mem_cons_of_mem _ he⟩

/-- The connection refers to the session at `a`, which is one of `who`. -/
def InSession (c a : Nat) (who : Option Nat) (s : Mem) : Prop :=
  (s.conn c).sessionInfo = some a ∧ s.userOf c = who

/-- The order is looked up for the user of the session the request was begun in. -/
theorem loadOrderToPay_charge (hr : ctx.req = r) (hq : q.paysFor.isSome = true) (a : Nat) :
    (chargeProtocol r₀ who).Triple r q (InSession ctx.conn a who) (loadOrderToPay ctx a params)
      (fun _ => HasUnsettled r who (Json.getString params "orderid")) (fun _ => True) := by
  subst hr
  refine .bind (triple_thisUser a fun _ _ _ => trivial) fun v => ?_
  refine .conseq (L := fun _ => who = some v.uid ∧ True) (.pure fun hwho => ?_)
    (fun s _ h => ⟨?_, trivial⟩) (fun _ _ _ h => h) fun _ _ h => h
  · refine .bind (Q := fun found s => ∀ o, found = some o →
      HasUnsettled ctx.req who (Json.getString params "orderid") s) (triple_tx
        (fun found s => ∀ o, found = some o →
          HasUnsettled ctx.req who (Json.getString params "orderid") s)
        stable_true ?_ (fun _ _ _ => trivial) ?_ fun _ _ _ _ h _ => h) fun found => ?_
    · exact fun found s t hi hst h o ho => (h o ho).mono hst
    · intro i s _ _ hg
      refine ⟨⟨[_], rfl, fun e he => ?_⟩, fun _ => trivial, ?_⟩
      · rw [List.mem_singleton.mp he]
        exact ⟨rfl, fun _ hc => by cases hc⟩
      · rintro found ⟨⟩ o ho
        have hunsettled : o.unsettled = true := by
          have hall := hg.2 hq
          simp only [Spot.loadsUnsettled] at hall
          rw [ho] at hall
          exact hall
        have hmine : o.oid = Json.getString params "orderid" ∧ o.buyer = v.uid := by
          simpa using (Table.queryOne_some ho).2
        have hopen : o.payedAt = none ∧ o.deletedAt = none := by
          simpa [CmallOrder.unsettled] using hunsettled
        refine ⟨v.uid, o, hwho, ?_, hmine.1, hmine.2, hopen⟩
        have hrows : (Table.queryOne s.db.orders fun o => o.oid = Json.getString params "orderid" ∧
            o.buyer = v.uid).toList = [o] := by
          rw [ho]
          rfl
        exact List.mem_cons.mpr (.inl (by rw [hrows]))
    · split
      · exact .ret fun s _ h => h _ rfl
      · exact .throw fun _ _ _ => trivial
  · rw [← h.2.2, Mem.userOf, h.2.1]
    simp [h.1]

theorem orderGetPayUrl_charge (hr : ctx.req = r)
    (hq : q.paysFor = some (Json.getString params "orderid")) (a : Nat) :
    (chargeProtocol r₀ who).Triple r q (InSession ctx.conn a who) (orderGetPayUrl ctx a params)
      (fun _ => HasUnsettled r who (Json.getString params "orderid")) (fun _ => True) := by
  refine .bind (loadOrderToPay_charge hr (by rw [hq]; rfl) a) fun order => ?_
  refine .bind (hasUnsettled_of_each (orderMerchant_each order)) fun merchantId => ?_
  refine .bind (hasUnsettled_of_each (getMerchantGitRepo_each merchantId)) fun repo => ?_
  refine .bind (hasUnsettled_of_each (readRepo_each _ _ _)) fun content => ?_
  split
  · exact .throw fun _ _ _ => trivial
  · refine .bind (hasUnsettled_emit hr rfl hq) fun _ => ?_
    exact .bind (hasUnsettled_of_each external_each) fun uri => .ret fun _ _ h => h

theorem orderGetWxpayPrepayId_charge (hr : ctx.req = r)
    (hq : q.paysFor = some (Json.getString params "orderid")) (a : Nat) :
    (chargeProtocol r₀ who).Triple r q (InSession ctx.conn a who)
      (orderGetWxpayPrepayId cfg ctx a params)
      (fun _ => HasUnsettled r who (Json.getString params "orderid")) (fun _ => True) := by
  refine .bind (loadOrderToPay_charge hr (by rw [hq]; rfl) a) fun order => ?_
  refine .bind (hasUnsettled_of_each (orderMerchant_each order)) fun merchantId => ?_
  refine .bind (hasUnsettled_of_each (asyncLoad_each _ _)) fun m => ?_
  split
  · exact .throw fun _ _ _ => trivial
  · split
    · exact .throw fun _ _ _ => trivial
    · split
      · exact .throw fun _ _ _ => trivial
      · refine .bind (hasUnsettled_of_each (each_suspend _)) fun _ => ?_
        refine .bind (hasUnsettled_emit hr rfl hq) fun _ => ?_
        refine .bind (hasUnsettled_of_each external_each) fun prepayId => ?_
        split
        · exact .throw fun _ _ _ => trivial
        · exact .ret fun _ _ h => h

/-- A request to pay that does not fail has loaded an unsettled order. -/
theorem handlerOf_charge {conn : Nat} {method : ReqMethod}
    (hq : (Request.jsonrpc conn method params).paysFor = some orderid) :
    (chargeProtocol r₀ who).Triple r (.jsonrpc conn method params) (fun s => s.userOf conn = who)
      (handlerOf cfg ⟨conn, r⟩ method params) (fun _ => HasUnsettled r who orderid)
      (fun _ => True) := by
  have hsession : ∀ {g : Nat → M Reply},
      (∀ a, (chargeProtocol r₀ who).Triple r (.jsonrpc conn method params) (InSession conn a who)
        (g a) (fun _ => HasUnsettled r who orderid) (fun _ => True)) →
      (chargeProtocol r₀ who).Triple r (.jsonrpc conn method params) (fun s => s.userOf conn = who)
        (thisSession ⟨conn, r⟩ >>= g) (fun _ => HasUnsettled r who orderid) (fun _ => True) :=
    fun h => .bind (triple_thisSession fun _ _ _ => trivial) h
  have hctx : (⟨conn, r⟩ : Ctx).req = r := rfl
  cases method with
  | orderGetPayUrl =>
    cases hq
    simp only [handlerOf, ReqMethod.api, handleJsonrpcOrderApi]
    exact hsession fun a => orderGetPayUrl_charge hctx rfl a
  | orderGetWxpayPrepayId =>
    cases hq
    simp only [handlerOf, ReqMethod.api, handleJsonrpcOrderApi]
    exact hsession fun a => orderGetWxpayPrepayId_charge hctx rfl a
  | _ => cases hq

end Handlers

/-- Every program keeps to the protocol. -/
theorem programs_charge (cfg : Config) (r₀ : Nat) (who : Option Nat) :
    (chargeProtocol r₀ who).Programs (prog cfg) := by
  intro r q m _ _ _
  -- only request `r₀` is followed, and only if it is one to pay
  by_cases hr : r = r₀ ∧ q.paysFor.isSome = true
  · obtain ⟨orderid, hq⟩ := Option.isSome_iff_exists.mp hr.2
    cases q with
    | jsonrpc conn method params =>
      refine prog_suspended_of_handler (L := fun _ => True) stable_true trivial
        (fun i s _ _ hg => hg.1 hr.1 rfl) (fun _ _ _ => trivial) (handlerOf_charge hq) ?_
      exact fun reply s _ h => ⟨ownCharges_cons rfl trivial hq h, trivial⟩
    | _ => cases hq
  · refine prog_suspended_of_keeps (fun s t _ hk => ?_) fun _ => trivial
    obtain ⟨es, hes, hown⟩ := hk.trace
    refine ⟨es, hes, fun e he => ⟨(hown e he).1, fun hr' _ orderid hq => ?_⟩⟩
    exact absurd ⟨hr', by rw [hq]; rfl⟩ hr

/-- In every run, with requests of all kinds in any order: a request to pay that was
begun in a session of `who` runs the script of the merchant, requests a prepay or is
answered without an error only after it has loaded the order it names, which belongs to
`who` and is neither paid nor deleted; provided that the orders such requests load are
not settled when they are loaded. -/
theorem no_charge_for_settled_order (cfg : Config) (m : Mem) (ls : List (Label Request Input))
    (r : Nat) (who : Option Nat) (hm : m.trace = [])
    (hls : (chargeProtocol r who).Admissible (prog cfg) (Sys.idle m) ls) (q : Request)
    (orderid : String) (hq : q.paysFor = some orderid) :
    let s := (Sys.idle m : Service).run (prog cfg) ls
    s.reqs[r]? = some q → ∀ e ∈ s.mem.trace, e.req = r → e.contacts = true →
      e.isFor orderid ∧ LoadedUnsettled r who orderid s.mem.trace := by
  have hinv := run_view (J := fun qs s => (∀ e ∈ s.trace, e.req < qs.length) ∧
      ∀ e ∈ s.trace, e.req = r → ∀ q, qs[r]? = some q → e.Charged r who r q s.trace)
    (programs_charge cfg r who) (good_idle (P := chargeProtocol r who) trivial fun _ => trivial) hls
    ?_ ?_ ⟨by simp [Sys.idle, hm], by simp [Sys.idle, hm]⟩
  · intro s hr e he her hc
    exact hinv.2 e he her q hr rfl hc orderid hq
  · rintro qs s q' - ⟨hown, hall⟩
    refine ⟨fun e he => Nat.lt_of_lt_of_le (hown e he) (by simp), fun e he her q hq => ?_⟩
    rw [List.getElem?_append_left (her ▸ hown e he)] at hq
    exact hall e he her q hq
  · rintro qs s t r' q' - hq' ⟨es, hes, hnew⟩ ⟨hown, hall⟩
    constructor
    · intro e he
      rcases List.mem_append.mp (hes ▸ he) with he | he
      · rw [(hnew e he).1]
        exact (List.getElem?_eq_some_iff.mp hq').1
      · exact hown e he
    · intro e he her q hq
      rcases List.mem_append.mp (hes ▸ he) with he | he
      · have hr' : r' = r := (hnew e he).1.symm.trans her
        subst hr'
        cases hq'.symm.trans hq
        exact (hnew e he).2
      · intro hr hc orderid hq
        obtain ⟨hfor, hload⟩ := hall e he her _ ‹_› hr hc orderid hq
        exact ⟨hfor, hload.mono fun e he => hes ▸ List.mem_append_right _ he⟩

/-! ## A charge for a paid order -/

/-- The rows that request `r` has loaded. -/
def Event.loadedRows (r : Nat) : Event → List CmallOrder
  | .ordersLoaded r' _ rows => if r' = r then rows else []
  | _ => []

/-- User 2 asks for a prepay for the order. -/
theorem no_charge_for_settled_order_prepaid :
    let s := (Sys.idle oneBoughtOrder : Service).run (prog shopConfig) prepaid
    .prepay 0 "A" 1000 ∈ s.mem.trace ∧ LoadedUnsettled 0 (some 2) "A" s.mem.trace :=
  ⟨by decide +kernel, (no_charge_for_settled_order shopConfig oneBoughtOrder prepaid 0 (some 2) rfl
    (by decide +kernel) _ "A" (by decide +kernel) rfl (.prepay 0 "A" 1000) (by decide +kernel)
    rfl rfl).2⟩

/-- WeChat has reported the payment before user 2 asks for a prepay. -/
def prepaidAgain : List (Label Request Input) :=
  .spawn (.wxCallback payed10) :: resumes 0 5 ++
    .spawn (.jsonrpc 0 .orderGetWxpayPrepayId
      (stringParams [("orderid", "A"), ("wx_microapp_appid", "app")])) ::
    resumes 1 6 ++ [.resume 1 { answer := some "p" }]

/-- The order has been paid, and a prepay is requested for it; the rows that the request
has loaded are paid ones. -/
theorem prepay_for_payed_order :
    let s := (Sys.idle oneBoughtOrder : Service).run (prog shopConfig) prepaidAgain
    .prepay 1 "A" 1000 ∈ s.mem.trace ∧ .replied 1 (.text "p") ∈ s.mem.trace ∧
      ¬ LoadedUnsettled 1 (some 2) "A" s.mem.trace := by
  refine ⟨by decide +kernel, by decide +kernel, ?_⟩
  rintro ⟨u, o, -, he, -, -, hpayed, -⟩
  have hall : ∀ e ∈ ((Sys.idle oneBoughtOrder : Service).run (prog shopConfig)
      prepaidAgain).mem.trace, ∀ o ∈ e.loadedRows 1, o.payedAt ≠ none := by
    decide +kernel
  exact hall _ he o (List.mem_singleton.mpr rfl) hpayed

end Cmall
