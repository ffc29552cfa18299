import Cmall.Footprint.Basic
import Cmall.Wxpay

/-!
Payment notifications.

A notification is accepted when a configured service verifies its signature and decrypts
its resource. `rsa_sign_verify` turns the `int` of `EVP_DigestVerify` into a `bool`, so an
error (a negative value) counts as a valid signature. Without such an answer, only
authentic notifications mark orders paid.
-/

namespace Cmall
open Coroutine

/-! ## Authentic notifications -/

/-- The decrypted text names `oid` as paid. -/
def NamesPaid (jv : Json) (oid : String) : Prop :=
  ∃ obj, jv = .object obj ∧ Json.at? obj "out_trade_no" = some (.string oid) ∧
    Json.at? obj "trade_state" = some (.string "SUCCESS")

/-- What `EVP_DigestVerify` answers for the service. -/
def WxpayService.verdict (lib : Libraries) (svc : WxpayService) (http : PayNotification) : Int :=
  lib.digestVerify svc.wechatpaySignatureKey http.toVerify (base64Decode http.signature)

/-- The service decrypts the resource of the notification to `jv`. -/
def WxpayService.Decrypts (lib : Libraries) (svc : WxpayService) (http : PayNotification)
    (jv : Json) : Prop :=
  ∃ data x, http.resource lib = .ok data ∧
    gcmInput (base64Decode data.ciphertext) svc.apiv3Key data.nonce data.associatedData = .ok x ∧
    0 < (lib.decryptFinal x).1 ∧ lib.parse (lib.plaintext x) = some jv

/-- Signature and resource are good for the service, and the resource names `oid` as paid. -/
def WxpayService.Authentic (lib : Libraries) (svc : WxpayService) (http : PayNotification)
    (oid : String) : Prop :=
  svc.verdict lib http = 1 ∧ ∃ jv, svc.Decrypts lib http jv ∧ NamesPaid jv oid

/-- The access changes `payed_at_` of orders with an id in `p` only. Every order has an
`oid_`: `order_create` gives it one. -/
def PaysOnly (p : String → Prop) (s t : Mem) : Prop :=
  ∀ id o o', s.db.findOrder id = some o → t.db.findOrder id = some o' →
    o'.payedAt ≠ o.payedAt → o'.oid ≠ "" → p o'.oid

/-- Whatever else is going on, the request marks only orders paid that an authentic
notification names. -/
def OnlyAuthentic (lib : Libraries) (services : List WxpayService) (http : PayNotification) :
    Prop :=
  ∀ ctx, (wxPayAction lib ctx http services).Each
    (PaysOnly fun oid => ∃ svc ∈ services, svc.Authentic lib http oid)

/-- When the answer for a service is neither 1 nor 0 and the service decrypts the resource
to the payment of an order, another service has accepted that payment. -/
def ErrorsHarmless (lib : Libraries) (services : List WxpayService) (http : PayNotification) :
    Prop :=
  ∀ svc ∈ services, svc.verdict lib http ≠ 0 → svc.verdict lib http ≠ 1 →
    ∀ msg, svc.decodeNotifyMessage lib http = .ok msg → msg.tradeState = .success →
      msg.outTradeNo ≠ "" → ∃ svc' ∈ services, svc'.Authentic lib http msg.outTradeNo

/-! ## Decoding -/

theorem except_bind_ok {ε α β : Type} {x : Except ε α} {f : α → Except ε β} {b : β}
    (h : x.bind f = .ok b) : ∃ a, x = .ok a ∧ f a = .ok b := by
  cases x with
  | error e => cases h
  | ok a => exact ⟨a, rfl, h⟩

variable {lib : Libraries} {services : List WxpayService} {http : PayNotification}
  {svc : WxpayService} {msg : NotifyMessage}

theorem Json.asString_ok {v : Json} {s : String} (h : v.asString = .ok s) : v = .string s := by
  cases v <;> cases h
  rfl

theorem Json.atKey_ok {obj : JsonObject} {key : String} {v : Json}
    (h : Json.atKey obj key = .ok v) : Json.at? obj key = some v := by
  unfold Json.atKey at h
  split at h
  · rename_i v' hv'
    cases h
    exact hv'
  · cases h

theorem parse_of_parseJson {text : String} {jv : Json} (h : lib.parseJson text = .ok jv) :
    lib.parse text = some jv := by
  unfold Libraries.parseJson at h
  split at h
  · rename_i jv' hjv'
    cases h
    exact hjv'
  · cases h

theorem PayStatus.ofString_success {s : String}
    (h : (PayStatus.ofString s).getD .queryFailed = .success) : s = "SUCCESS" := by
  unfold PayStatus.ofString at h
  split at h
  · rfl
  all_goals cases h

/-- A message with a trade number comes from a text that has it. -/
theorem NotifyMessage.ofJson_names {jv : Json} (h : NotifyMessage.ofJson lib jv = .ok msg)
    (hstate : msg.tradeState = .success) (hne : msg.outTradeNo ≠ "") :
    NamesPaid jv msg.outTradeNo := by
  have hempty : msg ≠ NotifyMessage.empty := fun e => hne (by rw [e]; rfl)
  cases jv with
  | object obj =>
    simp only [NotifyMessage.ofJson] at h
    split at h
    · rename_i outTradeNo _ hout htransaction
      obtain ⟨oid, hoid, h⟩ := except_bind_ok h
      obtain ⟨v, hv, h⟩ := except_bind_ok h
      obtain ⟨state, hstate', h⟩ := except_bind_ok h
      obtain ⟨_, -, h⟩ := except_bind_ok h
      obtain ⟨_, -, h⟩ := except_bind_ok h
      obtain ⟨_, -, h⟩ := except_bind_ok h
      obtain ⟨_, -, h⟩ := except_bind_ok h
      obtain ⟨_, -, h⟩ := except_bind_ok h
      obtain ⟨_, -, h⟩ := except_bind_ok h
      obtain ⟨_, -, h⟩ := except_bind_ok h
      obtain ⟨_, -, h⟩ := except_bind_ok h
      cases h
      cases Json.asString_ok hoid
      cases Json.asString_ok hstate'
      have hsuccess := PayStatus.ofString_success hstate
      exact ⟨obj, rfl, hout, by rw [← hsuccess]; exact Json.atKey_ok hv⟩
    · exact absurd (Except.ok.inj h).symm hempty
  | _ => exact absurd (Except.ok.inj h).symm hempty

theorem aesGcmDecrypt_ok {ciphertext : Bytes} {key iv aad text : String}
    (h : aesGcmDecrypt lib ciphertext key iv aad = .ok text) (hne : text ≠ "") :
    ∃ x, gcmInput ciphertext key iv aad = .ok x ∧ 0 < (lib.decryptFinal x).1 ∧
      text = lib.plaintext x := by
  obtain ⟨x, hx, h⟩ := except_bind_ok h
  refine ⟨x, hx, ?_⟩
  by_cases hinit : lib.decryptInit x = 0
  · simp [hinit] at h
  by_cases haad : lib.decryptAad x = 0
  · simp [hinit, haad] at h
  by_cases hupdate : (lib.decryptUpdate x).1 = 0
  · simp [hinit, haad, hupdate] at h
  by_cases hfinal : 0 < (lib.decryptFinal x).1
  · simp only [hinit, haad, hupdate, hfinal, if_true, if_false] at h
    exact ⟨hfinal, (Except.ok.inj h).symm⟩
  · simp only [hinit, haad, hupdate, hfinal, if_false] at h
    exact absurd (Except.ok.inj h).symm hne

/-- A decoded payment was decrypted, and its signature was not refused. -/
theorem decodeNotifyMessage_ok (h : svc.decodeNotifyMessage lib http = .ok msg)
    (hstate : msg.tradeState = .success) (hne : msg.outTradeNo ≠ "") :
    svc.verdict lib http ≠ 0 ∧ ∃ jv, svc.Decrypts lib http jv ∧ NamesPaid jv msg.outTradeNo := by
  unfold WxpayService.decodeNotifyMessage at h
  by_cases hsig : svc.verifySig lib http = false
  · simp [hsig] at h
  · have hverdict : svc.verdict lib http ≠ 0 := by
      simpa [WxpayService.verifySig, rsaSignVerify, WxpayService.verdict] using hsig
    rw [if_neg hsig] at h
    obtain ⟨data, hdata, h⟩ := except_bind_ok h
    obtain ⟨text, htext, h⟩ := except_bind_ok h
    by_cases hempty : text = ""
    · simp [hempty] at h
    · rw [if_neg hempty] at h
      obtain ⟨jv, hjv, hmsg⟩ := except_bind_ok h
      obtain ⟨x, hx, hfinal, rfl⟩ := aesGcmDecrypt_ok htext hempty
      exact ⟨hverdict, jv, ⟨data, x, hdata, hx, hfinal, parse_of_parseJson hjv⟩,
        NotifyMessage.ofJson_names hmsg hstate hne⟩

/-! ## Errors of the decoder -/

/-- The exceptions it can throw are caught by the loop over the services. -/
def StdErrors {α : Type} (x : Except Exn α) : Prop := ∀ e, x = .error e → e.isStd = true

section StdErrors

variable {α β : Type}

theorem stdErrors_ok (a : α) : StdErrors (.ok a) := fun _ h => by cases h

theorem stdErrors_error {e : Exn} (h : e.isStd = true) : StdErrors (.error e : Except Exn α) :=
  fun _ he => by
    cases he
    exact h

theorem stdErrors_bind {x : Except Exn α} {f : α → Except Exn β} (hx : StdErrors x)
    (hf : ∀ a, x = .ok a → StdErrors (f a)) : StdErrors (x.bind f) := by
  cases x with
  | error e => exact stdErrors_error (hx e rfl)
  | ok a => exact hf a rfl

theorem stdErrors_asString (v : Json) : StdErrors v.asString := by
  cases v with
  | string s => exact stdErrors_ok s
  | _ => exact stdErrors_error rfl

theorem stdErrors_asObject (v : Json) : StdErrors v.asObject := by
  cases v with
  | object obj => exact stdErrors_ok obj
  | _ => exact stdErrors_error rfl

theorem stdErrors_atKey (obj : JsonObject) (key : String) : StdErrors (Json.atKey obj key) := by
  unfold Json.atKey
  split
  · exact stdErrors_ok _
  · exact stdErrors_error rfl

theorem stdErrors_parseJson (text : String) : StdErrors (lib.parseJson text) := by
  unfold Libraries.parseJson
  split
  · exact stdErrors_ok _
  · exact stdErrors_error rfl

theorem stdErrors_ptimeOfJson (v : Json) : StdErrors (ptimeOfJson lib v) := by
  refine stdErrors_bind (stdErrors_asString v) fun text _ => ?_
  split
  · exact stdErrors_ok _
  · exact stdErrors_error rfl

theorem stdErrors_longOfJson (v : Json) : StdErrors (longOfJson lib v) := by
  unfold longOfJson
  split
  · exact stdErrors_ok _
  · split
    · exact stdErrors_ok _
    · exact stdErrors_error rfl
  · split
    · exact stdErrors_ok _
    · exact stdErrors_error rfl
  · exact stdErrors_error rfl

theorem stdErrors_notifyMessage (jv : Json) : StdErrors (NotifyMessage.ofJson lib jv) := by
  unfold NotifyMessage.ofJson
  split
  · split
    · refine stdErrors_bind (stdErrors_asString _) fun _ _ => ?_
      refine stdErrors_bind (stdErrors_atKey _ _) fun v _ => ?_
      refine stdErrors_bind (stdErrors_asString v) fun _ _ => ?_
      refine stdErrors_bind (stdErrors_atKey _ _) fun v _ => ?_
      refine stdErrors_bind (stdErrors_ptimeOfJson v) fun _ _ => ?_
      refine stdErrors_bind (stdErrors_atKey _ _) fun v _ => ?_
      refine stdErrors_bind (stdErrors_asObject v) fun amount _ => ?_
      refine stdErrors_bind (stdErrors_atKey amount _) fun v _ => ?_
      refine stdErrors_bind (stdErrors_longOfJson v) fun _ _ => ?_
      refine stdErrors_bind (stdErrors_atKey amount _) fun v _ => ?_
      exact stdErrors_bind (stdErrors_longOfJson v) fun _ _ => stdErrors_ok _
    · exact stdErrors_ok _
  · exact stdErrors_ok _

theorem stdErrors_aesGcmDecrypt (ciphertext : Bytes) (key iv aad : String) :
    StdErrors (aesGcmDecrypt lib ciphertext key iv aad) := by
  have hinput : StdErrors (gcmInput ciphertext key iv aad) := by
    unfold gcmInput
    split
    · exact stdErrors_error rfl
    · exact stdErrors_ok _
  refine stdErrors_bind hinput fun x _ => ?_
  split
  · exact stdErrors_error rfl
  · split
    · exact stdErrors_error rfl
    · split
      · exact stdErrors_error rfl
      · split
        · exact stdErrors_ok _
        · exact stdErrors_ok _

/-- Only a body without a resource is not caught. -/
theorem stdErrors_decodeNotifyMessage {data : WxEncryptData} (hdata : http.resource lib = .ok data)
    (svc : WxpayService) : StdErrors (svc.decodeNotifyMessage lib http) := by
  unfold WxpayService.decodeNotifyMessage
  split
  · exact stdErrors_error rfl
  · refine stdErrors_bind (by rw [hdata]; exact stdErrors_ok _) fun data _ => ?_
    refine stdErrors_bind (stdErrors_aesGcmDecrypt _ _ _ _) fun text _ => ?_
    split
    · exact stdErrors_error rfl
    · exact stdErrors_bind (stdErrors_parseJson text) fun jv _ => stdErrors_notifyMessage jv

end StdErrors

/-! ## Marking the order -/

section Mark

variable {α β : Type} {ctx : Ctx} {p : String → Prop}

theorem tx_returns {P : α → Prop} {spot : Spot} {f : Input → Mem → Option α × Mem}
    {after : α → Spot} (h : ∀ i s a, (f i s).1 = some a → P a) :
    (tx ctx spot f after).Returns P := by
  refine Co.returns_bind (Co.returns_true _) fun i _ => ?_
  split
  · refine Co.returns_bind (p := fun found => ∀ a ∈ found, P a) (fun s => h i s) fun found hfound => ?_
    split
    · exact fun _ => hfound _ rfl
    · exact fun _ => trivial
  · exact fun _ => trivial

/-- What is known of the accesses of a transaction and of what follows it. -/
theorem each_of_tx_bind {G : Mem → Mem → Prop} {spot : Spot} {f : Input → Mem → Option α × Mem}
    {after : α → Spot} {g : α → M β} (h : (tx ctx spot f after >>= g).Each G) {i : Input}
    (hi : i.dbOk = true) (s : Mem) :
    G s (f i s).2 ∧ ∀ a, (f i s).1 = some a → (g a).Each G := by
  rw [tx, Co.bind_assoc, Co.each_suspend_bind] at h
  have hs := h i
  rw [if_pos hi, Co.bind_assoc, Co.each_modifyGet_bind] at hs
  refine ⟨(hs s).1, fun a ha => ?_⟩
  have hafter := (hs s).2
  rw [ha] at hafter
  exact hafter i

theorem asyncLoadOrder_pays (who : Actor) (q : CmallOrder → Bool) :
    (asyncLoadOrder ctx who q).Each (PaysOnly p) := by
  refine tx_each fun i s id o o' ho ho' hne => ?_
  have heq : some o = some o' := ho.symm.trans ho'
  exact absurd (congrArg CmallOrder.payedAt (Option.some.inj heq)).symm hne

theorem asyncUpdateOrder_pays {change : OrderChange} {row : CmallOrder}
    (h : row.oid ≠ "" → p row.oid) : (asyncUpdateOrder ctx change row).Each (PaysOnly p) := by
  refine tx_each fun i s id o o' ho ho' hne hoid => ?_
  simp only [Db.updateOrder] at ho'
  split at ho'
  · rename_i db hdb
    split at hdb
    · cases hdb
      rcases Table.find_update_cases ho' with ⟨-, rfl⟩ | ⟨-, hold⟩
      · exact h hoid
      · have heq : some o = some o' := ho.symm.trans hold
        exact absurd (congrArg CmallOrder.payedAt (Option.some.inj heq)).symm hne
    · cases hdb
  · have heq : some o = some o' := ho.symm.trans ho'
    exact absurd (congrArg CmallOrder.payedAt (Option.some.inj heq)).symm hne

theorem handleOrderWxCallback_pays (ctx : Ctx)
    (h : msg.tradeState = .success → msg.outTradeNo ≠ "" → p msg.outTradeNo) :
    (handleOrderWxCallback ctx msg).Each (PaysOnly p) := by
  have hload : (asyncLoadOrder ctx .wechat (Actor.sees .wechat msg.outTradeNo)).Returns
      fun found => ∀ o ∈ found, o.oid = msg.outTradeNo := by
    refine tx_returns fun i s found hfound o ho => ?_
    cases hfound
    simpa [Actor.sees] using (Table.queryOne_some ho).2
  refine Co.each_bind_of_returns (asyncLoadOrder_pays _ _) hload fun found hfound => ?_
  split
  · rename_i payedOrder
    have hoid := hfound payedOrder rfl
    split
    · rename_i hstate
      refine Co.each_bind (asyncUpdateOrder_pays ?_) fun _ => trivial
      rw [hoid]
      exact h hstate
    · trivial
  · trivial

end Mark

/-! ## The loop over the services -/

theorem wxPayAction_pays {p : String → Prop} {ctx : Ctx}
    (h : ∀ svc ∈ services, ∀ msg, svc.decodeNotifyMessage lib http = .ok msg →
      msg.tradeState = .success → msg.outTradeNo ≠ "" → p msg.outTradeNo) :
    (wxPayAction lib ctx http services).Each (PaysOnly p) := by
  induction services with
  | nil => trivial
  | cons svc rest ih =>
    have hrest := ih fun svc' hsvc' => h svc' (List.mem_cons_of_mem _ hsvc')
    unfold wxPayAction
    split
    · split
      · exact hrest
      · trivial
    · rename_i msg hmsg
      have hpays := handleOrderWxCallback_pays ctx (h svc (List.mem_cons_self ..) msg hmsg)
      refine Co.each_bind hpays fun reply => ?_
      split
      · trivial
      · exact hrest

/-- A memory whose only order is unpaid. -/
def oneOrder (oid : String) : Mem := { db := { orders := [{ id := 1, oid }] } }

/-- A payment of the only order marks it; any other message leaves the loop going. -/
theorem handleOrderWxCallback_marks {p : String → Prop} {ctx : Ctx} {oid : String}
    {g : Reply → M Nat} (h : (handleOrderWxCallback ctx msg >>= g).Each (PaysOnly p))
    (hne : oid ≠ "") :
    (msg.outTradeNo = oid ∧ msg.tradeState = .success ∧ p oid) ∨
      ¬ (msg.outTradeNo = oid ∧ msg.tradeState = .success) ∧
        (g (.bool false)).Each (PaysOnly p) := by
  rw [handleOrderWxCallback, Co.bind_assoc] at h
  obtain ⟨-, hload⟩ := each_of_tx_bind h (i := {}) rfl (oneOrder oid)
  by_cases hoid : msg.outTradeNo = oid
  · have hfound := hload (some { id := 1, oid }) (by simp [oneOrder, Table.queryOne, Actor.sees, hoid])
    by_cases hstate : msg.tradeState = .success
    · refine .inl ⟨hoid, hstate, ?_⟩
      simp only [hstate, if_true, Co.bind_assoc] at hfound
      obtain ⟨hstore, -⟩ := each_of_tx_bind hfound (i := {}) rfl (oneOrder oid)
      refine hstore 1 { id := 1, oid } { id := 1, oid, payedAt := some msg.successTime } rfl ?_ ?_ hne
      · simp [oneOrder, Db.updateOrder, Db.findOrder, Table.find, Table.update]
      · simp
    · simp only [hstate, if_false] at hfound
      exact .inr ⟨fun hboth => hstate hboth.2, hfound⟩
  · have hfound := hload none (by simp [oneOrder, Table.queryOne, Actor.sees, Ne.symm hoid])
    exact .inr ⟨fun hboth => hoid hboth.1, hfound⟩

/-- If a service decodes the payment of an order, that service or one before it marks the
order. -/
theorem wxPayAction_marks {p : String → Prop} {ctx : Ctx}
    (h : (wxPayAction lib ctx http services).Each (PaysOnly p)) (hsvc : svc ∈ services)
    (hmsg : svc.decodeNotifyMessage lib http = .ok msg) (hstate : msg.tradeState = .success)
    (hne : msg.outTradeNo ≠ "") : p msg.outTradeNo := by
  obtain ⟨-, jv, ⟨data, x, hdata, -⟩, -⟩ := decodeNotifyMessage_ok hmsg hstate hne
  induction services with
  | nil => cases hsvc
  | cons head rest ih =>
    unfold wxPayAction at h
    cases hhead : head.decodeNotifyMessage lib http with
    | error e =>
      have hstd : e.isStd = true := stdErrors_decodeNotifyMessage hdata head e hhead
      rw [hhead] at h
      simp only [hstd, if_true] at h
      rcases List.mem_cons.mp hsvc with rfl | hrest
      · rw [hhead] at hmsg
        cases hmsg
      · exact ih h hrest
    | ok msg' =>
      rw [hhead] at h
      rcases handleOrderWxCallback_marks h hne with ⟨-, -, hp⟩ | ⟨hother, hrest'⟩
      · exact hp
      · rcases List.mem_cons.mp hsvc with rfl | hrest
        · rw [hhead] at hmsg
          cases hmsg
          exact absurd ⟨rfl, hstate⟩ hother
        · exact ih hrest' hrest

/-- Only authentic notifications mark orders paid exactly when no error of
`EVP_DigestVerify` lets a payment pass that no service has accepted. -/
theorem onlyAuthentic_iff (lib : Libraries) (services : List WxpayService)
    (http : PayNotification) :
    OnlyAuthentic lib services http ↔ ErrorsHarmless lib services http := by
  constructor
  · intro h svc hsvc _ _ msg hmsg hstate hne
    exact wxPayAction_marks (h ⟨0, 0⟩) hsvc hmsg hstate hne
  · intro h ctx
    refine wxPayAction_pays fun svc hsvc msg hmsg hstate hne => ?_
    obtain ⟨hverdict, hdecrypts⟩ := decodeNotifyMessage_ok hmsg hstate hne
    by_cases hone : svc.verdict lib http = 1
    · exact ⟨svc, hsvc, hone, hdecrypts⟩
    · exact h svc hsvc hverdict hone msg hmsg hstate hne

/-- A genuine resource, sent with a signature on which `EVP_DigestVerify` ends with an
error. -/
def replayed : PayNotification := ⟨"notice", "1680000000", "nonce", "AAAA"⟩

def failingVerify : Libraries where
  digestVerify _ _ _ := -1
  decryptInit _ := 1
  decryptAad _ := 1
  decryptUpdate _ := (1, "paid")
  decryptFinal _ := (1, "")
  parse text :=
    if text = "notice" then some (.object [("event_type", .string "TRANSACTION.SUCCESS"),
      ("create_time", .string "2023-03-29T15:34:46+08:00"),
      ("resource", .object [("ciphertext", .string "AAAAAAAAAAAAAAAAAAAAAAAA"),
        ("nonce", .string "fdasflkja484")])])
    else if text = "paid" then some (.object [("out_trade_no", .string "o-1"),
      ("transaction_id", .string "4200000"), ("trade_state", .string "SUCCESS"),
      ("success_time", .string "2023-03-29T15:34:46+08:00"),
      ("amount", .object [("total", .int64 100), ("payer_total", .int64 100)])])
    else none
  ptime _ := some 100
  exactLong _ := none

/-- The order is marked paid, and no signature has been verified. -/
theorem replay_marks_order_paid :
    ¬ OnlyAuthentic failingVerify [⟨"certificate", "key"⟩] replayed := by
  intro h
  have hmsg : (⟨"certificate", "key"⟩ : WxpayService).decodeNotifyMessage failingVerify replayed =
      .ok ⟨"o-1", .success, 100 / 100, 100 / 100, 100⟩ := rfl
  obtain ⟨svc, -, hone, -⟩ :=
    wxPayAction_marks (h ⟨0, 0⟩) (List.mem_singleton_self _) hmsg rfl (by decide)
  have hverdict : svc.verdict failingVerify replayed = -1 := rfl
  rw [hverdict] at hone
  exact absurd hone (by decide)

end Cmall
