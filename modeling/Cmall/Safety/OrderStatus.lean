import Cmall.Safety.OrderUpdates

/-!
`orderstatus.js` and payments.

Two ways to record a payment start the script of the seller after the row has been
written; a WeChat notification does not. The test for an earlier payment is made on the
row as it was loaded. The script is started once for a payment as long as no row of a
paid order is marked paid again, the merchant whose session marks it is the seller, and
notifications only come for paid orders.
-/

namespace Cmall
open Coroutine Protocol

/-! ## The condition -/

/-- The requests that record a payment. -/
def Request.recordsPayment : Request → Bool
  | .jsonrpc _ .merchantSoldOrdersMarkPayed _ | .jsonrpc _ .merchantSoldOrdersCheckPayment _
  | .jsonrpc _ .orderCheckPayment _ | .wxCallback _ => true
  | _ => false

/-- Requests that touch neither orders nor sessions nor repositories. -/
def Request.bystander (q : Request) : Bool :=
  [Part.heap, .conn, .repos, .orders, .orderEvents].all fun p => p ∉ q.footprint

/-- The merchant of the session a connection refers to. -/
def Mem.merchantOf (s : Mem) (c : Nat) : Option Nat :=
  (s.conn c).sessionInfo.bind fun a => (s.heap a).merchantInfo.map CmallMerchant.uid

/-- A payment of the order `oid` is recorded by a handler while there is none, in a session
of its seller or of a buyer; by a notification while there is one. -/
def Spot.marksOnce (oid : String) (q : Request) (s : Mem) : Spot → Bool
  | .storeOrder (.markPayed _) row => row.oid ≠ oid || (!s.db.payed row.id &&
      (q.method = some .orderCheckPayment || s.merchantOf q.conn = some row.seller))
  | .storeOrder (.wxPayed _) row => row.oid ≠ oid || s.db.payed row.id
  | _ => true

def marksOnceGuard (oid : String) : Guard := fun _ q p _ s => p.spot.marksOnce oid q s = true

def onlyPayments (q : Request) (_ : Mem) : Prop := (q.recordsPayment || q.bystander) = true

instance (oid : String) (r : Nat) (q : Request) (p : Point) (i : Input) (s : Mem) :
    Decidable (marksOnceGuard oid r q p i s) :=
  inferInstanceAs (Decidable (p.spot.marksOnce oid q s = true))

/-! ## The protocol -/

/-- The repository of the merchant has the script. -/
def Mem.HasStatusScript (s : Mem) (merchantId : Nat) : Prop :=
  ∃ repo content, s.repos merchantId = some repo ∧
    repo.getFileContent "scripts/orderstatus.js" = .ok content ∧ content ≠ ""

/-- The order `oid` was marked paid by request `r`. -/
def Marked (r : Nat) (oid : String) (trace : List Event) : Prop :=
  ∃ t row, .orderStored r (.markPayed t) row ∈ trace ∧ row.oid = oid

theorem Marked.mono {r : Nat} {oid : String} {tr tr' : List Event} (h : Marked r oid tr)
    (hsub : ∀ e ∈ tr, e ∈ tr') : Marked r oid tr' := by
  obtain ⟨t, row, he, hrow⟩ := h
  exact ⟨t, row, hsub _ he, hrow⟩

/-- Sessions, connections and repositories are the same. -/
structure SameEnv (s t : Mem) : Prop where
  heap : t.heap = s.heap
  conn : t.conn = s.conn
  repos : t.repos = s.repos

theorem SameEnv.refl (s : Mem) : SameEnv s s := ⟨rfl, rfl, rfl⟩

theorem SameEnv.trans {s t u : Mem} (h : SameEnv s t) (h' : SameEnv t u) : SameEnv s u :=
  ⟨h'.heap.trans h.heap, h'.conn.trans h.conn, h'.repos.trans h.repos⟩

/-- Request `r` starts the script for an order only when it has marked it. -/
structure StatusStep (r : Nat) (s t : Mem) : Prop where
  env : SameEnv s t
  trace : ∃ es, t.trace = es ++ s.trace ∧ ∀ e ∈ es, e.req = r ∧
    ∀ oid, e = .orderstatus r oid → Marked r oid t.trace

/-- Events of other requests only. -/
structure OthersOnly (r : Nat) (s t : Mem) : Prop where
  env : SameEnv s t
  trace : ∃ es, t.trace = es ++ s.trace ∧ ∀ e ∈ es, e.req ≠ r

theorem StatusStep.trans {r : Nat} {s t u : Mem} (h : StatusStep r s t) (h' : StatusStep r t u) :
    StatusStep r s u := by
  obtain ⟨es, hes, hown⟩ := h.trace
  obtain ⟨es', hes', hown'⟩ := h'.trace
  refine ⟨h.env.trans h'.env, es' ++ es, by rw [hes', hes, List.append_assoc], fun e he => ?_⟩
  rcases List.mem_append.mp he with he | he
  · exact hown' e he
  · refine ⟨(hown e he).1, fun oid heq => ((hown e he).2 oid heq).mono fun e he => ?_⟩
    exact hes' ▸ List.mem_append_right _ he

theorem OthersOnly.trans {r : Nat} {s t u : Mem} (h : OthersOnly r s t) (h' : OthersOnly r t u) :
    OthersOnly r s u := by
  obtain ⟨es, hes, hother⟩ := h.trace
  obtain ⟨es', hes', hother'⟩ := h'.trace
  refine ⟨h.env.trans h'.env, es' ++ es, by rw [hes', hes, List.append_assoc], fun e he => ?_⟩
  exact (List.mem_append.mp he).elim (hother' e) (hother e)

/-- What others do adds no event of `r`. -/
theorem OthersOnly.mem_iff {r : Nat} {s t : Mem} (h : OthersOnly r s t) {e : Event}
    (he : e.req = r) : e ∈ t.trace ↔ e ∈ s.trace := by
  obtain ⟨es, hes, hother⟩ := h.trace
  rw [hes, List.mem_append]
  exact ⟨fun h => h.resolve_left fun hmem => hother e hmem he, .inr⟩

theorem OthersOnly.count {r : Nat} {s t : Mem} (h : OthersOnly r s t) {e : Event}
    (he : e.req = r) : t.trace.count e = s.trace.count e := by
  obtain ⟨es, hes, hother⟩ := h.trace
  have hzero : es.count e = 0 := List.count_eq_zero.mpr fun hmem => hother e hmem he
  rw [hes, List.count_append, hzero, Nat.zero_add]

/-- A request that has marked the order of a seller has started the script once. -/
def statusProtocol (oid : String) (seller : Nat) : Protocol Request Mem Input Point where
  inv s := s.HasStatusScript seller ∧ ∀ r, .orderstatus r oid ∈ s.trace → Marked r oid s.trace
  rely r _ := OthersOnly r
  guar r _ := StatusStep r
  guard := marksOnceGuard oid
  permit := onlyPayments
  fresh r s := ∀ e ∈ s.trace, e.req ≠ r
  post r _ s := ∀ t row, .orderStored r (.markPayed t) row ∈ s.trace → row.oid = oid →
    row.seller = seller → s.trace.count (.orderstatus r oid) = 1
  rely_refl _ _ s := ⟨.refl s, [], rfl, by simp⟩
  rely_trans _ _ _ _ _ := .trans
  guar_refl _ _ s := ⟨.refl s, [], rfl, by simp⟩
  guar_trans _ _ _ _ _ := .trans
  guar_inv r _ s t hi h := by
    obtain ⟨⟨repo, content, hrepo, hcontent⟩, hmarked⟩ := hi
    obtain ⟨es, hes, hown⟩ := h.trace
    refine ⟨⟨repo, content, h.env.repos ▸ hrepo, hcontent⟩, fun r' he => ?_⟩
    rcases List.mem_append.mp (hes ▸ he) with he | he
    · obtain ⟨hr, hm⟩ := hown _ he
      have hr' : r' = r := hr
      subst hr'
      exact hm oid rfl
    · exact (hmarked r' he).mono fun e he => hes ▸ List.mem_append_right _ he
  guar_rely r _ r' _ s t hne _ h := by
    obtain ⟨es, hes, hown⟩ := h.trace
    exact ⟨h.env, es, hes, fun e he heq => hne ((hown e he).1.symm.trans heq)⟩
  fresh_guar r _ r' s t hne h hf e he := by
    obtain ⟨es, hes, hown⟩ := h.trace
    rcases List.mem_append.mp (hes ▸ he) with he | he
    · rw [(hown e he).1]
      exact hne
    · exact hf e he
  post_rely r _ s t h hpost time row he hoid hseller := by
    rw [h.count rfl]
    exact hpost time row ((h.mem_iff rfl).mp he) hoid hseller

instance (oid : String) (seller r : Nat) (q : Request) (p : Point) (i : Input) (s : Mem) :
    Decidable ((statusProtocol oid seller).guard r q p i s) :=
  inferInstanceAs (Decidable (marksOnceGuard oid r q p i s))

instance (oid : String) (seller : Nat) (q : Request) (s : Mem) :
    Decidable ((statusProtocol oid seller).permit q s) :=
  inferInstanceAs (Decidable ((q.recordsPayment || q.bystander) = true))

/-! ## Steps before and after a payment -/

section Steps

variable {oid : String} {seller r : Nat} {q : Request} {s t : Mem} {order : CmallOrder}

/-- Neither a payment that a handler records nor a start of the script. -/
def Event.plain : Event → Bool
  | .orderStored _ (.markPayed _) _ | .orderstatus .. => false
  | _ => true

/-- A step of request `r` with plain events. -/
structure PlainStep (r : Nat) (s t : Mem) : Prop where
  env : SameEnv s t
  trace : ∃ es, t.trace = es ++ s.trace ∧ ∀ e ∈ es, e.req = r ∧ e.plain = true

theorem PlainStep.refl (r : Nat) (s : Mem) : PlainStep r s s := ⟨.refl s, [], rfl, by simp⟩

theorem PlainStep.status (h : PlainStep r s t) : StatusStep r s t := by
  obtain ⟨es, hes, hown⟩ := h.trace
  refine ⟨h.env, es, hes, fun e he => ⟨(hown e he).1, fun oid heq => ?_⟩⟩
  have hplain := (hown e he).2
  rw [heq] at hplain
  cases hplain

/-- What a request does before and after the payment, and what others do. -/
structure Undisturbed (r : Nat) (s t : Mem) : Prop where
  env : SameEnv s t
  mem : ∀ e : Event, e.req = r → e.plain = false → (e ∈ t.trace ↔ e ∈ s.trace)

theorem PlainStep.undisturbed (h : PlainStep r s t) : Undisturbed r s t := by
  obtain ⟨es, hes, hown⟩ := h.trace
  refine ⟨h.env, fun e _ hplain => ?_⟩
  rw [hes, List.mem_append]
  refine ⟨fun h => h.resolve_left fun hmem => ?_, .inr⟩
  rw [(hown e hmem).2] at hplain
  cases hplain

theorem OthersOnly.undisturbed (h : OthersOnly r s t) : Undisturbed r s t :=
  ⟨h.env, fun _ he _ => h.mem_iff he⟩

/-- Request `r` has neither marked an order nor started the script. -/
structure Clean (r : Nat) (s : Mem) : Prop where
  marks : ∀ t row, .orderStored r (.markPayed t) row ∉ s.trace
  starts : ∀ oid, .orderstatus r oid ∉ s.trace

theorem Clean.kept (h : Clean r s) (hst : Undisturbed r s t) : Clean r t :=
  ⟨fun time row he => h.marks time row ((hst.mem _ rfl rfl).mp he),
    fun oid he => h.starts oid ((hst.mem _ rfl rfl).mp he)⟩

theorem Clean.post (h : Clean r s) : (statusProtocol oid seller).post r q s :=
  fun time row he => absurd he (h.marks time row)

/-- Request `r` has marked the order and has not started the script yet. -/
structure Owes (r : Nat) (order : CmallOrder) (s : Mem) : Prop where
  marked : Marked r order.oid s.trace
  only : ∀ t row, .orderStored r (.markPayed t) row ∈ s.trace →
    row.oid = order.oid ∧ row.seller = order.seller
  starts : ∀ oid, .orderstatus r oid ∉ s.trace

theorem Owes.kept (h : Owes r order s) (hst : Undisturbed r s t) : Owes r order t := by
  obtain ⟨time, row, he, hrow⟩ := h.marked
  exact ⟨⟨time, row, (hst.mem _ rfl rfl).mpr he, hrow⟩,
    fun time row he => h.only time row ((hst.mem _ rfl rfl).mp he),
    fun oid he => h.starts oid ((hst.mem _ rfl rfl).mp he)⟩

/-- The payment of another order. -/
theorem Owes.post (h : Owes r order s) (hne : ¬ (order.oid = oid ∧ order.seller = seller)) :
    (statusProtocol oid seller).post r q s := by
  intro time row he hoid hseller
  obtain ⟨ho, hs⟩ := h.only time row he
  exact absurd ⟨ho.symm.trans hoid, hs.symm.trans hseller⟩ hne

/-- The script is started. -/
theorem Owes.started (h : Owes r order s) :
    StatusStep r s { s with trace := .orderstatus r order.oid :: s.trace } ∧
      (statusProtocol oid seller).post r q
        { s with trace := .orderstatus r order.oid :: s.trace } := by
  constructor
  · refine ⟨⟨rfl, rfl, rfl⟩, [_], rfl, fun e he => ?_⟩
    rw [List.mem_singleton.mp he]
    refine ⟨rfl, fun oid heq => ?_⟩
    cases heq
    exact h.marked.mono fun e he => List.mem_cons_of_mem _ he
  · intro time row he hoid _
    rcases List.mem_cons.mp he with heq | he
    · cases heq
    · have ho := (h.only time row he).1
      rw [← hoid, ho, List.count_cons_self, List.count_eq_zero.mpr (h.starts _)]

theorem plainStep_of_keeps {K : List Part} (hk : Keeps K r s t) (hheap : .heap ∉ K)
    (hconn : .conn ∉ K) (hrepos : .repos ∉ K) (hevents : .orderEvents ∉ K) : PlainStep r s t := by
  obtain ⟨es, hes, hown⟩ := hk.trace
  refine ⟨⟨(hk.heap hheap).1, hk.conn hconn, hk.repos hrepos⟩, es, hes, fun e he => ?_⟩
  obtain ⟨hr, hpart⟩ := hown e he
  refine ⟨hr, ?_⟩
  cases e with
  | orderStored => exact absurd hpart hevents
  | orderstatus => exact absurd hpart hevents
  | _ => rfl

theorem plainStep_cons {e : Event} (hr : e.req = r) (he : e.plain = true) :
    PlainStep r s { s with trace := e :: s.trace } :=
  ⟨⟨rfl, rfl, rfl⟩, [e], rfl, by simpa using ⟨hr, he⟩⟩

end Steps

/-! ## Handlers -/

section Handlers

variable {oid : String} {seller r : Nat} {q : Request} {ctx : Ctx} {cfg : Config} {α : Type}
  {L E : Mem → Prop}

theorem plain_of_keeps {x : M α} (hx : x.Each (Keeps [] r)) : x.Each (PlainStep r) :=
  hx.mono fun _ _ hk => plainStep_of_keeps hk (by simp) (by simp) (by simp) (by simp)

theorem triple_plain {x : M α} (hx : x.Each (PlainStep r))
    (hL : ∀ s t, Undisturbed r s t → L s → L t) (hE : ∀ s, L s → E s) :
    (statusProtocol oid seller).Triple r q L x (fun _ => L) E := by
  refine .conseq (.each hx (fun s t _ hst h => hL s t hst.undisturbed h) fun s t _ h hst => ?_)
    (fun _ _ h => h) (fun _ _ _ h => h) fun s _ h => hE s h
  exact ⟨hst.status, hL s t hst.undisturbed h⟩

/-- A request that has not come to a payment. -/
theorem triple_clean {x : M α} (hx : x.Each (PlainStep r)) {K : Mem → Prop}
    (hK : ∀ s t, SameEnv s t → K s → K t) :
    (statusProtocol oid seller).Triple r q (fun s => Clean r s ∧ K s) x
      (fun _ s => Clean r s ∧ K s) ((statusProtocol oid seller).post r q) :=
  triple_plain hx (fun s t hst h => ⟨h.1.kept hst, hK s t hst.env h.2⟩) fun _ h => h.1.post

theorem emit_plain {e : Event} (hr : e.req = r) (he : e.plain = true) :
    (emit e).Each (PlainStep r) :=
  Co.each_modify fun _ => plainStep_cons hr he

theorem asyncLoadOrders_plain (hr : ctx.req = r) (who : Actor) (p : CmallOrder → Bool) :
    (asyncLoadOrders ctx who p).Each (PlainStep r) :=
  tx_each fun _ _ => plainStep_cons hr rfl

theorem asyncLoadOrder_plain (hr : ctx.req = r) (who : Actor) (p : CmallOrder → Bool) (spot : Spot) :
    (asyncLoadOrder ctx who p spot).Each (PlainStep r) :=
  tx_each fun _ _ => plainStep_cons hr rfl

theorem loadOneOrder_plain (hr : ctx.req = r) (who : Actor) (orderid : String) :
    (loadOneOrder ctx who orderid).Each (PlainStep r) := by
  refine Co.each_bind (asyncLoadOrders_plain hr _ _) fun rows => ?_
  split <;> trivial

theorem storeOrder_plain (hr : ctx.req = r) {change : OrderChange}
    (hc : ∀ t, change ≠ .markPayed t) (row : CmallOrder) (stamp : PTime → CmallOrder → CmallOrder) :
    (storeOrder ctx change row stamp).Each (PlainStep r) := by
  refine tx_each fun _ s => ?_
  split
  · refine ⟨⟨rfl, rfl, rfl⟩, [_], rfl, fun e he => ?_⟩
    rw [List.mem_singleton.mp he]
    refine ⟨hr, ?_⟩
    cases change with
    | markPayed t => exact absurd rfl (hc t)
    | _ => rfl
  · exact .refl r s

theorem handleOrderWxCallback_plain (hr : ctx.req = r) (msg : NotifyMessage) :
    (handleOrderWxCallback ctx msg).Each (PlainStep r) := by
  refine Co.each_bind (asyncLoadOrder_plain hr _ _ _) fun found => ?_
  split
  · split
    · exact Co.each_bind (storeOrder_plain hr (by simp) _ _) fun _ => trivial
    · trivial
  · trivial

/-- The row goes back, if it is still there. -/
theorem asyncUpdateOrder_owes (hr : ctx.req = r) (now : PTime) (order row : CmallOrder)
    (hrow : row = { order with payedAt := some now }) {K H : Mem → Prop}
    (hK : ∀ s t, SameEnv s t → K s → K t) (hK' : ∀ s t, SameEnv s t → H s → H t)
    (hguard : ∀ i s, K s →
      (statusProtocol oid seller).guard r q ⟨ctx, .storeOrder (.markPayed now) row⟩ i s → H s) :
    (statusProtocol oid seller).Triple r q (fun s => Clean r s ∧ K s)
      (asyncUpdateOrder ctx (.markPayed now) row) (fun _ s => Owes r order s ∧ H s)
      ((statusProtocol oid seller).post r q) := by
  subst hr hrow
  refine triple_tx (fun _ s => Owes ctx.req order s ∧ H s)
    (fun s t _ hst h => ⟨h.1.kept hst.undisturbed, hK s t hst.env h.2⟩)
    (fun _ s t _ hst h => ⟨h.1.kept hst.undisturbed, hK' s t hst.env h.2⟩)
    (fun _ _ h => h.1.post) (fun i s _ h hg => ?_) fun _ _ _ _ h _ => h
  split
  · refine ⟨⟨⟨rfl, rfl, rfl⟩, [_], rfl, fun e he => ?_⟩, by simp, fun _ _ => ?_⟩
    · rw [List.mem_singleton.mp he]
      exact ⟨rfl, fun oid heq => by cases heq⟩
    · refine ⟨⟨⟨now, _, List.mem_cons_self .., rfl⟩, fun time row' he => ?_, fun oid he => ?_⟩,
        hK' s _ ⟨rfl, rfl, rfl⟩ (hguard i s h.2 hg)⟩
      · rcases List.mem_cons.mp he with heq | he
        · cases heq
          exact ⟨rfl, rfl⟩
        · exact absurd he (h.1.marks time row')
      · rcases List.mem_cons.mp he with heq | he
        · cases heq
        · exact h.1.starts oid he
  · exact ⟨⟨.refl s, [], rfl, by simp⟩, fun _ => h, by simp⟩

/-- With the script there, reading it finds it. -/
theorem readRepo_script {order : CmallOrder} (repo : Repo) :
    (statusProtocol oid seller).Triple r q (Owes r order)
      (readRepo ctx seller repo fun repo => repo.getFileContent "scripts/orderstatus.js")
      (fun found s => (∃ content, found = .ok content ∧ content ≠ "") ∧ Owes r order s) E := by
  refine .bind (Q := fun _ => Owes r order) (.suspend (fun s t _ hst h => h.kept hst.undisturbed)
    fun _ _ _ h _ => h) fun _ => ?_
  refine .bind (Q := fun m s => m.HasStatusScript seller ∧ Owes r order s)
    (.get fun s hi h => ⟨hi.1, h⟩) fun m => .pure fun hscript => .ret fun s _ h => ⟨?_, h⟩
  obtain ⟨repo', content, hrepo, hcontent, hne⟩ := hscript
  exact ⟨content, by rw [hrepo]; exact hcontent, hne⟩

/-- A payment that is recorded for the seller starts the script. `K` and `H` are what is
known of the session before and after the row is written. -/
theorem orderMarkPayed_status (hr : ctx.req = r) (order : CmallOrder) {sellerUid : M Nat}
    (hplain : sellerUid.Each (PlainStep r)) {K H : Mem → Prop}
    (hK : ∀ s t, SameEnv s t → K s → K t) (hK' : ∀ s t, SameEnv s t → H s → H t)
    (hguard : ∀ now i s, K s → (statusProtocol oid seller).guard r q
      ⟨ctx, .storeOrder (.markPayed now) { order with payedAt := some now }⟩ i s →
        order.oid = oid → H s)
    (hseller : order.seller = seller → (statusProtocol oid seller).Triple r q
      (fun s => Owes r order s ∧ H s) sellerUid (fun k s => k = seller ∧ Owes r order s)
      fun _ => False) :
    (statusProtocol oid seller).Triple r q (fun s => Clean r s ∧ K s)
      (orderMarkPayed ctx order sellerUid) (fun _ => (statusProtocol oid seller).post r q)
      ((statusProtocol oid seller).post r q) := by
  have hstart : (statusProtocol oid seller).Triple r q (Owes r order)
      (emit (.orderstatus r order.oid)) (fun _ => (statusProtocol oid seller).post r q)
      ((statusProtocol oid seller).post r q) := .modify fun _ _ h => h.started
  simp only [orderMarkPayed]
  refine .bind (triple_clean (plain_of_keeps localTime_each) hK) fun now => ?_
  refine .bind (asyncUpdateOrder_owes (H := fun s => order.oid = oid → H s) hr now order _ rfl hK
    (fun s t hst h ho => hK' s t hst (h ho)) (hguard now)) fun _ => ?_
  subst hr
  by_cases hmine : order.oid = oid ∧ order.seller = seller
  · refine .bind (Q := fun k s => k = seller ∧ Owes ctx.req order s) (.conseq (hseller hmine.2)
      (fun s _ h => ⟨h.1, h.2 hmine.1⟩) (fun _ _ _ h => h) fun _ _ h => h.elim) fun k => ?_
    refine .pure fun hk => ?_
    subst hk
    refine .bind (Q := fun m s => m.HasStatusScript k ∧ Owes ctx.req order s)
      (.get fun s hi h => ⟨hi.1, h⟩) fun m => .pure fun hscript => ?_
    obtain ⟨repo, content, hrepo, -⟩ := hscript
    rw [hrepo]
    refine .bind (readRepo_script repo) fun found => .pure fun hfound => ?_
    obtain ⟨content, rfl, hne⟩ := hfound
    simp only [hne, ne_eq, not_false_eq_true, if_true]
    exact .bind hstart fun _ => .ret fun _ _ h => h
  · have hL : ∀ s t, Undisturbed ctx.req s t → Owes ctx.req order s → Owes ctx.req order t :=
      fun s t hst h => h.kept hst
    have hE : ∀ s, Owes ctx.req order s → (statusProtocol oid seller).post ctx.req q s :=
      fun s h => h.post hmine
    refine .conseq (L := Owes ctx.req order) ?_ (fun _ _ h => h.1) (fun _ _ _ h => h) fun _ _ h => h
    refine .bind (triple_plain hplain hL hE) fun k => ?_
    refine .bind (triple_plain (Co.each_get (.refl _)) hL hE) fun m => ?_
    split
    · exact .ret fun s _ h => hE s h
    · refine .bind (triple_plain (plain_of_keeps (readRepo_each _ _ _)) hL hE) fun found => ?_
      split
      · split
        · exact .bind hstart fun _ => .ret fun _ _ h => h
        · exact .ret fun s _ h => hE s h
      · exact .ret fun s _ h => hE s h

theorem orderCheckPayment_status (hr : ctx.req = r) (order : CmallOrder) {sellerUid : M Nat}
    (hplain : sellerUid.Each (PlainStep r)) {K H : Mem → Prop}
    (hK : ∀ s t, SameEnv s t → K s → K t) (hK' : ∀ s t, SameEnv s t → H s → H t)
    (hguard : ∀ now i s, K s → (statusProtocol oid seller).guard r q
      ⟨ctx, .storeOrder (.markPayed now) { order with payedAt := some now }⟩ i s →
        order.oid = oid → H s)
    (hseller : order.seller = seller → (statusProtocol oid seller).Triple r q
      (fun s => Owes r order s ∧ H s) sellerUid (fun k s => k = seller ∧ Owes r order s)
      fun _ => False) :
    (statusProtocol oid seller).Triple r q (fun s => Clean r s ∧ K s)
      (orderCheckPayment ctx order sellerUid) (fun _ => (statusProtocol oid seller).post r q)
      ((statusProtocol oid seller).post r q) := by
  refine .bind (triple_clean hplain hK) fun merchantId => ?_
  refine .bind (triple_clean (plain_of_keeps (getMerchantGitRepo_each _)) hK) fun repo => ?_
  refine .bind (triple_clean (plain_of_keeps (readRepo_each _ _ _)) hK) fun content => ?_
  split
  · exact .throw fun _ _ h => h.1.post
  · refine .bind (triple_clean (plain_of_keeps external_each) hK) fun out => ?_
    refine .bind (triple_clean (emit_plain (e := .checkpay ctx.req order.oid out) hr rfl) hK) fun _ => ?_
    split
    · exact orderMarkPayed_status hr order hplain hK hK' hguard hseller
    · exact .ret fun _ _ h => h.1.post

/-! ## Requests -/

variable {conn a : Nat} {params : JsonObject}

/-- The connection refers to the session at `a`. -/
def AtSession (conn a : Nat) (s : Mem) : Prop := (s.conn conn).sessionInfo = some a

theorem AtSession.env {s t : Mem} (hst : SameEnv s t) (h : AtSession conn a s) :
    AtSession conn a t := by
  unfold AtSession
  rw [hst.conn]
  exact h

/-- The session at `a` has the merchant `k`. -/
def HasMerchant (a k : Nat) (s : Mem) : Prop := (s.heap a).merchantInfo.map CmallMerchant.uid = some k

theorem HasMerchant.env {k : Nat} {s t : Mem} (hst : SameEnv s t) (h : HasMerchant a k s) :
    HasMerchant a k t := by
  unfold HasMerchant
  rw [hst.heap]
  exact h

/-- In a session of the seller its uid is read. -/
theorem thisMerchant_seller {order : CmallOrder} :
    (statusProtocol oid seller).Triple r q (fun s => Owes r order s ∧ HasMerchant a seller s)
      (do return (← thisMerchant a).uid) (fun k s => k = seller ∧ Owes r order s) fun _ => False := by
  refine .bind (Q := fun m s => m.uid = seller ∧ Owes r order s) ?_ fun m =>
    .ret fun _ _ h => h
  refine .bind (triple_getSession a) fun c => ?_
  split
  · rename_i m hm
    refine .ret fun s _ h => ⟨?_, h.2.1⟩
    have hmerchant := h.2.2
    rw [HasMerchant, ← h.1, hm] at hmerchant
    exact Option.some.inj hmerchant
  · rename_i hnone
    refine .throw fun s _ h => ?_
    have hmerchant := h.2.2
    rw [HasMerchant, ← h.1, hnone] at hmerchant
    cases hmerchant

/-- The guard of a merchant's request. -/
theorem hasMerchant_of_guard {order : CmallOrder} {now : PTime} {i : Input} {s : Mem}
    (hconn : q.conn = conn) (hq : q.method ≠ some .orderCheckPayment)
    (h : AtSession conn a s) (hg : (statusProtocol oid seller).guard r q
      ⟨ctx, .storeOrder (.markPayed now) { order with payedAt := some now }⟩ i s)
    (hoid : order.oid = oid) : HasMerchant a order.seller s := by
  have hkept : s.merchantOf q.conn = some order.seller := by
    have hg' : (Spot.storeOrder (.markPayed now) { order with payedAt := some now }).marksOnce oid q s
        = true := hg
    simp only [Spot.marksOnce, hoid] at hg'
    simp_all
  rw [hconn, Mem.merchantOf, h] at hkept
  exact hkept

theorem merchantEntry_bind_status {β : Type} {g : Nat → M β} {Q : β → Mem → Prop}
    (h : ∀ a, (statusProtocol oid seller).Triple r q (fun s => Clean r s ∧ AtSession ctx.conn a s)
      (g a) Q ((statusProtocol oid seller).post r q)) :
    (statusProtocol oid seller).Triple r q (Clean r) (merchantEntry ctx >>= g) Q
      ((statusProtocol oid seller).post r q) := by
  rw [merchantEntry_bind]
  refine .bind (triple_thisSession fun _ _ h => h.post) fun a => ?_
  refine .conseq (L := fun s => Clean r s ∧ AtSession ctx.conn a s) ?_ (fun _ _ h => ⟨h.2, h.1⟩)
    (fun _ _ _ h => h) fun _ _ h => h
  refine .bind (triple_clean (plain_of_keeps (thisUser_each a)) fun s t hst h => h.env hst) fun _ => ?_
  refine .bind (triple_clean (plain_of_keeps (thisMerchant_each a)) fun s t hst h => h.env hst)
    fun _ => h a

theorem loadSoldOrder_status (hr : ctx.req = r) :
    (statusProtocol oid seller).Triple r q (fun s => Clean r s ∧ AtSession conn a s)
      (loadSoldOrder ctx a params) (fun _ s => Clean r s ∧ AtSession conn a s)
      ((statusProtocol oid seller).post r q) :=
  triple_clean (Co.each_bind (plain_of_keeps (thisUser_each a)) fun _ =>
    loadOneOrder_plain hr _ _) fun _ _ hst h => h.env hst

theorem thisMerchant_uid_plain : (do return (← thisMerchant a).uid : M Nat).Each (PlainStep r) :=
  plain_of_keeps (Co.each_bind (thisMerchant_each a) fun _ => each_ret _)

theorem merchantSoldOrdersMarkPayed_status (hr : ctx.req = r) (hconn : q.conn = conn)
    (hq : q.method ≠ some .orderCheckPayment) :
    (statusProtocol oid seller).Triple r q (fun s => Clean r s ∧ AtSession conn a s)
      (merchantSoldOrdersMarkPayed ctx a params) (fun _ => (statusProtocol oid seller).post r q)
      ((statusProtocol oid seller).post r q) := by
  refine .bind (loadSoldOrder_status hr) fun order => ?_
  split
  · exact .ret fun _ _ h => h.1.post
  · refine .bind (Q := fun _ => (statusProtocol oid seller).post r q) (orderMarkPayed_status
      (H := HasMerchant a order.seller) hr order thisMerchant_uid_plain (fun _ _ hst h => h.env hst)
      (fun _ _ hst h => h.env hst) (fun _ _ _ h hg hoid => hasMerchant_of_guard hconn hq h hg hoid)
      fun hseller => hseller ▸ thisMerchant_seller) fun _ => .ret fun _ _ h => h

theorem merchantSoldOrdersCheckPayment_status (hr : ctx.req = r) (hconn : q.conn = conn)
    (hq : q.method ≠ some .orderCheckPayment) :
    (statusProtocol oid seller).Triple r q (fun s => Clean r s ∧ AtSession conn a s)
      (merchantSoldOrdersCheckPayment ctx a params)
      (fun _ => (statusProtocol oid seller).post r q) ((statusProtocol oid seller).post r q) := by
  refine .bind (loadSoldOrder_status hr) fun order => ?_
  split
  · exact .ret fun _ _ h => h.1.post
  · refine .bind (Q := fun _ => (statusProtocol oid seller).post r q) (orderCheckPayment_status
      (H := HasMerchant a order.seller) hr order thisMerchant_uid_plain (fun _ _ hst h => h.env hst)
      (fun _ _ hst h => h.env hst) (fun _ _ _ h hg hoid => hasMerchant_of_guard hconn hq h hg hoid)
      fun hseller => hseller ▸ thisMerchant_seller) fun _ => .ret fun _ _ h => h

/-- The merchant a buyer's request looks up is the seller. -/
theorem buyerCheckPayment_status (hr : ctx.req = r) :
    (statusProtocol oid seller).Triple r q (Clean r) (buyerCheckPayment ctx a params)
      (fun _ => (statusProtocol oid seller).post r q) ((statusProtocol oid seller).post r q) := by
  have hplain : ∀ {β : Type} {x : M β}, x.Each (PlainStep r) →
      (statusProtocol oid seller).Triple r q (Clean r) x (fun _ => Clean r)
        ((statusProtocol oid seller).post r q) :=
    fun hx => triple_plain hx (fun s t hst h => h.kept hst) fun s h => h.post
  refine .bind (hplain (plain_of_keeps (thisUser_each a))) fun u => ?_
  refine .bind (hplain (loadOneOrder_plain hr _ _)) fun order => ?_
  split
  · exact .ret fun _ _ h => h.post
  · refine .bind (Q := fun found s => (∀ m : CmallMerchant, found = some m →
        m.uid = order.seller) ∧ Clean r s)
      (triple_asyncLoad (fun found s => (∀ m : CmallMerchant, found = some m →
          m.uid = order.seller) ∧ Clean r s)
        (fun s t _ hst h => h.kept hst.undisturbed)
        (fun _ s t _ hst h => ⟨h.1, h.2.kept hst.undisturbed⟩) (fun _ _ h => h.post)
        (fun _ _ h => ⟨fun _ hm => Table.find_key hm, h⟩) fun _ _ _ _ h _ => h) fun found =>
      .pure fun huid => ?_
    split
    · rename_i m
      have hm := huid m rfl
      refine .bind (Q := fun _ => (statusProtocol oid seller).post r q) (.conseq
        (orderCheckPayment_status (K := fun _ => True) (H := fun _ => True) hr order
          (plain_of_keeps (each_pure _)) (fun _ _ _ _ => trivial) (fun _ _ _ _ => trivial)
          (fun _ _ _ _ _ _ => trivial)
          fun hseller => .ret fun s _ h => ⟨hm.trans hseller, h.1⟩)
        (fun _ _ h => ⟨h, trivial⟩) (fun _ _ _ h => h) fun _ _ h => h) fun _ => .ret fun _ _ h => h
    · exact .ret fun _ _ h => h.post

end Handlers

/-! ## Programs -/

theorem handlerOf_status {oid : String} {seller r conn : Nat} {cfg : Config} {method : ReqMethod}
    {params : JsonObject} (hq : (Request.jsonrpc conn method params).recordsPayment = true) :
    (statusProtocol oid seller).Triple r (.jsonrpc conn method params) (Clean r)
      (handlerOf cfg ⟨conn, r⟩ method params)
      (fun _ => (statusProtocol oid seller).post r (.jsonrpc conn method params))
      ((statusProtocol oid seller).post r (.jsonrpc conn method params)) := by
  have hctx : (⟨conn, r⟩ : Ctx).req = r := rfl
  cases method with
  | merchantSoldOrdersMarkPayed =>
    simp only [handlerOf, ReqMethod.api, handleJsonrpcMerchantApi]
    exact merchantEntry_bind_status fun a =>
      merchantSoldOrdersMarkPayed_status hctx rfl (by simp [Request.method])
  | merchantSoldOrdersCheckPayment =>
    simp only [handlerOf, ReqMethod.api, handleJsonrpcMerchantApi]
    exact merchantEntry_bind_status fun a =>
      merchantSoldOrdersCheckPayment_status hctx rfl (by simp [Request.method])
  | orderCheckPayment =>
    simp only [handlerOf, ReqMethod.api, handleJsonrpcOrderApi]
    refine .bind (triple_plain (plain_of_keeps thisSession_each) (fun s t hst h => h.kept hst)
      fun s h => h.post) fun a => buyerCheckPayment_status hctx
  | _ => cases hq

theorem programs_status (cfg : Config) (oid : String) (seller : Nat) :
    (statusProtocol oid seller).Programs (prog cfg) := by
  intro r q m _ hfresh hpermit
  have hclean : Clean r m := ⟨fun _ _ he => hfresh _ he rfl, fun _ he => hfresh _ he rfl⟩
  have hstable : (statusProtocol oid seller).Stable r q (Clean r) :=
    fun s t _ hst h => h.kept hst.undisturbed
  cases hq : q.recordsPayment with
  | true =>
    cases q with
    | jsonrpc conn method params =>
      refine prog_suspended_of_handler hstable hclean (fun _ _ _ h _ => h) (fun _ _ h => h.post)
        (handlerOf_status hq) fun reply s _ h => ?_
      have hstep : PlainStep r s { s with trace := .replied r reply :: s.trace } :=
        plainStep_cons rfl rfl
      refine ⟨hstep.status, fun time row he hoid hseller => ?_⟩
      have he' := (hstep.undisturbed.mem _ rfl rfl).mp he
      rw [List.count_cons_of_ne (by simp)]
      exact h time row he' hoid hseller
    | wxCallback msg =>
      refine Triple.suspended hstable hclean (fun _ _ _ h _ => h) fun _ => ?_
      have hctx : (⟨0, r⟩ : Ctx).req = r := rfl
      refine .bind (Q := fun _ => Clean r) (triple_plain (handleOrderWxCallback_plain hctx msg)
        (fun s t hst h => h.kept hst) fun s h => h.post) fun reply => ?_
      refine .conseq (triple_plain (emit_plain (e := .replied r reply) rfl rfl)
        (fun s t hst h => h.kept hst) fun s h => h.post) (fun _ _ h => h)
        (fun _ _ _ h => h.post) fun _ _ h => h
    | _ => cases hq
  | false =>
    have hby : q.bystander = true := by
      have : (q.recordsPayment || q.bystander) = true := hpermit
      simpa [hq] using this
    simp only [Request.bystander, List.all_cons, List.all_nil, Bool.and_true, Bool.and_eq_true,
      decide_eq_true_eq] at hby
    refine Triple.suspended hstable hclean (fun _ _ _ h _ => h) fun _ => ?_
    refine .conseq (triple_plain ((serve_each q).mono fun s t hk => ?_)
      (fun s t hst h => h.kept hst) fun s h => h.post) (fun _ _ h => h)
      (fun _ _ _ h => h.post) fun _ _ h => h
    exact plainStep_of_keeps hk hby.1 hby.2.1 hby.2.2.1 hby.2.2.2.2

/-! ## The rows -/

/-- The requests that have marked the order paid, the last one first. -/
def marksOf (oid : String) : List Event → List Nat
  | [] => []
  | .orderStored r (.markPayed _) row :: rest =>
    if row.oid = oid then r :: marksOf oid rest else marksOf oid rest
  | _ :: rest => marksOf oid rest

theorem marksOf_append {oid : String} {es trace : List Event} (h : ∀ e ∈ es, e.tracked = false) :
    marksOf oid (es ++ trace) = marksOf oid trace := by
  induction es with
  | nil => rfl
  | cons e es ih =>
    have hrest := ih fun e' he' => h e' (List.mem_cons_of_mem _ he')
    have he := h e (List.mem_cons_self ..)
    cases e <;> first | exact hrest | simp [Event.tracked] at he

theorem mem_marksOf {oid : String} {r : Nat} {trace : List Event} :
    r ∈ marksOf oid trace ↔ Marked r oid trace := by
  induction trace with
  | nil => simp [marksOf, Marked]
  | cons e trace ih =>
    have hmono : Marked r oid trace → Marked r oid (e :: trace) := fun h =>
      h.mono fun e he => List.mem_cons_of_mem _ he
    cases e with
    | orderStored r' c row =>
      cases c with
      | markPayed t =>
        unfold marksOf
        split
        · rename_i hoid
          rw [List.mem_cons, ih]
          constructor
          · rintro (rfl | h)
            · exact ⟨t, row, List.mem_cons_self .., hoid⟩
            · exact hmono h
          · rintro ⟨t', row', he, hoid'⟩
            rcases List.mem_cons.mp he with heq | he
            · cases heq
              exact .inl rfl
            · exact .inr ⟨t', row', he, hoid'⟩
        · rename_i hoid
          rw [ih]
          refine ⟨hmono, ?_⟩
          rintro ⟨t', row', he, hoid'⟩
          rcases List.mem_cons.mp he with heq | he
          · cases heq
            exact absurd hoid' hoid
          · exact ⟨t', row', he, hoid'⟩
      | _ => simp [marksOf, ih, Marked]
    | _ => simp [marksOf, ih, Marked]

/-- The order is marked at most once, and exactly when it becomes a paid one. -/
structure MarksInv (m : Mem) (o : CmallOrder) (qs : List Request) (s : Mem) : Prop where
  permitted : ∀ q ∈ qs, (q.recordsPayment || q.bystander) = true
  oids : (s.db.orders.map CmallOrder.oid).Nodup
  row : ∃ cur, s.db.findOrder o.id = some cur ∧ cur.ident = o.ident
  sellers : ∀ r c row, .orderStored r c row ∈ s.trace → row.oid = o.oid → row.seller = o.seller
  marks : marksOf o.oid s.trace = [] ∧ s.db.payed o.id = m.db.payed o.id ∨
    (∃ r, marksOf o.oid s.trace = [r]) ∧ m.db.payed o.id = false ∧ s.db.payed o.id = true

section Rows

variable {cfg : Config} {m s t : Mem} {o : CmallOrder} {qs : List Request} {r : Nat} {q : Request}

/-- A row with the oid of the order is its row. -/
theorem MarksInv.ident (h : MarksInv m o qs s) {cur : CmallOrder} (hcur : cur ∈ s.db.orders)
    (hoid : cur.oid = o.oid) : cur.ident = o.ident := by
  obtain ⟨cur', hfind, hident⟩ := h.row
  have hoid' : cur'.oid = cur.oid := (CmallOrder.oid_of_ident hident).trans hoid.symm
  rw [List.inj_on_of_nodup_map h.oids hcur (Table.mem_of_find hfind) hoid'.symm]
  exact hident

theorem Db.payed_of_find {db : Db} {row : CmallOrder} {id : Nat} (h : db.findOrder id = some row) :
    db.payed id = row.payedAt.isSome := by
  rw [Db.payed, h]
  rfl

theorem Db.payed_store {db : Db} {old cur : CmallOrder} (c : OrderChange) (now : PTime)
    (hcur : db.findOrder old.id = some cur) (id : Nat) :
    ({ db with orders := Table.update CmallOrder.id db.orders (c.apply now old) } : Db).payed id =
      if id = old.id then (c.apply now old).payedAt.isSome else db.payed id := by
  rw [Db.payed, findOrder_store hcur]
  split <;> rfl

/-- Only payments are written back. -/
theorem MarksInv.cause (h : MarksInv m o qs s) (hq : q ∈ qs) {c : OrderChange} {old : CmallOrder}
    {tr : List Event} (hcause : c.Cause r q old tr) :
    (∃ t, c = .markPayed t) ∨ ∃ t, c = .wxPayed t := by
  have hmethod : ∀ {method : ReqMethod}, q.method = some method → .orders ∈ method.footprint →
      q.recordsPayment = true := by
    intro method hm hfoot
    have hpermit := h.permitted q hq
    cases q with
    | jsonrpc conn method' params =>
      cases hm
      simpa [Request.bystander, Request.footprint, hfoot] using hpermit
    | _ => cases hm
  have hnot : ∀ {method : ReqMethod}, q.method = some method → .orders ∈ method.footprint →
      method ≠ .merchantSoldOrdersMarkPayed → method ≠ .merchantSoldOrdersCheckPayment →
      method ≠ .orderCheckPayment → False := by
    intro method hm hfoot h₁ h₂ h₃
    have hrec := hmethod hm hfoot
    cases q with
    | jsonrpc conn method' params =>
      cases hm
      cases method <;> contradiction
    | _ => cases hm
  cases c with
  | markPayed t => exact .inl ⟨t, rfl⟩
  | wxPayed t => exact .inr ⟨t, rfl⟩
  | alterPrice p k =>
    exact (hnot hcause.1 (by simp [ReqMethod.footprint]) (by simp) (by simp) (by simp)).elim
  | addKuaidi info =>
    exact (hnot hcause.1 (by simp [ReqMethod.footprint]) (by simp) (by simp) (by simp)).elim
  | delete t =>
    exact (hnot hcause.1 (by simp [ReqMethod.footprint]) (by simp) (by simp) (by simp)).elim

/-- Steps that leave the rows and the payments alone. -/
theorem MarksInv.of_same (h : MarksInv m o qs s) (horders : t.db.orders = s.db.orders)
    (hmarks : marksOf o.oid t.trace = marksOf o.oid s.trace)
    (hstored : ∀ r c row, .orderStored r c row ∈ t.trace → .orderStored r c row ∈ s.trace) :
    MarksInv m o qs t := by
  have hpayed : t.db.payed o.id = s.db.payed o.id := by simp [Db.payed, Db.findOrder, horders]
  refine ⟨h.permitted, horders ▸ h.oids, ?_, fun r c row he => h.sellers r c row (hstored r c row he),
    ?_⟩
  · simpa [Db.findOrder, horders] using h.row
  · rw [hmarks, hpayed]
    exact h.marks

/-- A payment of the order, or of another one. -/
theorem MarksInv.store (h : MarksInv m o qs s) (hq : q ∈ qs) {ctx : Ctx} {i : Input}
    {c : OrderChange} {old cur : CmallOrder}
    (hguard : marksOnceGuard o.oid r q ⟨ctx, .storeOrder c (c.draft old)⟩ i s)
    (hcause : c.Cause r q old s.trace) (hcur : s.db.findOrder old.id = some cur)
    (hident : cur.ident = old.ident) :
    MarksInv m o qs { s with
      db := { s.db with orders := Table.update CmallOrder.id s.db.orders (c.apply s.clock old) }
      trace := .orderStored r c (c.apply s.clock old) :: s.trace } := by
  obtain ⟨cur', hfind, hident'⟩ := h.row
  have hown : old.oid = o.oid → old.ident = o.ident := fun hoid => hident.symm.trans
    (h.ident (Table.mem_of_find hcur) ((CmallOrder.oid_of_ident hident).trans hoid))
  have hid : old.id = o.id → old.ident = o.ident := by
    intro hid
    rw [hid, hfind] at hcur
    rw [← hident, ← Option.some.inj hcur]
    exact hident'
  have happly := c.apply_ident s.clock old
  refine ⟨h.permitted, ?_, ?_, fun r' c' row he hoid => ?_, ?_⟩
  · have hstore : (Table.update CmallOrder.id s.db.orders (c.apply s.clock old)).map
        CmallOrder.ident = s.db.orders.map CmallOrder.ident := store_ident hcur hident
    have hmap := congrArg (List.map fun x : Nat × String × Nat × Nat => x.2.1) hstore
    simp only [List.map_map] at hmap
    exact hmap ▸ h.oids
  · refine ⟨if o.id = old.id then c.apply s.clock old else cur', ?_, ?_⟩
    · change Db.findOrder { s.db with orders := _ } o.id = _
      rw [findOrder_store hcur]
      split
      · rfl
      · exact hfind
    · split
      · rename_i heq
        exact happly.trans (hid heq.symm)
      · exact hident'
  · rcases List.mem_cons.mp he with heq | he
    · cases heq
      have hold := hown ((c.apply_oid s.clock old).symm.trans hoid)
      exact congrArg (·.2.2.2) (happly.trans hold)
    · exact h.sellers r' c' row he hoid
  · -- the order is paid after the step: it was before, or this is the payment
    have hpayed' := Db.payed_store c s.clock hcur o.id
    have hdraft : (c.draft old).oid = old.oid ∧ (c.draft old).id = old.id := by
      cases c <;> exact ⟨rfl, rfl⟩
    have hg : (Spot.storeOrder c (c.draft old)).marksOnce o.oid q s = true := hguard
    change marksOf o.oid (.orderStored r c (c.apply s.clock old) :: s.trace) = [] ∧ _ = _ ∨ _
    by_cases hoid : old.oid = o.oid
    · have hsame : o.id = old.id := (CmallOrder.id_of_ident (hown hoid)).symm
      rcases h.cause hq hcause with ⟨time, rfl⟩ | ⟨time, rfl⟩
      · have hunpayed : s.db.payed o.id = false := by
          simp only [Spot.marksOnce, hdraft, hoid, ← hsame] at hg
          simp_all
        rcases h.marks with ⟨hnone, hm⟩ | ⟨-, -, hp⟩
        · refine .inr ⟨⟨r, ?_⟩, hm ▸ hunpayed, ?_⟩
          · simp [marksOf, hnone, hoid, OrderChange.apply, OrderChange.stamp, OrderChange.draft]
          · change Db.payed { s.db with orders := _ } o.id = true
            rw [hpayed', if_pos hsame]
            rfl
        · rw [hunpayed] at hp
          cases hp
      · have hwas : s.db.payed o.id = true := by
          simp only [Spot.marksOnce, hdraft, hoid, ← hsame] at hg
          simp_all
        rw [if_pos hsame] at hpayed'
        have hnow := hpayed'.trans (rfl : _ = true)
        rcases h.marks with ⟨hnone, hm⟩ | ⟨hmarks, hm, -⟩
        · exact .inl ⟨hnone, hnow.trans (hwas.symm.trans hm)⟩
        · exact .inr ⟨hmarks, hm, hnow⟩
    · have hne : o.id ≠ old.id := fun heq =>
        hoid (CmallOrder.oid_of_ident (hid heq.symm))
      have hmarks : marksOf o.oid (.orderStored r c (c.apply s.clock old) :: s.trace) =
          marksOf o.oid s.trace := by
        cases c with
        | markPayed time =>
          have happ : ((OrderChange.markPayed time).apply s.clock old).oid ≠ o.oid := hoid
          simp [marksOf, happ]
        | _ => rfl
      rw [hmarks]
      change _ ∧ Db.payed { s.db with orders := _ } o.id = _ ∨
        _ ∧ _ ∧ Db.payed { s.db with orders := _ } o.id = true
      rw [hpayed', if_neg hne]
      exact h.marks

theorem MarksInv.step (h : MarksInv m o qs s) (hq : qs[r]? = some q)
    (hstep : OrderStep cfg (marksOnceGuard o.oid) r q s t) : MarksInv m o qs t := by
  cases hstep with
  | other horders hseq huuids htrace =>
    obtain ⟨es, hes, hown⟩ := htrace
    have huntracked : ∀ e ∈ es, e.tracked = false := fun e he => (hown e he).2.1
    refine h.of_same horders (by rw [hes, marksOf_append huntracked]) fun r' c row he => ?_
    rcases List.mem_append.mp (hes ▸ he) with he | he
    · have hf := huntracked _ he
      simp [Event.tracked] at hf
    · exact he
  | load who rows hrows => exact h.of_same rfl rfl fun _ _ _ he => by simpa using he
  | store ctx i c old cur hguard hload hcause hcur hident =>
    exact h.store (List.mem_of_getElem? hq) hguard hcause hcur hident
  | persist order n hoid hn hfresh hpayed =>
    obtain ⟨cur, hfind, hident⟩ := h.row
    have hfind' : (s.db.persistOrder order).findOrder o.id = some cur :=
      Table.find_append_of_some hfind
    refine ⟨h.permitted, ?_, ⟨cur, hfind', hident⟩, h.sellers, ?_⟩
    · show ((s.db.orders ++ [_]).map CmallOrder.oid).Nodup
      rw [List.map_append, List.map_singleton]
      refine List.nodup_append.mpr ⟨h.oids, List.nodup_singleton _, fun x hx y hy hxy => ?_⟩
      have hy' : y = order.oid := List.mem_singleton.mp hy
      obtain ⟨o', ho', hox⟩ := List.mem_map.mp hx
      exact hfresh o' ho' (hox.trans (hxy.trans hy'))
    · change _ ∧ (s.db.persistOrder order).payed o.id = _ ∨
        _ ∧ _ ∧ (s.db.persistOrder order).payed o.id = true
      rw [Db.payed_of_find hfind', ← Db.payed_of_find hfind]
      exact h.marks
  | prepay ctx i order hguard hload => exact h.of_same rfl rfl fun _ _ _ he => by simpa using he

end Rows

/-! ## Runs -/

/-- The script was started for the order. -/
def Event.starts (oid : String) : Event → Bool
  | .orderstatus _ oid' => oid' = oid
  | _ => false

theorem FreshStart.marksInv {m : Mem} (h : FreshStart m)
    (hoids : (m.db.orders.map CmallOrder.oid).Nodup) {o : CmallOrder} (ho : o ∈ m.db.orders) :
    MarksInv m o [] m where
  permitted := by simp
  oids := hoids
  row := ⟨o, findOrder_of_mem h.nodup ho, rfl⟩
  sellers r c row he := by simp [h.trace] at he
  marks := .inl ⟨by simp [h.trace, marksOf], rfl⟩

/-- In every run of payments, and of requests that have nothing to do with them, in which an
order is marked paid by a handler only while it is not paid, in a session of its seller or
of a buyer, and notified only when it is: when all requests have ended, the script of its
seller has been started once if the order has become a paid one, and not at all otherwise. -/
theorem orderstatus_started_once (cfg : Config) (m : Mem) (ls : List (Label Request Input))
    (o : CmallOrder) (hm : FreshStart m) (hoids : (m.db.orders.map CmallOrder.oid).Nodup)
    (ho : o ∈ m.db.orders) (hscript : m.HasStatusScript o.seller)
    (hls : (statusProtocol o.oid o.seller).Admissible (prog cfg) (Sys.idle m) ls) :
    let s := (Sys.idle m : Service).run (prog cfg) ls
    s.quiet = true → s.mem.trace.countP (Event.starts o.oid) =
      if m.db.payed o.id = false ∧ s.mem.db.payed o.id = true then 1 else 0 := by
  have hidle : (statusProtocol o.oid o.seller).Good (Sys.idle m : Service) :=
    good_idle ⟨hscript, by simp [hm.trace]⟩ (by simp [statusProtocol, hm.trace])
  have hgood := run_good (programs_status cfg o.oid o.seller) hidle hls
  obtain ⟨-, hmarks⟩ := order_run (G := marksOnceGuard o.oid) (W := onlyPayments)
    (J := MarksInv m o) hm (hls.congr rfl rfl)
    (fun qs s q hq h => { h with permitted := fun q' hq' =>
      (List.mem_append.mp hq').elim (h.permitted q') fun hq' => List.mem_singleton.mp hq' ▸ hq })
    (fun _ _ _ _ _ _ hq hstep h => h.step hq hstep) (hm.marksInv hoids ho)
  intro s hquiet
  -- a start of the script belongs to a request that has marked the order
  have hmarked : ∀ e ∈ s.mem.trace, e.starts o.oid = true →
      ∃ r, e = .orderstatus r o.oid ∧ r ∈ marksOf o.oid s.mem.trace := by
    intro e he hstarts
    cases e with
    | orderstatus r oid =>
      have hoid : oid = o.oid := by simpa [Event.starts] using hstarts
      subst hoid
      exact ⟨r, rfl, mem_marksOf.mpr (hgood.inv.2 r he)⟩
    | _ => cases hstarts
  rcases hmarks.marks with ⟨hnone, hsame⟩ | ⟨⟨r, hone⟩, hbefore, hafter⟩
  · have hcond : ¬ (m.db.payed o.id = false ∧ s.mem.db.payed o.id = true) := by
      rintro ⟨hf, ht⟩
      rw [← hsame] at hf
      exact absurd (hf.symm.trans ht) (by simp)
    rw [if_neg hcond]
    refine List.countP_eq_zero.mpr fun e he hstarts => ?_
    obtain ⟨r, -, hr⟩ := hmarked e he hstarts
    simp [s, hnone] at hr
  · rw [if_pos ⟨hbefore, hafter⟩]
    obtain ⟨time, row, he, hoid⟩ : Marked r o.oid s.mem.trace := by
      rw [← mem_marksOf]
      simp [s, hone]
    obtain ⟨p, hp⟩ : ∃ p, s.procs[r]? = some p := by
      refine Option.isSome_iff_exists.mp (Option.isSome_iff_ne_none.mpr fun hnone => ?_)
      exact hgood.fresh r (List.getElem?_eq_none_iff.mp hnone) _ he rfl
    have hcount := hgood.post hquiet hp time row he hoid (hmarks.sellers r _ row he hoid)
    have hcongr : s.mem.trace.countP (Event.starts o.oid) =
        s.mem.trace.count (.orderstatus r o.oid) := by
      refine List.countP_congr fun e he => ⟨fun hstarts => ?_, fun heq => ?_⟩
      · obtain ⟨r', rfl, hr'⟩ := hmarked e he hstarts
        have hr : r' = r := by simpa [s, hone] using hr'
        rw [hr]
        exact beq_self_eq_true _
      · rw [eq_of_beq heq]
        simp [Event.starts]
    rw [hcongr]
    exact hcount

/-! ## Notifications and overlapping requests -/

/-- A repository with nothing but the script. -/
def statusRepo : Repo where
  getProduct _ := .error .goodsNotFound
  getFileContent path := if path = "scripts/orderstatus.js" then .ok "js" else .error .goodsNotFound
  getSupportedPayment := []
  getProducts := []

/-- Merchant 1 has the script, and one order. -/
def scriptedShop : Mem :=
  { oneSoldOrder with repos := fun k => if k = 1 then some statusRepo else none }

/-- The merchant marks the order paid. -/
theorem orderstatus_started_once_for_mark :
    let s := (Sys.idle scriptedShop : Service).run (prog bareConfig)
      (sold .merchantSoldOrdersMarkPayed [] :: resumes 0 6)
    s.quiet = true ∧ s.mem.trace.countP (Event.starts "A") =
      if scriptedShop.db.payed 1 = false ∧ s.mem.db.payed 1 = true then 1 else 0 := by
  have hquiet : ((Sys.idle scriptedShop : Service).run (prog bareConfig)
      (sold .merchantSoldOrdersMarkPayed [] :: resumes 0 6)).quiet = true := by
    decide +kernel
  have hfresh : FreshStart scriptedShop := by
    obtain ⟨htrace, hnodup, hseq, hoids⟩ := oneSoldOrder_freshStart
    exact ⟨htrace, hnodup, hseq, hoids⟩
  exact ⟨hquiet, orderstatus_started_once bareConfig scriptedShop _
    { id := 1, oid := "A", buyer := 2, seller := 1, price := 10 } hfresh (by decide) (by decide)
    ⟨statusRepo, "js", rfl, rfl, by decide⟩ (by decide +kernel) hquiet⟩

/-- WeChat reports the payment of the order. -/
def payedA : NotifyMessage :=
  { outTradeNo := "A", tradeState := .success, orderAmount := 10, payedAmount := 10
    successTime := 5 }

/-- A payment that WeChat reports starts no script, and two requests that have both loaded
the unpaid order start it twice. -/
theorem orderstatus_missed_and_repeated :
    let s := (Sys.idle scriptedShop : Service).run (prog bareConfig)
      (.spawn (.wxCallback payedA) :: resumes 0 5)
    let t := (Sys.idle scriptedShop : Service).run (prog bareConfig)
      ([sold .merchantSoldOrdersMarkPayed [], sold .merchantSoldOrdersMarkPayed []] ++
        resumes 0 3 ++ resumes 1 3 ++ resumes 0 3 ++ resumes 1 3)
    scriptedShop.db.payed 1 = false ∧
      (s.quiet = true ∧ s.mem.db.payed 1 = true ∧ s.mem.trace.countP (Event.starts "A") = 0) ∧
      (t.quiet = true ∧ t.mem.db.payed 1 = true ∧ t.mem.trace.countP (Event.starts "A") = 2) := by
  decide +kernel

end Cmall
