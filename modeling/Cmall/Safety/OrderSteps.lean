import Cmall.Footprint.Triples
import Mathlib.Logic.Relation

/-!
What a step of the service can do to the orders.

Every request that changes an order loads the row, suspends, and writes the whole
row back. `OrderStep` lists what a single access of any request can do to the
orders and to the events about them, and `programs_order` proves that no program
of the service does anything else, whatever the runs are restricted to (`G`, `W`).
The properties of orders are properties of these steps.
-/

namespace Cmall
open Coroutine Protocol

/-! ## Changes of a row -/

/-- The row a handler writes back, made from the row it loaded. -/
def OrderChange.draft (c : OrderChange) (o : CmallOrder) : CmallOrder :=
  match c with
  | .alterPrice price kuaidifei =>
    { o with price := price.getD o.price, kuaidifei := kuaidifei.getD o.kuaidifei }
  | .addKuaidi info => { o with kuaidi := o.kuaidi ++ [info] }
  | .markPayed t | .wxPayed t | .delete t => { o with payedAt := some t }

/-- The time the database layer puts into the row. -/
def OrderChange.stamp (c : OrderChange) (now : PTime) (o : CmallOrder) : CmallOrder :=
  match c with
  | .delete _ => { o with deletedAt := some now }
  | _ => { o with updatedAt := now }

def OrderChange.apply (c : OrderChange) (now : PTime) (o : CmallOrder) : CmallOrder :=
  c.stamp now (c.draft o)

/-- The columns that no change touches. -/
def CmallOrder.ident (o : CmallOrder) : Nat × String × Nat × Nat := (o.id, o.oid, o.buyer, o.seller)

theorem CmallOrder.id_of_ident {o o' : CmallOrder} (h : o.ident = o'.ident) : o.id = o'.id :=
  congrArg Prod.fst h

theorem CmallOrder.oid_of_ident {o o' : CmallOrder} (h : o.ident = o'.ident) : o.oid = o'.oid :=
  congrArg (·.2.1) h

theorem OrderChange.apply_ident (c : OrderChange) (now : PTime) (o : CmallOrder) :
    (c.apply now o).ident = o.ident := by
  cases c <;> rfl

theorem OrderChange.apply_id (c : OrderChange) (now : PTime) (o : CmallOrder) :
    (c.apply now o).id = o.id := CmallOrder.id_of_ident (c.apply_ident now o)

theorem OrderChange.apply_oid (c : OrderChange) (now : PTime) (o : CmallOrder) :
    (c.apply now o).oid = o.oid := CmallOrder.oid_of_ident (c.apply_ident now o)

/-! ## Events -/

/-- The events that say what happened to the rows. -/
def Event.tracked : Event → Bool
  | .ordersLoaded .. | .orderStored .. | .prepay .. => true
  | _ => false

/-- The row with this id as request `r` loaded it last. -/
def lastLoaded (r id : Nat) : List Event → Option CmallOrder
  | [] => none
  | .ordersLoaded r' _ rows :: rest =>
    if r' = r then (Table.find CmallOrder.id rows id).or (lastLoaded r id rest)
    else lastLoaded r id rest
  | _ :: rest => lastLoaded r id rest

theorem lastLoaded_cons {r id : Nat} {e : Event} {trace : List Event}
    (h : e.req = r → ∀ who rows, e ≠ .ordersLoaded r who rows) :
    lastLoaded r id (e :: trace) = lastLoaded r id trace := by
  cases e with
  | ordersLoaded r' who rows =>
    have hne : r' ≠ r := fun heq => h heq who rows (by rw [heq])
    simp [lastLoaded, hne]
  | _ => rfl

theorem lastLoaded_append {r id : Nat} {es trace : List Event}
    (h : ∀ e ∈ es, e.req = r → e.tracked = false) :
    lastLoaded r id (es ++ trace) = lastLoaded r id trace := by
  induction es with
  | nil => rfl
  | cons e es ih =>
    rw [List.cons_append, lastLoaded_cons, ih fun e' he' => h e' (List.mem_cons_of_mem _ he')]
    intro hr who rows heq
    have hf := h e (List.mem_cons_self ..) hr
    simp [heq, Event.tracked] at hf

/-- A row that was loaded last was loaded. -/
theorem lastLoaded_mem {r id : Nat} {v : CmallOrder} {trace : List Event}
    (h : lastLoaded r id trace = some v) :
    v.id = id ∧ ∃ who rows, .ordersLoaded r who rows ∈ trace ∧ v ∈ rows := by
  induction trace with
  | nil => cases h
  | cons e trace ih =>
    have hrest : lastLoaded r id trace = some v →
        v.id = id ∧ ∃ who rows, .ordersLoaded r who rows ∈ e :: trace ∧ v ∈ rows := by
      intro h'
      obtain ⟨hid, who, rows, hmem, hv⟩ := ih h'
      exact ⟨hid, who, rows, List.mem_cons_of_mem _ hmem, hv⟩
    cases e with
    | ordersLoaded r' who rows =>
      unfold lastLoaded at h
      split at h
      · rename_i hr
        subst hr
        rcases Option.or_eq_some_iff.mp h with h | ⟨-, h⟩
        · exact ⟨Table.find_key h, who, rows, List.mem_cons_self .., Table.mem_of_find h⟩
        · exact hrest h
      · exact hrest h
    | _ => exact hrest h

/-- Request `r` loaded the row on behalf of `who`. -/
def LoadedBy (r : Nat) (who : Actor) (o : CmallOrder) (trace : List Event) : Prop :=
  ∃ rows, .ordersLoaded r who rows ∈ trace ∧ o ∈ rows

/-- What makes request `r` write the row `old` back. -/
def OrderChange.Cause (c : OrderChange) (r : Nat) (q : Request) (old : CmallOrder)
    (trace : List Event) : Prop :=
  match c with
  | .alterPrice .. =>
    q.method = some .merchantAlterOrderPrice ∧ LoadedBy r (.seller old.seller) old trace
  | .addKuaidi _ =>
    q.method = some .merchantSoldOrdersAddKuaidi ∧ LoadedBy r (.seller old.seller) old trace
  | .delete _ =>
    q.method = some .merchantDeleteSoldOrders ∧ LoadedBy r (.seller old.seller) old trace
  | .markPayed _ =>
    q.method = some .merchantSoldOrdersMarkPayed ∧ LoadedBy r (.seller old.seller) old trace ∨
      (q.method = some .orderCheckPayment ∨ q.method = some .merchantSoldOrdersCheckPayment) ∧
        ∃ out, .checkpay r old.oid out ∈ trace ∧ (out = "payed" ∨ out = "payed\n")
  | .wxPayed t =>
    ∃ msg, q = .wxCallback msg ∧ msg.tradeState = .success ∧ msg.outTradeNo = old.oid ∧
      t = msg.successTime

theorem OrderChange.Cause.mono {c : OrderChange} {r : Nat} {q : Request} {old : CmallOrder}
    {tr tr' : List Event} (h : c.Cause r q old tr) (hsub : ∀ e ∈ tr, e ∈ tr') :
    c.Cause r q old tr' := by
  have hload : ∀ who, LoadedBy r who old tr → LoadedBy r who old tr' :=
    fun who ⟨rows, he, hold⟩ => ⟨rows, hsub _ he, hold⟩
  cases c with
  | alterPrice p k => exact ⟨h.1, hload _ h.2⟩
  | addKuaidi info => exact ⟨h.1, hload _ h.2⟩
  | delete t => exact ⟨h.1, hload _ h.2⟩
  | markPayed t =>
    rcases h with ⟨hq, hl⟩ | ⟨hq, out, he, hout⟩
    · exact .inl ⟨hq, hload _ hl⟩
    · exact .inr ⟨hq, out, hsub _ he, hout⟩
  | wxPayed t => exact h

/-! ## Replies -/

/-- A decimal of the request, if it has one. -/
def numericParam (cfg : Config) (params : JsonObject) (key : String) : Option CppNumeric :=
  if Json.getString params key = "" then none else cfg.numeric (Json.getString params key)

/-- Request `r` wrote the order `oid` back, for a change that satisfies `p`. -/
def StoredFor (r : Nat) (oid : String) (p : OrderChange → Prop) (trace : List Event) : Prop :=
  ∃ c row, .orderStored r c row ∈ trace ∧ row.oid = oid ∧ p c

/-- Request `r` recorded the payment of the order `oid`, or found it recorded. -/
def PayedFor (r : Nat) (oid : String) (trace : List Event) : Prop :=
  StoredFor r oid (fun c => ∃ t, c = .markPayed t) trace ∨
    ∃ who v, LoadedBy r who v trace ∧ v.oid = oid ∧ v.payedAt.isSome = true

/-- What the request has done when it is answered with `true`. -/
def Request.Done (cfg : Config) (r : Nat) (trace : List Event) : Request → Prop
  | .jsonrpc _ .merchantAlterOrderPrice params =>
    StoredFor r (Json.getString params "orderid") (fun c => c =
      .alterPrice (numericParam cfg params "new_price") (numericParam cfg params "new_kuaidifei"))
      trace
  | .jsonrpc _ .merchantSoldOrdersAddKuaidi params =>
    StoredFor r (Json.getString params "orderid") (fun c => c = .addKuaidi (kuaidiInfo params)) trace
  | .jsonrpc _ .merchantDeleteSoldOrders params =>
    StoredFor r (Json.getString params "orderid") (fun c => ∃ t, c = .delete t) trace
  | .jsonrpc _ .merchantSoldOrdersMarkPayed params | .jsonrpc _ .orderCheckPayment params
  | .jsonrpc _ .merchantSoldOrdersCheckPayment params =>
    PayedFor r (Json.getString params "orderid") trace
  | .wxCallback msg => StoredFor r msg.outTradeNo (fun c => c = .wxPayed msg.successTime) trace
  | _ => True

theorem StoredFor.mono {r : Nat} {oid : String} {p : OrderChange → Prop} {tr tr' : List Event}
    (h : StoredFor r oid p tr) (hsub : ∀ e ∈ tr, e ∈ tr') : StoredFor r oid p tr' := by
  obtain ⟨c, row, he, hrow⟩ := h
  exact ⟨c, row, hsub _ he, hrow⟩

theorem PayedFor.mono {r : Nat} {oid : String} {tr tr' : List Event}
    (h : PayedFor r oid tr) (hsub : ∀ e ∈ tr, e ∈ tr') : PayedFor r oid tr' := by
  rcases h with h | ⟨who, v, ⟨rows, he, hv⟩, hrest⟩
  · exact .inl (h.mono hsub)
  · exact .inr ⟨who, v, ⟨rows, hsub _ he, hv⟩, hrest⟩

theorem Request.Done.mono {cfg : Config} {r : Nat} {q : Request} {tr tr' : List Event}
    (h : q.Done cfg r tr) (hsub : ∀ e ∈ tr, e ∈ tr') : q.Done cfg r tr' := by
  unfold Request.Done at h ⊢
  split at h
  all_goals first
    | exact StoredFor.mono h hsub
    | exact PayedFor.mono h hsub
    | trivial

/-! ## Steps -/

/-- The restriction on resumptions that a property of orders puts on runs. -/
abbrev Guard := Nat → Request → Point → Input → Mem → Prop

/-- What one access of request `r` can do to the orders. -/
inductive OrderStep (cfg : Config) (G : Guard) (r : Nat) (q : Request) : Mem → Mem → Prop where
  /-- Nothing; a reply `true` tells what was done. -/
  | other {s t : Mem} (horders : t.db.orders = s.db.orders)
      (hseq : t.db.seq.order = s.db.seq.order) (huuids : s.uuids ≤ t.uuids)
      (htrace : ∃ es, t.trace = es ++ s.trace ∧ ∀ e ∈ es, e.req = r ∧ e.tracked = false ∧
        (e = .replied r (.bool true) → q.Done cfg r s.trace)) : OrderStep cfg G r q s t
  | load {s : Mem} (who : Actor) (rows : List CmallOrder) (hrows : ∀ v ∈ rows, v ∈ s.db.orders) :
      OrderStep cfg G r q s { s with trace := .ordersLoaded r who rows :: s.trace }
  /-- The row `old` that `r` loaded last is written back, over the row `cur`. -/
  | store {s : Mem} (ctx : Ctx) (i : Input) (c : OrderChange) (old cur : CmallOrder)
      (hguard : G r q ⟨ctx, .storeOrder c (c.draft old)⟩ i s)
      (hload : lastLoaded r old.id s.trace = some old) (hcause : c.Cause r q old s.trace)
      (hcur : s.db.findOrder old.id = some cur) (hident : cur.ident = old.ident) :
      OrderStep cfg G r q s { s with
        db := { s.db with
          orders := Table.update CmallOrder.id s.db.orders (c.apply s.clock old) }
        trace := .orderStored r c (c.apply s.clock old) :: s.trace }
  /-- A new order under a uuid of its own. -/
  | persist {s : Mem} (order : CmallOrder) (n : Nat) (hoid : order.oid = uuidOf r n)
      (hn : n < s.uuids) (hfresh : ∀ o ∈ s.db.orders, o.oid ≠ order.oid)
      (hpayed : order.payedAt = none) :
      OrderStep cfg G r q s { s with db := s.db.persistOrder order }
  /-- A prepay for the row `order` that `r` loaded last. -/
  | prepay {s : Mem} (ctx : Ctx) (i : Input) (order : CmallOrder)
      (hguard : G r q ⟨ctx, .prepay order⟩ i s)
      (hload : lastLoaded r order.id s.trace = some order) :
      OrderStep cfg G r q s { s with
        trace := .prepay r order.oid (amountInCents (order.price + order.kuaidifei)) :: s.trace }

/-- The orders have pairwise different ids from the sequence, no oid is a uuid that
is still to be drawn, and a row that was loaded is still there. -/
structure OrderInv (s : Mem) : Prop where
  nodup : (s.db.orders.map CmallOrder.id).Nodup
  seq : ∀ o ∈ s.db.orders, o.id ≤ s.db.seq.order
  oids : ∀ o ∈ s.db.orders, ∀ r n, o.oid = uuidOf r n → n < s.uuids
  loaded : ∀ r who v, LoadedBy r who v s.trace →
    ∃ o, s.db.findOrder v.id = some o ∧ o.ident = v.ident

theorem findOrder_of_mem {db : Db} {o : CmallOrder} (h : (db.orders.map CmallOrder.id).Nodup)
    (ho : o ∈ db.orders) : db.findOrder o.id = some o :=
  Table.find_of_mem h ho

theorem OrderInv.of_ident {s t : Mem} (h : OrderInv s)
    (hident : t.db.orders.map CmallOrder.ident = s.db.orders.map CmallOrder.ident)
    (hseq : t.db.seq.order = s.db.seq.order) (huuids : s.uuids ≤ t.uuids)
    (hloaded : ∀ r who v, LoadedBy r who v t.trace →
      ∃ o, s.db.findOrder v.id = some o ∧ o.ident = v.ident) : OrderInv t := by
  have hid : t.db.orders.map CmallOrder.id = s.db.orders.map CmallOrder.id := by
    simpa [Function.comp_def, CmallOrder.ident] using congrArg (List.map Prod.fst) hident
  have hrow : ∀ o ∈ t.db.orders, ∃ o' ∈ s.db.orders, o'.ident = o.ident := fun o ho =>
    List.mem_map.mp (hident ▸ List.mem_map_of_mem ho)
  have hnodup : (t.db.orders.map CmallOrder.id).Nodup := hid ▸ h.nodup
  refine ⟨hnodup, fun o ho => ?_, fun o ho r n hoid => ?_, fun r who v hv => ?_⟩
  · obtain ⟨o', ho', heq⟩ := hrow o ho
    rw [hseq, ← CmallOrder.id_of_ident heq]
    exact h.seq o' ho'
  · obtain ⟨o', ho', heq⟩ := hrow o ho
    have hoid' := (CmallOrder.oid_of_ident heq).trans hoid
    exact Nat.lt_of_lt_of_le (h.oids o' ho' r n hoid') huuids
  · obtain ⟨o, ho, heq⟩ := hloaded r who v hv
    have hmem : o.ident ∈ t.db.orders.map CmallOrder.ident :=
      hident ▸ List.mem_map_of_mem (Table.mem_of_find ho)
    obtain ⟨o', ho', heq'⟩ := List.mem_map.mp hmem
    have hkey : o'.id = v.id := CmallOrder.id_of_ident (heq'.trans heq)
    exact ⟨o', hkey ▸ findOrder_of_mem hnodup ho', heq'.trans heq⟩

section Steps

variable {cfg : Config} {G : Guard} {r : Nat} {q : Request} {s t : Mem}

theorem loadedBy_append {r' : Nat} {who : Actor} {v : CmallOrder} {es tr : List Event}
    (hes : ∀ e ∈ es, e.tracked = false) (h : LoadedBy r' who v (es ++ tr)) :
    LoadedBy r' who v tr := by
  obtain ⟨rows, he, hv⟩ := h
  rcases List.mem_append.mp he with he | he
  · have hf := hes _ he
    simp [Event.tracked] at hf
  · exact ⟨rows, he, hv⟩

/-- The identifying columns of the rows, the new ones aside, never change. -/
theorem store_ident {c : OrderChange} {old cur : CmallOrder} {db : Db} {now : PTime}
    (hcur : db.findOrder old.id = some cur) (hident : cur.ident = old.ident) :
    (Table.update CmallOrder.id db.orders (c.apply now old)).map CmallOrder.ident =
      db.orders.map CmallOrder.ident :=
  Table.map_update (by rw [c.apply_id]; exact hcur) ((c.apply_ident now old).trans hident.symm)

theorem OrderStep.inv (h : OrderStep cfg G r q s t) (hi : OrderInv s) : OrderInv t := by
  cases h with
  | other horders hseq huuids htrace =>
    obtain ⟨es, hes, hown⟩ := htrace
    refine hi.of_ident (by rw [horders]) hseq huuids fun r' who v hv => ?_
    exact hi.loaded r' who v (loadedBy_append (fun e he => (hown e he).2.1) (hes ▸ hv))
  | load who rows hrows =>
    refine hi.of_ident rfl rfl (Nat.le_refl _) fun r' who' v hv => ?_
    obtain ⟨rows', he, hv⟩ := hv
    rcases List.mem_cons.mp he with heq | he
    · cases heq
      exact ⟨v, findOrder_of_mem hi.nodup (hrows v hv), rfl⟩
    · exact hi.loaded r' who' v ⟨rows', he, hv⟩
  | store ctx i c old cur hguard hload hcause hcur hident =>
    refine hi.of_ident (store_ident hcur hident) rfl (Nat.le_refl _) fun r' who v hv => ?_
    obtain ⟨rows, he, hv⟩ := hv
    exact hi.loaded r' who v ⟨rows, by simpa using he, hv⟩
  | persist order n hoid hn hfresh hpayed =>
    have hnew : s.db.seq.order + 1 ∉ s.db.orders.map CmallOrder.id := by
      intro hmem
      obtain ⟨o, ho, heq⟩ := List.mem_map.mp hmem
      have := hi.seq o ho
      omega
    refine ⟨?_, fun o ho => ?_, fun o ho r' n' hoid' => ?_, fun r' who v hv => ?_⟩
    · show ((s.db.orders ++ [_]).map CmallOrder.id).Nodup
      rw [List.map_append, List.map_singleton]
      refine List.nodup_append.mpr ⟨hi.nodup, List.nodup_singleton _, fun x hx y hy heq => ?_⟩
      have hy' : y = s.db.seq.order + 1 := List.mem_singleton.mp hy
      exact hnew (hy' ▸ heq ▸ hx)
    · rcases List.mem_append.mp ho with ho | ho
      · exact Nat.le_succ_of_le (hi.seq o ho)
      · rw [List.mem_singleton.mp ho]
        exact Nat.le_refl _
    · rcases List.mem_append.mp ho with ho | ho
      · exact hi.oids o ho r' n' hoid'
      · rw [List.mem_singleton.mp ho] at hoid'
        exact (uuidOf_inj (hoid.symm.trans hoid')).2 ▸ hn
    · obtain ⟨o, ho, heq⟩ := hi.loaded r' who v hv
      exact ⟨o, Table.find_append_of_some ho, heq⟩
  | prepay ctx i order hguard hload =>
    refine hi.of_ident rfl rfl (Nat.le_refl _) fun r' who v hv => ?_
    obtain ⟨rows, he, hv⟩ := hv
    exact hi.loaded r' who v ⟨rows, by simpa using he, hv⟩

/-- From `s` to `t` request `r` neither loads nor stores an order, and nobody uses
its uuids. -/
structure Calm (r : Nat) (s t : Mem) : Prop where
  trace : ∃ es, t.trace = es ++ s.trace ∧ ∀ e ∈ es, e.req = r → e.tracked = false
  oids : ∀ n, (∀ o ∈ s.db.orders, o.oid ≠ uuidOf r n) → ∀ o ∈ t.db.orders, o.oid ≠ uuidOf r n
  uuids : s.uuids ≤ t.uuids

theorem Calm.refl (r : Nat) (s : Mem) : Calm r s s :=
  ⟨⟨[], rfl, by simp⟩, fun _ h => h, Nat.le_refl _⟩

theorem Calm.trans {u : Mem} (h : Calm r s t) (h' : Calm r t u) : Calm r s u := by
  obtain ⟨es, hes, h₁⟩ := h.trace
  obtain ⟨es', hes', h₂⟩ := h'.trace
  refine ⟨⟨es' ++ es, by rw [hes', hes, List.append_assoc], fun e he => ?_⟩,
    fun n hn => h'.oids n (h.oids n hn), Nat.le_trans h.uuids h'.uuids⟩
  exact (List.mem_append.mp he).elim (h₂ e) (h₁ e)

theorem Calm.sub (h : Calm r s t) : ∀ e ∈ s.trace, e ∈ t.trace := by
  obtain ⟨es, hes, -⟩ := h.trace
  exact fun e he => hes ▸ List.mem_append_right _ he

/-- An event of its own in front of the trace. -/
theorem calm_cons {e : Event} (h : e.req = r → e.tracked = false) :
    Calm r s { s with trace := e :: s.trace } :=
  ⟨⟨[e], rfl, by simpa using h⟩, fun _ h => h, Nat.le_refl _⟩

/-- The steps of one request leave the others calm. -/
theorem OrderStep.calm {r' : Nat} (hne : r ≠ r') (h : OrderStep cfg G r q s t) : Calm r' s t := by
  cases h with
  | other horders hseq huuids htrace =>
    obtain ⟨es, hes, hown⟩ := htrace
    exact ⟨⟨es, hes, fun e he hr => absurd ((hown e he).1.symm.trans hr) hne⟩,
      fun n hn => by rw [horders]; exact hn, huuids⟩
  | load who rows hrows => exact calm_cons fun hr => absurd hr hne
  | store ctx i c old cur hguard hload hcause hcur hident =>
    refine ⟨⟨[_], rfl, fun e he hr => ?_⟩, fun n hn o ho => ?_, Nat.le_refl _⟩
    · rw [List.mem_singleton.mp he] at hr
      exact absurd hr hne
    · have hmem : o.ident ∈ s.db.orders.map CmallOrder.ident :=
        store_ident hcur hident ▸ List.mem_map_of_mem ho
      obtain ⟨o', ho', heq⟩ := List.mem_map.mp hmem
      exact CmallOrder.oid_of_ident heq ▸ hn o' ho'
  | persist order n hoid hn hfresh hpayed =>
    refine ⟨⟨[], rfl, by simp⟩, fun n' hn' o ho => ?_, Nat.le_refl _⟩
    rcases List.mem_append.mp ho with ho | ho
    · exact hn' o ho
    · rw [List.mem_singleton.mp ho]
      exact fun heq => hne (uuidOf_inj (hoid.symm.trans heq)).1
  | prepay ctx i order hguard hload => exact calm_cons fun hr => absurd hr hne

/-- The events of a step belong to the request that makes it. -/
theorem OrderStep.own (h : OrderStep cfg G r q s t) :
    ∃ es, t.trace = es ++ s.trace ∧ ∀ e ∈ es, e.req = r := by
  cases h with
  | other horders hseq huuids htrace =>
    obtain ⟨es, hes, hown⟩ := htrace
    exact ⟨es, hes, fun e he => (hown e he).1⟩
  | load who rows hrows => exact ⟨[_], rfl, by simp [Event.req]⟩
  | store ctx i c old cur hguard hload hcause hcur hident => exact ⟨[_], rfl, by simp [Event.req]⟩
  | persist order n hoid hn hfresh hpayed => exact ⟨[], rfl, by simp⟩
  | prepay ctx i order hguard hload => exact ⟨[_], rfl, by simp [Event.req]⟩

end Steps

/-! ## The protocol -/

/-- Request `r` has not written an order back. -/
def NoStore (r : Nat) (s : Mem) : Prop := ∀ c row, .orderStored r c row ∉ s.trace

theorem NoStore.calm {r : Nat} {s t : Mem} (h : NoStore r s) (hst : Calm r s t) : NoStore r t := by
  obtain ⟨es, hes, hown⟩ := hst.trace
  intro c row he
  rcases List.mem_append.mp (hes ▸ he) with he | he
  · have hf := hown _ he rfl
    simp [Event.tracked] at hf
  · exact h c row he

/-- Every access of request `r` is an `OrderStep`. A price change that ends has
been answered, or has changed nothing. -/
def orderProtocol (cfg : Config) (G : Guard) (W : Request → Mem → Prop) :
    Protocol Request Mem Input Point where
  inv := OrderInv
  rely r _ s t := Calm r s t
  guar r q s t := Relation.ReflTransGen (OrderStep cfg G r q) s t
  guard := G
  permit := W
  fresh r s := ∀ e ∈ s.trace, e.req ≠ r
  post r q s := q.method = some .merchantAlterOrderPrice →
    NoStore r s ∨ .replied r (.bool true) ∈ s.trace
  rely_refl r _ s := .refl r s
  rely_trans _ _ _ _ _ h h' := h.trans h'
  guar_refl _ _ _ := .refl
  guar_trans _ _ _ _ _ h h' := h.trans h'
  guar_inv r q s t hi h := by
    induction h with
    | refl => exact hi
    | tail _ hstep ih => exact hstep.inv ih
  guar_rely r q r' _ s t hne _ h := by
    induction h with
    | refl => exact .refl r' s
    | tail _ hstep ih => exact ih.trans (hstep.calm hne)
  fresh_guar r q r' s t hne h hf := by
    induction h with
    | refl => exact hf
    | tail _ hstep ih =>
      obtain ⟨es, hes, hown⟩ := hstep.own
      intro e he
      rcases List.mem_append.mp (hes ▸ he) with he | he
      · rw [hown e he]
        exact hne
      · exact ih e he
  post_rely r q s t hst h hq := (h hq).imp (fun hno => hno.calm hst) fun he => hst.sub _ he

section Handlers

variable {cfg : Config} {G : Guard} {W : Request → Mem → Prop} {r : Nat} {q : Request} {ctx : Ctx}
  {α : Type} {L E : Mem → Prop}

theorem NoStore.post {s : Mem} (h : NoStore r s) : (orderProtocol cfg G W).post r q s :=
  fun _ => .inl h

/-- What request `r` knows of the row it loaded for `who`. -/
structure Held (r : Nat) (who : Actor) (o : CmallOrder) (s : Mem) : Prop where
  noStore : NoStore r s
  last : lastLoaded r o.id s.trace = some o
  loaded : LoadedBy r who o s.trace

theorem Held.calm {who : Actor} {o : CmallOrder} {s t : Mem} (h : Held r who o s)
    (hst : Calm r s t) : Held r who o t := by
  obtain ⟨rows, he, ho⟩ := h.loaded
  obtain ⟨es, hes, hown⟩ := hst.trace
  exact ⟨h.noStore.calm hst, hes ▸ (lastLoaded_append hown).trans h.last, rows, hst.sub _ he, ho⟩

/-- The parts that have nothing to do with orders and replies. -/
def calmParts : List Part :=
  [.heap, .conn, .codes, .uuids, .accounts, .users, .administrators, .apptokens, .merchants,
    .carts, .favs, .applys, .kvs, .sessions, .indexGoods, .loginEvents, .accountEvents]

theorem keeps_calm {s t : Mem} (hk : Keeps calmParts r s t) :
    OrderStep cfg G r q s t ∧ Calm r s t := by
  have hdb := hk.db.orders (by simp [calmParts])
  obtain ⟨es, hes, hown⟩ := hk.trace
  have huntracked : ∀ e ∈ es, e.tracked = false := by
    intro e he
    have hpart := (hown e he).2
    cases e <;> first | rfl | simp [calmParts, Event.part] at hpart
  have hreply : ∀ e ∈ es, e ≠ .replied r (.bool true) := by
    rintro e he rfl
    simpa [calmParts, Event.part] using (hown _ he).2
  refine ⟨.other hdb.1 hdb.2 hk.uuids_le ⟨es, hes, fun e he =>
    ⟨(hown e he).1, huntracked e he, fun heq => absurd heq (hreply e he)⟩⟩, ?_⟩
  exact ⟨⟨es, hes, fun e he _ => huntracked e he⟩, fun n hn => by rw [hdb.1]; exact hn, hk.uuids_le⟩

theorem triple_order_of_each {x : M α} (hx : x.Each (Keeps calmParts r))
    (hL : ∀ s t, Calm r s t → L s → L t) (hE : ∀ s, L s → E s) :
    (orderProtocol cfg G W).Triple r q L x (fun _ => L) E := by
  refine .conseq (.each hx (fun s t _ h => hL s t h) fun s t _ hl hk => ?_) (fun _ _ h => h)
    (fun _ _ _ h => h) fun s _ h => hE s h
  obtain ⟨hstep, hcalm⟩ := keeps_calm hk
  exact ⟨.single hstep, hL s t hcalm hl⟩

/-- An event that says nothing about the rows. -/
theorem triple_note {e : Event} (hr : e.req = r) (ht : e.tracked = false)
    (hreply : e ≠ .replied r (.bool true)) (hL : ∀ s t, Calm r s t → L s → L t) :
    (orderProtocol cfg G W).Triple r q L (emit e) (fun _ s => e ∈ s.trace ∧ L s) E := by
  refine .modify fun s _ hl => ⟨.single (.other rfl rfl (Nat.le_refl _) ⟨[e], rfl, ?_⟩),
    List.mem_cons_self .., hL _ _ (calm_cons fun _ => ht) hl⟩
  intro e' he'
  rw [List.mem_singleton.mp he']
  exact ⟨hr, ht, fun heq => absurd heq hreply⟩

/-! ## Loading and storing -/

/-- A transaction that loads some of the rows on behalf of `who`. `F` is what is
known of the result whatever the tables are. -/
theorem triple_loadOrders {β : Type} {F : β → Prop} (hr : ctx.req = r) (who : Actor) (f : Db → β)
    (rows : β → List CmallOrder) (spot : Spot) (hrows : ∀ db, ∀ v ∈ rows (f db), v ∈ db.orders)
    (hF : ∀ db, F (f db)) :
    (orderProtocol cfg G W).Triple r q (NoStore r)
      (tx ctx spot (fun _ s => (some (f s.db),
        { s with trace := .ordersLoaded ctx.req who (rows (f s.db)) :: s.trace })) fun _ => .back)
      (fun found s => F found ∧ NoStore r s ∧ ∀ o, rows found = [o] → Held r who o s)
      ((orderProtocol cfg G W).post r q) := by
  subst hr
  refine triple_tx (fun found s => F found ∧ NoStore ctx.req s ∧ ∀ o, rows found = [o] →
      Held ctx.req who o s) (fun s t _ hst h => h.calm hst) ?_ (fun s _ h => h.post) ?_
    fun found _ s _ h _ => h
  · exact fun found s t _ hst h => ⟨h.1, h.2.1.calm hst, fun o ho => (h.2.2 o ho).calm hst⟩
  · intro i s hi hno _
    refine ⟨.single (.load who _ (hrows s.db)), by simp, fun found hfound => ?_⟩
    cases hfound
    have hno' : NoStore ctx.req { s with
        trace := .ordersLoaded ctx.req who (rows (f s.db)) :: s.trace } := by
      intro c row he
      exact hno c row (by simpa using he)
    refine ⟨hF s.db, hno', fun o ho => ⟨hno', ?_, rows (f s.db), List.mem_cons_self .., ?_⟩⟩
    · simp [lastLoaded, ho, Table.find]
    · simp [ho]

/-- Exactly one row is found, and `who` sees it. -/
theorem loadOneOrder_order (hr : ctx.req = r) (who : Actor) (orderid : String) :
    (orderProtocol cfg G W).Triple r q (NoStore r) (loadOneOrder ctx who orderid)
      (fun o s => who.sees orderid o = true ∧ Held r who o s)
      ((orderProtocol cfg G W).post r q) := by
  refine .bind (triple_loadOrders (F := fun rows => ∀ o ∈ rows, who.sees orderid o = true) hr who
    (fun db => Table.query db.orders (who.sees orderid)) id .tx
    (fun db v hv => List.mem_of_mem_filter hv)
    (fun db o ho => (List.mem_filter.mp ho).2)) fun found => ?_
  split
  · exact .ret fun s _ h => ⟨h.1 _ (List.mem_cons_self ..), h.2.2 _ rfl⟩
  · exact .throw fun s _ h => h.2.1.post

theorem asyncLoadOrder_order (hr : ctx.req = r) (who : Actor) (p : CmallOrder → Bool)
    (spot : Spot) :
    (orderProtocol cfg G W).Triple r q (NoStore r) (asyncLoadOrder ctx who p spot)
      (fun found s => NoStore r s ∧ ∀ o, found = some o → p o = true ∧ Held r who o s)
      ((orderProtocol cfg G W).post r q) := by
  refine .conseq (triple_loadOrders (F := fun found => ∀ o, found = some o → p o = true) hr who
    (fun db => Table.queryOne db.orders p) Option.toList spot
    (fun db v hv => (Table.queryOne_some (Option.mem_toList.mp hv)).1)
    (fun db o ho => (Table.queryOne_some ho).2)) (fun _ _ h => h) ?_ fun _ _ h => h
  exact fun found s _ h => ⟨h.2.1, fun o ho => ⟨h.1 o ho, h.2.2 o (by rw [ho]; rfl)⟩⟩

/-- The whole row goes back, over the row that is there now. -/
theorem storeOrder_order (hr : ctx.req = r) (who : Actor) (c : OrderChange) (old : CmallOrder)
    (stamp : PTime → CmallOrder → CmallOrder) (hstamp : stamp = c.stamp) :
    (orderProtocol cfg G W).Triple r q
      (fun s => Held r who old s ∧ c.Cause r q old s.trace)
      (storeOrder ctx c (c.draft old) stamp)
      (fun _ s => StoredFor r old.oid (fun c' => c' = c) s.trace)
      ((orderProtocol cfg G W).post r q) := by
  subst hr hstamp
  refine triple_tx (fun _ s => StoredFor ctx.req old.oid (fun c' => c' = c) s.trace) ?_ ?_
    (fun s _ h => h.1.noStore.post) ?_ fun _ _ s _ h _ => h
  · exact fun s t _ hst h => ⟨h.1.calm hst, h.2.mono hst.sub⟩
  · exact fun _ s t _ hst h => h.mono hst.sub
  · intro i s hi h hg
    obtain ⟨cur, hcur, hident⟩ := hi.loaded _ _ _ h.1.loaded
    have hup : s.db.updateOrder (c.stamp s.clock (c.draft old)) = some { s.db with
        orders := Table.update CmallOrder.id s.db.orders (c.apply s.clock old) } := by
      have hfind : s.db.findOrder (c.stamp s.clock (c.draft old)).id = some cur :=
        (congrArg s.db.findOrder (c.apply_id s.clock old)).trans hcur
      simp [Db.updateOrder, hfind, OrderChange.apply]
    simp only [hup]
    refine ⟨.single (.store ctx i c old cur hg h.1.last h.2 hcur hident), by simp, fun _ _ => ?_⟩
    exact ⟨c, _, List.mem_cons_self .., c.apply_oid s.clock old, rfl⟩

theorem asyncUpdateOrder_order (hr : ctx.req = r) (who : Actor) (c : OrderChange)
    (old row : CmallOrder) (hrow : row = c.draft old)
    (hc : c.stamp = fun now o => { o with updatedAt := now }) :
    (orderProtocol cfg G W).Triple r q
      (fun s => Held r who old s ∧ c.Cause r q old s.trace) (asyncUpdateOrder ctx c row)
      (fun _ s => StoredFor r old.oid (fun c' => c' = c) s.trace)
      ((orderProtocol cfg G W).post r q) :=
  hrow ▸ storeOrder_order hr who c old _ hc.symm

/-! ## Settling an order -/

theorem orderMarkPayed_order (hr : ctx.req = r) (hq : q.method ≠ some .merchantAlterOrderPrice)
    (who : Actor) (order : CmallOrder) {seller : M Nat} (hseller : seller.Each (Keeps calmParts r)) :
    (orderProtocol cfg G W).Triple r q
      (fun s => Held r who order s ∧ ∀ t, (OrderChange.markPayed t).Cause r q order s.trace)
      (orderMarkPayed ctx order seller)
      (fun _ s => PayedFor r order.oid s.trace)
      ((orderProtocol cfg G W).post r q) := by
  have hE : ∀ s, PayedFor r order.oid s.trace → (orderProtocol cfg G W).post r q s :=
    fun s _ h => absurd h hq
  have hL : ∀ s t, Calm r s t → PayedFor r order.oid s.trace → PayedFor r order.oid t.trace :=
    fun s t hst h => h.mono hst.sub
  simp only [orderMarkPayed]
  refine .bind (triple_order_of_each localTime_each (fun s t hst h =>
    ⟨h.1.calm hst, fun t' => (h.2 t').mono hst.sub⟩) fun s h => h.1.noStore.post) fun now => ?_
  refine .bind (Q := fun _ s => PayedFor r order.oid s.trace) (.conseq (asyncUpdateOrder_order hr who
    (.markPayed now) order _ rfl rfl) (fun s _ h => ⟨h.1, h.2 now⟩) ?_ fun _ _ h => h) fun _ => ?_
  · rintro - s - ⟨c, row, he, hoid, hc⟩
    exact .inl ⟨c, row, he, hoid, now, hc⟩
  · refine .bind (triple_order_of_each hseller hL hE) fun merchantId => ?_
    refine .bind (triple_order_of_each each_get hL hE) fun m => ?_
    split
    · exact .ret fun _ _ h => h
    · refine .bind (triple_order_of_each (readRepo_each _ _ _) hL hE) fun content => ?_
      split
      · split
        · refine .bind (Q := fun _ s => PayedFor r order.oid s.trace) ?_ fun _ => .ret fun _ _ h => h
          exact .conseq (triple_note hr rfl (by simp) hL) (fun _ _ h => h) (fun _ _ _ h => h.2)
            fun _ _ h => h
        · exact .ret fun _ _ h => h
      · exact .ret fun _ _ h => h

theorem orderCheckPayment_order (hr : ctx.req = r) (who : Actor) (order : CmallOrder)
    (hq : q.method = some .orderCheckPayment ∨ q.method = some .merchantSoldOrdersCheckPayment)
    {seller : M Nat} (hseller : seller.Each (Keeps calmParts r)) :
    (orderProtocol cfg G W).Triple r q (Held r who order) (orderCheckPayment ctx order seller)
      (fun ok s => ok = true → PayedFor r order.oid s.trace)
      ((orderProtocol cfg G W).post r q) := by
  have hne : q.method ≠ some .merchantAlterOrderPrice := by
    rcases hq with hq | hq <;> simp [hq]
  have hL : ∀ s t, Calm r s t → Held r who order s → Held r who order t :=
    fun s t hst h => h.calm hst
  have hE : ∀ s, Held r who order s → (orderProtocol cfg G W).post r q s :=
    fun s h => h.noStore.post
  simp only [orderCheckPayment]
  refine .bind (triple_order_of_each hseller hL hE) fun merchantId => ?_
  refine .bind (triple_order_of_each (getMerchantGitRepo_each _) hL hE) fun repo => ?_
  refine .bind (triple_order_of_each (readRepo_each _ _ _) hL hE) fun content => ?_
  split
  · exact .throw fun s _ h => hE s h
  · refine .bind (triple_order_of_each external_each hL hE) fun out => ?_
    refine .bind (triple_note hr rfl (by simp) hL) fun _ => ?_
    split
    · rename_i hout
      subst hr
      refine .conseq (orderMarkPayed_order rfl hne who order hseller) ?_ (fun _ _ _ h _ => h)
        fun _ _ h => h
      exact fun s _ h => ⟨h.2, fun t => .inr ⟨hq, out, h.1, hout⟩⟩
    · exact .ret fun s _ _ h => by simp at h

/-! ## Requests of a merchant -/

/-- What a request may reply with: `true` only when it is done, and a price change
that does not fail replies `true`. -/
def Answers (cfg : Config) (r : Nat) (q : Request) (reply : Reply) (s : Mem) : Prop :=
  (reply = .bool true → q.Done cfg r s.trace) ∧
    (q.method = some .merchantAlterOrderPrice → reply = .bool true)

theorem loadSoldOrder_order (hr : ctx.req = r) (a : Nat) (params : JsonObject) :
    (orderProtocol cfg G W).Triple r q (NoStore r) (loadSoldOrder ctx a params)
      (fun o s => o.oid = Json.getString params "orderid" ∧ Held r (.seller o.seller) o s)
      ((orderProtocol cfg G W).post r q) := by
  refine .bind (triple_order_of_each (thisUser_each a) (fun s t hst h => h.calm hst)
    fun s h => h.post) fun u => ?_
  refine .conseq (loadOneOrder_order hr (.seller u.uid) _) (fun _ _ h => h) ?_ fun _ _ h => h
  intro o s _ h
  have hsees : o.oid = Json.getString params "orderid" ∧ o.seller = u.uid ∧ o.deletedAt = none := by
    simpa [Actor.sees] using h.1
  exact ⟨hsees.1, hsees.2.1 ▸ h.2⟩

theorem triple_newNumeric (params : JsonObject) (key : String) (hE : ∀ s, L s → E s) :
    (orderProtocol cfg G W).Triple r q L (newNumeric cfg (Json.getString params key))
      (fun x s => x = numericParam cfg params key ∧ L s) E := by
  unfold newNumeric
  split
  · rename_i hempty
    exact .ret fun s _ h => ⟨by simp [numericParam, hempty], h⟩
  · rename_i hne
    split
    · rename_i x hx
      exact .ret fun s _ h => ⟨by simp [numericParam, hne, hx], h⟩
    · exact .throw fun s _ h => hE s h

variable {conn a : Nat} {params : JsonObject}

theorem merchantAlterOrderPrice_order (hr : ctx.req = r) :
    (orderProtocol cfg G W).Triple r (.jsonrpc conn .merchantAlterOrderPrice params) (NoStore r)
      (merchantAlterOrderPrice cfg ctx a params)
      (Answers cfg r (.jsonrpc conn .merchantAlterOrderPrice params))
      ((orderProtocol cfg G W).post r (.jsonrpc conn .merchantAlterOrderPrice params)) := by
  refine .bind (loadSoldOrder_order hr a params) fun o => ?_
  refine .bind (triple_newNumeric params "new_price" fun s h => h.2.noStore.post) fun price => ?_
  refine .bind (triple_newNumeric params "new_kuaidifei" fun s h => h.2.2.noStore.post)
    fun kuaidifei => ?_
  refine .conseq (L := fun s => (price = numericParam cfg params "new_price" ∧
      kuaidifei = numericParam cfg params "new_kuaidifei" ∧
        o.oid = Json.getString params "orderid") ∧ Held r (.seller o.seller) o s)
    (.pure fun hpure => ?_) (fun s _ h => ⟨⟨h.2.1, h.1, h.2.2.1⟩, h.2.2.2⟩) (fun _ _ _ h => h)
    fun _ _ h => h
  obtain ⟨rfl, rfl, hoid⟩ := hpure
  refine .bind (.conseq (asyncUpdateOrder_order hr (.seller o.seller) (.alterPrice _ _) o _ rfl rfl)
    (fun s _ h => ⟨h, rfl, h.loaded⟩) (fun _ _ _ h => h) fun _ _ h => h) fun _ => ?_
  refine .ret fun s _ h => ⟨fun _ => ?_, fun _ => rfl⟩
  rw [hoid] at h
  exact h

theorem merchantSoldOrdersAddKuaidi_order (hr : ctx.req = r) :
    (orderProtocol cfg G W).Triple r (.jsonrpc conn .merchantSoldOrdersAddKuaidi params) (NoStore r)
      (merchantSoldOrdersAddKuaidi ctx a params)
      (Answers cfg r (.jsonrpc conn .merchantSoldOrdersAddKuaidi params))
      ((orderProtocol cfg G W).post r (.jsonrpc conn .merchantSoldOrdersAddKuaidi params)) := by
  refine .bind (loadSoldOrder_order hr a params) fun o => .pure fun hoid => ?_
  refine .bind (.conseq (asyncUpdateOrder_order hr (.seller o.seller) (.addKuaidi _) o _ rfl rfl)
    (fun s _ h => ⟨h, rfl, h.loaded⟩) (fun _ _ _ h => h) fun _ _ h => h) fun _ => ?_
  refine .ret fun s _ h => ⟨fun _ => ?_, fun hq => by simp [Request.method] at hq⟩
  rw [hoid] at h
  exact h

theorem merchantDeleteSoldOrders_order (hr : ctx.req = r) :
    (orderProtocol cfg G W).Triple r (.jsonrpc conn .merchantDeleteSoldOrders params) (NoStore r)
      (merchantDeleteSoldOrders ctx a params)
      (Answers cfg r (.jsonrpc conn .merchantDeleteSoldOrders params))
      ((orderProtocol cfg G W).post r (.jsonrpc conn .merchantDeleteSoldOrders params)) := by
  refine .bind (loadSoldOrder_order hr a params) fun o => .pure fun hoid => ?_
  refine .bind (triple_order_of_each localTime_each (fun s t hst h => h.calm hst)
    fun s h => h.noStore.post) fun now => ?_
  refine .bind (.conseq (storeOrder_order hr (.seller o.seller) (.delete now) o _ rfl)
    (fun s _ h => ⟨h, rfl, h.loaded⟩) (fun _ _ _ h => h) fun _ _ h => h) fun _ => ?_
  refine .ret fun s _ h => ⟨fun _ => ?_, fun hq => by simp [Request.method] at hq⟩
  obtain ⟨c, row, he, hrow, hc⟩ := h
  exact ⟨c, row, he, hrow.trans hoid, now, hc⟩

theorem thisMerchant_uid_each :
    (do return (← thisMerchant a).uid : M Nat).Each (Keeps calmParts r) :=
  Co.each_bind (thisMerchant_each a) fun _ => each_ret _

theorem merchantSoldOrdersMarkPayed_order (hr : ctx.req = r) :
    (orderProtocol cfg G W).Triple r (.jsonrpc conn .merchantSoldOrdersMarkPayed params) (NoStore r)
      (merchantSoldOrdersMarkPayed ctx a params)
      (Answers cfg r (.jsonrpc conn .merchantSoldOrdersMarkPayed params))
      ((orderProtocol cfg G W).post r (.jsonrpc conn .merchantSoldOrdersMarkPayed params)) := by
  refine .bind (loadSoldOrder_order hr a params) fun o => .pure fun hoid => ?_
  split
  · rename_i hpayed
    refine .ret fun s _ h => ⟨fun _ => ?_, fun hq => by simp [Request.method] at hq⟩
    exact .inr ⟨_, o, h.loaded, hoid, hpayed⟩
  · refine .bind (.conseq (orderMarkPayed_order hr (by simp [Request.method]) (.seller o.seller) o
      thisMerchant_uid_each) (fun s _ h => ⟨h, fun t => .inl ⟨rfl, h.loaded⟩⟩) (fun _ _ _ h => h)
      fun _ _ h => h) fun ok => ?_
    refine .ret fun s _ h => ⟨fun _ => ?_, fun hq => by simp [Request.method] at hq⟩
    rw [hoid] at h
    exact h

theorem merchantSoldOrdersCheckPayment_order (hr : ctx.req = r) :
    (orderProtocol cfg G W).Triple r (.jsonrpc conn .merchantSoldOrdersCheckPayment params)
      (NoStore r) (merchantSoldOrdersCheckPayment ctx a params)
      (Answers cfg r (.jsonrpc conn .merchantSoldOrdersCheckPayment params))
      ((orderProtocol cfg G W).post r (.jsonrpc conn .merchantSoldOrdersCheckPayment params)) := by
  refine .bind (loadSoldOrder_order hr a params) fun o => .pure fun hoid => ?_
  split
  · rename_i hpayed
    refine .ret fun s _ h => ⟨fun _ => ?_, fun hq => by simp [Request.method] at hq⟩
    exact .inr ⟨_, o, h.loaded, hoid, hpayed⟩
  · refine .bind (orderCheckPayment_order hr (.seller o.seller) o (.inr rfl)
      thisMerchant_uid_each) fun ok => ?_
    refine .ret fun s _ h => ⟨fun hok => ?_, fun hq => by simp [Request.method] at hq⟩
    cases hok
    rw [hoid] at h
    exact h rfl

/-! ## Requests of a buyer -/

theorem buyerCheckPayment_order (hr : ctx.req = r) :
    (orderProtocol cfg G W).Triple r (.jsonrpc conn .orderCheckPayment params) (NoStore r)
      (buyerCheckPayment ctx a params) (Answers cfg r (.jsonrpc conn .orderCheckPayment params))
      ((orderProtocol cfg G W).post r (.jsonrpc conn .orderCheckPayment params)) := by
  refine .bind (triple_order_of_each (thisUser_each a) (fun s t hst h => h.calm hst)
    fun s h => h.post) fun u => ?_
  refine .bind (loadOneOrder_order hr (.buyer u.uid) _) fun o => .pure fun hsees => ?_
  have hoid : o.oid = Json.getString params "orderid" := by
    have h : o.oid = Json.getString params "orderid" ∧ o.buyer = u.uid ∧ o.deletedAt = none := by
      simpa [Actor.sees] using hsees
    exact h.1
  split
  · rename_i hpayed
    refine .ret fun s _ h => ⟨fun _ => ?_, fun hq => by simp [Request.method] at hq⟩
    exact .inr ⟨_, o, h.loaded, hoid, hpayed⟩
  · refine .bind (triple_order_of_each (asyncLoad_each _ _) (fun s t hst h => h.calm hst)
      fun s h => h.noStore.post) fun m => ?_
    split
    · refine .bind (orderCheckPayment_order hr (.buyer u.uid) o (.inl rfl) (each_pure _))
        fun ok => ?_
      refine .ret fun s _ h => ⟨fun hok => ?_, fun hq => by simp [Request.method] at hq⟩
      cases hok
      rw [hoid] at h
      exact h rfl
    · exact .ret fun s _ _ => ⟨fun h => by simp at h, fun hq => by simp [Request.method] at hq⟩

theorem loadOrderToPay_order (hr : ctx.req = r) :
    (orderProtocol cfg G W).Triple r q (NoStore r) (loadOrderToPay ctx a params)
      (fun o s => o.oid = Json.getString params "orderid" ∧ Held r (.buyer o.buyer) o s)
      ((orderProtocol cfg G W).post r q) := by
  refine .bind (triple_order_of_each (thisUser_each a) (fun s t hst h => h.calm hst)
    fun s h => h.post) fun u => ?_
  refine .bind (asyncLoadOrder_order hr (.buyer u.uid) _ _) fun found => ?_
  split
  · rename_i o
    refine .ret fun s _ h => ?_
    obtain ⟨hp, hheld⟩ := h.2 o rfl
    have hmine : o.oid = Json.getString params "orderid" ∧ o.buyer = u.uid := by simpa using hp
    exact ⟨hmine.1, hmine.2 ▸ hheld⟩
  · exact .throw fun s _ h => h.1.post

/-- A request whose accesses after the load do not concern orders. -/
theorem triple_noStore_of_each {x : M α} (hx : x.Each (Keeps calmParts r)) :
    (orderProtocol cfg G W).Triple r q (NoStore r) x (fun _ => NoStore r)
      ((orderProtocol cfg G W).post r q) :=
  triple_order_of_each hx (fun s t hst h => h.calm hst) fun s h => h.post

theorem orderGetWxpayPrepayId_order (hr : ctx.req = r) :
    (orderProtocol cfg G W).Triple r q (NoStore r) (orderGetWxpayPrepayId cfg ctx a params)
      (fun _ => NoStore r) ((orderProtocol cfg G W).post r q) := by
  subst hr
  refine .bind (loadOrderToPay_order rfl) fun o => .pure fun hoid => ?_
  have hL : ∀ s t, Calm ctx.req s t → Held ctx.req (.buyer o.buyer) o s →
      Held ctx.req (.buyer o.buyer) o t := fun s t hst h => h.calm hst
  have hE : ∀ s, Held ctx.req (.buyer o.buyer) o s → (orderProtocol cfg G W).post ctx.req q s :=
    fun s h => h.noStore.post
  refine .bind (triple_order_of_each (orderMerchant_each o) hL hE) fun merchantId => ?_
  refine .bind (triple_order_of_each (asyncLoad_each _ _) hL hE) fun m => ?_
  split
  · exact .throw fun s _ h => hE s h
  · split
    · exact .throw fun s _ h => hE s h
    · split
      · exact .throw fun s _ h => hE s h
      · refine .bind (Q := fun i s => G ctx.req q ⟨ctx, .prepay o⟩ i s ∧
          Held ctx.req (.buyer o.buyer) o s)
          (.suspend (fun s t _ hst h => h.calm hst) fun i s _ h hg => ⟨hg, h⟩) fun i => ?_
        rw [← hoid]
        refine .bind (Q := fun _ => NoStore ctx.req) (.modify fun s _ h => ?_) fun _ => ?_
        · refine ⟨.single (.prepay ctx i o h.1 h.2.last), fun c row he => ?_⟩
          exact h.2.noStore c row (by simpa using he)
        · refine .bind (triple_noStore_of_each external_each) fun prepayId => ?_
          split
          · exact .throw fun s _ h => h.post
          · exact .ret fun _ _ h => h

/-! ## Creation -/

/-- What a draft of the order `oid` keeps from its beginning. -/
def OrderDraft.Unpayed (oid : String) (d : OrderDraft) : Prop :=
  d.order.oid = oid ∧ d.order.payedAt = none

theorem OrderDraft.Unpayed.push {oid : String} {d d' : OrderDraft} {merchantId : Nat}
    {options : List Json} {p : Product} (h : d.Unpayed oid)
    (hd : d.push cfg merchantId options p = .ok d') : d'.Unpayed oid := by
  simp only [OrderDraft.push, bind, Except.bind] at hd
  repeat' split at hd
  all_goals first
    | (cases hd; exact h)
    | cases hd

theorem orderGoodsList_order {oid : String} (goods : List Json) (d : OrderDraft)
    (hL : ∀ s t, Calm r s t → L s → L t) (hE : ∀ s, L s → E s) (hd : d.Unpayed oid) :
    (orderProtocol cfg G W).Triple r q L (orderGoodsList cfg ctx goods d)
      (fun d s => d.Unpayed oid ∧ L s) E := by
  induction goods generalizing d with
  | nil => exact .ret fun _ _ h => ⟨hd, h⟩
  | cons goods rest ih =>
    simp only [orderGoodsList]
    refine .bind (Q := fun (d : OrderDraft) s => d.Unpayed oid ∧ L s) ?_ fun d => .pure (ih d)
    simp only [orderGoods]
    refine .bind (triple_order_of_each (liftExcept_each _) hL hE) fun ref => ?_
    refine .bind (triple_order_of_each (liftExcept_each _) hL hE) fun merchantId => ?_
    refine .bind (triple_order_of_each (liftExcept_each _) hL hE) fun goodsId => ?_
    split
    all_goals
      refine .bind (Q := fun _ => L) (triple_order_of_each (by simp) hL hE) fun options => ?_
      refine .bind (triple_order_of_each (cachedMerchant_each _ _) hL hE) fun found => ?_
      split
      · exact .ret fun _ _ h => ⟨hd, h⟩
      · split
        · exact .ret fun _ _ h => ⟨hd, h⟩
        · refine .bind (triple_order_of_each (getProduct_each _ _ _) hL hE) fun p => ?_
          refine .conseq (triple_liftExcept fun s _ h => hE s h) (fun _ _ h => h) ?_ fun _ _ h => h
          exact fun d' s _ h => ⟨OrderDraft.Unpayed.push (by exact hd) h.1, h.2⟩

theorem orderCreate_order (hr : ctx.req = r) :
    (orderProtocol cfg G W).Triple r q (NoStore r) (orderCreate cfg ctx a params)
      (fun _ => NoStore r) ((orderProtocol cfg G W).post r q) := by
  subst hr
  simp only [orderCreate]
  refine .bind (triple_noStore_of_each (thisUser_each a)) fun u => ?_
  refine .bind (triple_noStore_of_each (reloadUser_each _ _ _ (by simp [calmParts]))) fun _ => ?_
  refine .bind (triple_noStore_of_each thisSession_each) fun b => ?_
  refine .bind (triple_noStore_of_each (thisUser_each b)) fun userInfo => ?_
  refine .bind (triple_noStore_of_each (liftExcept_each _)) fun goods => ?_
  refine .bind (triple_noStore_of_each (liftExcept_each _)) fun recipientId => ?_
  split
  · exact .throw fun s _ h => h.post
  · split
    · exact .throw fun s _ h => h.post
    · -- the uuid drawn here is nobody's oid until the row is inserted
      let Own (oid : String) (s : Mem) : Prop := NoStore ctx.req s ∧
        ∃ n, oid = uuidOf ctx.req n ∧ n < s.uuids ∧ ∀ o ∈ s.db.orders, o.oid ≠ uuidOf ctx.req n
      have hL : ∀ oid s t, Calm ctx.req s t → Own oid s → Own oid t := by
        rintro oid s t hst ⟨hno, n, hoid, hn, hfresh⟩
        exact ⟨hno.calm hst, n, hoid, Nat.lt_of_lt_of_le hn hst.uuids, hst.oids n hfresh⟩
      have hE : ∀ oid s, Own oid s → (orderProtocol cfg G W).post ctx.req q s :=
        fun _ s h => h.1.post
      refine .bind (Q := Own) (.modifyGet fun s hi hno => ?_) fun oid => ?_
      · have hk : Keeps calmParts ctx.req s { s with uuids := s.uuids + 1 } :=
          { Keeps.refl _ _ s with
            uuids := fun hK => absurd (by simp [calmParts]) hK, uuids_le := Nat.le_succ _ }
        obtain ⟨hstep, hcalm⟩ := keeps_calm hk
        refine ⟨.single hstep, hno.calm hcalm, s.uuids, rfl, Nat.lt_succ_self _, fun o ho heq => ?_⟩
        exact Nat.lt_irrefl _ (hi.oids o ho _ _ heq)
      · refine .bind (triple_order_of_each localTime_each (hL oid) (hE oid)) fun now => ?_
        refine .bind (orderGoodsList_order goods _ (hL oid) (hE oid) ⟨rfl, rfl⟩) fun d => ?_
        refine .pure fun hd => ?_
        refine .bind (Q := fun _ => NoStore ctx.req) (triple_tx (fun _ => NoStore ctx.req)
          (fun s t _ hst h => hL oid s t hst h) (fun _ s t _ hst h => h.calm hst)
          (fun s _ h => h.1.post) ?_ fun _ _ s _ h _ => h) fun _ => .ret fun _ _ h => h
        rintro i s hi ⟨hno, n, hoid, hn, hfresh⟩ -
        refine ⟨.single (.persist _ n (hd.1.trans hoid) hn ?_ hd.2), by simp, fun _ _ => hno⟩
        exact fun o ho heq => hfresh o ho (heq.trans (hd.1.trans hoid))

/-! ## Programs -/

theorem wxDirectPay_order (hr : ctx.req = r) :
    (orderProtocol cfg G W).Triple r q (NoStore r)
      (handleJsonrpcMiscApi cfg ctx .wxDirectPay params)
      (fun _ => NoStore r) ((orderProtocol cfg G W).post r q) := by
  subst hr
  simp only [handleJsonrpcMiscApi]
  repeat' first
    | with_reducible refine .bind (Q := fun _ => NoStore ctx.req) ?_ fun _ => ?_
    | (refine .conseq (triple_note rfl rfl (by simp) fun s t hst h => h.calm hst) (fun _ _ h => h)
        (fun _ _ _ h => h.2) fun _ _ h => h; done)
    | (refine triple_noStore_of_each ?_; simp [calmParts]; done)
    | split

theorem orderGetPaymethods_order (hr : ctx.req = r) :
    (orderProtocol cfg G W).Triple r q (NoStore r) (orderGetPaymethods ctx a params)
      (fun _ => NoStore r) ((orderProtocol cfg G W).post r q) := by
  refine .bind (Q := fun _ => NoStore r) (.conseq (loadOrderToPay_order hr) (fun _ _ h => h)
    (fun _ _ _ h => h.2.noStore) fun _ _ h => h) fun o => ?_
  refine triple_noStore_of_each ?_
  repeat' first
    | with_reducible refine Co.each_bind ?_ fun _ => ?_
    | simp; done
    | split

theorem orderGetPayUrl_order (hr : ctx.req = r) :
    (orderProtocol cfg G W).Triple r q (NoStore r) (orderGetPayUrl ctx a params)
      (fun _ => NoStore r) ((orderProtocol cfg G W).post r q) := by
  subst hr
  refine .bind (Q := fun _ => NoStore ctx.req) (.conseq (loadOrderToPay_order rfl) (fun _ _ h => h)
    (fun _ _ _ h => h.2.noStore) fun _ _ h => h) fun o => ?_
  repeat' first
    | with_reducible refine .bind (Q := fun _ => NoStore ctx.req) ?_ fun _ => ?_
    | (refine .conseq (triple_note rfl rfl (by simp) fun s t hst h => h.calm hst) (fun _ _ h => h)
        (fun _ _ _ h => h.2) fun _ _ h => h; done)
    | (refine triple_noStore_of_each ?_; simp; done)
    | split

/-- The requests `Done` and the price changes say nothing about. -/
theorem answers_of_noStore {q : Request} (hdone : ∀ tr, q.Done cfg r tr)
    (hq : q.method ≠ some .merchantAlterOrderPrice) {x : M Reply}
    (h : (orderProtocol cfg G W).Triple r q (NoStore r) x (fun _ => NoStore r)
      ((orderProtocol cfg G W).post r q)) :
    (orderProtocol cfg G W).Triple r q (NoStore r) x (Answers cfg r q)
      ((orderProtocol cfg G W).post r q) :=
  .conseq h (fun _ _ h => h) (fun _ s _ _ => ⟨fun _ => hdone s.trace, fun h => absurd h hq⟩)
    fun _ _ h => h

/-- The methods whose footprint has orders or their events in it. -/
theorem handlerOf_order {method : ReqMethod}
    (hm : .orders ∈ method.footprint ∨ .orderEvents ∈ method.footprint) :
    (orderProtocol cfg G W).Triple r (.jsonrpc conn method params) (NoStore r)
      (handlerOf cfg ⟨conn, r⟩ method params) (Answers cfg r (.jsonrpc conn method params))
      ((orderProtocol cfg G W).post r (.jsonrpc conn method params)) := by
  have hctx : (⟨conn, r⟩ : Ctx).req = r := rfl
  have hsession : ∀ {β : Type} {g : Nat → M β} {q : Request} {Q : β → Mem → Prop},
      (∀ a, (orderProtocol cfg G W).Triple r q (NoStore r) (g a) Q
        ((orderProtocol cfg G W).post r q)) →
      (orderProtocol cfg G W).Triple r q (NoStore r) (thisSession ⟨conn, r⟩ >>= g) Q
        ((orderProtocol cfg G W).post r q) :=
    fun h => .bind (triple_noStore_of_each thisSession_each) h
  have hentry : ∀ {β : Type} {g : Nat → M β} {q : Request} {Q : β → Mem → Prop},
      (∀ a, (orderProtocol cfg G W).Triple r q (NoStore r) (g a) Q
        ((orderProtocol cfg G W).post r q)) →
      (orderProtocol cfg G W).Triple r q (NoStore r) (merchantEntry ⟨conn, r⟩ >>= g) Q
        ((orderProtocol cfg G W).post r q) :=
    fun h => .bind (triple_noStore_of_each merchantEntry_each) h
  cases method <;> first | (simp [ReqMethod.footprint] at hm; done) | skip
  all_goals simp only [handlerOf, ReqMethod.api, handleJsonrpcOrderApi, handleJsonrpcMerchantApi]
  case merchantAlterOrderPrice => exact hentry fun _ => merchantAlterOrderPrice_order hctx
  case merchantSoldOrdersAddKuaidi => exact hentry fun _ => merchantSoldOrdersAddKuaidi_order hctx
  case merchantDeleteSoldOrders => exact hentry fun _ => merchantDeleteSoldOrders_order hctx
  case merchantSoldOrdersMarkPayed => exact hentry fun _ => merchantSoldOrdersMarkPayed_order hctx
  case merchantSoldOrdersCheckPayment =>
    exact hentry fun _ => merchantSoldOrdersCheckPayment_order hctx
  case orderCheckPayment => exact hsession fun _ => buyerCheckPayment_order hctx
  all_goals refine answers_of_noStore (by intro tr; trivial) (by simp [Request.method]) ?_
  case wxDirectPay => exact wxDirectPay_order hctx
  case orderCreateCart => exact hsession fun _ => orderCreate_order hctx
  case orderCreateDirect => exact hsession fun _ => orderCreate_order hctx
  case orderGetPaymethods => exact hsession fun _ => orderGetPaymethods_order hctx
  case orderGetPayUrl => exact hsession fun _ => orderGetPayUrl_order hctx
  case orderGetWxpayPrepayId => exact hsession fun _ => orderGetWxpayPrepayId_order hctx
  case orderDetail =>
    refine hsession fun a => .bind (triple_noStore_of_each (thisUser_each a)) fun u => ?_
    exact .bind (loadOneOrder_order hctx _ _) fun o => .ret fun _ _ h => h.2.noStore
  case merchantGetSoldOrderDetail =>
    exact hentry fun a => .bind (loadSoldOrder_order hctx a params) fun o =>
      .ret fun _ _ h => h.2.noStore

theorem handleOrderWxCallback_order (hr : ctx.req = r) (msg : NotifyMessage) :
    (orderProtocol cfg G W).Triple r (.wxCallback msg) (NoStore r)
      (handleOrderWxCallback ctx msg) (Answers cfg r (.wxCallback msg))
      ((orderProtocol cfg G W).post r (.wxCallback msg)) := by
  have hanswer : ∀ s, Answers cfg r (.wxCallback msg) (.bool false) s :=
    fun s => ⟨fun h => by simp at h, fun h => by simp [Request.method] at h⟩
  refine .bind (asyncLoadOrder_order hr .wechat _ _) fun found => ?_
  split
  · rename_i o
    refine .conseq (L := fun s => o.oid = msg.outTradeNo ∧ Held r .wechat o s)
      (.pure fun hoid => ?_) (fun s _ h => ⟨by simpa [Actor.sees] using (h.2 o rfl).1,
        (h.2 o rfl).2⟩) (fun _ _ _ h => h) fun _ _ h => h
    split
    · rename_i hsuccess
      refine .bind (.conseq (asyncUpdateOrder_order hr .wechat (.wxPayed msg.successTime) o _ rfl rfl)
        (fun s _ h => ⟨h, msg, rfl, hsuccess, hoid.symm, rfl⟩) (fun _ _ _ h => h)
        fun _ _ h => h) fun _ => ?_
      refine .ret fun s _ h => ⟨fun _ => ?_, fun h => by simp [Request.method] at h⟩
      rw [hoid] at h
      exact h
    · exact .ret fun s _ _ => hanswer s
  · exact .ret fun s _ _ => hanswer s

/-- The reply says what was done. -/
theorem triple_replied (reply : Reply) :
    (orderProtocol cfg G W).Triple r q (Answers cfg r q reply) (emit (.replied r reply))
      (fun _ => (orderProtocol cfg G W).post r q) E := by
  refine .modify fun s _ h => ⟨.single (.other rfl rfl (Nat.le_refl _) ⟨[_], rfl, ?_⟩), ?_⟩
  · intro e he
    rw [List.mem_singleton.mp he]
    exact ⟨rfl, rfl, fun heq => h.1 (by simpa using heq)⟩
  · exact fun hq => .inr (by rw [h.2 hq]; exact List.mem_cons_self ..)

end Handlers

theorem Request.done_of_footprint {cfg : Config} {r : Nat} {q : Request} {tr : List Event}
    (h : .orders ∉ q.footprint) : q.Done cfg r tr := by
  unfold Request.Done
  split
  all_goals first
    | trivial
    | simp [Request.footprint, ReqMethod.footprint] at h

/-- Every program of the service only makes `OrderStep`s. -/
theorem programs_order (cfg : Config) (G : Guard) (W : Request → Mem → Prop) :
    (orderProtocol cfg G W).Programs (prog cfg) := by
  intro r q m _ hfresh _
  have hno : NoStore r m := fun c row he => hfresh _ he rfl
  by_cases hq : .orders ∈ q.footprint ∨ .orderEvents ∈ q.footprint
  · cases q with
    | jsonrpc conn method params =>
      have hm : .orders ∈ method.footprint ∨ .orderEvents ∈ method.footprint := by
        simpa [Request.footprint] using hq
      refine Triple.suspended (L := NoStore r) (fun s t _ hst h => h.calm hst) hno
        (fun _ _ _ h _ => h) fun _ => ?_
      refine .bind (triple_handleJsonrpcCall (fun s _ h => h.post) (handlerOf_order hm))
        fun reply => triple_replied reply
    | wxCallback msg =>
      refine Triple.suspended (L := NoStore r) (fun s t _ hst h => h.calm hst) hno
        (fun _ _ _ h _ => h) fun _ => ?_
      have hctx : (⟨0, r⟩ : Ctx).req = r := rfl
      exact .bind (handleOrderWxCallback_order hctx msg) fun reply => triple_replied reply
    | _ => simp [Request.footprint] at hq
  · rw [not_or] at hq
    refine prog_suspended_of_keeps (fun s t _ hk => ?_) fun s hmethod => ?_
    · obtain ⟨es, hes, hown⟩ := hk.trace
      have hdb := hk.db.orders hq.1
      refine .single (.other hdb.1 hdb.2 hk.uuids_le ⟨es, hes, fun e he => ?_⟩)
      refine ⟨(hown e he).1, ?_, fun _ => Request.done_of_footprint hq.1⟩
      have hpart : e.part ≠ .orderEvents := fun h => hq.2 (h ▸ (hown e he).2)
      cases e <;> first | rfl | exact absurd rfl hpart
    · cases q with
      | jsonrpc conn method params =>
        cases (Option.some.inj hmethod : method = .merchantAlterOrderPrice)
        simp [Request.footprint, ReqMethod.footprint] at hq
      | _ => simp [Request.method] at hmethod

/-! ## Runs -/

/-- A memory in which nothing has been observed yet. -/
structure FreshStart (m : Mem) : Prop where
  trace : m.trace = []
  /-- The ids are a primary key filled from a sequence. -/
  nodup : (m.db.orders.map CmallOrder.id).Nodup
  seq : ∀ o ∈ m.db.orders, o.id ≤ m.db.seq.order
  /-- The uuids still to be drawn are new. -/
  oids : ∀ o ∈ m.db.orders, ∀ r n, o.oid = uuidOf r n → n < m.uuids

theorem FreshStart.good {m : Mem} (h : FreshStart m) (cfg : Config) (G : Guard)
    (W : Request → Mem → Prop) : (orderProtocol cfg G W).Good (Sys.idle m : Service) := by
  refine good_idle ⟨h.nodup, h.seq, h.oids, fun r who v hv => ?_⟩ fun r e he => ?_
  · obtain ⟨rows, he, -⟩ := hv
    simp [h.trace] at he
  · simp [h.trace] at he

/-- What every step keeps, the steps of one segment keep. -/
theorem order_steps {cfg : Config} {G : Guard} {r : Nat} {q : Request} {s t : Mem} {J : Mem → Prop}
    (h : Relation.ReflTransGen (OrderStep cfg G r q) s t) (hi : OrderInv s)
    (hstep : ∀ s t, OrderInv s → OrderStep cfg G r q s t → J s → J t) (hJ : J s) :
    OrderInv t ∧ J t := by
  induction h with
  | refl => exact ⟨hi, hJ⟩
  | tail _ hst ih => exact ⟨hst.inv ih.1, hstep _ _ ih.1 hst ih.2⟩

/-- What every permitted start and every step keeps holds in every state of an
admissible run. -/
theorem order_run {cfg : Config} {G : Guard} {W : Request → Mem → Prop} {m : Mem}
    {ls : List (Label Request Input)} {J : List Request → Mem → Prop} (hm : FreshStart m)
    (hls : (orderProtocol cfg G W).Admissible (prog cfg) (Sys.idle m) ls)
    (hspawn : ∀ qs s q, W q s → J qs s → J (qs ++ [q]) s)
    (hstep : ∀ qs s t r q, OrderInv s → qs[r]? = some q → OrderStep cfg G r q s t →
      J qs s → J qs t) (hJ : J [] m) :
    let s := (Sys.idle m : Service).run (prog cfg) ls
    OrderInv s.mem ∧ J s.reqs s.mem := by
  have hprog := programs_order cfg G W
  have hgood := hm.good cfg G W
  refine ⟨(run_good hprog hgood hls).inv, run_view hprog hgood hls hspawn ?_ hJ⟩
  intro qs s t r q hi hq hsteps hJ
  exact (order_steps hsteps hi (fun s t hi hst => hstep qs s t r q hi hq hst) hJ).2

end Cmall
