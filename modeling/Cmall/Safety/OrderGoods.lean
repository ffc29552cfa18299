import Cmall.Footprint.Throws
import Cmall.Footprint.Triples
import Cmall.Safety.OneAccount

/-!
Orders have goods, and they are goods of their seller.

The loop of `order_create` skips the items whose merchant it does not find in state
normal, and nothing is said about an order that is left without goods, so the requests
that pay an order can index an empty vector. The condition is that each request has an
item whose merchant it finds in state normal; then every order has goods, all of one
merchant, and the requests that pay one always find the first of them.
-/

namespace Cmall
open Coroutine Protocol

/-! ## Items of a goods array -/

/-- What the loop reads from an item of the goods array. -/
structure GoodsItem where
  merchantId : Nat
  goodsId : String
  options : List Json

def goodsItem (goods : Json) : Except Exn GoodsItem := do
  let goodsRef ← goods.asObject
  let merchantId ← (Json.sub goodsRef "merchant_id").asInt64
  let goodsId ← (Json.sub goodsRef "goods_id").asString
  let options ← match Json.at? goodsRef "options" with
    | some v => v.asArray
    | none => pure []
  return ⟨toUint64 merchantId, goodsId, options⟩

/-- The loop body on an item that was read. -/
def orderItem (cfg : Config) (ctx : Ctx) (d : OrderDraft) (item : GoodsItem) : M OrderDraft := do
  match ← cachedMerchant ctx d.cache item.merchantId with
  | none => return d
  | some (m, cache) =>
    let d := { d with cache := cache }
    if m.state ≠ .normal then return d
    else
      let p ← getProduct ctx item.merchantId item.goodsId m.name
      liftExcept (d.push cfg item.merchantId item.options p)

theorem orderGoods_eq (cfg : Config) (ctx : Ctx) (d : OrderDraft) (goods : Json) :
    orderGoods cfg ctx d goods =
      (liftExcept (goodsItem goods) >>= fun item => orderItem cfg ctx d item) := by
  simp only [orderGoods, goodsItem]
  cases goods.asObject with
  | error e => rfl
  | ok goodsRef =>
    cases hm : (Json.sub goodsRef "merchant_id").asInt64 with
    | error e => simp [liftExcept, bind, Except.bind, Co.bind, hm]
    | ok merchantId =>
      cases hg : (Json.sub goodsRef "goods_id").asString with
      | error e => simp [liftExcept, bind, Except.bind, Co.bind, hm, hg]
      | ok goodsId =>
        cases ho : Json.at? goodsRef "options" with
        | none =>
          simp only [liftExcept, bind, Except.bind, Co.bind, hm, hg, ho]
          rfl
        | some v =>
          cases hv : v.asArray with
          | error e => simp [liftExcept, bind, Except.bind, Co.bind, hm, hg, ho, hv]
          | ok options =>
            simp only [liftExcept, bind, Except.bind, Co.bind, hm, hg, ho, hv]
            rfl

/-- The items of a request that creates an order, if they can all be read. -/
def Request.items : Request → Option (List GoodsItem)
  | .jsonrpc _ method params =>
    if method = .orderCreateCart ∨ method = .orderCreateDirect then
      match (Json.get params "goods" (.array [])).asArray with
      | .ok goods => (goods.mapM goodsItem).toOption
      | .error _ => none
    else none
  | _ => none

/-- The merchant of item `n`. -/
def Request.merchantOf (q : Request) (n : Nat) : Option Nat :=
  (q.items.bind fun items => items[n]?).map GoodsItem.merchantId

/-! ## The protocol -/

/-- The order has goods, and all of them are goods of its seller. -/
structure CmallOrder.HasGoods (o : CmallOrder) : Prop where
  some : o.boughtGoods ≠ []
  seller : ∀ g ∈ o.boughtGoods, g.merchantId = o.seller

/-- Every order has goods; uids come from a sequence that starts at 1. -/
structure Db.GoodsOk (db : Db) : Prop where
  orders : ∀ o ∈ db.orders, o.HasGoods
  users : ∀ u ∈ db.users, 0 < u.uid
  merchants : ∀ m ∈ db.merchants, 0 < m.uid

/-- Request `r` has an item number `keep r`, and whenever it looks the merchant of that
item up it finds it in state normal. -/
def keepsItem (keep : Nat → Nat) (r : Nat) (q : Request) (spot : Spot) : Bool :=
  match spot with
  | .start _ => q.items.all fun items => keep r < items.length
  | .foundMerchant merchantId found =>
    q.merchantOf (keep r) = some merchantId → found.any fun m => m.state = .normal
  | _ => true

def goodsProtocol (keep : Nat → Nat) : Protocol Request Mem Input Point where
  inv s := s.db.GoodsOk
  rely _ _ _ _ := True
  guar _ _ s t := s.db.GoodsOk → t.db.GoodsOk
  guard r q p _ _ := keepsItem keep r q p.spot = true
  permit _ _ := True
  rely_refl _ _ _ := trivial
  rely_trans _ _ _ _ _ _ _ := trivial
  guar_refl _ _ _ h := h
  guar_trans _ _ _ _ _ h h' hi := h' (h hi)
  guar_inv _ _ _ _ hi h := h hi
  guar_rely _ _ _ _ _ _ _ _ _ := trivial

instance (keep : Nat → Nat) (r : Nat) (q : Request) (p : Point) (i : Input) (s : Mem) :
    Decidable ((goodsProtocol keep).guard r q p i s) :=
  inferInstanceAs (Decidable (keepsItem keep r q p.spot = true))

instance (keep : Nat → Nat) (q : Request) (s : Mem) : Decidable ((goodsProtocol keep).permit q s) :=
  .isTrue trivial

/-! ## Tables -/

section Db

variable {db db' : Db}

theorem Db.GoodsOk.of_users (h : db.GoodsOk)
    (hu : db'.users.map CmallUser.account = db.users.map CmallUser.account)
    (ho : db'.orders = db.orders) (hm : db'.merchants = db.merchants) : db'.GoodsOk := by
  refine ⟨ho ▸ h.orders, fun u hu' => ?_, hm ▸ h.merchants⟩
  have hacc : u.account ∈ db.users.map CmallUser.account := hu ▸ List.mem_map_of_mem hu'
  obtain ⟨v, hv, heq⟩ := List.mem_map.mp hacc
  have huid : v.uid = u.uid := congrArg Prod.fst heq
  exact huid ▸ h.users v hv

theorem Db.GoodsOk.persistUser (h : db.GoodsOk) (u : CmallUser) : (db.persistUser u).2.GoodsOk := by
  refine ⟨h.orders, fun v hv => ?_, h.merchants⟩
  rcases List.mem_append.mp hv with hv | hv
  · exact h.users v hv
  · rw [List.mem_singleton.mp hv]
    exact Nat.succ_pos _

theorem Db.GoodsOk.setMerchants {t : List CmallMerchant} (h : db.GoodsOk)
    (ht : ∀ m ∈ t, ∃ m' ∈ db.merchants, m'.uid = m.uid) : { db with merchants := t }.GoodsOk := by
  refine ⟨h.orders, h.users, fun m hm => ?_⟩
  obtain ⟨m', hm', huid⟩ := ht m hm
  exact huid ▸ h.merchants m' hm'

theorem Db.GoodsOk.updateMerchantRow {row old : CmallMerchant} (h : db.GoodsOk)
    (hold : db.findMerchant row.uid = some old) :
    { db with merchants := Table.update CmallMerchant.uid db.merchants row }.GoodsOk := by
  refine h.setMerchants fun m hm => ?_
  rcases Table.mem_update hm with rfl | hm
  · exact ⟨old, Table.mem_of_find hold, Db.findMerchant_uid hold⟩
  · exact ⟨m, hm, rfl⟩

theorem Db.GoodsOk.updateMerchant {uid : Nat} {now : PTime} {f : CmallMerchant → CmallMerchant}
    (h : db.GoodsOk) (hf : ∀ m, (f m).uid = m.uid) : (db.updateMerchant uid now f).2.GoodsOk := by
  unfold Db.updateMerchant
  split
  · rename_i old hold
    have huid : (f old).uid = uid := (hf old).trans (Db.findMerchant_uid hold)
    have hrow : db.findMerchant (f old).uid = some old := huid.symm ▸ hold
    exact h.updateMerchantRow hrow
  · exact h

theorem Db.GoodsOk.storeMerchant {m : CmallMerchant} {now : PTime} {x : Unit} (h : db.GoodsOk)
    (hs : db.storeMerchant m now = some (x, db')) : db'.GoodsOk := by
  unfold Db.storeMerchant at hs
  split at hs
  · rename_i old hold
    cases hs
    exact h.updateMerchantRow hold
  · cases hs

theorem Db.GoodsOk.setMerchantStates {mids : List Nat} {state : MerchantState} {now : PTime}
    (h : db.GoodsOk) : (db.setMerchantStates mids state now).GoodsOk := by
  refine h.setMerchants fun m hm => ?_
  obtain ⟨m', hm', rfl⟩ := List.mem_map.mp hm
  refine ⟨m', hm', ?_⟩
  split <;> rfl

theorem Db.GoodsOk.approveMerchant {x : CmallApplyForMechant} {u : CmallUser} {password : String}
    {now : PTime} {m : CmallMerchant} (h : db.GoodsOk) (hu : 0 < u.uid)
    (ha : db.approveMerchant x u password now = some (m, db')) : db'.GoodsOk := by
  unfold Db.approveMerchant at ha
  split at ha
  · cases ha
    refine ⟨h.orders, h.users, fun m' hm' => ?_⟩
    rcases List.mem_append.mp hm' with hm' | hm'
    · exact h.merchants m' hm'
    · rw [List.mem_singleton.mp hm']
      exact hu
  · cases ha

theorem Db.GoodsOk.persistOrder {order : CmallOrder} (h : db.GoodsOk) (ho : order.HasGoods) :
    (db.persistOrder order).GoodsOk := by
  refine ⟨fun o hmem => ?_, h.users, h.merchants⟩
  rcases List.mem_append.mp hmem with hmem | hmem
  · exact h.orders o hmem
  · rw [List.mem_singleton.mp hmem]
    exact ⟨ho.some, ho.seller⟩

theorem Db.GoodsOk.updateOrder {row : CmallOrder} (h : db.GoodsOk) (hrow : row.HasGoods)
    (hu : db.updateOrder row = some db') : db'.GoodsOk := by
  unfold Db.updateOrder at hu
  split at hu
  · cases hu
    refine ⟨fun o ho => ?_, h.users, h.merchants⟩
    rcases Table.mem_update ho with rfl | ho
    · exact hrow
    · exact h.orders o ho
  · cases hu

end Db

section Handlers

variable {keep : Nat → Nat} {r : Nat} {q : Request} {ctx : Ctx} {cfg : Config} {α : Type}
  {L : Mem → Prop}

/-- The parts that are neither orders nor merchants nor the uids of users. -/
def offGoods : List Part :=
  [.heap, .conn, .codes, .uuids, .users, .administrators, .apptokens, .carts, .favs, .applys, .kvs,
    .sessions, .indexGoods, .repos, .loginEvents, .accountEvents, .sudoEvents, .orderEvents,
    .cartEvents, .otherEvents]

theorem goodsOk_of_keeps {K : List Part} {s t : Mem} (h : s.db.GoodsOk) (hk : Keeps K r s t)
    (ha : .accounts ∉ K) (ho : .orders ∉ K) (hm : .merchants ∉ K) : t.db.GoodsOk :=
  h.of_users (hk.db.accounts ha) (hk.db.orders ho).1 (hk.db.merchants hm)

/-- The coroutine keeps to the protocol, whatever holds before and after. -/
def GoodsSafe (keep : Nat → Nat) (r : Nat) (q : Request) (x : M α) : Prop :=
  (goodsProtocol keep).Triple r q (fun _ => True) x (fun _ _ => True) (fun _ => True)

theorem GoodsSafe.bind {β : Type} {x : M α} {g : α → M β} (hx : GoodsSafe keep r q x)
    (hg : ∀ a, GoodsSafe keep r q (g a)) : GoodsSafe keep r q (x >>= g) :=
  Triple.bind hx hg

theorem goodsSafe_of_each {x : M α} (hx : x.Each (Keeps offGoods r)) : GoodsSafe keep r q x :=
  .each hx stable_true fun _ _ _ _ hk =>
    ⟨fun hi => goodsOk_of_keeps hi hk (by simp [offGoods]) (by simp [offGoods])
      (by simp [offGoods]), trivial⟩

/-- A fact about the result and nothing else. -/
theorem GoodsSafe.pure_bind {β : Type} {p : α → Prop} {x : M α} {g : α → M β}
    (hx : (goodsProtocol keep).Triple r q (fun _ => True) x (fun a _ => p a) (fun _ => True))
    (hg : ∀ a, p a → GoodsSafe keep r q (g a)) : GoodsSafe keep r q (x >>= g) := by
  refine Triple.bind hx fun a => ?_
  exact .conseq (Triple.pure (L := fun _ => True) (hg a)) (fun _ _ h => ⟨h, trivial⟩)
    (fun _ _ _ h => h) fun _ _ h => h

theorem asyncWrite_goods {f : Mem → Option (α × Db)} {spot : Spot} {after : α → Spot}
    (hf : ∀ s x db, s.db.GoodsOk → f s = some (x, db) → db.GoodsOk) :
    GoodsSafe keep r q (asyncWrite ctx f spot after) := by
  refine triple_tx (fun _ _ => True) stable_true (fun _ => stable_true) (fun _ _ _ => trivial) ?_
    fun _ _ _ _ _ _ => trivial
  intro i s _ _ _
  refine ⟨fun hi => ?_, fun _ => trivial, fun _ _ => trivial⟩
  cases hfs : f s with
  | none => exact hi
  | some p => exact hf s p.1 p.2 hi hfs

/-! ## Users and merchants -/

theorem addUser_goods (u : CmallUser) : GoodsSafe keep r q (addUser ctx u) := by
  refine triple_tx (fun _ _ => True) stable_true (fun _ => stable_true) (fun _ _ _ => trivial) ?_
    fun _ _ _ _ _ _ => trivial
  exact fun i s _ _ _ => ⟨fun hi => hi.persistUser u, fun _ => trivial, fun _ _ => trivial⟩

theorem handleUserLogin_goods (hr : ctx.req = r) (a : Nat) (tel : String) :
    GoodsSafe keep r q (handleUserLogin ctx a tel) := by
  subst hr
  simp only [handleUserLogin, loginNewUser]
  repeat' first
    | with_reducible exact addUser_goods _
    | with_reducible refine .bind ?_ fun _ => ?_
    | (refine goodsSafe_of_each ?_; simp [offGoods]; done)
    | exact goodsSafe_of_each (emit_each (by simp [offGoods, Event.part]) rfl)
    | split

theorem updateMerchant_goods {uid : Nat} {f : CmallMerchant → CmallMerchant}
    (hf : ∀ m, (f m).uid = m.uid) :
    GoodsSafe keep r q (asyncWrite ctx fun s => some (s.db.updateMerchant uid s.clock f)) := by
  refine asyncWrite_goods fun s x db hi hdb => ?_
  have hdb' : (s.db.updateMerchant uid s.clock f).2 = db := congrArg Prod.snd (Option.some.inj hdb)
  exact hdb' ▸ hi.updateMerchant hf

/-- The user of the application has a uid when it is selected. -/
theorem approveTransaction_goods (applyId : Nat) :
    GoodsSafe keep r q (approveTransaction ctx applyId) := by
  have hload : (goodsProtocol keep).Triple r q (fun _ => True)
      (asyncLoad ctx fun db => db.findApply applyId)
      (fun found _ => ∀ x u, found = some (x, some u) → 0 < u.uid) (fun _ => True) := by
    refine triple_asyncLoad (fun found _ => ∀ x u, found = some (x, some u) → 0 < u.uid)
      stable_true (fun _ _ _ _ _ h => h) (fun _ _ _ => trivial) ?_ fun _ _ _ _ h _ => h
    intro s hi _ x u hfound
    obtain ⟨y, -, heq⟩ := Option.map_eq_some_iff.mp hfound
    exact hi.users u (Table.mem_of_find (congrArg Prod.snd heq))
  refine Triple.tryCatch (GoodsSafe.pure_bind hload fun found hfound => ?_) fun e => ?_
  · split
    · exact goodsSafe_of_each (each_ret _)
    · exact goodsSafe_of_each (each_throw _)
    · rename_i x u
      split
      · exact goodsSafe_of_each (each_ret _)
      · refine .bind (goodsSafe_of_each (genUuid_each (by simp [offGoods]))) fun password => ?_
        refine .bind (asyncWrite_goods fun s m db hi h => ?_) fun _ => goodsSafe_of_each (each_ret _)
        exact hi.approveMerchant (hfound x u rfl) h
  · exact .throw fun _ _ _ => trivial

theorem adminApproveMerchant_goods (hr : ctx.req = r) (params : JsonObject) :
    GoodsSafe keep r q (adminApproveMerchant ctx params) := by
  subst hr
  simp only [adminApproveMerchant]
  repeat' first
    | with_reducible exact approveTransaction_goods _
    | with_reducible refine .bind ?_ fun _ => ?_
    | (refine goodsSafe_of_each ?_; simp [offGoods]; done)
    | split

/-- The methods that touch users or merchants but no orders. -/
theorem handlerOf_goods_accounts {method : ReqMethod} {params : JsonObject} (hr : ctx.req = r)
    (hm : .accounts ∈ method.footprint ∨ .merchants ∈ method.footprint) :
    GoodsSafe keep r q (handlerOf cfg ctx method params) := by
  have hstates : ∀ mids state, GoodsSafe keep r q
      (asyncWrite ctx fun s => some ((), s.db.setMerchantStates mids state s.clock)) := by
    intro mids state
    refine asyncWrite_goods fun s x db hi hdb => ?_
    cases hdb
    exact hi.setMerchantStates
  have hstore : ∀ m, GoodsSafe keep r q (asyncWrite ctx fun s => s.db.storeMerchant m s.clock) :=
    fun m => asyncWrite_goods fun s x db hi h => hi.storeMerchant h
  cases method <;> first | (simp [ReqMethod.footprint] at hm; done) | skip
  all_goals
    simp only [handlerOf, ReqMethod.api, handleJsonrpcUserApi, handleJsonrpcMerchantApi,
      handleJsonrpcAdminApi, userLogin, userFastlogin, merchantResetGiteaPassword,
      merchantAlterName, adminUserBan, adminSetMerchantStates, adminSetMerchantWxpaySubmchid]
    subst hr
  all_goals
    repeat' first
      | with_reducible exact handleUserLogin_goods rfl _ _
      | with_reducible exact adminApproveMerchant_goods rfl _
      | with_reducible exact hstates _ _
      | with_reducible exact hstore _
      | exact updateMerchant_goods fun _ => rfl
      | with_reducible refine .bind ?_ fun _ => ?_
      | (refine goodsSafe_of_each ?_; simp [offGoods]; done)
      | exact goodsSafe_of_each (emit_each (by simp [offGoods, Event.part]) rfl)
      | split

/-! ## Orders that are loaded and stored -/

/-- The orders a query finds have goods. -/
theorem loadOrders_goods (f : Db → α) (g : List CmallOrder → Event) (rows : α → List CmallOrder)
    {spot : Spot} (hf : ∀ db, ∀ o ∈ rows (f db), o ∈ db.orders) :
    (goodsProtocol keep).Triple r q (fun _ => True)
      (tx ctx spot (fun _ s => (some (f s.db), { s with trace := g (rows (f s.db)) :: s.trace }))
        (fun _ => .back))
      (fun found _ => ∀ o ∈ rows found, o.HasGoods) (fun _ => True) := by
  refine triple_tx (fun found _ => ∀ o ∈ rows found, o.HasGoods) stable_true
    (fun _ _ _ _ _ h => h) (fun _ _ _ => trivial) ?_ fun _ _ _ _ h _ => h
  intro i s hi _ _
  refine ⟨fun h => h, fun _ => trivial, ?_⟩
  rintro found ⟨⟩ o ho
  exact hi.orders o (hf s.db o ho)

theorem loadOneOrder_goods (who : Actor) (orderid : String) :
    (goodsProtocol keep).Triple r q (fun _ => True) (loadOneOrder ctx who orderid)
      (fun o _ => o.HasGoods) (fun _ => True) := by
  refine .bind (loadOrders_goods (fun db => Table.query db.orders (who.sees orderid))
    (.ordersLoaded ctx.req who) (fun rows => rows) fun db o ho => List.mem_of_mem_filter ho)
    fun rows => ?_
  split
  · exact .ret fun s _ h => h _ (List.mem_singleton_self _)
  · exact .throw fun _ _ _ => trivial

theorem asyncLoadOrder_goods (who : Actor) (p : CmallOrder → Bool) (spot : Spot) :
    (goodsProtocol keep).Triple r q (fun _ => True) (asyncLoadOrder ctx who p spot)
      (fun found _ => ∀ o, found = some o → o.HasGoods) (fun _ => True) := by
  refine .conseq (loadOrders_goods (fun db => Table.queryOne db.orders p)
    (.ordersLoaded ctx.req who) Option.toList fun db o ho => ?_) (fun _ _ h => h)
    (fun found s _ h o ho => h o (Option.mem_toList.mpr ho)) fun _ _ h => h
  exact (Table.queryOne_some (Option.mem_toList.mp ho)).1

theorem storeOrder_goods {change : OrderChange} {o row : CmallOrder}
    {stamp : PTime → CmallOrder → CmallOrder} (ho : o.HasGoods)
    (hrow : ∀ now, (stamp now row).boughtGoods = o.boughtGoods ∧ (stamp now row).seller = o.seller) :
    GoodsSafe keep r q (storeOrder ctx change row stamp) := by
  refine triple_tx (fun _ _ => True) stable_true (fun _ => stable_true) (fun _ _ _ => trivial) ?_
    fun _ _ _ _ _ _ => trivial
  intro i s _ _ _
  refine ⟨fun hi => ?_, fun _ => trivial, fun _ _ => trivial⟩
  obtain ⟨hgoods, hseller⟩ := hrow s.clock
  have hnew : (stamp s.clock row).HasGoods := by
    refine ⟨hgoods ▸ ho.some, fun g hg => ?_⟩
    rw [hseller]
    exact ho.seller g (hgoods ▸ hg)
  cases hdb : s.db.updateOrder (stamp s.clock row) with
  | none => exact hi
  | some db => exact hi.updateOrder hnew hdb

theorem orderMarkPayed_goods (hr : ctx.req = r) {o : CmallOrder} {seller : M Nat}
    (ho : o.HasGoods) (hseller : seller.Each (Keeps offGoods r)) :
    GoodsSafe keep r q (orderMarkPayed ctx o seller) := by
  subst hr
  simp only [orderMarkPayed]
  refine .bind (goodsSafe_of_each localTime_each) fun now => ?_
  refine .bind (storeOrder_goods ho fun _ => ⟨rfl, rfl⟩) fun _ => goodsSafe_of_each ?_
  refine Co.each_bind hseller fun merchantId => Co.each_bind each_get fun s => ?_
  repeat' first
    | with_reducible refine Co.each_bind ?_ fun _ => ?_
    | simp; done
    | exact emit_each (by simp [offGoods, Event.part]) rfl
    | split

theorem orderCheckPayment_goods (hr : ctx.req = r) {o : CmallOrder} {seller : M Nat}
    (ho : o.HasGoods) (hseller : seller.Each (Keeps offGoods r)) :
    GoodsSafe keep r q (orderCheckPayment ctx o seller) := by
  have hmark : GoodsSafe keep r q (orderMarkPayed ctx o seller) := orderMarkPayed_goods hr ho hseller
  subst hr
  simp only [orderCheckPayment]
  repeat' first
    | exact hmark
    | exact goodsSafe_of_each hseller
    | with_reducible refine .bind ?_ fun _ => ?_
    | exact goodsSafe_of_each (emit_each (by simp [offGoods, Event.part]) rfl)
    | (refine goodsSafe_of_each ?_; simp; done)
    | split

/-- What the requests on existing orders do with the one they loaded. -/
theorem handlerOf_goods_orders {method : ReqMethod} {params : JsonObject} (hr : ctx.req = r)
    (hm : .orders ∈ method.footprint)
    (hcreate : method ≠ .orderCreateCart ∧ method ≠ .orderCreateDirect) :
    GoodsSafe keep r q (handlerOf cfg ctx method params) := by
  have hseller : ∀ a : Nat, (do return (← thisMerchant a).uid : M Nat).Each (Keeps offGoods r) :=
    fun a => Co.each_bind (thisMerchant_each a) fun _ => each_pure _
  have hload : ∀ {β : Type} {a : Nat} {k : CmallOrder → M β},
      (∀ o, o.HasGoods → GoodsSafe keep r q (k o)) →
      GoodsSafe keep r q (loadSoldOrder ctx a params >>= k) := by
    intro β a k hk
    refine .pure_bind (.bind (goodsSafe_of_each (thisUser_each a)) fun u => ?_) hk
    exact loadOneOrder_goods _ _
  have hend : ∀ {β : Type} (x : β), GoodsSafe keep r q (pure x : M β) :=
    fun x => goodsSafe_of_each (each_pure x)
  cases method <;> first | (simp [ReqMethod.footprint] at hm; done) | (simp at hcreate; done) | skip
  all_goals
    simp only [handlerOf, ReqMethod.api, handleJsonrpcOrderApi, handleJsonrpcMerchantApi]
    refine .bind (goodsSafe_of_each (by simp)) fun a => ?_
  case orderCheckPayment =>
    refine .bind (goodsSafe_of_each (thisUser_each a)) fun u => ?_
    refine .pure_bind (loadOneOrder_goods _ _) fun o ho => ?_
    split
    · exact hend _
    · refine .bind (goodsSafe_of_each (asyncLoad_each _ _)) fun found => ?_
      split
      · exact .bind (orderCheckPayment_goods hr ho (each_pure _)) fun _ => hend _
      · exact hend _
  case merchantSoldOrdersCheckPayment =>
    refine hload fun o ho => ?_
    split
    · exact hend _
    · exact .bind (orderCheckPayment_goods hr ho (hseller a)) fun _ => hend _
  case merchantSoldOrdersMarkPayed =>
    refine hload fun o ho => ?_
    split
    · exact hend _
    · exact .bind (orderMarkPayed_goods hr ho (hseller a)) fun _ => hend _
  case merchantAlterOrderPrice =>
    refine hload fun o ho => ?_
    refine .bind (goodsSafe_of_each (newNumeric_each _)) fun _ => ?_
    refine .bind (goodsSafe_of_each (newNumeric_each _)) fun _ => ?_
    exact .bind (storeOrder_goods ho fun _ => ⟨rfl, rfl⟩) fun _ => hend _
  case merchantSoldOrdersAddKuaidi =>
    exact hload fun o ho => .bind (storeOrder_goods ho fun _ => ⟨rfl, rfl⟩) fun _ => hend _
  case merchantDeleteSoldOrders =>
    refine hload fun o ho => .bind (goodsSafe_of_each localTime_each) fun _ => ?_
    exact .bind (storeOrder_goods ho fun _ => ⟨rfl, rfl⟩) fun _ => hend _

theorem handleOrderWxCallback_goods (msg : NotifyMessage) :
    GoodsSafe keep r q (handleOrderWxCallback ctx msg) := by
  simp only [handleOrderWxCallback]
  refine .pure_bind (asyncLoadOrder_goods _ _ _) fun found hfound => ?_
  have hend : ∀ b, GoodsSafe keep r q (pure (.bool b) : M Reply) :=
    fun b => goodsSafe_of_each (each_pure _)
  split
  · rename_i o
    split
    · exact .bind (storeOrder_goods (hfound o rfl) fun _ => ⟨rfl, rfl⟩) fun _ => hend _
    · exact hend _
  · exact hend _

/-! ## Creation -/

/-- The fee of a product; an empty text means none. -/
def kuaidifeiOf (cfg : Config) (p : Product) : Option CppNumeric :=
  if p.kuaidifei = "" then some 0 else cfg.numeric p.kuaidifei

/-- What it takes to append a product, and what becomes of the order. -/
theorem push_eq_ok {d d' : OrderDraft} {merchantId : Nat} {options : List Json} {p : Product}
    (h : d.push cfg merchantId options p = .ok d') :
    (d.order.seller ≠ 0 → d.order.seller = merchantId) ∧
      ∃ snap fee, snapshotOf cfg merchantId options p = .ok snap ∧ kuaidifeiOf cfg p = some fee ∧
        d' = { d with
          order := { d.order with
            seller := merchantId
            snapGitVersion := p.gitVersion
            boughtGoods := d.order.boughtGoods ++ [snap] }
          totalPrice := d.totalPrice + snap.price
          totalKuaidifei := d.totalKuaidifei + fee } := by
  simp only [OrderDraft.push, bind, Except.bind] at h
  split at h
  · cases h
  · rename_i hseller
    refine ⟨fun h0 => by_contra fun hne => hseller ⟨h0, hne⟩, ?_⟩
    cases hs : snapshotOf cfg merchantId options p with
    | error e => simp [hs] at h
    | ok snap =>
      by_cases hk : p.kuaidifei = ""
      · simp only [hs, hk, if_true, pure, Except.pure] at h
        exact ⟨snap, 0, rfl, by simp [kuaidifeiOf, hk], (Except.ok.inj h).symm⟩
      · cases hn : cfg.numeric p.kuaidifei with
        | none => simp [hs, hk, hn] at h
        | some fee =>
          simp only [hs, hk, hn, if_false, pure, Except.pure] at h
          exact ⟨snap, fee, rfl, by simp [kuaidifeiOf, hk, hn], (Except.ok.inj h).symm⟩

theorem selectOptions_merchantId {entries : List Json} {options : List ProductOption}
    {snap snap' : GoodsSnapshot} (h : selectOptions entries options snap = .ok snap') :
    snap'.merchantId = snap.merchantId := by
  induction options generalizing snap with
  | nil =>
    cases h
    rfl
  | cons option rest ih =>
    simp only [selectOptions, bind, Except.bind] at h
    repeat' split at h
    all_goals first
      | exact (ih h).trans rfl
      | cases h

theorem snapshotOf_merchantId {merchantId : Nat} {options : List Json} {p : Product}
    {snap : GoodsSnapshot} (h : snapshotOf cfg merchantId options p = .ok snap) :
    snap.merchantId = merchantId := by
  simp only [snapshotOf, bind, Except.bind] at h
  repeat' split at h
  all_goals first
    | exact (selectOptions_merchantId h).trans rfl
    | (cases h; rfl)
    | cases h

/-- The merchants that were found; `target` was found in state normal. -/
def CacheOk (target : Option Nat) (cache : List (Nat × CmallMerchant)) : Prop :=
  ∀ x ∈ cache, 0 < x.1 ∧ (target = some x.1 → x.2.state = .normal)

theorem CacheOk.lookup {target : Option Nat} {cache : List (Nat × CmallMerchant)} {merchantId : Nat}
    {m : CmallMerchant} (h : CacheOk target cache) (hm : cache.lookup merchantId = some m) :
    0 < merchantId ∧ (target = some merchantId → m.state = .normal) := by
  obtain ⟨l₁, l₂, rfl, -⟩ := List.lookup_eq_some_iff.mp hm
  exact h (merchantId, m) (by simp)

/-- A draft whose goods are all of its seller. -/
structure OrderDraft.OneSeller (target : Option Nat) (d : OrderDraft) : Prop where
  seller : ∀ g ∈ d.order.boughtGoods, g.merchantId = d.order.seller
  sentinel : d.order.boughtGoods ≠ [] → d.order.seller ≠ 0
  cache : CacheOk target d.cache

theorem OrderDraft.OneSeller.push {target : Option Nat} {d d' : OrderDraft} {merchantId : Nat}
    {options : List Json} {p : Product} (h : d.OneSeller target) (hpos : 0 < merchantId)
    (hd : d.push cfg merchantId options p = .ok d') :
    d'.OneSeller target ∧ d'.order.boughtGoods ≠ [] := by
  obtain ⟨hseller, snap, fee, hsnap, -, rfl⟩ := push_eq_ok hd
  refine ⟨⟨fun g hg => ?_, fun _ => Nat.ne_of_gt hpos, h.cache⟩, by simp⟩
  rcases List.mem_append.mp hg with hg | hg
  · have hne : d.order.boughtGoods ≠ [] := List.ne_nil_of_mem hg
    exact (h.seller g hg).trans (hseller (h.sentinel hne))
  · rw [List.mem_singleton.mp hg]
    exact snapshotOf_merchantId hsnap

theorem cachedMerchant_goods {cache : List (Nat × CmallMerchant)} {merchantId : Nat}
    (hcache : CacheOk (q.merchantOf (keep r)) cache) :
    (goodsProtocol keep).Triple r q (fun _ => True) (cachedMerchant ctx cache merchantId)
      (fun found _ => (q.merchantOf (keep r) = some merchantId → found.isSome = true) ∧
        ∀ m cache', found = some (m, cache') → 0 < merchantId ∧
          (q.merchantOf (keep r) = some merchantId → m.state = .normal) ∧
          CacheOk (q.merchantOf (keep r)) cache') (fun _ => True) := by
  unfold cachedMerchant
  split
  · rename_i m hm
    obtain ⟨hpos, hnormal⟩ := hcache.lookup hm
    refine .ret fun s _ _ => ⟨fun _ => rfl, ?_⟩
    rintro m' cache' ⟨⟩
    exact ⟨hpos, hnormal, hcache⟩
  · refine .bind (triple_asyncLoad (L := fun _ => True) (fun found _ => ∀ m, found = some m →
      0 < merchantId) stable_true (fun _ _ _ _ _ h => h) (fun _ _ _ => trivial) ?_
      fun found i s _ h hg => (⟨h, hg⟩ : _ ∧ keepsItem keep r q (.foundMerchant merchantId found)))
      fun found => ?_
    · intro s hi _ m hm
      exact Db.findMerchant_uid hm ▸ hi.merchants m (Table.mem_of_find hm)
    · refine .conseq (Triple.pure (L := fun _ => True) ?_) (fun _ _ h => ⟨h, trivial⟩)
        (fun _ _ _ h => h) fun _ _ h => h
      rintro ⟨hpos, hguard⟩
      cases found with
      | none =>
        refine .ret fun s _ _ => ⟨fun htarget => ?_, by simp⟩
        simp [keepsItem, htarget] at hguard
      | some m =>
        refine .ret fun s _ _ => ⟨fun _ => rfl, ?_⟩
        rintro m' cache' ⟨⟩
        have hnormal : q.merchantOf (keep r) = some merchantId → m.state = .normal := by
          intro htarget
          simpa [keepsItem, htarget] using hguard
        refine ⟨hpos m rfl, hnormal, fun x hx => ?_⟩
        rcases List.mem_cons.mp hx with rfl | hx
        · exact ⟨hpos m rfl, hnormal⟩
        · exact hcache x hx

theorem orderItem_goods {d : OrderDraft} {item : GoodsItem}
    (hd : d.OneSeller (q.merchantOf (keep r))) :
    (goodsProtocol keep).Triple r q (fun _ => True) (orderItem cfg ctx d item)
      (fun d' _ => d'.OneSeller (q.merchantOf (keep r)) ∧
        (d.order.boughtGoods ≠ [] ∨ q.merchantOf (keep r) = some item.merchantId →
          d'.order.boughtGoods ≠ [])) (fun _ => True) := by
  simp only [orderItem]
  refine .bind (cachedMerchant_goods hd.cache) fun found => ?_
  refine .conseq (Triple.pure (L := fun _ => True) ?_) (fun _ _ h => ⟨h, trivial⟩)
    (fun _ _ _ h => h) fun _ _ h => h
  rintro ⟨hfound, hm⟩
  split
  · refine .ret fun s _ _ => ⟨hd, fun h => h.elim id fun ht => ?_⟩
    cases hfound ht
  · rename_i m cache
    obtain ⟨hpos, hnormal, hcache⟩ := hm m cache rfl
    split
    · rename_i hstate
      refine .ret fun s _ _ => ⟨⟨hd.seller, hd.sentinel, hcache⟩, fun h => ?_⟩
      exact h.elim id fun ht => absurd (hnormal ht) hstate
    · refine .bind (goodsSafe_of_each (getProduct_each _ _ _)) fun p => ?_
      refine .conseq (triple_liftExcept fun _ _ _ => trivial) (fun _ _ h => h) ?_ fun _ _ h => h
      intro d' s _ h
      have hpush := OrderDraft.OneSeller.push (d := { d with cache := cache })
        ⟨hd.seller, hd.sentinel, hcache⟩ hpos h.1
      exact ⟨hpush.1, fun _ => hpush.2⟩

/-- The loop: item `n` from here on is one of the merchant that is found in state normal,
unless there are goods already. -/
theorem orderGoodsList_goods (goods : List Json) (d : OrderDraft) (n : Nat)
    (hd : d.OneSeller (q.merchantOf (keep r)))
    (hn : d.order.boughtGoods ≠ [] ∨ ∀ items, goods.mapM goodsItem = .ok items →
      (items[n]?).map GoodsItem.merchantId = q.merchantOf (keep r) ∧ n < items.length) :
    (goodsProtocol keep).Triple r q (fun _ => True) (orderGoodsList cfg ctx goods d)
      (fun d' _ => d'.OneSeller (q.merchantOf (keep r)) ∧ d'.order.boughtGoods ≠ [])
      (fun _ => True) := by
  induction goods generalizing d n with
  | nil =>
    refine .ret fun s _ _ => ⟨hd, hn.elim id fun h => ?_⟩
    exact absurd (h [] rfl).2 (Nat.not_lt_zero _)
  | cons goods rest ih =>
    simp only [orderGoodsList, orderGoods_eq]
    cases hitem : goodsItem goods with
    | error e => exact fun s₀ s hi hg _ => ⟨hi, hg, trivial⟩
    | ok item =>
      refine .bind (orderItem_goods hd) fun d' => ?_
      refine .conseq (Triple.pure (L := fun _ => True) ?_) (fun _ _ h => ⟨h, trivial⟩)
        (fun _ _ _ h => h) fun _ _ h => h
      rintro ⟨hd', hgoods⟩
      have hcons : ∀ items, rest.mapM goodsItem = .ok items →
          (goods :: rest).mapM goodsItem = .ok (item :: items) := by
        intro items hitems
        simp [List.mapM_cons, hitem, hitems, bind, Except.bind, pure, Except.pure]
      rcases hn with hne | hn
      · exact ih d' n hd' (.inl (hgoods (.inl hne)))
      · cases n with
        | zero =>
          by_cases hnil : d'.order.boughtGoods = []
          · refine ih d' 0 hd' (.inr fun items hitems => ?_)
            have htarget := (hn _ (hcons items hitems)).1
            exact absurd hnil (hgoods (.inr htarget.symm))
          · exact ih d' 0 hd' (.inl hnil)
        | succ n =>
          refine ih d' n hd' (.inr fun items hitems => ?_)
          have h := hn _ (hcons items hitems)
          refine ⟨h.1, ?_⟩
          simpa using h.2

theorem orderCreate_goods {a : Nat} {params : JsonObject}
    (hq : ∀ goods, (Json.get params "goods" (.array [])).asArray = .ok goods →
      q.items = (goods.mapM goodsItem).toOption)
    (hstart : ∀ items, q.items = some items → keep r < items.length) :
    GoodsSafe keep r q (orderCreate cfg ctx a params) := by
  simp only [orderCreate]
  refine .bind (goodsSafe_of_each (thisUser_each a)) fun u => ?_
  refine .bind (goodsSafe_of_each (reloadUser_each _ _ _ (by simp [offGoods]))) fun _ => ?_
  refine .bind (goodsSafe_of_each thisSession_each) fun b => ?_
  refine .bind (goodsSafe_of_each (thisUser_each b)) fun userInfo => ?_
  refine .pure_bind (p := fun goods => (Json.get params "goods" (.array [])).asArray = .ok goods)
    (.conseq (triple_liftExcept fun _ _ _ => trivial) (fun _ _ h => h) (fun _ _ _ h => h.1)
      fun _ _ h => h) fun goods hgoods => ?_
  refine .bind (goodsSafe_of_each (liftExcept_each _)) fun recipientId => ?_
  split
  · exact goodsSafe_of_each (each_throw _)
  · split
    · exact goodsSafe_of_each (each_throw _)
    · refine .bind (goodsSafe_of_each (genUuid_each (by simp [offGoods]))) fun oid => ?_
      refine .bind (goodsSafe_of_each localTime_each) fun now => ?_
      refine .pure_bind (orderGoodsList_goods goods _ (keep r) ⟨by simp, by simp, by simp [CacheOk]⟩
        (.inr fun items hitems => ?_)) fun d hd => ?_
      · have hsome : q.items = some items := by
          rw [hq goods hgoods, hitems]
          rfl
        refine ⟨?_, hstart items hsome⟩
        rw [Request.merchantOf, hsome]
        rfl
      · refine .bind (asyncWrite_goods ?_) fun _ => goodsSafe_of_each (each_pure _)
        rintro s x db hi ⟨⟩
        exact hi.persistOrder ⟨hd.2, hd.1.seller⟩

/-! ## Paying an order -/

theorem loadOrderToPay_goods {a : Nat} {params : JsonObject} :
    (goodsProtocol keep).Triple r q (fun _ => True) (loadOrderToPay ctx a params)
      (fun o _ => o.HasGoods) (fun _ => True) := by
  refine .bind (goodsSafe_of_each (thisUser_each a)) fun u => ?_
  refine .bind (asyncLoadOrder_goods _ _ _) fun found => ?_
  split
  · exact .ret fun s _ h => h _ rfl
  · exact .throw fun _ _ _ => trivial

/-- The index that is in range when an order has goods. -/
def firstIndex : String := "bought_goods[0]"

theorem raises_of_each {x : M α} (hx : x.Each (Keeps offGoods r))
    (ht : x.Throws (Exn.Not firstIndex)) :
    (goodsProtocol keep).Raises r q L x (Exn.Not firstIndex) :=
  .conseq (.of_throws ht (goodsSafe_of_each hx)) fun _ _ _ => trivial

theorem orderMerchant_goods {o : CmallOrder} (ho : o.HasGoods) :
    (orderMerchant o).Throws (Exn.Not firstIndex) := by
  unfold orderMerchant firstGoods
  split
  · refine Co.throws_bind (throws_ret _) fun first => ?_
    split <;> simp
  · rename_i hnil
    exact absurd hnil ho.some

/-- The first of the goods is there when an order is paid. -/
theorem payment_raises {β : Type} {a : Nat} {params : JsonObject} {k : CmallOrder → Nat → M β}
    (hk : ∀ o merchantId, (k o merchantId).Each (Keeps offGoods r) ∧
      (k o merchantId).Throws (Exn.Not firstIndex)) :
    (goodsProtocol keep).Raises r q L
      (loadOrderToPay ctx a params >>= fun o => orderMerchant o >>= k o) (Exn.Not firstIndex) := by
  have hload : (loadOrderToPay ctx a params).Throws (Exn.Not firstIndex) := by
    refine Co.throws_bind (thisUser_throws a (by decide)) fun u => ?_
    refine Co.throws_bind (asyncLoadOrder_throws _ _ _) fun found => ?_
    split <;> simp
  refine .conseq (.bind (E := fun _ => True) loadOrderToPay_goods
    (.of_throws hload loadOrderToPay_goods) fun o => ?_) fun _ _ _ => trivial
  intro s₀ s hi hg ho
  refine (raises_of_each ?_ ?_ : (goodsProtocol keep).Raises r q (fun _ => True) _ _) s₀ s hi hg trivial
  · exact Co.each_bind (orderMerchant_each o) fun merchantId => (hk o merchantId).1
  · exact Co.throws_bind (orderMerchant_goods ho) fun merchantId => (hk o merchantId).2

/-- The requests that index the goods of an order. -/
def ReqMethod.pays (method : ReqMethod) : Bool :=
  method = .orderGetPaymethods ∨ method = .orderGetPayUrl ∨ method = .orderGetWxpayPrepayId

theorem skip_raises {β : Type} {x : M α} {k : α → M β} (hx : x.Each (Keeps offGoods r))
    (ht : x.Throws (Exn.Not firstIndex))
    (hk : ∀ b, (goodsProtocol keep).Raises r q (fun _ => True) (k b) (Exn.Not firstIndex)) :
    (goodsProtocol keep).Raises r q (fun _ => True) (x >>= k) (Exn.Not firstIndex) :=
  .bind (goodsSafe_of_each hx) (raises_of_each hx ht) hk

theorem handleJsonrpcOrderApi_raises {method : ReqMethod} {params : JsonObject} (hr : ctx.req = r)
    (hm : method.pays = true) :
    (goodsProtocol keep).Raises r q (fun _ => True) (handleJsonrpcOrderApi cfg ctx method params)
      (Exn.Not firstIndex) := by
  subst hr
  cases method <;> first | (cases hm; done) | skip
  all_goals
    simp only [handleJsonrpcOrderApi]
    refine skip_raises thisSession_each (thisSession_throws (by decide)) fun a => ?_
    refine payment_raises fun o merchantId => ⟨?_, ?_⟩
  all_goals
    repeat' first
      | with_reducible refine Co.each_bind ?_ fun _ => ?_
      | with_reducible refine Co.throws_bind ?_ fun _ => ?_
      | (simp [firstIndex, offGoods]; done)
      | exact emit_each (by simp [offGoods, Event.part]) rfl
      | split

theorem handleJsonrpcCall_raises {method : ReqMethod} {params : JsonObject} (hr : ctx.req = r)
    (hm : method.pays = true) :
    (goodsProtocol keep).Raises r q (fun _ => True) (handleJsonrpcCall cfg ctx method params)
      (Exn.Not firstIndex) := by
  have hapi : method.api = .order := by
    cases method <;> first | (cases hm; done) | rfl
  simp only [handleJsonrpcCall, hapi]
  refine skip_raises each_get throws_get fun s => ?_
  split
  · exact raises_of_each (each_throw _) (by simp)
  · refine skip_raises (ensureLogin_each _ _) (ensureLogin_throws _ _ (by decide)) fun _ => ?_
    exact handleJsonrpcOrderApi_raises hr hm

end Handlers

/-! ## Programs -/

section Programs

variable {keep : Nat → Nat} {cfg : Config}

theorem keepsItem_start {r : Nat} {q : Request} {method : Option ReqMethod}
    (h : keepsItem keep r q (.start method) = true) :
    ∀ items, q.items = some items → keep r < items.length := by
  intro items hitems
  simpa [keepsItem, hitems] using h

theorem programs_goods (cfg : Config) (keep : Nat → Nat) :
    (goodsProtocol keep).Programs (prog cfg) := by
  intro r q m _ _ _
  have hreplied : ∀ reply s, (goodsProtocol keep).guar r q s
      { s with trace := .replied r reply :: s.trace } := fun reply s h => h
  by_cases hq : .accounts ∉ q.footprint ∧ .orders ∉ q.footprint ∧ .merchants ∉ q.footprint
  · refine prog_suspended_of_keeps (fun s t _ hk hi => ?_) fun _ => trivial
    exact goodsOk_of_keeps hi hk hq.1 hq.2.1 hq.2.2
  · cases q with
    | jsonrpc conn method params =>
      have hguard : ∀ (i : Input) (s : Mem), (goodsProtocol keep).inv s → True →
          (goodsProtocol keep).guard r (.jsonrpc conn method params)
            ⟨⟨conn, r⟩, .start (some method)⟩ i s →
          keepsItem keep r (.jsonrpc conn method params) (.start (some method)) = true ∧ True :=
        fun _ _ _ _ hg => ⟨hg, trivial⟩
      refine prog_suspended_of_handler (Q := fun _ _ => True) stable_true trivial hguard
        (fun _ _ _ => trivial) (.pure fun hstart => ?_)
        fun reply s _ _ => ⟨hreplied reply s, trivial⟩
      by_cases hcreate : method = .orderCreateCart ∨ method = .orderCreateDirect
      · have hitems : ∀ goods, (Json.get params "goods" (.array [])).asArray = .ok goods →
            (Request.jsonrpc conn method params).items = (goods.mapM goodsItem).toOption := by
          intro goods hgoods
          simp only [Request.items, hcreate, if_true, hgoods]
        have hsafe : ∀ a, GoodsSafe keep r (.jsonrpc conn method params)
            (orderCreate cfg ⟨conn, r⟩ a params) := fun a =>
          orderCreate_goods hitems (keepsItem_start hstart)
        rcases hcreate with rfl | rfl
        · exact GoodsSafe.bind (goodsSafe_of_each thisSession_each) hsafe
        · exact GoodsSafe.bind (goodsSafe_of_each thisSession_each) hsafe
      · rw [not_or] at hcreate
        by_cases ho : .orders ∈ method.footprint
        · exact handlerOf_goods_orders (by rfl) ho hcreate
        · refine handlerOf_goods_accounts (by rfl) ?_
          by_contra hnone
          rw [not_or] at hnone
          exact hq (by simpa [Request.footprint] using ⟨hnone.1, ho, hnone.2⟩)
    | wxCallback msg =>
      refine Triple.suspended (L := fun _ => True) stable_true trivial (fun _ _ _ _ _ => trivial)
        fun _ => ?_
      refine .bind (handleOrderWxCallback_goods msg) fun reply => ?_
      exact .modify fun s _ _ => ⟨hreplied reply s, trivial⟩
    | _ => simp [Request.footprint] at hq

/-- A request that pays an order does not fail on the index. -/
theorem prog_fails {r : Nat} {q : Request} {m : Mem}
    (hsus : (prog cfg r q).Suspended (goodsProtocol keep) r q m) :
    (prog cfg r q).Fails (goodsProtocol keep)
      (fun e => q.method.any ReqMethod.pays = true → e.Not firstIndex) r q m := by
  by_cases hq : q.method.any ReqMethod.pays = true
  · cases q with
    | jsonrpc conn method params =>
      have hm : method.pays = true := by simpa [Request.method] using hq
      refine Raises.fails (L := fun _ => True) stable_true trivial
        (fun _ _ _ _ _ => trivial) fun _ => Raises.mono (F := Exn.Not firstIndex) ?_ fun e h _ => h
      have hfoot : method.footprint ⊆ offGoods := by
        cases method <;> first | (cases hm; done) | simp [ReqMethod.footprint, offGoods]
      have heach : ∀ ctx : Ctx, ctx.req = r →
          (handleJsonrpcCall cfg ctx method params).Each (Keeps offGoods r) :=
        fun ctx hr => hr ▸ handleJsonrpcCall_each method params hfoot
      refine .bind (goodsSafe_of_each (heach _ rfl))
        (handleJsonrpcCall_raises (by rfl) hm) fun reply => ?_
      exact raises_of_each (emit_each (by simp [offGoods, Event.part]) rfl) (emit_throws _)
    | _ => simp [Request.method] at hq
  · exact hsus.fails fun e h => absurd h hq

end Programs

/-- In every run in which each creation of an order has an item whose merchant it finds in
state normal: every order has goods, all of them of its seller, and no request that pays
an order indexes an empty vector. -/
theorem orders_have_goods (cfg : Config) (m : Mem) (keep : Nat → Nat)
    (ls : List (Label Request Input)) (hm : m.db.GoodsOk)
    (hls : (goodsProtocol keep).Admissible (prog cfg) (Sys.idle m) ls) :
    let s := (Sys.idle m : Service).run (prog cfg) ls
    (∀ o ∈ s.mem.db.orders, o.boughtGoods ≠ [] ∧ ∀ g ∈ o.boughtGoods, g.merchantId = o.seller) ∧
      ∀ p ∈ s.procs, p.req.method.any ReqMethod.pays = true →
        p.code.error? ≠ some (.undefined "bought_goods[0]") := by
  have hgood := good_idle (P := goodsProtocol keep) (ε := Exn) (α := Unit) hm fun _ => trivial
  have hprog := programs_goods cfg keep
  intro s
  refine ⟨fun o ho => ?_, fun p hp hpays herror => ?_⟩
  · have hgoods := (run_good hprog hgood hls).inv.orders o ho
    exact ⟨hgoods.some, hgoods.seller⟩
  · have hfails := run_fails (F := fun _ q e => q.method.any ReqMethod.pays = true →
      e.Not firstIndex) hprog (fun r q m hi hf hq => prog_fails (hprog r q m hi hf hq)) hgood
      (fun r p hp => by simp [Sys.idle] at hp) hls
    obtain ⟨r, hr⟩ := List.getElem?_of_mem hp
    exact (hfails r p hr).error herror hpays rfl

/-! ## An order without goods -/

/-- User 1 has an address; connection 0 is its own. Merchant 5 sells tea. -/
def teaShop : Mem where
  db :=
    { users := [{ uid := 1, recipients := [⟨"A", "100", "x"⟩] }, { uid := 5 }]
      merchants := [{ uid := 5 }] }
  heapTop := 1
  heap _ := { sessionId := uuidOf 0 0, userInfo := some { uid := 1 } }
  conn _ := { sessionInfo := some 0 }
  repos _ := some
    { getProduct := fun _ => .ok ⟨"tea", "tea", "", "10", "", "", 5, "", []⟩
      getFileContent := fun _ => .ok ""
      getSupportedPayment := ["alipay"]
      getProducts := [] }

/-- An order of tea. -/
def teaOrder : JsonObject :=
  [("recipient_id", .int64 0),
    ("goods", .array [.object [("merchant_id", .int64 5), ("goods_id", .string "tea")]])]

theorem teaShop_goodsOk : teaShop.db.GoodsOk := by
  refine ⟨?_, by decide, by decide⟩
  intro o ho
  cases ho

def teaConfig : Config where
  numeric text := if text = "10" then some 10 else none
  wxpayAppids := []

/-- The order is created from an item of merchant 5 and can be paid. -/
theorem orders_have_goods_of_tea :
    let s := (Sys.idle teaShop : Service).run (prog teaConfig)
      ([.spawn (.jsonrpc 0 .orderCreateDirect teaOrder)] ++ resumes 0 8 ++
        [.spawn (.jsonrpc 0 .orderGetPaymethods [("orderid", .string (uuidOf 0 0))])] ++ resumes 1 4)
    (∀ o ∈ s.mem.db.orders, o.boughtGoods ≠ [] ∧ ∀ g ∈ o.boughtGoods, g.merchantId = o.seller) ∧
      ∀ p ∈ s.procs, p.req.method.any ReqMethod.pays = true →
        p.code.error? ≠ some (.undefined "bought_goods[0]") :=
  orders_have_goods teaConfig teaShop (fun _ => 0) _ teaShop_goodsOk (by decide +kernel)

/-- An order without any item is accepted, and paying it indexes an empty vector. -/
theorem empty_order_is_indexed :
    let s := (Sys.idle teaShop : Service).run (prog teaConfig)
      ([.spawn (.jsonrpc 0 .orderCreateDirect [("recipient_id", .int64 0)])] ++ resumes 0 5 ++
        [.spawn (.jsonrpc 0 .orderGetPaymethods [("orderid", .string (uuidOf 0 0))])] ++ resumes 1 3)
    s.mem.db.orders.map CmallOrder.boughtGoods = [[]] ∧
      .replied 0 (.orderid (uuidOf 0 0)) ∈ s.mem.trace ∧
      (s.procs[1]?).bind (fun p => p.code.error?) = some (.undefined "bought_goods[0]") := by
  decide

end Cmall
