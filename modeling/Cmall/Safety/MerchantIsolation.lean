import Cmall.Coroutine.Sequential
import Cmall.Safety.UserIsolation

/-!
The rows a request of a merchant can touch.

A `merchant_*` request runs from its beginning to its end on a session whose user
and whose merchant is `u`. It leaves the orders of other sellers, the tokens of
other users and the rows of other merchants as they are, with one exception:
`merchant_delete_apptoken` erases a token by its text alone, so it erases one of
somebody else when there is one.
-/

namespace Cmall
open Coroutine Protocol

/-- The rows of other merchants are the same. -/
structure Db.OthersKept (u : Nat) (db db' : Db) : Prop where
  orders : SameRows (fun x => x.seller ≠ u) db.orders db'.orders
  apptokens : SameRows (fun x => x.uid ≠ u) db.apptokens db'.apptokens
  merchants : SameRows (fun x => x.uid ≠ u) db.merchants db'.merchants

theorem Db.OthersKept.refl (u : Nat) (db : Db) : db.OthersKept u db := ⟨rfl, rfl, rfl⟩

theorem Db.OthersKept.trans {u : Nat} {db₁ db₂ db₃ : Db} (h : db₁.OthersKept u db₂)
    (h' : db₂.OthersKept u db₃) : db₁.OthersKept u db₃ where
  orders := Eq.trans h'.orders h.orders
  apptokens := Eq.trans h'.apptokens h.apptokens
  merchants := Eq.trans h'.merchants h.merchants

/-- What a request of merchant `u` keeps while it runs alone from the tables `db₀`:
connection `c` refers to the session at `a`, whose user and whose merchant is `u`. -/
structure Shop (db₀ : Db) (c a u : Nat) (s : Mem) : Prop where
  kept : db₀.OthersKept u s.db
  /-- The ids are a primary key. -/
  ids : (s.db.orders.map CmallOrder.id).Nodup
  session : (s.conn c).sessionInfo = some a
  user : (s.heap a).uid = some u
  merchant : (s.heap a).merchantInfo.map CmallMerchant.uid = some u

section Handlers

variable {db₀ : Db} {c a u r : Nat} {q : Request} {ctx : Ctx} {cfg : Config} {α : Type}
  {L : Mem → Prop}

/-- The parts that are neither sessions nor rows of merchants, tokens or orders. -/
def offShop : List Part :=
  [.codes, .uuids, .kvs, .loginEvents, .accountEvents, .sudoEvents, .orderEvents, .cartEvents,
    .otherEvents]

theorem Shop.of_keeps {s t : Mem} (h : Shop db₀ c a u s) (hk : Keeps offShop r s t) :
    Shop db₀ c a u t := by
  have horders := (hk.db.orders (by simp [offShop])).1
  have hheap := (hk.heap (by simp [offShop])).1
  refine ⟨h.kept.trans ⟨?_, ?_, ?_⟩, horders ▸ h.ids, ?_, ?_, ?_⟩
  · rw [horders]
    rfl
  · rw [hk.db.apptokens (by simp [offShop])]
    rfl
  · rw [hk.db.merchants (by simp [offShop])]
    rfl
  · rw [hk.conn (by simp [offShop])]
    exact h.session
  · rw [hheap]
    exact h.user
  · rw [hheap]
    exact h.merchant

/-- The coroutine runs alone and keeps the shop, whatever holds before and after. -/
def ShopSafe (db₀ : Db) (c a u r : Nat) (q : Request) (x : M α) : Prop :=
  (solo r (Shop db₀ c a u) : Protocol Request Mem Input Point).Triple r q (fun _ => True) x
    (fun _ _ => True) (fun _ => True)

theorem ShopSafe.bind {β : Type} {x : M α} {g : α → M β} (hx : ShopSafe db₀ c a u r q x)
    (hg : ∀ b, ShopSafe db₀ c a u r q (g b)) : ShopSafe db₀ c a u r q (x >>= g) :=
  Triple.bind hx hg

/-- What does not touch the shop keeps whatever does not speak about more. -/
theorem triple_offShop {x : M α} (hx : x.Each (Keeps offShop r))
    (hL : ∀ s t, Keeps offShop r s t → L s → L t) :
    (solo r (Shop db₀ c a u) : Protocol Request Mem Input Point).Triple r q L x (fun _ => L)
      (fun _ => True) := by
  refine .conseq (.each hx solo_stable ?_) (fun _ _ h => h) (fun _ _ _ h => h)
    fun _ _ _ => trivial
  exact fun s t _ hl hk => ⟨solo_guar fun hi => hi.of_keeps hk, hL s t hk hl⟩

theorem shopSafe_of_each {x : M α} (hx : x.Each (Keeps offShop r)) : ShopSafe db₀ c a u r q x :=
  triple_offShop hx fun _ _ _ h => h

theorem thisUser_shop {β : Type} {k : CmallUser → M β}
    (hk : ∀ v, v.uid = u → ShopSafe db₀ c a u r q (k v)) :
    ShopSafe db₀ c a u r q (thisUser a >>= k) := by
  refine Triple.bind (triple_thisUser a fun _ _ _ => trivial) fun v => ?_
  refine .conseq (L := fun _ => v.uid = u ∧ True) (.pure fun hv => hk v hv) ?_ (fun _ _ _ h => h)
    fun _ _ h => h
  intro s hi h
  have huser := hi.user
  rw [ClientSession.uid, h.1] at huser
  exact ⟨Option.some.inj huser, trivial⟩

theorem triple_thisMerchant {P : Protocol Request Mem Input Point} {E : Mem → Prop}
    (hE : ∀ s, P.inv s → L s → E s) :
    P.Triple r q L (thisMerchant a) (fun m s => (s.heap a).merchantInfo = some m ∧ L s) E := by
  refine .bind (triple_getSession a) fun x => ?_
  split
  · rename_i m hm
    exact .ret fun s _ h => ⟨h.1 ▸ hm, h.2⟩
  · exact .throw fun s hi h => hE s hi h.2

theorem thisMerchant_shop {β : Type} {k : CmallMerchant → M β}
    (hk : ∀ m, m.uid = u → ShopSafe db₀ c a u r q (k m)) :
    ShopSafe db₀ c a u r q (thisMerchant a >>= k) := by
  refine Triple.bind (triple_thisMerchant fun _ _ _ => trivial) fun m => ?_
  refine .conseq (L := fun _ => m.uid = u ∧ True) (.pure fun hm => hk m hm) ?_ (fun _ _ _ h => h)
    fun _ _ h => h
  intro s hi h
  have hmerchant := hi.merchant
  rw [h.1] at hmerchant
  exact ⟨Option.some.inj hmerchant, trivial⟩

theorem merchantEntry_shop {β : Type} {k : Nat → M β} (hc : ctx.conn = c)
    (hk : ShopSafe db₀ c a u r q (k a)) : ShopSafe db₀ c a u r q (merchantEntry ctx >>= k) := by
  rw [merchantEntry_bind]
  refine Triple.bind (triple_thisSession fun _ _ _ => trivial) fun b => ?_
  refine .conseq (L := fun _ => b = a ∧ True) (.pure fun hb => ?_) ?_ (fun _ _ _ h => h)
    fun _ _ h => h
  · subst hb
    exact thisUser_shop fun _ _ => thisMerchant_shop fun _ _ => hk
  · intro s hi h
    rw [hc, hi.session] at h
    exact ⟨(Option.some.inj h.1).symm, trivial⟩

/-- A write of the session that leaves the user and the uid of the merchant. -/
theorem modifySession_shop {f : ClientSession → ClientSession}
    (hf : ∀ x, x.uid = some u → x.merchantInfo.map CmallMerchant.uid = some u →
      (f x).uid = some u ∧ (f x).merchantInfo.map CmallMerchant.uid = some u) :
    ShopSafe db₀ c a u r q (modifySession a f) := by
  refine Triple.modify fun s _ _ => ⟨solo_guar fun hi => ⟨hi.kept, hi.ids, hi.session, ?_, ?_⟩,
    trivial⟩
  all_goals
    simp only [Mem.setSession, if_true]
  · exact (hf _ hi.user hi.merchant).1
  · exact (hf _ hi.user hi.merchant).2

/-- A write of the tables that leaves the rows of the others and the ids. -/
theorem asyncWrite_shop {f : Mem → Option (α × Db)}
    (hf : ∀ s, Shop db₀ c a u s → ∀ x db, f s = some (x, db) →
      s.db.OthersKept u db ∧ db.orders = s.db.orders) :
    ShopSafe db₀ c a u r q (asyncWrite ctx f) := by
  refine triple_tx (fun _ _ => True) solo_stable (fun _ => solo_stable) (fun _ _ _ => trivial) ?_
    fun _ _ _ _ _ _ => trivial
  intro i s _ _ _
  refine ⟨solo_guar fun hi => ?_, fun _ => trivial, fun _ _ => trivial⟩
  cases hfs : f s with
  | none => exact hi
  | some p =>
    obtain ⟨hkept, hids⟩ := hf s hi p.1 p.2 hfs
    exact ⟨hi.kept.trans hkept, by rw [hids]; exact hi.ids, hi.session, hi.user, hi.merchant⟩

/-! ## Orders -/

/-- The order was loaded from the table, and it is one of seller `u`. -/
def Sold (u : Nat) (o : CmallOrder) (s : Mem) : Prop := o ∈ s.db.orders ∧ o.seller = u

theorem Sold.of_keeps {o : CmallOrder} {s t : Mem} (hk : Keeps offShop r s t) (h : Sold u o s) :
    Sold u o t := by
  refine ⟨?_, h.2⟩
  rw [(hk.db.orders (by simp [offShop])).1]
  exact h.1

/-- The coroutine is safe as long as the order is one of seller `u`. -/
def SoldSafe (db₀ : Db) (c a u r : Nat) (q : Request) (o : CmallOrder) (x : M α) : Prop :=
  (solo r (Shop db₀ c a u) : Protocol Request Mem Input Point).Triple r q (Sold u o) x
    (fun _ _ => True) (fun _ => True)

theorem SoldSafe.skip {β : Type} {o : CmallOrder} {x : M α} {g : α → M β}
    (hx : x.Each (Keeps offShop r)) (hg : ∀ b, SoldSafe db₀ c a u r q o (g b)) :
    SoldSafe db₀ c a u r q o (x >>= g) :=
  Triple.bind (triple_offShop hx fun _ _ hk h => h.of_keeps hk) hg

theorem ShopSafe.sold {o : CmallOrder} {x : M α} (h : ShopSafe db₀ c a u r q x) :
    SoldSafe db₀ c a u r q o x :=
  .conseq h (fun _ _ _ => trivial) (fun _ _ _ h => h) fun _ _ h => h

theorem loadSoldOrder_shop {β : Type} {params : JsonObject} {k : CmallOrder → M β}
    (hk : ∀ o, SoldSafe db₀ c a u r q o (k o)) :
    ShopSafe db₀ c a u r q (loadSoldOrder ctx a params >>= k) := by
  refine Triple.bind (Q := fun o s => Sold u o s) ?_ hk
  refine Triple.bind (triple_thisUser a fun _ _ _ => trivial) fun v => ?_
  refine .conseq (L := fun _ => v.uid = u ∧ True) (.pure fun hv => ?_) ?_ (fun _ _ _ h => h)
    fun _ _ h => h
  · refine Triple.bind (triple_tx (L := fun _ => True)
      (fun rows s => ∀ o ∈ rows, Sold u o s) solo_stable (fun _ => solo_stable)
      (fun _ _ _ => trivial) ?_ fun _ _ _ _ h _ => h) fun rows => ?_
    · intro i s _ _ _
      refine ⟨solo_guar fun hi => ⟨hi.kept, hi.ids, hi.session, hi.user, hi.merchant⟩, fun _ => trivial, ?_⟩
      rintro rows ⟨⟩ o ho
      obtain ⟨hmem, hsees⟩ := List.mem_filter.mp ho
      have hseller : o.oid = Json.getString params "orderid" ∧ o.seller = v.uid ∧
          o.deletedAt = none := by simpa [Actor.sees] using hsees
      exact ⟨hmem, hseller.2.1.trans hv⟩
    · split
      · exact .ret fun s _ h => h _ (List.mem_singleton_self _)
      · exact .throw fun _ _ _ => trivial
  · intro s hi h
    have huser := hi.user
    rw [ClientSession.uid, h.1] at huser
    exact ⟨Option.some.inj huser, trivial⟩

/-- The row is written back under the id and the seller it was loaded with. -/
theorem storeOrder_shop {change : OrderChange} {o row : CmallOrder}
    {stamp : PTime → CmallOrder → CmallOrder}
    (hrow : ∀ now, (stamp now row).id = o.id ∧ (stamp now row).seller = o.seller) :
    SoldSafe db₀ c a u r q o (storeOrder ctx change row stamp) := by
  refine triple_tx (fun _ _ => True) solo_stable (fun _ => solo_stable) (fun _ _ _ => trivial) ?_
    fun _ _ _ _ _ _ => trivial
  intro i s hi ho _
  obtain ⟨hid, hseller⟩ := hrow s.clock
  have hfind : s.db.findOrder (stamp s.clock row).id = some o := by
    rw [hid]
    exact Table.find_of_mem hi.ids ho.1
  have hupdate : s.db.updateOrder (stamp s.clock row) = some { s.db with
      orders := Table.update CmallOrder.id s.db.orders (stamp s.clock row) } := by
    simp only [Db.updateOrder, hfind]
  simp only [hupdate]
  refine ⟨solo_guar fun hi => ⟨hi.kept.trans ⟨?_, rfl, rfl⟩, ?_, hi.session, hi.user, hi.merchant⟩, by simp,
    fun _ _ => trivial⟩
  · refine Table.filter_update hfind ?_ ?_
    · simp [ho.2]
    · simp [hseller, ho.2]
  · have hids : (Table.update CmallOrder.id s.db.orders (stamp s.clock row)).map CmallOrder.id =
        s.db.orders.map CmallOrder.id := Table.map_update hfind hid
    exact hids ▸ hi.ids

theorem orderMarkPayed_shop (hr : ctx.req = r) {o : CmallOrder} {seller : M Nat}
    (hseller : seller.Each (Keeps offShop r)) :
    SoldSafe db₀ c a u r q o (orderMarkPayed ctx o seller) := by
  subst hr
  simp only [orderMarkPayed]
  refine .skip localTime_each fun now => ?_
  refine Triple.bind (storeOrder_shop fun _ => ⟨rfl, rfl⟩) fun _ => shopSafe_of_each ?_
  refine Co.each_bind hseller fun merchantId => Co.each_bind each_get fun s => ?_
  repeat' first
    | with_reducible refine Co.each_bind ?_ fun _ => ?_
    | simp; done
    | exact emit_each (by simp [offShop, Event.part]) rfl
    | split

theorem orderCheckPayment_shop (hr : ctx.req = r) {o : CmallOrder} {seller : M Nat}
    (hseller : seller.Each (Keeps offShop r)) :
    SoldSafe db₀ c a u r q o (orderCheckPayment ctx o seller) := by
  have hmark : SoldSafe db₀ c a u r q o (orderMarkPayed ctx o seller) :=
    orderMarkPayed_shop hr hseller
  subst hr
  simp only [orderCheckPayment]
  refine .skip hseller fun merchantId => .skip (getMerchantGitRepo_each _) fun repo => ?_
  refine .skip (readRepo_each _ _ _) fun content => ?_
  split
  · exact (shopSafe_of_each (each_throw _)).sold
  · refine .skip external_each fun out => .skip (emit_each (by simp [offShop, Event.part]) rfl) ?_
    intro _
    split
    · exact hmark
    · exact (shopSafe_of_each (each_pure _)).sold

/-! ## Account and tokens -/

theorem merchantInfo_shop : ShopSafe db₀ c a u r q (Cmall.merchantInfo ctx a) := by
  simp only [Cmall.merchantInfo]
  refine thisMerchant_shop fun m hm => ?_
  refine Triple.bind (triple_asyncLoad (L := fun _ => True) (fun found _ => ∀ x, found = some x →
    x.uid = u) solo_stable (fun _ => solo_stable) (fun _ _ _ => trivial) ?_
    fun _ _ _ _ h _ => h) fun found => ?_
  · intro s _ _ x hx
    exact (Db.findMerchant_uid hx).trans hm
  · split
    · rename_i x
      refine .conseq (L := fun _ => x.uid = u ∧ True) (.pure fun hx => ?_)
        (fun _ _ h => ⟨h x rfl, trivial⟩) (fun _ _ _ h => h) fun _ _ h => h
      refine ShopSafe.bind (modifySession_shop fun y hy _ => ⟨hy, ?_⟩) fun _ => ?_
      · exact congrArg some hx
      · exact shopSafe_of_each (each_pure _)
    · exact .throw fun _ _ _ => trivial

theorem Db.updateMerchant_othersKept (db : Db) {uid : Nat} {now : PTime}
    {f : CmallMerchant → CmallMerchant} (huid : uid = u) (hf : ∀ m, (f m).uid = m.uid) :
    db.OthersKept u (db.updateMerchant uid now f).2 := by
  unfold Db.updateMerchant
  split
  · rename_i old hold
    have hold' : old.uid = u := (Db.findMerchant_uid hold).trans huid
    have hkey : (f old).uid = uid := (hf old).trans (Db.findMerchant_uid hold)
    have hfind : Table.find CmallMerchant.uid db.merchants (f old).uid = some old := by
      rw [hkey]
      exact hold
    refine ⟨rfl, rfl, Table.filter_update hfind ?_ ?_⟩
    · simp [hold']
    · simp [hf, hold']
  · exact .refl u db

theorem updateMerchant_shop {uid : Nat} {f : CmallMerchant → CmallMerchant} (huid : uid = u)
    (hf : ∀ m, (f m).uid = m.uid) :
    ShopSafe db₀ c a u r q (asyncWrite ctx fun s => some (s.db.updateMerchant uid s.clock f)) := by
  refine asyncWrite_shop fun s _ x db hdb => ?_
  have hdb' : (s.db.updateMerchant uid s.clock f).2 = db := congrArg Prod.snd (Option.some.inj hdb)
  subst hdb'
  refine ⟨Db.updateMerchant_othersKept s.db huid hf, ?_⟩
  unfold Db.updateMerchant
  split <;> rfl

theorem modifyMerchantInfo_shop {f : CmallMerchant → CmallMerchant} (hf : ∀ m, (f m).uid = m.uid) :
    ShopSafe db₀ c a u r q (modifyMerchantInfo a f) := by
  refine modifySession_shop fun x hx hm => ⟨hx, ?_⟩
  rw [Option.map_map, ← hm]
  exact congrArg (fun g => x.merchantInfo.map g) (funext hf)

theorem merchantResetGiteaPassword_shop :
    ShopSafe db₀ c a u r q (merchantResetGiteaPassword ctx a) := by
  simp only [merchantResetGiteaPassword]
  refine .bind (shopSafe_of_each (genUuid_each (by simp [offShop]))) fun password => ?_
  refine .bind (shopSafe_of_each external_each) fun out => ?_
  split
  · refine .bind (modifyMerchantInfo_shop fun _ => rfl) fun _ => thisMerchant_shop fun m hm => ?_
    refine .bind (updateMerchant_shop hm fun _ => rfl) fun _ => ?_
    exact shopSafe_of_each (each_pure _)
  · exact shopSafe_of_each (each_pure _)

theorem merchantAlterName_shop (params : JsonObject) :
    ShopSafe db₀ c a u r q (merchantAlterName ctx a params) := by
  simp only [merchantAlterName]
  refine thisMerchant_shop fun m hm => .bind (updateMerchant_shop hm fun _ => rfl) fun ok => ?_
  split
  · refine .bind (modifyMerchantInfo_shop fun _ => rfl) fun _ => ?_
    exact shopSafe_of_each (each_pure _)
  · exact shopSafe_of_each (each_pure _)

theorem merchantCreateApptoken_shop :
    ShopSafe db₀ c a u r q (merchantCreateApptoken ctx a) := by
  simp only [merchantCreateApptoken]
  refine thisUser_shop fun v hv => ?_
  refine .bind (shopSafe_of_each (genUuid_each (by simp [offShop]))) fun token => ?_
  refine .bind (asyncWrite_shop ?_) fun _ => shopSafe_of_each (each_pure _)
  rintro s _ x db ⟨⟩
  refine ⟨⟨rfl, ?_, rfl⟩, rfl⟩
  simp [SameRows, List.filter_append, hv]

/-- The tokens with the given text are all of user `u`. -/
def Db.TokenOf (db : Db) (u : Nat) (apptoken : String) : Prop :=
  ∀ t ∈ db.apptokens, t.apptoken = apptoken → t.uid = u

theorem merchantDeleteApptoken_shop {params : JsonObject}
    (h : db₀.TokenOf u (Json.getString params "apptoken")) :
    ShopSafe db₀ c a u r q (merchantDeleteApptoken ctx params) := by
  simp only [merchantDeleteApptoken]
  refine .bind (asyncWrite_shop ?_) fun _ => shopSafe_of_each (each_pure _)
  rintro s hi x db ⟨⟩
  refine ⟨⟨rfl, sameRows_filter fun t ht hk => ?_, rfl⟩, rfl⟩
  have htoken : t.apptoken = Json.getString params "apptoken" := by simpa using hk
  by_contra hother
  -- a token of somebody else was there from the beginning
  have hmem : t ∈ s.db.apptokens.filter fun x => x.uid ≠ u :=
    List.mem_filter.mpr ⟨ht, by simpa using hother⟩
  rw [show (s.db.apptokens.filter fun x => x.uid ≠ u) = _ from hi.kept.apptokens] at hmem
  have huid := h t (List.mem_of_mem_filter hmem) htoken
  simp [huid] at hother

/-- Every request of a merchant keeps the shop, the deletion of a token if it is one
of the merchant. -/
theorem handlerOf_shop {method : ReqMethod} {params : JsonObject} (hr : ctx.req = r)
    (hc : ctx.conn = c) (hapi : method.api = .merchant)
    (htoken : method = .merchantDeleteApptoken →
      db₀.TokenOf u (Json.getString params "apptoken")) :
    ShopSafe db₀ c a u r q (handlerOf cfg ctx method params) := by
  have hseller : (do return (← thisMerchant a).uid : M Nat).Each (Keeps offShop r) :=
    Co.each_bind (thisMerchant_each a) fun _ => each_pure _
  have hend : ∀ {β : Type} {o : CmallOrder} (x : β), SoldSafe db₀ c a u r q o (pure x) :=
    fun x => (shopSafe_of_each (each_pure x)).sold
  have hstore : ∀ {o row : CmallOrder} {change : OrderChange}
      {stamp : PTime → CmallOrder → CmallOrder} (reply : Reply),
      (∀ now, (stamp now row).id = o.id ∧ (stamp now row).seller = o.seller) →
      SoldSafe db₀ c a u r q o (do storeOrder ctx change row stamp; return reply) :=
    fun reply h => Triple.bind (storeOrder_shop h) fun _ => shopSafe_of_each (each_pure _)
  cases method <;> first | (cases hapi; done) | skip
  all_goals
    simp only [handlerOf, ReqMethod.api, handleJsonrpcMerchantApi]
    refine merchantEntry_shop hc ?_
  case merchantInfo => exact merchantInfo_shop
  case merchantSoldOrdersCheckPayment =>
    refine loadSoldOrder_shop fun o => ?_
    split
    · exact hend _
    · exact Triple.bind (orderCheckPayment_shop hr hseller) fun _ => shopSafe_of_each (each_pure _)
  case merchantSoldOrdersMarkPayed =>
    refine loadSoldOrder_shop fun o => ?_
    split
    · exact hend _
    · exact Triple.bind (orderMarkPayed_shop hr hseller) fun _ => shopSafe_of_each (each_pure _)
  case merchantAlterOrderPrice =>
    refine loadSoldOrder_shop fun o => ?_
    refine .skip (newNumeric_each _) fun _ => .skip (newNumeric_each _) fun _ => ?_
    exact hstore _ fun _ => ⟨rfl, rfl⟩
  case merchantSoldOrdersAddKuaidi =>
    exact loadSoldOrder_shop fun o => hstore _ fun _ => ⟨rfl, rfl⟩
  case merchantDeleteSoldOrders =>
    exact loadSoldOrder_shop fun o => .skip localTime_each fun _ => hstore _ fun _ => ⟨rfl, rfl⟩
  case merchantResetGiteaPassword => exact merchantResetGiteaPassword_shop
  case merchantCreateApptoken => exact merchantCreateApptoken_shop
  case merchantDeleteApptoken => exact merchantDeleteApptoken_shop (htoken rfl)
  case merchantAlterName => exact merchantAlterName_shop params
  all_goals
    subst hr
    refine shopSafe_of_each ?_
    repeat' first
      | with_reducible refine Co.each_bind ?_ fun _ => ?_
      | (simp [offShop]; done)
      | split

end Handlers

/-- One after the other, a request of a merchant leaves the rows of the others alone. -/
theorem shop_turn {cfg : Config} {s : Service} {c a u : Nat} {method : ReqMethod}
    {params : JsonObject} (h : Shop s.mem.db c a u s.mem) (hapi : method.api = .merchant)
    (htoken : method = .merchantDeleteApptoken →
      s.mem.db.TokenOf u (Json.getString params "apptoken")) (is : List Input) :
    s.mem.db.OthersKept u (s.turn (prog cfg) (.jsonrpc c method params) is).mem.db := by
  have halone : Alone s.procs.length (Request.jsonrpc c method params) (Shop s.mem.db c a u)
      (fun _ _ => True) (fun _ => True) (prog cfg s.procs.length (.jsonrpc c method params))
      s.mem := by
    refine alone_of_triple (L := fun _ => True) (fun _ => ?_) h trivial
    refine .bind (triple_handleJsonrpcCall (fun _ _ _ => trivial)
      (handlerOf_shop (by rfl) (by rfl) hapi htoken)) fun reply => ?_
    exact shopSafe_of_each (emit_each (by simp [offShop, Event.part]) rfl)
  exact (turn_alone is halone).1.kept

/-- A deletion whose transaction succeeds erases every token with the text. -/
theorem deleteApptoken_turn {cfg : Config} {s : Service} {c a : Nat} {params : JsonObject}
    (hconn : (s.mem.conn c).sessionInfo = some a) (huser : (s.mem.heap a).userInfo.isSome = true)
    (hmerchant : (s.mem.heap a).isMerchant = true)
    (hinfo : (s.mem.heap a).merchantInfo.isSome = true) :
    (s.turn (prog cfg) (.jsonrpc c .merchantDeleteApptoken params) [{}, {}]).mem.db.apptokens =
      s.mem.db.apptokens.filter fun t => ¬ t.apptoken = Json.getString params "apptoken" := by
  obtain ⟨v, hv⟩ := Option.isSome_iff_exists.mp huser
  obtain ⟨m, hm⟩ := Option.isSome_iff_exists.mp hinfo
  rw [Sys.turn_eq]
  simp [prog, serve, handleJsonrpcCall, ReqMethod.api, ensureLogin, thisSession, getSession, thisUser,
    thisMerchant, hm, merchantEntry, handleJsonrpcMerchantApi, merchantDeleteApptoken, asyncWrite, tx, Co.suspend, Co.get,
    Co.modifyGet, Co.feed, Co.resume, Co.advance, Table.eraseQuery, Request.conn, hconn, hv, hmerchant]

/-- A request of the merchant `u` leaves the orders of other sellers, the tokens of other
users and the rows of other merchants as they are, whatever answers it gets, if and only
if it is not the deletion of a token of somebody else. -/
theorem merchant_requests_keep_others (cfg : Config) (s : Service) (c a u : Nat)
    (method : ReqMethod) (params : JsonObject) (hapi : method.api = .merchant)
    (hids : (s.mem.db.orders.map CmallOrder.id).Nodup)
    (hconn : (s.mem.conn c).sessionInfo = some a) (hrole : (s.mem.heap a).isMerchant = true)
    (huser : (s.mem.heap a).uid = some u)
    (hmerchant : (s.mem.heap a).merchantInfo.map CmallMerchant.uid = some u) :
    (∀ is, s.mem.db.OthersKept u (s.turn (prog cfg) (.jsonrpc c method params) is).mem.db) ↔
      (method = .merchantDeleteApptoken →
        ∀ t ∈ s.mem.db.apptokens, t.apptoken = Json.getString params "apptoken" → t.uid = u) := by
  constructor
  · rintro h rfl t ht htoken
    by_contra hother
    have hsome : (s.mem.heap a).userInfo.isSome = true := by
      cases hu : (s.mem.heap a).userInfo with
      | none => simp [ClientSession.uid, hu] at huser
      | some v => rfl
    have hinfo : (s.mem.heap a).merchantInfo.isSome = true := by
      cases hm : (s.mem.heap a).merchantInfo with
      | none => simp [hm] at hmerchant
      | some m => rfl
    have hkept := (h [{}, {}]).apptokens
    rw [SameRows, deleteApptoken_turn hconn hsome hrole hinfo] at hkept
    have hmem : t ∈ s.mem.db.apptokens.filter fun x => x.uid ≠ u :=
      List.mem_filter.mpr ⟨ht, by simpa using hother⟩
    rw [← hkept] at hmem
    simp [htoken] at hmem
  · intro htoken is
    exact shop_turn ⟨.refl u _, hids, hconn, huser, hmerchant⟩ hapi htoken is

/-! ## The token of another merchant -/

/-- Merchants 1 and 2 have a token each; connection 0 is that of merchant 1. -/
def twoTokens : Mem where
  db :=
    { users := [{ uid := 1 }, { uid := 2 }]
      merchants := [{ uid := 1 }, { uid := 2 }]
      apptokens := [⟨"t1", 1⟩, ⟨"t2", 2⟩] }
  heapTop := 1
  heap _ := { sessionId := uuidOf 0 0, userInfo := some { uid := 1 }
              merchantInfo := some { uid := 1 }, isMerchant := true }
  conn _ := { sessionInfo := some 0 }

/-- Merchant 1 deletes its own token. -/
theorem merchant_requests_keep_others_own_token :
    twoTokens.db.OthersKept 1 ((Sys.idle twoTokens : Service).turn (prog bareConfig)
      (.jsonrpc 0 .merchantDeleteApptoken [("apptoken", .string "t1")]) [{}, {}, {}]).mem.db :=
  (merchant_requests_keep_others bareConfig (Sys.idle twoTokens) 0 0 1 .merchantDeleteApptoken
    [("apptoken", .string "t1")] rfl (by decide) rfl rfl rfl rfl).mpr (by decide) _

/-- Merchant 1 deletes the token of merchant 2. -/
theorem merchant_deletes_token_of_another :
    ¬ twoTokens.db.OthersKept 1 ((Sys.idle twoTokens : Service).turn (prog bareConfig)
      (.jsonrpc 0 .merchantDeleteApptoken [("apptoken", .string "t2")]) [{}, {}, {}]).mem.db := by
  intro h
  have hkept := h.apptokens
  revert hkept
  unfold SameRows
  decide

end Cmall
