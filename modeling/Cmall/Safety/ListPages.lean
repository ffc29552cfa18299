import Cmall.Footprint.Answers
import Cmall.Paging
import Mathlib.Tactic.IntervalCases

/-!
The pages of `order_list`, `merchant_list_sold_orders`, `cart_list` and `fav_list`.

The rows are ordered by `created_at` alone, and every page is a query of its own. Rows of one
time are read in an order that each query chooses anew: the pages give back every row once,
whatever is chosen, exactly when no two rows have one time.
-/

namespace Cmall
open Coroutine

inductive Listing where
  | orderList
  | soldOrders
  | cartList
  | favList
  deriving DecidableEq, Repr

def Listing.method : Listing → ReqMethod
  | orderList => .orderList
  | soldOrders => .merchantListSoldOrders
  | cartList => .cartList
  | favList => .favList

/-- The orders that are not deleted and have the status. -/
def matchingOrders (db : Db) (status : String) (mine : CmallOrder → Bool) : List CmallOrder :=
  db.orders.filter fun o => mine o ∧ o.deletedAt = none ∧ statusMatches status o

/-- The key and the time of every row that matches. -/
def Listing.rows (db : Db) (uid : Nat) (status : String) : Listing → List (Nat × PTime)
  | orderList =>
    (matchingOrders db status fun o => o.buyer = uid).map fun o => (o.id, o.createdAt)
  | soldOrders =>
    (matchingOrders db status fun o => o.seller = uid).map fun o => (o.id, o.createdAt)
  | cartList => (db.carts.filter fun x => x.uid = uid).map fun x => (x.id, x.createdAt)
  | favList => (db.favs.filter fun x => x.uid = uid).map fun x => (x.id, x.createdAt)

/-- The keys of the rows in a reply. -/
def Reply.ids : Reply → List Nat
  | orders l _ => l.map CmallOrder.id
  | carts l => l.map CmallCart.id
  | favs l => l.map CmallUserFav.id
  | _ => []

/-- The count in a reply. -/
def Reply.count? : Reply → Option Nat
  | orders _ count => some count
  | _ => none

/-- The listings that report a count. -/
def Listing.counts : Listing → Bool
  | orderList | soldOrders => true
  | cartList | favList => false

/-- A request for a page. -/
structure Asks (params : JsonObject) (page pageSize : Int) (status : String) : Prop where
  page : Json.get params "page" (.int64 0) = .int64 page
  pageSize : Json.get params "page_size" (.int64 20) = .int64 pageSize
  status : Json.getString params "status" = status

/-- The session of a request: a user, and for the sold orders a merchant. -/
structure Session (m : Mem) (ctx : Ctx) (a : Nat) (u : CmallUser) (l : Listing) : Prop where
  session : (m.conn ctx.conn).sessionInfo = some a
  user : (m.heap a).userInfo = some u
  isMerchant : l = .soldOrders → (m.heap a).isMerchant = true
  merchant : l = .soldOrders → (m.heap a).merchantInfo.isSome = true

/-- The database does what it is asked, and returns rows of one time in this order. -/
def chooses (ties : List Nat) : Input := { ties }

/-- Whatever the database chooses for each page, the pages together hold every row once, and
the counts are the number of rows. -/
def PagesPartition (cfg : Config) (m : Mem) (ctx : Ctx) (l : Listing)
    (rows : List (Nat × PTime)) (status : String) : Prop :=
  ∀ (pageSize k : Nat) (params : Nat → JsonObject) (ties : Nat → List Nat),
    1 ≤ pageSize → rows.length ≤ k * pageSize → k * pageSize ≤ 2 ^ 63 →
    (∀ p < k, Asks (params p) p pageSize status) →
    ∃ replies : Nat → Reply,
      (∀ p < k, ((handleJsonrpcCall cfg ctx l.method (params p)).eval (chooses (ties p)) m).1 =
        .ok (replies p)) ∧
      ((List.range k).flatMap fun p => (replies p).ids).Perm (rows.map Prod.fst) ∧
      ∀ p < k, l.counts = true → (replies p).count? = some rows.length

/-! ## The order of one query -/

section Order

variable {α : Type} {id : α → Nat} {createdAt : α → Int} {ties : List Nat} {rows : List α}

/-- `x` is read before `y`. -/
def Before (id : α → Nat) (createdAt : α → Int) (ties : List Nat) (x y : α) : Prop :=
  createdAt y < createdAt x ∨
    createdAt x = createdAt y ∧ ties.idxOf (id x) ≤ ties.idxOf (id y)

instance : DecidableRel (Before id createdAt ties) := fun x y =>
  inferInstanceAs (Decidable (createdAt y < createdAt x ∨
    createdAt x = createdAt y ∧ ties.idxOf (id x) ≤ ties.idxOf (id y)))

theorem before_iff {x y : α} : Before id createdAt ties x y ↔ createdAt y < createdAt x ∨
    createdAt x = createdAt y ∧ ties.idxOf (id x) ≤ ties.idxOf (id y) := Iff.rfl

instance : Std.Total (Before id createdAt ties) where
  total x y := by
    rw [before_iff, before_iff]
    omega

instance : IsTrans α (Before id createdAt ties) where
  trans x y z hxy hyz := by
    rw [before_iff] at *
    omega

/-- All rows in the order of a query. -/
def ordered (id : α → Nat) (createdAt : α → Int) (ties : List Nat) (rows : List α) : List α :=
  rows.insertionSort (Before id createdAt ties)

theorem ordered_perm : (ordered id createdAt ties rows).Perm rows :=
  List.perm_insertionSort _ rows

theorem ordered_pairwise : (ordered id createdAt ties rows).Pairwise (Before id createdAt ties) :=
  List.pairwise_insertionSort _ rows

theorem pageOf_eq (pageSize p : Nat) : pageOf id createdAt ties pageSize (p * pageSize : Nat) rows =
    some (Paging.page pageSize p (ordered id createdAt ties rows)) := by
  rw [pageOf, if_neg (by omega)]
  rfl

/-- Rows of different times are read in one order. -/
theorem ordered_const (h : (rows.map createdAt).Nodup) (ties' : List Nat) :
    ordered id createdAt ties rows = ordered id createdAt ties' rows := by
  -- both orders are sorted by time, newest first
  have hsorted : ∀ ties, (ordered id createdAt ties rows).Pairwise fun x y =>
      createdAt y ≤ createdAt x := by
    intro ties
    refine ordered_pairwise.imp fun {x y} hxy => ?_
    rw [before_iff] at hxy
    omega
  refine List.Perm.eq_of_pairwise ?_ (hsorted ties) (hsorted ties')
    (ordered_perm.trans ordered_perm.symm)
  intro x y hx hy hxy hyx
  exact List.inj_on_of_nodup_map h (ordered_perm.mem_iff.mp hx) (ordered_perm.mem_iff.mp hy)
    (Int.le_antisymm hyx hxy)

/-- A query that prefers `x` reads it before a row of the same time. -/
theorem ordered_prefers [DecidableEq α] {x y : α} (hrows : rows.Nodup) (hx : x ∈ rows)
    (hy : y ∈ rows) (hid : id x ≠ id y) (htime : createdAt x = createdAt y) :
    (ordered id createdAt [id x] rows).idxOf x < (ordered id createdAt [id x] rows).idxOf y := by
  have hne : x ≠ y := fun h => hid (by rw [h])
  have hmem : x ∈ ordered id createdAt [id x] rows := ordered_perm.mem_iff.mpr hx
  have hmem' : y ∈ ordered id createdAt [id x] rows := ordered_perm.mem_iff.mpr hy
  have hnodup : (ordered id createdAt [id x] rows).Nodup := ordered_perm.nodup_iff.mpr hrows
  have hpair : (ordered id createdAt [id x] rows).Pairwise (Before id createdAt [id x]) :=
    ordered_pairwise
  obtain ⟨front, back, hsplit⟩ := List.append_of_mem hmem
  rw [hsplit] at hpair hnodup hmem' ⊢
  have hx' : x ∉ front := by
    intro h
    exact (List.nodup_append.mp hnodup).2.2 x h x List.mem_cons_self rfl
  have hy' : y ∉ front := by
    intro h
    have hbefore := (List.pairwise_append.mp hpair).2.2 y h x List.mem_cons_self
    rw [before_iff, List.idxOf_cons_self, List.idxOf_cons_ne [] hid] at hbefore
    omega
  rw [List.idxOf_append_of_notMem hx', List.idxOf_append_of_notMem hy', List.idxOf_cons_self,
    List.idxOf_cons_ne back hne]
  omega

/-- Two rows of one time are read in either order. -/
theorem ordered_ne [DecidableEq α] {x y : α} (hrows : rows.Nodup) (hx : x ∈ rows) (hy : y ∈ rows)
    (hid : id x ≠ id y) (htime : createdAt x = createdAt y) :
    ordered id createdAt [id x] rows ≠ ordered id createdAt [id y] rows := by
  intro heq
  have hxy := ordered_prefers hrows hx hy hid htime
  have hyx := ordered_prefers hrows hy hx (Ne.symm hid) htime.symm
  rw [← heq] at hyx
  omega

theorem map_ordered :
    (ordered id createdAt ties rows).map (fun x => (id x, createdAt x)) =
      ordered Prod.fst Prod.snd ties (rows.map fun x => (id x, createdAt x)) :=
  List.map_insertionSort _ _ _ _ fun _ _ _ _ => Iff.rfl

/-- The keys of a page. -/
def pageIds (ties : List Nat) (pageSize p : Nat) (rows : List (Nat × PTime)) : List Nat :=
  (Paging.page pageSize p (ordered Prod.fst Prod.snd ties rows)).map Prod.fst

theorem map_page (pageSize p : Nat) :
    (Paging.page pageSize p (ordered id createdAt ties rows)).map id =
      pageIds ties pageSize p (rows.map fun x => (id x, createdAt x)) := by
  rw [pageIds, ← map_ordered, Paging.page, Paging.page, ← List.map_drop, ← List.map_take,
    List.map_map]
  rfl

end Order

/-! ## The handlers -/

section Handlers

variable {cfg : Config} {m : Mem} {ctx : Ctx} {a : Nat} {u : CmallUser} {params : JsonObject}
  {status : String} {pageSize p : Nat} {α : Type} {i : Input} {l : Listing}

theorem asyncLoadPage_eval (hi : i.dbOk = true) (id : α → Nat) (createdAt : α → PTime)
    (f : Db → List α) (hfits : p * pageSize < 2 ^ 63) :
    (asyncLoadPage ctx id createdAt p pageSize f).eval i m =
      (.ok (Paging.page pageSize p (ordered id createdAt i.ties (f m.db))), m) := by
  have hoffset : Int.bmod ((p : Int) * pageSize) (2 ^ 64) = (p * pageSize : Nat) := by
    rw [← Int.natCast_mul]
    exact Int.bmod_eq_of_le (by omega) (by omega)
  refine tx_eval hi ?_
  rw [hoffset, pageOf_eq]

theorem Asks.page_eq (h : Asks params p pageSize status) :
    (Json.get params "page" (.int64 0)).asInt64 = .ok (p : Int) := by
  rw [h.page]
  rfl

theorem Asks.pageSize_eq (h : Asks params p pageSize status) :
    (Json.get params "page_size" (.int64 20)).asInt64 = .ok (pageSize : Int) := by
  rw [h.pageSize]
  rfl

/-- The reply of `order_list` and `merchant_list_sold_orders`. -/
theorem listOrders_eval (hi : i.dbOk = true) (hasks : Asks params p pageSize status)
    (hfits : p * pageSize < 2 ^ 63) (mine : CmallOrder → Bool) :
    ((listOrders ctx params mine).eval i m).1 =
      .ok (.orders (Paging.page pageSize p (ordered CmallOrder.id CmallOrder.createdAt i.ties
        (matchingOrders m.db status mine))) (matchingOrders m.db status mine).length) := by
  rw [listOrders, Co.eval_bind_ok (liftExcept_eval hasks.page_eq),
    Co.eval_bind_ok (liftExcept_eval hasks.pageSize_eq)]
  simp only [hasks.status]
  rw [Co.eval_bind_ok (asyncLoad_eval hi _ _), Co.eval_bind_ok (asyncLoadPage_eval hi _ _ _ hfits)]
  rfl

/-- Filling in the names leaves the keys as they are. -/
theorem fillMerchantName_eval (ctx : Ctx) (m : Mem) (merchantId : α → Nat) (hi : i.dbOk = true)
    {id : α → Nat}
    {setName : α → String → α} (hid : ∀ x name, id (setName x name) = id x) (items : List α)
    (cache : List (Nat × CmallMerchant)) (vanished : List Nat) :
    ∃ named vanished', (fillMerchantName ctx merchantId setName items cache vanished).eval i m =
      (.ok (named, vanished'), m) ∧ named.map id = items.map id := by
  induction items generalizing cache vanished with
  | nil => exact ⟨[], vanished, rfl, rfl⟩
  | cons cc items ih =>
    rw [fillMerchantName]
    cases cache.lookup (merchantId cc) with
    | some mer =>
      obtain ⟨named, vanished', heval, hids⟩ := ih cache vanished
      exact ⟨setName cc mer.name :: named, vanished', Co.eval_bind_ok heval, by simp [hid, hids]⟩
    | none =>
      simp only
      rw [Co.eval_bind_ok (asyncLoad_eval hi _ _)]
      cases m.db.findMerchant (merchantId cc) with
      | some mer =>
        obtain ⟨named, vanished', heval, hids⟩ := ih ((merchantId cc, mer) :: cache) vanished
        exact ⟨setName cc mer.name :: named, vanished', Co.eval_bind_ok heval, by simp [hid, hids]⟩
      | none =>
        obtain ⟨named, vanished', heval, hids⟩ := ih cache (setInsert (merchantId cc) vanished)
        exact ⟨cc :: named, vanished', Co.eval_bind_ok heval, by simp [hids]⟩

theorem eraseVanished_eval (ctx : Ctx) (m : Mem) (hi : i.dbOk = true) (erase : Db → Nat → Db)
    (vanished : List Nat) :
    ∃ t, (eraseVanished ctx erase vanished).eval i m = (.ok (), t) := by
  induction vanished generalizing m with
  | nil => exact ⟨m, rfl⟩
  | cons merchantId vanished ih =>
    obtain ⟨t, ht⟩ := ih { m with db := erase m.db merchantId }
    refine ⟨t, ?_⟩
    rw [eraseVanished, Co.eval_bind_ok (asyncWrite_eval hi rfl _ _)]
    exact ht

theorem ensureLogin_eval (hs : Session m ctx a u l) :
    (ensureLogin ctx false (l = .soldOrders)).eval i m = (.ok (), m) := by
  rw [ensureLogin, Co.eval_bind_ok (thisSession_eval hs.session), Co.eval_bind_ok getSession_eval]
  by_cases hl : l = .soldOrders
  · simp [hs.user, hs.isMerchant hl]
  · simp [hs.user, hl]

/-- A request that needs a login goes on to its handler. -/
theorem call_eval (hs : Session m ctx a u l) (x : M Reply)
    (hcall : handleJsonrpcCall cfg ctx l.method params = (do
      if l.method ≠ .recoverSession ∧ ((← Co.get).conn ctx.conn).sessionInfo = none then
        Co.throw (.system .sessionNeeded)
      else
        ensureLogin ctx false (l = .soldOrders)
        x)) :
    (handleJsonrpcCall cfg ctx l.method params).eval i m = x.eval i m := by
  rw [hcall, Co.eval_bind_ok Co.eval_get, hs.session, if_neg (by simp)]
  exact Co.eval_bind_ok (ensureLogin_eval hs)

theorem orderList_eval (hs : Session m ctx a u .orderList) :
    (handleJsonrpcCall cfg ctx Listing.orderList.method params).eval i m =
      (listOrders ctx params fun o => o.buyer = u.uid).eval i m := by
  rw [call_eval hs (handleJsonrpcOrderApi cfg ctx .orderList params) rfl,
    handleJsonrpcOrderApi, Co.eval_bind_ok (thisSession_eval hs.session)]
  simp only
  rw [Co.eval_bind_ok (thisUser_eval hs.user)]

theorem soldOrders_eval (hs : Session m ctx a u .soldOrders) :
    (handleJsonrpcCall cfg ctx Listing.soldOrders.method params).eval i m =
      (listOrders ctx params fun o => o.seller = u.uid).eval i m := by
  obtain ⟨mer, hmer⟩ := Option.isSome_iff_exists.mp (hs.merchant rfl)
  have hmerchant : (thisMerchant a).eval i m = (.ok mer, m) := by
    rw [thisMerchant, Co.eval_bind_ok getSession_eval, hmer]
    rfl
  rw [call_eval hs (handleJsonrpcMerchantApi cfg ctx .merchantListSoldOrders params) rfl,
    handleJsonrpcMerchantApi, merchantEntry_bind, Co.eval_bind_ok (thisSession_eval hs.session),
    Co.eval_bind_ok (thisUser_eval hs.user), Co.eval_bind_ok hmerchant]
  simp only
  rw [Co.eval_bind_ok (thisUser_eval hs.user)]

/-- A page whose rows are given the names of their merchants. -/
theorem namedPage_eval (hi : i.dbOk = true) (id merchantId : α → Nat) (createdAt : α → PTime)
    (setName : α → String → α) (hid : ∀ x name, id (setName x name) = id x) (f : Db → List α)
    (hfits : p * pageSize < 2 ^ 63) (erase : Db → Nat → Db) (wrap : List α → Reply)
    {k : List α × List Nat → M Reply} (hk : ∀ items vanished, k (items, vanished) =
      (eraseVanished ctx erase vanished >>= fun _ => pure (wrap items))) :
    ∃ items, ((asyncLoadPage ctx id createdAt p pageSize f >>= fun items =>
        fillMerchantName ctx merchantId setName items [] [] >>= k).eval i m).1 = .ok (wrap items) ∧
      items.map id = (Paging.page pageSize p (ordered id createdAt i.ties (f m.db))).map id := by
  obtain ⟨named, vanished, hfill, hids⟩ := fillMerchantName_eval ctx m merchantId hi hid
    (Paging.page pageSize p (ordered id createdAt i.ties (f m.db))) [] []
  obtain ⟨t, ht⟩ := eraseVanished_eval ctx m hi erase vanished
  rw [Co.eval_bind_ok (asyncLoadPage_eval hi _ _ _ hfits), Co.eval_bind_ok hfill, hk,
    Co.eval_bind_ok ht]
  exact ⟨named, rfl, hids⟩

theorem cartList_eval (cfg : Config) (hi : i.dbOk = true) (hs : Session m ctx a u .cartList)
    (hasks : Asks params p pageSize status) (hfits : p * pageSize < 2 ^ 63) :
    ∃ items, ((handleJsonrpcCall cfg ctx Listing.cartList.method params).eval i m).1 = .ok (.carts items) ∧
      items.map CmallCart.id = (Paging.page pageSize p (ordered CmallCart.id CmallCart.createdAt
        i.ties (m.db.carts.filter fun x => x.uid = u.uid))).map CmallCart.id := by
  rw [call_eval hs (handleJsonrpcCartApi ctx .cartList params) rfl, handleJsonrpcCartApi,
    Co.eval_bind_ok (thisSession_eval hs.session)]
  simp only [cartList]
  rw [Co.eval_bind_ok (liftExcept_eval hasks.page_eq),
    Co.eval_bind_ok (liftExcept_eval hasks.pageSize_eq), Co.eval_bind_ok (thisUser_eval hs.user)]
  exact namedPage_eval hi CmallCart.id CmallCart.merchantId CmallCart.createdAt
    (fun cc name => { cc with merchantName := name }) (fun _ _ => rfl)
    (fun db => Table.query db.carts fun x => x.uid = u.uid) hfits Db.eraseCartsOf Reply.carts
    fun _ _ => rfl

theorem favList_eval (cfg : Config) (hi : i.dbOk = true) (hs : Session m ctx a u .favList)
    (hasks : Asks params p pageSize status) (hfits : p * pageSize < 2 ^ 63) :
    ∃ items, ((handleJsonrpcCall cfg ctx Listing.favList.method params).eval i m).1 = .ok (.favs items) ∧
      items.map CmallUserFav.id = (Paging.page pageSize p (ordered CmallUserFav.id
        CmallUserFav.createdAt i.ties (m.db.favs.filter fun x => x.uid = u.uid))).map
        CmallUserFav.id := by
  rw [call_eval hs (handleJsonrpcFavApi ctx .favList params) rfl, handleJsonrpcFavApi,
    Co.eval_bind_ok (thisSession_eval hs.session)]
  simp only [favList]
  rw [Co.eval_bind_ok (liftExcept_eval hasks.page_eq),
    Co.eval_bind_ok (liftExcept_eval hasks.pageSize_eq), Co.eval_bind_ok (thisUser_eval hs.user)]
  exact namedPage_eval hi CmallUserFav.id CmallUserFav.merchantId CmallUserFav.createdAt
    (fun cc name => { cc with merchantName := name }) (fun _ _ => rfl)
    (fun db => Table.query db.favs fun x => x.uid = u.uid) hfits Db.eraseFavsOf Reply.favs
    fun _ _ => rfl

/-- What a listing answers, for the order that the database chooses. -/
theorem listing_eval (cfg : Config) (hi : i.dbOk = true) (hs : Session m ctx a u l)
    (hasks : Asks params p pageSize status) (hfits : p * pageSize < 2 ^ 63) :
    ∃ reply, ((handleJsonrpcCall cfg ctx l.method params).eval i m).1 = .ok reply ∧
      reply.ids = pageIds i.ties pageSize p (l.rows m.db u.uid status) ∧
      (l.counts = true → reply.count? = some (l.rows m.db u.uid status).length) := by
  cases l with
  | orderList =>
    rw [orderList_eval hs, listOrders_eval hi hasks hfits]
    exact ⟨_, rfl, map_page pageSize p, fun _ => congrArg some (List.length_map _).symm⟩
  | soldOrders =>
    rw [soldOrders_eval hs, listOrders_eval hi hasks hfits]
    exact ⟨_, rfl, map_page pageSize p, fun _ => congrArg some (List.length_map _).symm⟩
  | cartList =>
    obtain ⟨items, hreply, hids⟩ := cartList_eval cfg hi hs hasks hfits
    exact ⟨_, hreply, hids.trans (map_page pageSize p), fun h => by cases h⟩
  | favList =>
    obtain ⟨items, hreply, hids⟩ := favList_eval cfg hi hs hasks hfits
    exact ⟨_, hreply, hids.trans (map_page pageSize p), fun h => by cases h⟩

end Handlers

/-! ## All pages -/

section Pages

variable {m : Mem} {ctx : Ctx} {a : Nat} {u : CmallUser} {status : String}

/-- The primary keys: unique, and of the type `BIGINT`. -/
structure PrimaryKeys (rows : List (Nat × PTime)) : Prop where
  unique : (rows.map Prod.fst).Nodup
  bigint : ∀ id ∈ rows.map Prod.fst, id < 2 ^ 63

theorem PrimaryKeys.length_le {rows : List (Nat × PTime)} (h : PrimaryKeys rows) :
    rows.length ≤ 2 ^ 63 := by
  have hsub : rows.map Prod.fst ⊆ List.range (2 ^ 63) := fun id hid =>
    List.mem_range.mpr (h.bigint id hid)
  have hlen := (List.subperm_of_subset h.unique hsub).length_le
  rwa [List.length_map, List.length_range] at hlen

theorem flatMap_pageIds (pageSize k : Nat) (ties : Nat → List Nat) (rows : List (Nat × PTime)) :
    ((List.range k).flatMap fun p => pageIds (ties p) pageSize p rows) =
      (Paging.pages pageSize k fun p => ordered Prod.fst Prod.snd (ties p) rows).map Prod.fst := by
  rw [Paging.pages, List.map_flatMap]
  rfl

/-- The request for a page. -/
def pageParams (status : String) (pageSize p : Nat) : JsonObject :=
  [("page", .int64 p), ("page_size", .int64 pageSize), ("status", .string status)]

theorem asks_pageParams (status : String) (pageSize p : Nat) :
    Asks (pageParams status pageSize p) p pageSize status := ⟨rfl, rfl, rfl⟩

/-- What the first `k` pages together hold. -/
theorem replies_ids {cfg : Config} {l : Listing} (hs : Session m ctx a u l) {pageSize k : Nat}
    {params : Nat → JsonObject} {ties : Nat → List Nat} {replies : Nat → Reply}
    (hasks : ∀ p < k, Asks (params p) p pageSize status) (hfits : ∀ p < k, p * pageSize < 2 ^ 63)
    (hreplies : ∀ p < k, ((handleJsonrpcCall cfg ctx l.method (params p)).eval
      (chooses (ties p)) m).1 = .ok (replies p)) :
    ((List.range k).flatMap fun p => (replies p).ids) =
      (Paging.pages pageSize k fun p =>
        ordered Prod.fst Prod.snd (ties p) (l.rows m.db u.uid status)).map Prod.fst := by
  rw [← flatMap_pageIds]
  refine List.flatMap_congr fun p hp => ?_
  have hp' := List.mem_range.mp hp
  obtain ⟨reply, hreply, hids, -⟩ :=
    listing_eval cfg (i := chooses (ties p)) rfl hs (hasks p hp') (hfits p hp')
  rw [hreplies p hp'] at hreply
  cases hreply
  exact hids

/-- Two different rows of one time. -/
theorem exists_same_time {rows : List (Nat × PTime)} (hkeys : PrimaryKeys rows)
    (h : ¬ (rows.map Prod.snd).Nodup) : ∃ x ∈ rows, ∃ y ∈ rows, x.1 ≠ y.1 ∧ x.2 = y.2 := by
  by_contra hno
  push Not at hno
  apply h
  refine List.Nodup.map_on (fun x hx y hy htime => ?_) (List.Nodup.of_map _ hkeys.unique)
  by_contra hne
  have hid : x.1 = y.1 := by
    by_contra hid
    exact hno x hx y hy hid htime
  exact hne (Prod.ext hid htime)

/-- The pages are a partition of the rows exactly when no two rows have one time. -/
theorem pages_partition_iff (cfg : Config) {l : Listing} (hs : Session m ctx a u l)
    (hkeys : PrimaryKeys (l.rows m.db u.uid status)) :
    PagesPartition cfg m ctx l (l.rows m.db u.uid status) status ↔
      ((l.rows m.db u.uid status).map Prod.snd).Nodup := by
  constructor
  · intro h
    by_contra htimes
    obtain ⟨x, hx, y, hy, hid, htime⟩ := exists_same_time hkeys htimes
    have hrows : (l.rows m.db u.uid status).Nodup := List.Nodup.of_map _ hkeys.unique
    -- one query reads `x` first, another one `y`
    have hne := ordered_ne hrows hx hy hid htime
    obtain ⟨order, horder, hrepeat⟩ := Paging.exists_repeat
      (ordered_perm.trans ordered_perm.symm) hne
    choose ties hties using fun p => show ∃ ties, order p =
        ordered Prod.fst Prod.snd ties (l.rows m.db u.uid status) from
      (horder p).elim (fun h => ⟨_, h⟩) fun h => ⟨_, h⟩
    have hlen : (ordered Prod.fst Prod.snd [x.1] (l.rows m.db u.uid status)).length =
        (l.rows m.db u.uid status).length := ordered_perm.length_eq
    have hfits := hkeys.length_le
    rw [hlen] at hrepeat
    obtain ⟨replies, hreplies, hperm, -⟩ := h 1 (l.rows m.db u.uid status).length
      (pageParams status 1) ties (Nat.le_refl 1) (by omega) (by omega)
      fun p _ => asks_pageParams status 1 p
    rw [replies_ids hs (fun p _ => asks_pageParams status 1 p) (fun p hp => by omega) hreplies,
      ← funext hties] at hperm
    exact hrepeat (List.Nodup.of_map _ (hperm.nodup_iff.mpr hkeys.unique))
  · intro htimes pageSize k params ties hsize hcover hfits hasks
    have hoffset : ∀ p < k, p * pageSize < 2 ^ 63 := by
      intro p hp
      have hlt := Nat.mul_lt_mul_of_pos_right hp hsize
      omega
    have : Nonempty Reply := ⟨.empty⟩
    choose! replies hreplies hids hcount using fun p (hp : p < k) =>
      listing_eval cfg (i := chooses (ties p)) rfl hs (hasks p hp) (hoffset p hp)
    refine ⟨replies, hreplies, ?_, hcount⟩
    have hconst : (fun p => ordered Prod.fst Prod.snd (ties p) (l.rows m.db u.uid status)) =
        fun _ => ordered Prod.fst Prod.snd [] (l.rows m.db u.uid status) :=
      funext fun p => ordered_const htimes []
    rw [replies_ids hs hasks hoffset hreplies, hconst,
      Paging.pages_const_of_le (by rw [ordered_perm.length_eq]; exact hcover)]
    exact ordered_perm.map Prod.fst

end Pages

/-! ## Two orders -/

/-- User 1 has made two orders. -/
def twoOrders (time time' : PTime) : Mem where
  db := { orders := [{ id := 1, oid := "A", buyer := 1, createdAt := time },
    { id := 2, oid := "B", buyer := 1, createdAt := time' }] }
  heap _ := { sessionId := "s", userInfo := some { uid := 1 } }
  conn _ := { sessionInfo := some 0 }

def anyConfig : Config := { numeric := fun _ => none, wxpayAppids := [] }

theorem twoOrders_session (time time' : PTime) :
    Session (twoOrders time time') ⟨0, 0⟩ 0 { uid := 1 } .orderList where
  session := rfl
  user := rfl
  isMerchant h := by cases h
  merchant h := by cases h

theorem pages_of_two_times :
    PagesPartition anyConfig (twoOrders 5 6) ⟨0, 0⟩ .orderList
      (Listing.orderList.rows (twoOrders 5 6).db 1 "") "" :=
  (pages_partition_iff anyConfig (twoOrders_session 5 6) ⟨by decide, by decide⟩).mpr (by decide)

/-- Two orders of one second: the first order is on both pages, the other one on none. -/
theorem order_on_both_pages :
    ¬ PagesPartition anyConfig (twoOrders 5 5) ⟨0, 0⟩ .orderList
      (Listing.orderList.rows (twoOrders 5 5).db 1 "") "" := by
  intro h
  obtain ⟨replies, hreplies, hperm, -⟩ := h 1 2 (pageParams "" 1) (fun p => [p + 1])
    (by decide) (by decide) (by decide) fun p _ => asks_pageParams "" 1 p
  have hids : ∀ p < 2, (replies p).ids = [1] := by
    intro p hp
    have hreply := congrArg (Except.map Reply.ids) (hreplies p hp)
    have heval : (((handleJsonrpcCall anyConfig ⟨0, 0⟩ Listing.orderList.method
        (pageParams "" 1 p)).eval (chooses [p + 1]) (twoOrders 5 5)).1).map Reply.ids = .ok [1] := by
      interval_cases p <;> decide +kernel
    rw [heval] at hreply
    exact (Except.ok.inj hreply).symm
  have htwice : ((List.range 2).flatMap fun p => (replies p).ids) = [1, 1] := by
    show (replies 0).ids ++ ((replies 1).ids ++ []) = [1, 1]
    rw [hids 0 (by decide), hids 1 (by decide)]
    rfl
  rw [htwice] at hperm
  exact absurd hperm (by decide)

end Cmall
