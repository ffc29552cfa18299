import Cmall.Coroutine.Sequential
import Cmall.Safety.OrderGoods
import Mathlib.Algebra.BigOperators.Group.List.Basic
import Mathlib.Algebra.Field.Rat

/-!
What an order costs.

The first half says what the price of an order ought to be, from the repository of the
merchants and from the three things a client chooses for an item: its merchant, its
product and, for every option, a selection. The second half shows that `order_create`
computes just that when it accepts a request, and that it rejects the requests for
which there is no such price.
-/

namespace Cmall
open Coroutine Protocol

/-! ## What a client chooses -/

/-- An entry of the options of an item. -/
structure Choice where
  option : String
  select : Option String
  deriving DecidableEq, Repr

def choiceOf (entry : Json) : Option Choice :=
  match entry with
  | .object kvs =>
    match Json.at? kvs "option" with
    | some (.string title) => some ⟨title, (Json.at? kvs "select").map fun v => Json.jsonAsString v⟩
    | _ => none
  | _ => none

/-- What a client chooses by an item; nothing else in the request is looked at. -/
structure LineItem where
  merchantId : Nat
  goodsId : String
  choices : List (Option Choice)
  deriving DecidableEq, Repr

def GoodsItem.line (item : GoodsItem) : LineItem :=
  ⟨item.merchantId, item.goodsId, item.options.map choiceOf⟩

/-- The selection of an option: the first of its name among those of the product, for the
first entry of the client with the title of the option. -/
def chosenSelection (choices : List (Option Choice)) (option : ProductOption) :
    Option ProductOptionSelect :=
  match choices.find? fun x => x.any fun x => x.option = option.optionTitle with
  | some (some ⟨_, some select⟩) => option.selections.find? fun s => s.selectionName = select
  | _ => none

/-! ## The price of an order -/

/-- The merchant of the item is there, in state normal. -/
def LineItem.kept (db : Db) (item : LineItem) : Bool :=
  (db.findMerchant item.merchantId).any fun m => m.state = .normal

/-- The product in the repository of the merchant. -/
def LineItem.product (m : Mem) (item : LineItem) : Option Product :=
  (m.repos item.merchantId).bind fun repo => (repo.getProduct item.goodsId).toOption

/-- `snap` is the snapshot of the item, with the price of the product and of every option
that the client chose. -/
structure LineItem.PricedAs (cfg : Config) (m : Mem) (item : LineItem) (snap : GoodsSnapshot) :
    Prop where
  merchantId : snap.merchantId = item.merchantId
  price : ∃ p base selections, item.product m = some p ∧ snap.goodsId = p.productId ∧
    snap.name = p.productTitle ∧ snap.description = p.productDescription ∧
    snap.goodVersionGit = p.gitVersion ∧ cfg.numeric p.productPrice = some base ∧
    (p.options ≠ [] → item.choices.length = p.options.length) ∧
    List.Forall₂ (fun option s => chosenSelection item.choices option = some s)
      p.options selections ∧
    snap.price = base + (selections.map ProductOptionSelect.selectionPrice).sum

/-- The fee of the item. -/
def LineItem.fee (cfg : Config) (m : Mem) (item : LineItem) (fee : CppNumeric) : Prop :=
  ∃ p, item.product m = some p ∧ kuaidifeiOf cfg p = some fee

/-- The goods of an order are the items that are kept, one snapshot each, and its price
and its fee are their sums. -/
structure CmallOrder.Priced (cfg : Config) (m : Mem) (items : List LineItem) (o : CmallOrder) :
    Prop where
  goods : List.Forall₂ (LineItem.PricedAs cfg m) (items.filter (LineItem.kept m.db)) o.boughtGoods
  seller : ∀ g ∈ o.boughtGoods, g.merchantId = o.seller
  price : o.price = (o.boughtGoods.map GoodsSnapshot.price).sum
  kuaidifei : ∃ fees, List.Forall₂ (LineItem.fee cfg m) (items.filter (LineItem.kept m.db)) fees ∧
    o.kuaidifei = fees.sum

/-- Two items that are kept have different merchants, or the choices for a product with
options are of another number, miss an option or name a selection it does not have. -/
def Unpriced (m : Mem) (items : List LineItem) : Prop :=
  (∃ x ∈ items, ∃ y ∈ items, x.kept m.db = true ∧ y.kept m.db = true ∧
      x.merchantId ≠ y.merchantId) ∨
    ∃ x ∈ items, x.kept m.db = true ∧ ∃ p, x.product m = some p ∧ p.options ≠ [] ∧
      (x.choices.length ≠ p.options.length ∨
        ∃ option ∈ p.options, chosenSelection x.choices option = none)

/-- Every element on the left has a partner. -/
theorem forall₂_exists {α β : Type} {R : α → β → Prop} {l : List α} {l' : List β} {x : α}
    (h : List.Forall₂ R l l') (hx : x ∈ l) : ∃ y ∈ l', R x y := by
  induction h with
  | nil => cases hx
  | cons hxy _ ih =>
    rcases List.mem_cons.mp hx with rfl | hx
    · exact ⟨_, List.mem_cons_self .., hxy⟩
    · obtain ⟨y, hy, hr⟩ := ih hx
      exact ⟨y, List.mem_cons_of_mem _ hy, hr⟩

theorem CmallOrder.Priced.not_unpriced {cfg : Config} {m : Mem} {items : List LineItem}
    {o : CmallOrder} (h : o.Priced cfg m items) : ¬ Unpriced m items := by
  have hsnap : ∀ x ∈ items, x.kept m.db = true →
      ∃ g ∈ o.boughtGoods, x.PricedAs cfg m g := by
    intro x hx hkept
    exact forall₂_exists h.goods (List.mem_filter.mpr ⟨hx, hkept⟩)
  rintro (⟨x, hx, y, hy, hxk, hyk, hne⟩ | ⟨x, hx, hxk, p, hp, hopt, hbad⟩)
  · obtain ⟨g, hg, hxg⟩ := hsnap x hx hxk
    obtain ⟨g', hg', hyg⟩ := hsnap y hy hyk
    apply hne
    rw [← hxg.merchantId, ← hyg.merchantId, h.seller g hg, h.seller g' hg']
  · obtain ⟨g, -, hxg⟩ := hsnap x hx hxk
    obtain ⟨p', base, selections, hp', -, -, -, -, -, hlen, hsel, -⟩ := hxg.price
    cases hp.symm.trans hp'
    rcases hbad with hbad | ⟨option, hoption, hnone⟩
    · exact hbad (hlen hopt)
    · obtain ⟨s, -, hs⟩ := forall₂_exists hsel hoption
      cases hnone.symm.trans hs

/-! ## Options -/

section Options

variable {cfg : Config}

/-- The entry that the search of the source finds. -/
theorem findOption_some {title : String} {entries : List Json} {obj : JsonObject}
    (h : findOption title entries = .ok (some obj)) :
    (entries.map choiceOf).find? (fun x => x.any fun x => x.option = title) =
      some (some ⟨title, (Json.at? obj "select").map fun v => Json.jsonAsString v⟩) := by
  induction entries with
  | nil => cases h
  | cons entry rest ih =>
    cases entry with
    | object kvs =>
      simp only [findOption, Json.asObject, Json.atKey, bind, Except.bind] at h
      cases hat : Json.at? kvs "option" with
      | none => simp [hat] at h
      | some v =>
        cases v with
        | string name =>
          simp only [hat, Json.asString] at h
          split at h
          · rename_i hname
            cases h
            simp [choiceOf, hat, hname]
          · rename_i hname
            simpa [choiceOf, hat, hname] using ih h
        | _ => simp [hat, Json.asString] at h
    | _ => simp [findOption, Json.asObject, bind, Except.bind] at h

/-- The snapshot after the loop over the options. -/
theorem selectOptions_ok {entries : List Json} {options : List ProductOption}
    {snap snap' : GoodsSnapshot} (h : selectOptions entries options snap = .ok snap') :
    ∃ selections, List.Forall₂ (fun option s =>
        chosenSelection (entries.map choiceOf) option = some s) options selections ∧
      snap'.price = snap.price + (selections.map ProductOptionSelect.selectionPrice).sum ∧
      snap'.merchantId = snap.merchantId ∧ snap'.goodsId = snap.goodsId ∧ snap'.name = snap.name ∧
      snap'.description = snap.description ∧ snap'.goodVersionGit = snap.goodVersionGit := by
  induction options generalizing snap with
  | nil =>
    cases h
    exact ⟨[], .nil, by simp, rfl, rfl, rfl, rfl, rfl⟩
  | cons option rest ih =>
    simp only [selectOptions, bind, Except.bind] at h
    cases hfind : findOption option.optionTitle entries with
    | error e => simp [hfind] at h
    | ok found =>
      cases found with
      | none => simp [hfind] at h
      | some obj =>
        simp only [hfind, Json.atKey] at h
        cases hat : Json.at? obj "select" with
        | none => simp [hat] at h
        | some v =>
          simp only [hat] at h
          cases hs : option.selections.find? fun s => s.selectionName = Json.jsonAsString v with
          | none => simp [hs] at h
          | some s =>
            simp only [hs] at h
            obtain ⟨selections, hsel, hprice, hrest⟩ := ih h
            refine ⟨s :: selections, .cons ?_ hsel, ?_, hrest⟩
            · simp only [chosenSelection, findOption_some hfind, hat, Option.map_some]
              exact hs
            · rw [hprice, List.map_cons, List.sum_cons]
              exact add_assoc _ _ _

theorem snapshotOf_ok {m : Mem} {item : GoodsItem} {p : Product} {name : String}
    {snap : GoodsSnapshot} (hp : item.line.product m = some p)
    (h : snapshotOf cfg item.merchantId item.options { p with merchantName := name } = .ok snap) :
    item.line.PricedAs cfg m snap := by
  simp only [snapshotOf, bind, Except.bind] at h
  cases hn : cfg.numeric p.productPrice with
  | none => simp [hn] at h
  | some base =>
    simp only [hn, pure, Except.pure] at h
    by_cases hopt : p.options = []
    · simp only [hopt, List.isEmpty_nil, if_true, Except.ok.injEq] at h
      subst h
      refine ⟨rfl, p, base, [], hp, rfl, rfl, rfl, rfl, hn, fun hne => absurd hopt hne, ?_, by simp⟩
      rw [hopt]
      exact .nil
    · have hempty : p.options.isEmpty = false := by simpa using hopt
      simp only [hempty] at h
      split at h
      · rename_i hfalse
        cases hfalse
      · split at h
        · cases h
        · rename_i hlen
          obtain ⟨selections, hsel, hprice, hm, hg, hname, hd, hv⟩ := selectOptions_ok h
          refine ⟨hm, p, base, selections, hp, hg, hname, hd, hv, hn, fun _ => ?_, hsel, hprice⟩
          simpa [GoodsItem.line] using hlen

end Options

/-! ## The loop over the goods -/

/-- The merchants and their repositories are those of `m`. -/
structure Shelf (m : Mem) (s : Mem) : Prop where
  merchants : s.db.merchants = m.db.merchants
  repos : s.repos = m.repos

theorem Shelf.findMerchant {m s : Mem} (h : Shelf m s) (uid : Nat) :
    s.db.findMerchant uid = m.db.findMerchant uid := by
  rw [Db.findMerchant, Db.findMerchant, h.merchants]

/-- The access leaves the tables and the repositories as they are. -/
structure Reads (s t : Mem) : Prop where
  db : t.db = s.db
  repos : t.repos = s.repos

/-- What the draft is after the items that were looked at so far. -/
structure OrderDraft.Priced (cfg : Config) (m : Mem) (items : List LineItem) (d : OrderDraft) :
    Prop where
  goods : List.Forall₂ (LineItem.PricedAs cfg m) (items.filter (LineItem.kept m.db))
    d.order.boughtGoods
  oneSeller : d.OneSeller none
  price : d.totalPrice = (d.order.boughtGoods.map GoodsSnapshot.price).sum
  kuaidifei : ∃ fees, List.Forall₂ (LineItem.fee cfg m) (items.filter (LineItem.kept m.db)) fees ∧
    d.totalKuaidifei = fees.sum
  cache : ∀ x ∈ d.cache, m.db.findMerchant x.1 = some x.2

section Draft

variable {cfg : Config} {m : Mem} {items : List LineItem} {d d' : OrderDraft} {item : GoodsItem}

theorem OrderDraft.Priced.skip (h : d.Priced cfg m items) (hkept : item.line.kept m.db = false) :
    d.Priced cfg m (items ++ [item.line]) := by
  have hfilter : (items ++ [item.line]).filter (LineItem.kept m.db) =
      items.filter (LineItem.kept m.db) := by
    simp [List.filter_append, hkept]
  exact ⟨hfilter ▸ h.goods, h.oneSeller, h.price, hfilter ▸ h.kuaidifei, h.cache⟩

theorem OrderDraft.Priced.setCache {cache : List (Nat × CmallMerchant)} (h : d.Priced cfg m items)
    (hpos : ∀ x ∈ cache, 0 < x.1) (hcache : ∀ x ∈ cache, m.db.findMerchant x.1 = some x.2) :
    { d with cache := cache }.Priced cfg m items := by
  refine ⟨h.goods, ⟨h.oneSeller.seller, h.oneSeller.sentinel, ?_⟩, h.price, h.kuaidifei, hcache⟩
  intro x hx
  exact ⟨hpos x hx, fun hnone => by cases hnone⟩

/-- An item that is kept adds one snapshot, its price and its fee. -/
theorem OrderDraft.Priced.push {p : Product} {name : String} (h : d.Priced cfg m items)
    (hkept : item.line.kept m.db = true) (hpos : 0 < item.merchantId)
    (hp : item.line.product m = some p)
    (hd : d.push cfg item.merchantId item.options { p with merchantName := name } = .ok d') :
    d'.Priced cfg m (items ++ [item.line]) := by
  have hseller := (OrderDraft.OneSeller.push h.oneSeller hpos hd).1
  obtain ⟨-, snap, fee, hsnap, hfee, rfl⟩ := push_eq_ok hd
  have hfilter : (items ++ [item.line]).filter (LineItem.kept m.db) =
      items.filter (LineItem.kept m.db) ++ [item.line] := by
    simp [List.filter_append, hkept]
  refine ⟨?_, hseller, ?_, ?_, h.cache⟩
  · rw [hfilter]
    exact List.rel_append h.goods (.cons (snapshotOf_ok hp hsnap) .nil)
  · simp [h.price]
  · obtain ⟨fees, hfees, hsum⟩ := h.kuaidifei
    refine ⟨fees ++ [fee], ?_, by simp [hsum]⟩
    rw [hfilter]
    exact List.rel_append hfees (.cons ⟨p, hp, hfee⟩ .nil)

end Draft

section Handlers

variable {cfg : Config} {m : Mem} {r : Nat} {q : Request} {ctx : Ctx} {α : Type}
  {items : List LineItem} {d : OrderDraft} {item : GoodsItem}

/-- No order was added yet. -/
def Untouched (m : Mem) (s : Mem) : Prop := s.db.orders = m.db.orders

/-- The coroutine runs alone with the shelf of `m`, and no order is added before its end. -/
def PricingTriple (m : Mem) (r : Nat) (q : Request) (x : M α) (Q : α → Prop) : Prop :=
  (solo r (Shelf m) : Protocol Request Mem Input Point).Triple r q (Untouched m) x
    (fun a s => Q a ∧ Untouched m s) (Untouched m)

theorem PricingTriple.bind {β : Type} {x : M α} {g : α → M β} {p : α → Prop} {p' : β → Prop}
    (hx : PricingTriple m r q x p) (hg : ∀ a, p a → PricingTriple m r q (g a) p') :
    PricingTriple m r q (x >>= g) p' :=
  Triple.bind hx fun a => .pure (hg a)

theorem PricingTriple.ret {a : α} {p : α → Prop} (h : p a) :
    PricingTriple m r q (pure a : M α) p :=
  Triple.ret fun _ _ hl => ⟨h, hl⟩

theorem PricingTriple.throw {e : Exn} {p : α → Prop} :
    PricingTriple m r q (Co.throw e : M α) p :=
  Triple.throw fun _ _ hl => hl

theorem pricing_of_reads {x : M α} (hx : x.Each Reads) :
    PricingTriple m r q x fun _ => True := by
  refine .conseq (.each hx solo_stable ?_) (fun _ _ h => h) (fun _ _ _ h => ⟨trivial, h⟩)
    fun _ _ h => h
  intro s t _ hl hk
  refine ⟨solo_guar fun hi => ⟨?_, ?_⟩, ?_⟩
  · rw [hk.db]
    exact hi.merchants
  · rw [hk.repos]
    exact hi.repos
  · rw [Untouched, hk.db]
    exact hl

theorem pricing_liftExcept (x : Except Exn α) :
    PricingTriple m r q (liftExcept x) fun a => x = .ok a :=
  triple_liftExcept fun _ _ h => h

/-- A merchant of the cache is the one of the table. -/
theorem cachedMerchant_pricing {cache : List (Nat × CmallMerchant)} {merchantId : Nat}
    (hcache : ∀ x ∈ cache, m.db.findMerchant x.1 = some x.2) :
    PricingTriple m r q (cachedMerchant ctx cache merchantId) fun found =>
      found.map Prod.fst = m.db.findMerchant merchantId ∧
        ∀ x cache', found = some (x, cache') → ∀ y ∈ cache', m.db.findMerchant y.1 = some y.2 := by
  unfold cachedMerchant
  split
  · rename_i x hx
    obtain ⟨l₁, l₂, rfl, -⟩ := List.lookup_eq_some_iff.mp hx
    refine .ret ⟨(hcache (merchantId, x) (by simp)).symm, ?_⟩
    rintro x' cache' ⟨⟩
    exact hcache
  · refine .bind (p := fun found => found = m.db.findMerchant merchantId) ?_ fun found hfound => ?_
    · refine triple_asyncLoad (fun found s => found = m.db.findMerchant merchantId ∧ Untouched m s)
        solo_stable (fun _ => solo_stable) (fun _ _ h => h) ?_ fun _ _ _ _ h _ => h
      exact fun s hi hl => ⟨hi.findMerchant merchantId, hl⟩
    · split
      · refine .ret ⟨hfound, ?_⟩
        rintro x' cache' ⟨⟩ y hy
        rcases List.mem_cons.mp hy with rfl | hy
        · exact hfound.symm
        · exact hcache y hy
      · refine .ret ⟨hfound, ?_⟩
        rintro x' cache' ⟨⟩

/-- The product is the one of the repository. -/
theorem getProduct_pricing (name : String) :
    PricingTriple m r q (getProduct ctx item.merchantId item.goodsId name) fun found =>
      ∃ p, item.line.product m = some p ∧ found = { p with merchantName := name } := by
  refine .bind (p := fun repo => m.repos item.merchantId = some repo) ?_ fun repo hrepo => ?_
  · refine Triple.bind (Q := fun t s => t.repos = m.repos ∧ Untouched m s)
      (.get fun s hi hl => ⟨hi.repos, hl⟩) fun t => ?_
    split
    · rename_i repo hrepo
      refine .ret fun s hi hl => ⟨?_, hl.2⟩
      rw [← hl.1]
      exact hrepo
    · exact .throw fun _ _ hl => hl.2
  · refine .bind (p := fun found => found = repo.getProduct item.goodsId) ?_ fun found hfound => ?_
    · refine Triple.bind (Q := fun _ => Untouched m) (.suspend solo_stable fun _ _ _ h _ => h)
        fun _ => ?_
      refine Triple.bind (Q := fun t s => t.repos = m.repos ∧ Untouched m s)
        (.get fun s hi hl => ⟨hi.repos, hl⟩) fun t => ?_
      refine .ret fun s hi hl => ⟨?_, hl.2⟩
      rw [hl.1, hrepo]
      rfl
    · split
      · rename_i p
        refine .ret ⟨p, ?_, rfl⟩
        simp only [LineItem.product, GoodsItem.line, hrepo, Option.bind_some, ← hfound]
        rfl
      · exact .throw

theorem orderItem_pricing (hpos : ∀ x ∈ m.db.merchants, 0 < x.uid) (hd : d.Priced cfg m items) :
    PricingTriple m r q (orderItem cfg ctx d item) fun d' =>
      d'.Priced cfg m (items ++ [item.line]) := by
  simp only [orderItem]
  refine .bind (cachedMerchant_pricing hd.cache) fun found hfound => ?_
  have hkept : item.line.kept m.db = (found.map Prod.fst).any fun x => x.state = .normal := by
    rw [hfound.1]
    rfl
  split
  · exact .ret (hd.skip (by simpa using hkept))
  · rename_i x cache
    have hcache := hfound.2 x cache rfl
    have hcachePos : ∀ y ∈ cache, 0 < y.1 := by
      intro y hy
      have hy' := hcache y hy
      exact Db.findMerchant_uid hy' ▸ hpos y.2 (Table.mem_of_find hy')
    have hd' := hd.setCache hcachePos hcache
    split
    · rename_i hstate
      refine .ret (hd'.skip ?_)
      rw [hkept]
      simpa using hstate
    · rename_i hstate
      have hx : m.db.findMerchant item.merchantId = some x := hfound.1.symm
      have hid : 0 < item.merchantId :=
        Db.findMerchant_uid hx ▸ hpos x (Table.mem_of_find hx)
      refine .bind (getProduct_pricing _) fun p' hp' => ?_
      obtain ⟨p, hp, rfl⟩ := hp'
      refine .conseq (pricing_liftExcept _) (fun _ _ h => h) ?_ fun _ _ h => h
      rintro d' s - ⟨hpush, hl⟩
      refine ⟨hd'.push ?_ hid hp hpush, hl⟩
      rw [hkept]
      simpa using hstate

/-- The loop: the items are all read, and the draft is priced after each of them. -/
theorem orderGoodsList_pricing (hpos : ∀ x ∈ m.db.merchants, 0 < x.uid) (goods : List Json)
    (hd : d.Priced cfg m items) :
    PricingTriple m r q (orderGoodsList cfg ctx goods d) fun d' =>
      ∃ rest, goods.mapM goodsItem = .ok rest ∧
        d'.Priced cfg m (items ++ rest.map GoodsItem.line) := by
  induction goods generalizing d items with
  | nil => exact .ret ⟨[], rfl, by simpa using hd⟩
  | cons entry goods ih =>
    simp only [orderGoodsList, orderGoods_eq]
    refine .bind (p := fun d' => ∃ item, goodsItem entry = .ok item ∧
      d'.Priced cfg m (items ++ [item.line])) ?_ fun d' hd' => ?_
    · refine .bind (pricing_liftExcept _) fun item hitem => ?_
      refine .conseq (orderItem_pricing hpos hd) (fun _ _ h => h) ?_ fun _ _ h => h
      exact fun d' s _ h => ⟨⟨item, hitem, h.1⟩, h.2⟩
    · obtain ⟨item, hitem, hd'⟩ := hd'
      refine .conseq (ih hd') (fun _ _ h => h) ?_ fun _ _ h => h
      rintro d'' s - ⟨⟨rest, hrest, hd''⟩, hl⟩
      refine ⟨⟨item :: rest, ?_, ?_⟩, hl⟩
      · simp [List.mapM_cons, hitem, hrest, bind, Except.bind, pure, Except.pure]
      · simpa using hd''

/-! ## Creation -/

/-- The new row is the last one. -/
def Added (cfg : Config) (m : Mem) (goods : Option (List GoodsItem)) (s : Mem) : Prop :=
  ∃ items o, goods = some items ∧ s.db.orders = m.db.orders ++ [o] ∧
    o.Priced cfg m (items.map GoodsItem.line)

theorem persistOrder_added {rest : List GoodsItem} {o : CmallOrder} {s : Mem}
    (hl : Untouched m s) (ho : o.Priced cfg m (rest.map GoodsItem.line)) :
    Added cfg m (some rest) { s with db := s.db.persistOrder o } := by
  refine ⟨rest, _, rfl, congrArg (fun l => l ++ [_]) hl, ?_⟩
  exact ⟨ho.goods, ho.seller, ho.price, ho.kuaidifei⟩

theorem Reads.refl (s : Mem) : Reads s s := ⟨rfl, rfl⟩

theorem reloadUser_reads (a uid : Nat) (after : Bool → Spot) :
    (reloadUser ctx a uid after).Each Reads := by
  refine tx_each fun i s => ?_
  split
  · unfold Mem.overwriteUser
    split
    · exact ⟨rfl, rfl⟩
    · exact ⟨rfl, rfl⟩
  · exact ⟨rfl, rfl⟩

theorem orderCreate_pricing {a : Nat} {params : JsonObject}
    (hpos : ∀ x ∈ m.db.merchants, 0 < x.uid)
    (hq : ∀ goods, (Json.get params "goods" (.array [])).asArray = .ok goods →
      q.items = (goods.mapM goodsItem).toOption) :
    (solo r (Shelf m) : Protocol Request Mem Input Point).Triple r q (Untouched m)
      (orderCreate cfg ctx a params) (fun _ => Added cfg m q.items) (Untouched m) := by
  have hskip : ∀ {β γ : Type} {x : M β} {g : β → M γ} {Q : γ → Mem → Prop}, x.Each Reads →
      (∀ b, (solo r (Shelf m) : Protocol Request Mem Input Point).Triple r q (Untouched m) (g b) Q
        (Untouched m)) →
      (solo r (Shelf m) : Protocol Request Mem Input Point).Triple r q (Untouched m) (x >>= g) Q
        (Untouched m) :=
    fun hx hg => Triple.bind (pricing_of_reads hx) fun b => .pure fun _ => hg b
  simp only [orderCreate]
  refine hskip (thisUser_reads Reads.refl a) fun u => ?_
  refine hskip (reloadUser_reads _ _ _) fun _ => ?_
  refine hskip (thisSession_reads Reads.refl) fun b => ?_
  refine hskip (thisUser_reads Reads.refl b) fun userInfo => ?_
  refine Triple.bind (pricing_liftExcept _) fun goods => .pure fun hgoods => ?_
  refine Triple.bind (pricing_liftExcept _) fun recipientId => .pure fun _ => ?_
  split
  · exact .throw fun _ _ h => h
  · split
    · exact .throw fun _ _ h => h
    · refine hskip (Co.each_modifyGet fun s => ⟨rfl, rfl⟩) fun oid => ?_
      refine hskip (Co.each_bind (Co.each_get fun s => ⟨rfl, rfl⟩) fun _ => trivial) fun now => ?_
      have hlist : ∀ d : OrderDraft, d.Priced cfg m [] →
          PricingTriple m r q (orderGoodsList cfg ctx goods d) fun d' =>
            ∃ rest, goods.mapM goodsItem = .ok rest ∧
              d'.Priced cfg m ([] ++ rest.map GoodsItem.line) :=
        fun d hd => orderGoodsList_pricing hpos goods hd
      refine Triple.bind (hlist _ ?_) fun d => ?_
      · exact ⟨.nil, ⟨by simp, by simp, by simp [CacheOk]⟩, by simp, ⟨[], .nil, by simp⟩, by simp⟩
      · refine .pure ?_
        rintro ⟨rest, hrest, hd⟩
        have hitems : q.items = some rest := by
          rw [hq goods hgoods, hrest]
          rfl
        rw [hitems]
        refine Triple.bind (Q := fun _ => Added cfg m (some rest)) ?_ fun _ => .ret fun _ _ h => h
        refine triple_tx (fun _ => Added cfg m (some rest)) solo_stable (fun _ => solo_stable)
          (fun _ _ h => h) ?_ fun _ _ _ _ h _ => h
        intro i s hi hl _
        refine ⟨solo_guar fun hi => ⟨hi.merchants, hi.repos⟩, by simp, fun _ _ => ?_⟩
        exact persistOrder_added hl
          ⟨hd.goods, hd.oneSeller.seller, hd.price, by simpa using hd.kuaidifei⟩

theorem serve_pricing {conn : Nat} {method : ReqMethod} {params : JsonObject}
    (hmethod : method = .orderCreateCart ∨ method = .orderCreateDirect)
    (hpos : ∀ x ∈ m.db.merchants, 0 < x.uid) :
    (solo r (Shelf m) : Protocol Request Mem Input Point).Triple r (.jsonrpc conn method params)
      (Untouched m) (serve cfg ctx (.jsonrpc conn method params))
      (fun _ => Added cfg m (Request.jsonrpc conn method params).items) (Untouched m) := by
  have hitems : ∀ goods, (Json.get params "goods" (.array [])).asArray = .ok goods →
      (Request.jsonrpc conn method params).items = (goods.mapM goodsItem).toOption := by
    intro goods hgoods
    simp only [Request.items, hmethod, if_true, hgoods]
  refine Triple.bind (triple_handleJsonrpcCall (fun _ _ h => h)
    (Q := fun _ => Added cfg m (Request.jsonrpc conn method params).items) ?_) fun reply => ?_
  · have hcreate : ∀ a, (solo r (Shelf m) : Protocol Request Mem Input Point).Triple r
        (.jsonrpc conn method params) (Untouched m) (orderCreate cfg ctx a params)
        (fun _ => Added cfg m (Request.jsonrpc conn method params).items) (Untouched m) :=
      fun a => orderCreate_pricing hpos hitems
    have hreads : (thisSession ctx).Each Reads := thisSession_reads Reads.refl
    have hsession := pricing_of_reads (m := m) (r := r) (q := .jsonrpc conn method params) hreads
    rcases hmethod with rfl | rfl
    · exact Triple.bind hsession fun a => .pure fun _ => hcreate a
    · exact Triple.bind hsession fun a => .pure fun _ => hcreate a
  · exact .modify fun s _ h => ⟨solo_guar fun hi => ⟨hi.merchants, hi.repos⟩, h⟩

end Handlers

/-! ## One price for each order -/

section Unique

variable {cfg : Config} {m : Mem} {items : List LineItem}

/-- Two lists that are related to one list by relations that determine a value. -/
theorem forall₂_map_unique {α β γ δ : Type} {R : α → β → Prop} {R' : α → γ → Prop} {f : β → δ}
    {g : γ → δ} {l : List α} {l₁ : List β} {l₂ : List γ} (h₁ : List.Forall₂ R l l₁)
    (h₂ : List.Forall₂ R' l l₂) (huniq : ∀ x y z, R x y → R' x z → f y = g z) :
    l₁.map f = l₂.map g := by
  induction h₁ generalizing l₂ with
  | nil =>
    cases h₂
    rfl
  | cons hxy _ ih =>
    cases h₂ with
    | cons hxz h₂ => rw [List.map_cons, List.map_cons, huniq _ _ _ hxy hxz, ih h₂]

theorem LineItem.PricedAs.price_unique {x : LineItem} {g g' : GoodsSnapshot}
    (h : x.PricedAs cfg m g) (h' : x.PricedAs cfg m g') : g.price = g'.price := by
  obtain ⟨p, base, selections, hp, -, -, -, -, hbase, -, hsel, hprice⟩ := h.price
  obtain ⟨p', base', selections', hp', -, -, -, -, hbase', -, hsel', hprice'⟩ := h'.price
  cases hp.symm.trans hp'
  cases hbase.symm.trans hbase'
  have hmap : selections.map ProductOptionSelect.selectionPrice =
      selections'.map ProductOptionSelect.selectionPrice := by
    refine forall₂_map_unique hsel hsel' fun option s s' hs hs' => ?_
    cases hs.symm.trans hs'
    rfl
  rw [hprice, hprice', hmap]

theorem CmallOrder.Priced.unique {o o' : CmallOrder} (h : o.Priced cfg m items)
    (h' : o'.Priced cfg m items) :
    o.boughtGoods.map GoodsSnapshot.price = o'.boughtGoods.map GoodsSnapshot.price ∧
      o.price = o'.price ∧ o.kuaidifei = o'.kuaidifei := by
  have hprices : o.boughtGoods.map GoodsSnapshot.price = o'.boughtGoods.map GoodsSnapshot.price :=
    forall₂_map_unique h.goods h'.goods fun x g g' hg hg' => hg.price_unique hg'
  obtain ⟨fees, hfees, hsum⟩ := h.kuaidifei
  obtain ⟨fees', hfees', hsum'⟩ := h'.kuaidifei
  have hfees : fees.map (fun x => x) = fees'.map (fun x => x) := by
    refine forall₂_map_unique hfees hfees' ?_
    rintro x fee fee' ⟨p, hp, hfee⟩ ⟨p', hp', hfee'⟩
    cases hp.symm.trans hp'
    exact Option.some.inj (hfee.symm.trans hfee')
  rw [List.map_id', List.map_id'] at hfees
  exact ⟨hprices, by rw [h.price, h'.price, hprices], by rw [hsum, hsum', hfees]⟩

end Unique

/-- An order request that runs from its beginning to its end. When it is accepted, the new
row is the last one and its goods, its seller, its price and its fee are what the items
ask for. It is rejected, and no row is added, when the items cannot be read or have no
price. The prices depend on nothing in the request but the choices of the client. -/
theorem order_is_priced (cfg : Config) (s : Service) (conn : Nat) (method : ReqMethod)
    (params : JsonObject) (hmethod : method = .orderCreateCart ∨ method = .orderCreateDirect)
    (hpos : ∀ x ∈ s.mem.db.merchants, 0 < x.uid) :
    let q := Request.jsonrpc conn method params
    (∀ is, (s.turn (prog cfg) q is).returned s.procs.length = true →
      ∃ items o, q.items = some items ∧
        (s.turn (prog cfg) q is).mem.db.orders = s.mem.db.orders ++ [o] ∧
        o.Priced cfg s.mem (items.map GoodsItem.line)) ∧
    ((∀ items, q.items = some items → Unpriced s.mem (items.map GoodsItem.line)) →
      (∀ is, (s.turn (prog cfg) q is).returned s.procs.length = false) ∧
      ∀ answers : Nat → Input, ∃ n,
        (s.turn (prog cfg) q ((List.range n).map answers)).failed s.procs.length = true ∧
        (s.turn (prog cfg) q ((List.range n).map answers)).mem.db.orders = s.mem.db.orders) ∧
    ∀ conn' method' params' is is' o o', method' = .orderCreateCart ∨ method' = .orderCreateDirect →
      let q' := Request.jsonrpc conn' method' params'
      (s.turn (prog cfg) q is).returned s.procs.length = true →
      (s.turn (prog cfg) q' is').returned s.procs.length = true →
      (s.turn (prog cfg) q is).mem.db.orders = s.mem.db.orders ++ [o] →
      (s.turn (prog cfg) q' is').mem.db.orders = s.mem.db.orders ++ [o'] →
      q.items.map (List.map GoodsItem.line) = q'.items.map (List.map GoodsItem.line) →
      o.boughtGoods.map GoodsSnapshot.price = o'.boughtGoods.map GoodsSnapshot.price ∧
        o.price = o'.price ∧ o.kuaidifei = o'.kuaidifei := by
  intro q
  have halone : ∀ {conn method params}, method = .orderCreateCart ∨ method = .orderCreateDirect →
      Alone s.procs.length (Request.jsonrpc conn method params) (Shelf s.mem)
        (fun _ => Added cfg s.mem (Request.jsonrpc conn method params).items) (Untouched s.mem)
        (prog cfg s.procs.length (.jsonrpc conn method params)) s.mem :=
    fun hmethod => alone_of_triple (L := Untouched s.mem) (fun _ => serve_pricing hmethod hpos)
      ⟨rfl, rfl⟩ rfl
  have hadded : ∀ {conn method params is},
      method = .orderCreateCart ∨ method = .orderCreateDirect →
      (s.turn (prog cfg) (.jsonrpc conn method params) is).returned s.procs.length = true →
      Added cfg s.mem (Request.jsonrpc conn method params).items
        (s.turn (prog cfg) (.jsonrpc conn method params) is).mem := by
    intro conn method params is hmethod hret
    obtain ⟨-, h⟩ := (turn_alone is (halone hmethod)).2 hret
    exact h
  refine ⟨fun is hret => hadded hmethod hret, fun hbad => ?_, ?_⟩
  · have hnot : ∀ is, ¬ (s.turn (prog cfg) q is).returned s.procs.length = true := by
      intro is hret
      obtain ⟨items, o, hitems, -, ho⟩ := hadded hmethod hret
      exact ho.not_unpriced (hbad items hitems)
    refine ⟨fun is => by simpa using hnot is, fun answers => ?_⟩
    obtain ⟨n, ⟨hret, -⟩ | hfail⟩ := turn_ends answers (halone hmethod)
    · exact absurd hret (hnot _)
    · exact ⟨n, hfail⟩
  · intro conn' method' params' is is' o o' hmethod' q' hret hret' ho ho' hlines
    obtain ⟨items, x, hitems, hx, hpriced⟩ := hadded hmethod hret
    obtain ⟨items', x', hitems', hx', hpriced'⟩ := hadded hmethod' hret'
    have hox : x = o := by simpa using hx.symm.trans ho
    have hox' : x' = o' := by simpa using hx'.symm.trans ho'
    have hsame : items.map GoodsItem.line = items'.map GoodsItem.line := by
      have h := hlines
      rw [hitems, hitems'] at h
      exact Option.some.inj h
    subst hox hox'
    exact hpriced.unique (hsame ▸ hpriced')

/-- Tea in two sizes. -/
def sizedTeaShop : Mem :=
  { teaShop with
    repos := fun _ => some
      { getProduct := fun _ => .ok ⟨"tea", "tea", "", "10", "", "", 5, "",
          [⟨"size", [⟨"small", 0⟩, ⟨"large", 5⟩]⟩]⟩
        getFileContent := fun _ => .ok ""
        getSupportedPayment := []
        getProducts := [] } }

/-- An order of tea of a size, and of something from a merchant that does not exist. -/
def sizedTeaOrder (size : String) : JsonObject :=
  let choice := .object [("option", .string "size"), ("select", .string size), ("price", .int64 0)]
  [("recipient_id", .int64 0),
    ("goods", .array
      [.object [("merchant_id", .int64 6), ("goods_id", .string "tea")],
        .object [("merchant_id", .int64 5), ("goods_id", .string "tea"), ("options", .array [choice])]])]

/-- Large tea costs 15; there is no huge tea. -/
theorem order_is_priced_of_sized_tea :
    let s : Service := Sys.idle sizedTeaShop
    let q := fun size => Request.jsonrpc 0 .orderCreateDirect (sizedTeaOrder size)
    let is := List.replicate 11 ({} : Input)
    (∃ items o, (q "large").items = some items ∧
      (s.turn (prog teaConfig) (q "large") is).mem.db.orders = [] ++ [o] ∧
      o.Priced teaConfig sizedTeaShop (items.map GoodsItem.line)) ∧
    (s.turn (prog teaConfig) (q "large") is).mem.db.orders.map CmallOrder.price = [15] ∧
    (s.turn (prog teaConfig) (q "huge") is).returned 0 = false := by
  refine ⟨?_, by decide +kernel, ?_⟩
  · exact (order_is_priced teaConfig (Sys.idle sizedTeaShop) 0 .orderCreateDirect
      (sizedTeaOrder "large") (.inr rfl) (by decide)).1 _ (by decide +kernel)
  · refine ((order_is_priced teaConfig (Sys.idle sizedTeaShop) 0 .orderCreateDirect
      (sizedTeaOrder "huge") (.inr rfl) (by decide)).2.1 fun items hitems => ?_).1 _
    have hlines : items.map GoodsItem.line = [⟨6, "tea", []⟩, ⟨5, "tea", [some ⟨"size", some "huge"⟩]⟩] := by
      cases hitems
      rfl
    rw [hlines]
    refine .inr ⟨_, List.mem_cons_of_mem _ (List.mem_singleton_self _), by decide, _, rfl, ?_⟩
    exact ⟨List.cons_ne_nil _ _, .inr ⟨_, List.mem_singleton_self _, by decide⟩⟩

end Cmall
