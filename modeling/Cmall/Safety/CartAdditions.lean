import Cmall.Safety.OneAccount

/-!
Additions to the cart.

`cart_add` looks the row of its key up and then writes it or inserts it, in two
transactions and without an index of the database behind them. As long as the look-up
still gives the same answer when the write is made, there is one row for every key, and
it counts the additions.
-/

namespace Cmall
open Coroutine Protocol

/-! ## Keys and counts -/

/-- What `cart_add` looks for. -/
structure CartKey where
  uid : Nat
  merchantId : Nat
  goodsId : String
  selection : String
  deriving DecidableEq, Repr

def CmallCart.key (x : CmallCart) : CartKey := ⟨x.uid, x.merchantId, x.goodsId, x.selection⟩

def Db.OneRowPerKey (db : Db) : Prop := (db.carts.map CmallCart.key).Nodup

def Db.cartsOf (db : Db) (k : CartKey) : List CmallCart := db.carts.filter fun x => x.key = k

/-- The look-up of `cart_add`. -/
def Db.cartOf (db : Db) (k : CartKey) : Option CmallCart :=
  Table.queryOne db.carts fun x => x.key = k

/-- The requests that have written a row, the last one first. -/
def storers : List Event → List Nat
  | [] => []
  | .cartStored r _ :: rest => r :: storers rest
  | _ :: rest => storers rest

/-- Those of them that have written the row of `k`. -/
def adders (k : CartKey) : List Event → List Nat
  | [] => []
  | .cartStored r item :: rest => if item.key = k then r :: adders k rest else adders k rest
  | _ :: rest => adders k rest

/-- The request `params` asks for the item. -/
structure AddsFor (params : JsonObject) (item : CmallCart) : Prop where
  merchantId : (Json.get params "merchant_id" (.int64 (-1))).asInt64 = .ok (item.merchantId : Int)
  goodsId : Json.getString params "goods_id" = item.goodsId
  selection : ∃ l, (match Json.at? params "selection" with
      | some v => v.asArray = .ok l
      | none => l = []) ∧ selectionString l = .ok item.selection

/-- What an answered `cart_add` has done. -/
def Request.StoredIn (q : Request) (r : Nat) (trace : List Event) : Prop :=
  ∀ c params, q = .jsonrpc c .cartAdd params →
    ∃ item, .cartStored r item ∈ trace ∧ AddsFor params item

/-! ## The condition -/

/-- What `cart_add` found and what it is about to write. -/
def Spot.storesCart : Spot → Option (Option CmallCart × CmallCart)
  | .storeCart found item => some (found, item)
  | _ => none

/-- The row `cart_mod` and `cart_del` are about. -/
def Request.cartItem : Request → Option Nat
  | .jsonrpc _ .cartMod params | .jsonrpc _ .cartDel params =>
    match (Json.get params "item_id" (.int64 (-1))).asInt64 with
    | .ok id => some id.toNat
    | .error _ => none
  | _ => none

/-- The merchant whose rows `cart_list` is about to erase. -/
def Spot.erasesCarts (q : Request) : Spot → Option Nat
  | .eraseVanished merchantId => if q.method = some .cartList then some merchantId else none
  | _ => none

/-- `cart_add` writes only while the look-up of what it writes gives what it gave; the rows
of `keys` are left to `cart_add`. -/
def lookUpStands (keys : List CartKey) (q : Request) (p : Point) (s : Mem) : Prop :=
  (∀ x ∈ p.spot.storesCart, s.db.cartOf x.2.key = x.1) ∧
    (∀ id ∈ q.cartItem, ∀ x ∈ s.db.carts, x.id = id → x.key ∉ keys) ∧
    ∀ merchantId ∈ p.spot.erasesCarts q, ∀ k ∈ keys, k.merchantId ≠ merchantId

/-- What holds between the steps of a run. -/
structure CartInv (keys : List CartKey) (s : Mem) : Prop where
  ids : (s.db.carts.map CmallCart.id).Nodup
  seq : ∀ x ∈ s.db.carts, x.id ≤ s.db.seq.cart
  oneRow : s.db.OneRowPerKey
  once : (storers s.trace).Nodup
  counted : ∀ k ∈ keys, (s.db.cartsOf k).map CmallCart.count =
    if adders k s.trace = [] then [] else [(adders k s.trace).length]

/-- The events a step adds: its own, with an answer only after the write. -/
def CartEvents (r : Nat) (q : Request) (s t : Mem) : Prop :=
  ∃ es, t.trace = es ++ s.trace ∧ (∀ e ∈ es, e.req = r) ∧
    ∀ reply, .replied r reply ∈ es → q.StoredIn r t.trace

theorem Request.StoredIn.mono {q : Request} {r : Nat} {es trace : List Event}
    (h : q.StoredIn r trace) : q.StoredIn r (es ++ trace) := by
  intro c params hq
  obtain ⟨item, hmem, hfor⟩ := h c params hq
  exact ⟨item, List.mem_append_right _ hmem, hfor⟩

theorem CartEvents.trans {r : Nat} {q : Request} {s t u : Mem} (h : CartEvents r q s t)
    (h' : CartEvents r q t u) : CartEvents r q s u := by
  obtain ⟨es, hes, hown, hreply⟩ := h
  obtain ⟨es', hes', hown', hreply'⟩ := h'
  refine ⟨es' ++ es, by rw [hes', hes, List.append_assoc], fun e he => ?_, fun reply hmem => ?_⟩
  · exact (List.mem_append.mp he).elim (hown' e) (hown e)
  · rcases List.mem_append.mp hmem with hmem | hmem
    · exact hreply' reply hmem
    · rw [hes']
      exact (hreply reply hmem).mono

def cartProtocol (keys : List CartKey) : Protocol Request Mem Input Point where
  inv := CartInv keys
  rely r _ s t := ∃ es, t.trace = es ++ s.trace ∧ ∀ e ∈ es, e.req ≠ r
  guar r q s t := (CartInv keys s → CartInv keys t) ∧ CartEvents r q s t
  guard _ q p _ s := lookUpStands keys q p s
  permit _ _ := True
  fresh r s := ∀ e ∈ s.trace, e.req ≠ r
  rely_refl _ _ _ := ⟨[], rfl, by simp⟩
  rely_trans _ _ s t u h h' := by
    obtain ⟨es, hes, hown⟩ := h
    obtain ⟨es', hes', hown'⟩ := h'
    refine ⟨es' ++ es, by rw [hes', hes, List.append_assoc], fun e he => ?_⟩
    exact (List.mem_append.mp he).elim (hown' e) (hown e)
  guar_refl _ _ _ := ⟨id, [], rfl, by simp, by simp⟩
  guar_trans _ _ _ _ _ h h' := ⟨h'.1 ∘ h.1, h.2.trans h'.2⟩
  guar_inv _ _ _ _ hi h := h.1 hi
  guar_rely r q r' q' s t hne _ h := by
    obtain ⟨es, hes, hown, -⟩ := h.2
    exact ⟨es, hes, fun e he heq => hne ((hown e he).symm.trans heq)⟩
  fresh_guar r q r' s t hne h hf := by
    obtain ⟨es, hes, hown, -⟩ := h.2
    intro e he
    rw [hes] at he
    rcases List.mem_append.mp he with he | he
    · exact fun heq => hne ((hown e he).symm.trans heq)
    · exact hf e he

instance (keys : List CartKey) (r : Nat) (q : Request) (p : Point) (i : Input) (s : Mem) :
    Decidable ((cartProtocol keys).guard r q p i s) :=
  inferInstanceAs (Decidable ((∀ x ∈ p.spot.storesCart, s.db.cartOf x.2.key = x.1) ∧
    (∀ id ∈ q.cartItem, ∀ x ∈ s.db.carts, x.id = id → x.key ∉ keys) ∧
    ∀ merchantId ∈ p.spot.erasesCarts q, ∀ k ∈ keys, k.merchantId ≠ merchantId))

instance (keys : List CartKey) (q : Request) (s : Mem) :
    Decidable ((cartProtocol keys).permit q s) := .isTrue trivial

/-! ## Steps -/

section Steps

variable {keys : List CartKey} {r : Nat} {s t : Mem} {item old : CmallCart} {k : CartKey}

theorem storers_append {es trace : List Event} (h : ∀ e ∈ es, e.part ≠ .cartEvents) :
    storers (es ++ trace) = storers trace := by
  induction es with
  | nil => rfl
  | cons e es ih =>
    have hrest := ih fun e' he' => h e' (List.mem_cons_of_mem _ he')
    have he := h e (List.mem_cons_self ..)
    cases e <;> first | exact hrest | exact absurd rfl he

theorem adders_append {es trace : List Event} (h : ∀ e ∈ es, e.part ≠ .cartEvents) :
    adders k (es ++ trace) = adders k trace := by
  induction es with
  | nil => rfl
  | cons e es ih =>
    have hrest := ih fun e' he' => h e' (List.mem_cons_of_mem _ he')
    have he := h e (List.mem_cons_self ..)
    cases e <;> first | exact hrest | exact absurd rfl he

theorem adders_stored {trace : List Event} (h : item.key = k) :
    adders k (.cartStored r item :: trace) = r :: adders k trace := if_pos h

theorem adders_stored_ne {trace : List Event} (h : ¬ item.key = k) :
    adders k (.cartStored r item :: trace) = adders k trace := if_neg h

/-- The invariant reads the carts and the events of their additions. -/
theorem CartInv.of_eq (h : CartInv keys s) (hcarts : t.db.carts = s.db.carts)
    (hseq : t.db.seq.cart = s.db.seq.cart) (hstorers : storers t.trace = storers s.trace)
    (hadders : ∀ k, adders k t.trace = adders k s.trace) : CartInv keys t where
  ids := hcarts ▸ h.ids
  seq := by
    rw [hcarts, hseq]
    exact h.seq
  oneRow := by
    unfold Db.OneRowPerKey
    rw [hcarts]
    exact h.oneRow
  once := hstorers ▸ h.once
  counted k hk := by
    unfold Db.cartsOf
    rw [hcarts, hadders]
    exact h.counted k hk

theorem CartInv.of_keeps {K : List Part} (h : CartInv keys s) (hk : Keeps K r s t)
    (hc : .carts ∉ K) (he : .cartEvents ∉ K) : CartInv keys t := by
  obtain ⟨es, hes, hpart⟩ := hk.trace
  have hnot : ∀ e ∈ es, e.part ≠ .cartEvents := fun e h' heq => he (heq ▸ (hpart e h').2)
  refine h.of_eq (hk.db.carts hc).1 (hk.db.carts hc).2 ?_ fun k => ?_
  · rw [hes, storers_append hnot]
  · rw [hes, adders_append hnot]

theorem cartsOf_of_cartOf_none (h : s.db.cartOf k = none) : s.db.cartsOf k = [] := by
  rw [Db.cartsOf, List.filter_eq_nil_iff]
  intro x hx hkey
  rw [Table.queryOne_none h x hx] at hkey
  cases hkey

theorem cartsOf_of_cartOf (hone : s.db.OneRowPerKey) (h : s.db.cartOf k = some old) :
    s.db.cartsOf k = [old] := by
  obtain ⟨hmem, hkey⟩ := Table.queryOne_some h
  rw [← of_decide_eq_true hkey]
  exact Table.filter_of_nodup hone hmem

/-- A new row. -/
theorem CartInv.add (h : CartInv keys s) (hnone : s.db.cartOf item.key = none)
    (hcount : item.count = 1) (hr : r ∉ storers s.trace) :
    CartInv keys { s with
      db := s.db.persistCart item
      trace := .cartStored r item :: s.trace } where
  ids := by
    show ((s.db.carts ++ [_]).map CmallCart.id).Nodup
    rw [List.map_append, List.map_singleton, List.nodup_append]
    refine ⟨h.ids, List.nodup_singleton _, fun x hx y hy heq => ?_⟩
    obtain ⟨row, hrow, rfl⟩ := List.mem_map.mp hx
    have hle := h.seq row hrow
    rw [List.mem_singleton.mp hy] at heq
    simp only at heq
    omega
  seq := by
    show ∀ x ∈ s.db.carts ++ [_], x.id ≤ s.db.seq.cart + 1
    intro x hx
    rcases List.mem_append.mp hx with hx | hx
    · exact Nat.le_succ_of_le (h.seq x hx)
    · rw [List.mem_singleton.mp hx]
  oneRow := by
    show ((s.db.carts ++ [_]).map CmallCart.key).Nodup
    rw [List.map_append, List.map_singleton, List.nodup_append]
    refine ⟨h.oneRow, List.nodup_singleton _, fun x hx y hy heq => ?_⟩
    obtain ⟨row, hrow, rfl⟩ := List.mem_map.mp hx
    have hkey := Table.queryOne_none hnone row hrow
    rw [List.mem_singleton.mp hy] at heq
    exact of_decide_eq_false hkey heq
  once := List.nodup_cons.mpr ⟨hr, h.once⟩
  counted k hk := by
    have hold := h.counted k hk
    show ((s.db.carts ++ [_]).filter fun x : CmallCart => x.key = k).map CmallCart.count = _
    rw [List.filter_append, List.map_append]
    by_cases hkey : item.key = k
    · subst hkey
      have hempty := cartsOf_of_cartOf_none hnone
      rw [hempty] at hold
      have hadders : adders item.key s.trace = [] := by
        by_contra hne
        simp [hne] at hold
      have hnew : ({ item with id := s.db.seq.cart + 1 } : CmallCart).key = item.key := rfl
      unfold Db.cartsOf at hempty
      rw [hempty, adders_stored rfl, hadders, List.filter_cons_of_pos (by simpa using hnew)]
      simpa using hcount
    · have hnew : ¬ ({ item with id := s.db.seq.cart + 1 } : CmallCart).key = k := hkey
      rw [adders_stored_ne hkey, List.filter_cons_of_neg (by simpa using hnew)]
      simpa [Db.cartsOf] using hold

/-- The row is written by its id, and its key stays. -/
theorem CartInv.update {trace : List Event} (h : CartInv keys s) {row : CmallCart}
    (hold : s.db.findCart row.id = some old) (hkey : row.key = old.key)
    (honce : (storers trace).Nodup)
    (hcount : ∀ k ∈ keys, if row.key = k then
        adders k trace ≠ [] ∧ row.count = (adders k trace).length
      else adders k trace = adders k s.trace) :
    CartInv keys { s with
      db := { s.db with carts := Table.update CmallCart.id s.db.carts row }
      trace := trace } := by
  have hid : old.id = row.id := Table.find_key hold
  have hmem : old ∈ s.db.carts := Table.mem_of_find hold
  constructor
  · show ((Table.update CmallCart.id s.db.carts row).map CmallCart.id).Nodup
    rw [Table.map_update hold hid.symm]
    exact h.ids
  · show ∀ x ∈ Table.update CmallCart.id s.db.carts row, x.id ≤ s.db.seq.cart
    intro x hx
    rcases Table.mem_update hx with rfl | hx
    · exact hid ▸ h.seq old hmem
    · exact h.seq x hx
  · show ((Table.update CmallCart.id s.db.carts row).map CmallCart.key).Nodup
    rw [Table.map_update hold hkey]
    exact h.oneRow
  · exact honce
  · intro k hk
    show ((Table.update CmallCart.id s.db.carts row).filter fun x => x.key = k).map
      CmallCart.count = _
    have hc := hcount k hk
    by_cases hrow : row.key = k
    · rw [if_pos hrow] at hc
      have hrows : (s.db.carts.filter fun x => x.key = k) = [old] := by
        rw [← hrow, hkey]
        exact Table.filter_of_nodup h.oneRow hmem
      rw [Table.filter_update_of_pos hold (by simp [← hkey, hrow]) (by simp [hrow]), hrows]
      simp [Table.update, hid, hc.1, hc.2]
    · rw [if_neg hrow] at hc
      rw [Table.filter_update hold (by simp [← hkey, hrow]) (by simp [hrow]), hc]
      exact h.counted k hk

/-- One more of an old row. -/
theorem CartInv.bump (h : CartInv keys s) (hold : s.db.cartOf old.key = some old) {now : PTime}
    {db : Db} (hdb : s.db.updateCart { old with count := old.count + 1 } now = some ((), db))
    (hr : r ∉ storers s.trace) :
    CartInv keys { s with
      db := db
      trace := .cartStored r { old with count := old.count + 1 } :: s.trace } := by
  obtain ⟨hmem, -⟩ := Table.queryOne_some hold
  have hfind : s.db.findCart old.id = some old := Table.find_of_mem h.ids hmem
  simp only [Db.updateCart, hfind, Option.some.injEq, Prod.mk.injEq, true_and] at hdb
  subst hdb
  refine h.update hfind rfl (List.nodup_cons.mpr ⟨hr, h.once⟩) fun k hk => ?_
  have hold' := h.counted k hk
  have hrow : ({ old with count := old.count + 1, updatedAt := now } : CmallCart).key = old.key := rfl
  have hitem : ({ old with count := old.count + 1 } : CmallCart).key = old.key := rfl
  rw [hrow]
  by_cases hkey : old.key = k
  · subst hkey
    rw [cartsOf_of_cartOf h.oneRow hold] at hold'
    have hne : adders old.key s.trace ≠ [] := by
      intro hnil
      simp [hnil] at hold'
    rw [if_neg hne] at hold'
    have hlen : old.count = (adders old.key s.trace).length := by simpa using hold'
    rw [if_pos rfl, adders_stored hitem]
    exact ⟨List.cons_ne_nil _ _, congrArg (· + 1) hlen⟩
  · rw [if_neg hkey, adders_stored_ne (by rwa [hitem])]

/-- Another count for a row that is not among the keys. -/
theorem CartInv.recount (h : CartInv keys s) {id : Nat} (count : Nat) (now : PTime)
    (hkeys : ∀ x ∈ s.db.carts, x.id = id → x.key ∉ keys) :
    CartInv keys { s with db := s.db.updateCartCount id count now } := by
  unfold Db.updateCartCount
  split
  · rename_i row hrow
    have hid : row.id = id := Table.find_key hrow
    have hfind : s.db.findCart row.id = some row := hid ▸ hrow
    refine h.update hfind rfl h.once fun k hk => ?_
    have hne : ¬ ({ row with count := count, updatedAt := now } : CmallCart).key = k := by
      rintro rfl
      exact hkeys row (Table.mem_of_find hrow) hid hk
    rw [if_neg hne]
  · exact h

/-- Rows that are not among the keys are erased. -/
theorem CartInv.erase (h : CartInv keys s) {p : CmallCart → Bool}
    (hp : ∀ x ∈ s.db.carts, x.key ∈ keys → p x = true) :
    CartInv keys { s with db := { s.db with carts := s.db.carts.filter p } } where
  ids := h.ids.sublist (List.filter_sublist.map _)
  seq x hx := h.seq x (List.mem_of_mem_filter hx)
  oneRow := List.Nodup.sublist (List.filter_sublist.map _) h.oneRow
  once := h.once
  counted k hk := by
    have hsame : ((s.db.carts.filter p).filter fun x => x.key = k) = s.db.cartsOf k := by
      rw [List.filter_filter]
      refine List.filter_congr fun x hx => ?_
      by_cases hkey : x.key = k
      · simp [hkey, hp x hx (hkey ▸ hk)]
      · simp [hkey]
    show ((s.db.carts.filter p).filter fun x => x.key = k).map CmallCart.count = _
    rw [hsame]
    exact h.counted k hk

end Steps

/-! ## The handlers -/

section Handlers

variable {keys : List CartKey} {r : Nat} {q : Request} {ctx : Ctx} {α β : Type}

theorem mem_storers {trace : List Event} :
    r ∈ storers trace ↔ ∃ item, .cartStored r item ∈ trace := by
  induction trace with
  | nil => simp [storers]
  | cons e trace ih => cases e <;> simp [storers, ih, exists_or]

/-- Request `r` has not written yet. -/
def Unstored (r : Nat) (s : Mem) : Prop := r ∉ storers s.trace

theorem stable_unstored : (cartProtocol keys).Stable r q (Unstored r) := by
  rintro s t - ⟨es, hes, hother⟩ hs hmem
  rw [hes] at hmem
  obtain ⟨item, hitem⟩ := mem_storers.mp hmem
  rcases List.mem_append.mp hitem with hitem | hitem
  · exact hother _ hitem rfl
  · exact hs (mem_storers.mpr ⟨item, hitem⟩)

theorem stable_storedIn : (cartProtocol keys).Stable r q fun s => q.StoredIn r s.trace := by
  rintro s t - ⟨es, hes, -⟩ hs
  rw [hes]
  exact hs.mono

/-- What touches nothing. -/
theorem triple_unstored {x : M α} (hx : x.Each (Keeps [] r)) :
    (cartProtocol keys).Triple r q (Unstored r) x (fun _ => Unstored r) (fun _ => True) := by
  refine .conseq (.each hx stable_unstored fun s t _ hs hk => ?_) (fun _ _ h => h)
    (fun _ _ _ h => h) fun _ _ _ => trivial
  obtain ⟨es, hes, hpart⟩ := hk.trace
  have hnil : es = [] := List.eq_nil_iff_forall_not_mem.mpr fun e he => by simpa using hpart e he
  subst hnil
  refine ⟨⟨fun hi => hi.of_keeps hk (by simp) (by simp), [], hes, by simp, by simp⟩, ?_⟩
  unfold Unstored
  rw [hes]
  exact hs

/-- What only tells others, once the row is written. -/
theorem triple_storedIn {x : M α} (hx : x.Each (Keeps [.otherEvents] r)) :
    (cartProtocol keys).Triple r q (fun s => q.StoredIn r s.trace) x
      (fun _ s => q.StoredIn r s.trace) (fun _ => True) := by
  refine .conseq (.each hx stable_storedIn fun s t _ hs hk => ?_) (fun _ _ h => h)
    (fun _ _ _ h => h) fun _ _ _ => trivial
  obtain ⟨es, hes, hpart⟩ := hk.trace
  have ht : q.StoredIn r t.trace := by
    rw [hes]
    exact hs.mono
  exact ⟨⟨fun hi => hi.of_keeps hk (by simp) (by simp), es, hes, fun e he => (hpart e he).1,
    fun _ _ => ht⟩, ht⟩

/-- The write of `cart_add`. -/
theorem storeCart_counted {c : Nat} {params : JsonObject} {found : Option CmallCart}
    {item : CmallCart} (hq : q = .jsonrpc c .cartAdd params) (hr : ctx.req = r)
    (hfor : AddsFor params item)
    (hitem : match found with
      | some old => item = { old with count := old.count + 1 }
      | none => item.count = 1) :
    (cartProtocol keys).Triple r q (Unstored r) (storeCart ctx found item)
      (fun _ s => q.StoredIn r s.trace) (fun _ => True) := by
  refine triple_tx (fun _ s => q.StoredIn r s.trace) stable_unstored (fun _ => stable_storedIn)
    (fun _ _ _ => trivial) ?_ fun _ _ _ _ h _ => h
  intro i s _ hs hg
  have hlook : s.db.cartOf item.key = found := hg.1 (found, item) rfl
  subst hr
  have hstored : ∀ db : Db, q.StoredIn ctx.req
      ({ s with db := db, trace := .cartStored ctx.req item :: s.trace } : Mem).trace := by
    rintro db c' params' hq'
    cases hq.symm.trans hq'
    exact ⟨item, List.mem_cons_self .., hfor⟩
  have hevents : ∀ db, CartEvents ctx.req q s
      { s with db := db, trace := .cartStored ctx.req item :: s.trace } :=
    fun db => ⟨[.cartStored ctx.req item], rfl, by simp [Event.req], by simp⟩
  cases found with
  | none => exact ⟨⟨fun hi => hi.add hlook hitem hs, hevents _⟩, by simp, fun _ _ => hstored _⟩
  | some old =>
    simp only at hitem
    subst hitem
    simp only [Option.isSome_some, if_true]
    split
    · rename_i db hdb
      exact ⟨⟨fun hi => hi.bump hlook hdb hs, hevents _⟩, by simp, fun _ _ => hstored _⟩
    · exact ⟨(cartProtocol keys).guar_refl _ _ _, fun _ => hs, by simp⟩

theorem cartAddTo_counted {c merchantId : Nat} {params : JsonObject} {selection : String}
    (hq : q = .jsonrpc c .cartAdd params) (hr : ctx.req = r) (a : Nat)
    (hfor : ∀ item : CmallCart, item.merchantId = merchantId →
      item.goodsId = Json.getString params "goods_id" → item.selection = selection →
        AddsFor params item) :
    (cartProtocol keys).Triple r q (Unstored r)
      (cartAddTo ctx a merchantId (Json.getString params "goods_id") selection)
      (fun _ s => q.StoredIn r s.trace) (fun _ => True) := by
  have hend : (cartProtocol keys).Triple r q (fun s => q.StoredIn r s.trace)
      (do notifyCartChanged ctx a; return .bool true : M Reply)
      (fun _ s => q.StoredIn r s.trace) (fun _ => True) := by
    refine triple_storedIn (Co.each_bind ?_ fun _ => each_pure _)
    exact hr ▸ notifyCartChanged_each a (by simp)
  refine .bind (triple_unstored (by simp)) fun user => ?_
  refine .bind (triple_asyncLoad (fun (found : Option CmallCart) s => (∀ old : CmallCart,
    found = some old → AddsFor params { old with count := old.count + 1 }) ∧ Unstored r s)
    stable_unstored
    (fun found s t hi hrely h => ⟨h.1, stable_unstored s t hi hrely h.2⟩) (fun _ _ _ => trivial)
    (fun s _ hs => ⟨fun old hold => ?_, hs⟩) fun found _ s _ h _ => h) fun found => .pure fun hold => ?_
  · obtain ⟨-, hkey⟩ := Table.queryOne_some hold
    simp only [decide_eq_true_eq] at hkey
    exact hfor _ hkey.2.1 hkey.2.2.1 hkey.2.2.2
  · cases found with
    | some old => exact .bind (storeCart_counted hq hr (hold old rfl) rfl) fun _ => hend
    | none =>
      refine .bind (triple_unstored (by simp)) fun user' => ?_
      refine .bind (triple_unstored (by simp)) fun now => ?_
      exact .bind (storeCart_counted hq hr (hfor _ rfl rfl rfl) rfl) fun _ => hend

theorem cartAdd_counted {c : Nat} {params : JsonObject} (hq : q = .jsonrpc c .cartAdd params)
    (hr : ctx.req = r) (a : Nat) :
    (cartProtocol keys).Triple r q (Unstored r) (cartAdd ctx a params)
      (fun _ s => q.StoredIn r s.trace) (fun _ => True) := by
  simp only [cartAdd]
  refine .bind (triple_liftExcept fun _ _ _ => trivial) fun merchantId => .pure fun hmerchant => ?_
  split
  · exact .throw fun _ _ _ => trivial
  rename_i hvalid
  have hnat : (merchantId.toNat : Int) = merchantId := Int.toNat_of_nonneg (by omega)
  have hrest : ∀ l, (match Json.at? params "selection" with
      | some v => v.asArray = .ok l
      | none => l = []) → (cartProtocol keys).Triple r q (Unstored r) (do
        let selection ← liftExcept (selectionString l)
        cartAddTo ctx a merchantId.toNat (Json.getString params "goods_id") selection : M Reply)
      (fun _ s => q.StoredIn r s.trace) (fun _ => True) := by
    intro l hl
    refine .bind (triple_liftExcept fun _ _ _ => trivial) fun selection => .pure fun hsel => ?_
    refine cartAddTo_counted hq hr a fun item hm hg hs => ⟨?_, hg.symm, l, hl, ?_⟩
    · rw [hm, hnat, hmerchant]
    · rw [hs, hsel]
  split
  · rename_i v hv
    rw [hv] at hrest
    exact .bind (triple_liftExcept fun _ _ _ => trivial) fun l => .pure fun hl => hrest l hl
  · rename_i hnone
    rw [hnone] at hrest
    exact hrest [] rfl

/-! ### The other methods -/

theorem cartEvents_of_keeps {K : List Part} {s t : Mem} (hq : q.method ≠ some .cartAdd)
    (hk : Keeps K r s t) : CartEvents r q s t := by
  obtain ⟨es, hes, hpart⟩ := hk.trace
  refine ⟨es, hes, fun e he => (hpart e he).1, fun reply _ c params heq => ?_⟩
  subst heq
  exact absurd rfl hq

abbrev CartSafe (keys : List CartKey) (r : Nat) (q : Request) (x : M α) : Prop :=
  (cartProtocol keys).Triple r q (fun _ => True) x (fun _ _ => True) (fun _ => True)

theorem cartSafe_of_each {x : M α} (hq : q.method ≠ some .cartAdd)
    (hx : x.Each (Keeps [.otherEvents] r)) : CartSafe keys r q x :=
  .each hx stable_true fun _ _ _ _ hk =>
    ⟨⟨fun hi => hi.of_keeps hk (by simp) (by simp), cartEvents_of_keeps hq hk⟩, trivial⟩

/-- A write of the carts. -/
theorem asyncWrite_counted {f : Mem → Option (α × Db)} {spot : Spot} {after : α → Spot}
    (hf : ∀ s, CartInv keys s → lookUpStands keys q ⟨ctx, spot⟩ s → ∀ a db, f s = some (a, db) →
      CartInv keys { s with db := db }) :
    CartSafe keys r q (asyncWrite ctx f spot after) := by
  refine triple_tx (fun _ _ => True) stable_true (fun _ => stable_true) (fun _ _ _ => trivial)
    (fun i s hi _ hg => ⟨?_, fun _ => trivial, fun _ _ => trivial⟩) fun _ _ _ _ _ _ => trivial
  split
  · rename_i a db hdb
    refine ⟨fun hi => hf s hi hg a db hdb, [], rfl, by simp, by simp⟩
  · exact (cartProtocol keys).guar_refl _ _ _

theorem cartMod_counted {c : Nat} {params : JsonObject} (hq : q = .jsonrpc c .cartMod params)
    (hr : ctx.req = r) (a : Nat) : CartSafe keys r q (cartMod ctx a params) := by
  have hm : q.method ≠ some .cartAdd := by simp [hq, Request.method]
  refine .bind (triple_liftExcept fun _ _ _ => trivial) fun id => .pure fun hid => ?_
  have hitem : q.cartItem = some id.toNat := by simp [hq, Request.cartItem, hid]
  refine .bind (Q := fun _ _ => True) (cartSafe_of_each hm (by simp)) fun count => ?_
  split
  · exact .throw fun _ _ _ => trivial
  refine .bind (Q := fun _ _ => True) (cartSafe_of_each hm (by simp)) fun _ => ?_
  refine .bind (Q := fun _ _ => True) (asyncWrite_counted ?_) fun _ => ?_
  · rintro s hi hg x db ⟨⟩
    exact hi.recount _ _ (hg.2.1 _ hitem)
  · exact cartSafe_of_each hm (Co.each_bind (hr ▸ notifyCartChanged_each a (by simp)) fun _ =>
      each_pure _)

theorem cartDel_counted {c : Nat} {params : JsonObject} (hq : q = .jsonrpc c .cartDel params)
    (hr : ctx.req = r) (a : Nat) : CartSafe keys r q (cartDel ctx a params) := by
  have hm : q.method ≠ some .cartAdd := by simp [hq, Request.method]
  refine .bind (triple_liftExcept fun _ _ _ => trivial) fun id => .pure fun hid => ?_
  have hitem : q.cartItem = some id.toNat := by simp [hq, Request.cartItem, hid]
  split
  · exact .throw fun _ _ _ => trivial
  refine .bind (Q := fun _ _ => True) (cartSafe_of_each hm (by simp)) fun _ => ?_
  refine .bind (Q := fun _ _ => True) (asyncWrite_counted ?_) fun _ => ?_
  · intro s hi hg x db hdb
    unfold Db.removeCart at hdb
    split at hdb
    · cases hdb
      refine hi.erase fun x hx hkey => ?_
      have hne : x.id ≠ id.toNat := fun heq => hg.2.1 _ hitem x hx heq hkey
      simpa using hne
    · cases hdb
  · exact cartSafe_of_each hm (Co.each_bind (hr ▸ notifyCartChanged_each a (by simp)) fun _ =>
      each_pure _)

theorem eraseVanished_counted (hq : q.method = some .cartList) (mids : List Nat) :
    CartSafe keys r q (eraseVanished ctx Db.eraseCartsOf mids) := by
  have hm : q.method ≠ some .cartAdd := by simp [hq]
  induction mids with
  | nil => exact cartSafe_of_each hm (each_pure _)
  | cons mid mids ih =>
    refine .bind (Q := fun _ _ => True) (asyncWrite_counted ?_) fun _ => ih
    rintro s hi hg x db ⟨⟩
    refine hi.erase fun x hx hkey => ?_
    have hne : x.key.merchantId ≠ mid :=
      hg.2.2 mid (by simp [Spot.erasesCarts, hq]) x.key hkey
    simpa [CmallCart.key] using hne

theorem cartList_counted {c : Nat} {params : JsonObject} (hq : q = .jsonrpc c .cartList params)
    (a : Nat) : CartSafe keys r q (cartList ctx a params) := by
  have hm : q.method ≠ some .cartAdd := by simp [hq, Request.method]
  refine .bind (Q := fun _ _ => True) (cartSafe_of_each hm (by simp)) fun page => ?_
  refine .bind (Q := fun _ _ => True) (cartSafe_of_each hm (by simp)) fun pageSize => ?_
  refine .bind (Q := fun _ _ => True) (cartSafe_of_each hm (by simp)) fun user => ?_
  refine .bind (Q := fun _ _ => True) (cartSafe_of_each hm (by simp)) fun items => ?_
  refine .bind (Q := fun _ _ => True) (cartSafe_of_each hm (by simp)) fun filled => ?_
  refine .bind (Q := fun _ _ => True) (eraseVanished_counted (by rw [hq]; rfl) _) fun _ => ?_
  exact cartSafe_of_each hm (each_pure _)

end Handlers

/-! ## Runs -/

theorem ReqMethod.cart_of_footprint {method : ReqMethod}
    (h : .carts ∈ method.footprint ∨ .cartEvents ∈ method.footprint) :
    method = .cartAdd ∨ method = .cartMod ∨ method = .cartDel ∨ method = .cartList := by
  cases method <;> simp_all [ReqMethod.footprint]

section Programs

variable {keys : List CartKey} {cfg : Config} {r c : Nat} {params : JsonObject} {m : Mem}

theorem prog_cartAdd (hf : ∀ e ∈ m.trace, e.req ≠ r) :
    (prog cfg r (.jsonrpc c .cartAdd params)).Suspended (cartProtocol keys) r
      (.jsonrpc c .cartAdd params) m := by
  have hm : Unstored r m := fun hmem => by
    obtain ⟨item, hitem⟩ := mem_storers.mp hmem
    exact hf _ hitem rfl
  have hstart : ∀ (i : Input) s, (cartProtocol keys).inv s → Unstored r s →
      (cartProtocol keys).guard r (.jsonrpc c .cartAdd params) ⟨⟨c, r⟩, .start (some .cartAdd)⟩ i s →
        Unstored r s := fun _ _ _ h _ => h
  refine prog_suspended_of_handler (Q := fun _ s =>
    (Request.jsonrpc c .cartAdd params).StoredIn r s.trace) stable_unstored hm hstart
    (fun _ _ _ => trivial) ?_ ?_
  · simp only [handlerOf, ReqMethod.api, handleJsonrpcCartApi]
    exact .bind (triple_unstored thisSession_each) fun a => cartAdd_counted rfl (by rfl) a
  · intro reply s _ hs
    have hs' : (Request.jsonrpc c .cartAdd params).StoredIn r ([.replied r reply] ++ s.trace) :=
      hs.mono
    exact ⟨⟨fun hi => hi.of_keeps keeps_replied (by simp) (by simp), [.replied r reply], rfl,
      by simp [Event.req], fun _ _ => hs'⟩, trivial⟩

theorem prog_cartSafe {method : ReqMethod} (hmethod : method ≠ .cartAdd)
    (h : ∀ a, CartSafe keys r (.jsonrpc c method params) (match method with
      | .cartMod => cartMod ⟨c, r⟩ a params
      | .cartDel => cartDel ⟨c, r⟩ a params
      | .cartList => cartList ⟨c, r⟩ a params
      | _ => Co.throw (.other "this should never be executed")))
    (hapi : method.api = .cart) :
    (prog cfg r (.jsonrpc c method params)).Suspended (cartProtocol keys) r
      (.jsonrpc c method params) m := by
  have hq : (Request.jsonrpc c method params).method ≠ some .cartAdd := by
    simpa [Request.method] using hmethod
  refine prog_suspended_of_handler (L := fun _ => True) stable_true trivial
    (fun _ _ _ _ _ => trivial) (fun _ _ _ => trivial) (Q := fun _ _ => True) ?_ ?_
  · simp only [handlerOf, hapi, handleJsonrpcCartApi]
    refine .bind (Q := fun _ _ => True) (cartSafe_of_each hq thisSession_each) fun a => ?_
    cases method <;> first | exact h a | exact absurd rfl hmethod
  · intro reply s _ _
    exact ⟨⟨fun hi => hi.of_keeps keeps_replied (by simp) (by simp),
      cartEvents_of_keeps hq keeps_replied⟩, trivial⟩

/-- Every program keeps to the protocol. -/
theorem programs_cart (keys : List CartKey) (cfg : Config) :
    (cartProtocol keys).Programs (prog cfg) := by
  intro r q m _ hf _
  by_cases hq : .carts ∈ q.footprint ∨ .cartEvents ∈ q.footprint
  · cases q with
    | jsonrpc c method params =>
      obtain rfl | rfl | rfl | rfl :=
        ReqMethod.cart_of_footprint (by simpa [Request.footprint] using hq)
      · exact prog_cartAdd hf
      · exact prog_cartSafe (by decide) (fun a => cartMod_counted rfl (by rfl) a) rfl
      · exact prog_cartSafe (by decide) (fun a => cartDel_counted rfl (by rfl) a) rfl
      · exact prog_cartSafe (by decide) (fun a => cartList_counted rfl a) rfl
    | _ => simp [Request.footprint] at hq
  · rw [not_or] at hq
    refine prog_suspended_of_keeps (fun s t _ hk => ⟨fun hi => hi.of_keeps hk hq.1 hq.2, ?_⟩)
      fun _ => trivial
    refine cartEvents_of_keeps (fun hadd => hq.1 ?_) hk
    cases q <;> simp_all [Request.method, Request.footprint, ReqMethod.footprint]

end Programs

/-- Every `cart_add` that was answered has added what it asked for. -/
structure AnswersStored (qs : List Request) (s : Mem) : Prop where
  known : ∀ e ∈ s.trace, e.req < qs.length
  answers : ∀ r c params reply, qs[r]? = some (.jsonrpc c .cartAdd params) →
    .replied r reply ∈ s.trace → ∃ item, .cartStored r item ∈ s.trace ∧ AddsFor params item

theorem AnswersStored.spawn {qs : List Request} {s : Mem} (h : AnswersStored qs s) (q : Request) :
    AnswersStored (qs ++ [q]) s where
  known e he := by
    rw [List.length_append]
    exact Nat.lt_add_right _ (h.known e he)
  answers r c params reply hq hmem := by
    have hlt : r < qs.length := h.known _ hmem
    rw [List.getElem?_append_left hlt] at hq
    exact h.answers r c params reply hq hmem

theorem AnswersStored.step {qs : List Request} {s t : Mem} {r : Nat} {q : Request}
    (h : AnswersStored qs s) (hq : qs[r]? = some q) (he : CartEvents r q s t) :
    AnswersStored qs t := by
  obtain ⟨es, hes, hown, hreply⟩ := he
  have hlt : r < qs.length := (List.getElem?_eq_some_iff.mp hq).1
  constructor
  · intro e hmem
    rw [hes] at hmem
    rcases List.mem_append.mp hmem with hmem | hmem
    · exact hown e hmem ▸ hlt
    · exact h.known e hmem
  · intro r' c params reply hq' hmem
    rw [hes] at hmem
    rcases List.mem_append.mp hmem with hmem | hmem
    · have hr : r' = r := hown _ hmem
      subst hr
      cases hq.symm.trans hq'
      exact hreply reply hmem c params rfl
    · obtain ⟨item, hitem, hfor⟩ := h.answers r' c params reply hq' hmem
      exact ⟨item, hes ▸ List.mem_append_right _ hitem, hfor⟩

/-- User 1 is logged in on every connection. -/
def userOne : Mem where
  heapTop := 1
  heap _ := { userInfo := some { uid := 1 } }
  conn _ := { sessionInfo := some 0 }

def addTea (c : Nat) : Label Request Input :=
  .spawn (.jsonrpc c .cartAdd [("merchant_id", .int64 5), ("goods_id", .string "tea")])

def teaKey : CartKey := ⟨1, 5, "tea", ""⟩

end Cmall
