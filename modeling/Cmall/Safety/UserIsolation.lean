import Cmall.Safety.RoleCoherence

/-!
The rows a request of a user can touch.

Requests on carts, favourites, orders and on the user itself address rows by ids
of the client and test their owner before they write them, in one transaction or
in two. While the user of the session stays the same, such a request creates,
changes and deletes only rows of that user. `cart_list` and `fav_list` also erase
the rows of merchants that they did not find; that these merchants are still not
there when the rows are erased is the condition under which they erase nothing else.
-/

namespace Cmall
open Coroutine Protocol

/-! ## Rows of a user -/

/-- The rows that satisfy `p` are the same in both tables. -/
def SameRows {α : Type} (p : α → Bool) (t t' : List α) : Prop := t'.filter p = t.filter p

theorem SameRows.mono {α : Type} {p p' : α → Bool} {t t' : List α} (h : SameRows p t t')
    (hp : ∀ x, p' x = true → p x = true) : SameRows p' t t' := by
  have hsub : ∀ l : List α, (l.filter p).filter p' = l.filter p' := by
    intro l
    rw [List.filter_filter]
    refine List.filter_congr fun x _ => ?_
    cases hx : p' x with
    | true => simp [hp x hx]
    | false => rfl
  rw [SameRows, ← hsub t', h, hsub t]

/-- Rows that fail `p` may be removed. -/
theorem sameRows_filter {α : Type} {p keep : α → Bool} {t : List α}
    (h : ∀ x ∈ t, keep x = false → p x = false) : SameRows p t (t.filter keep) := by
  rw [SameRows, List.filter_filter]
  refine List.filter_congr fun x hx => ?_
  cases hk : keep x with
  | true => simp
  | false => simp [h x hx hk]

/-- From `db` to `db'` a request `method` has created, changed and deleted only
rows of user `u`; `cart_list` and `fav_list` may have deleted rows of merchants
that are not there. -/
structure Db.OnlyOwn (u : Nat) (method : ReqMethod) (db db' : Db) : Prop where
  users : SameRows (fun x => x.uid ≠ u) db.users db'.users
  carts : SameRows (fun x => x.uid ≠ u ∧ (db.findMerchant x.merchantId).isSome) db.carts db'.carts
  cartsErased : (db'.carts.filter fun x => x.uid ≠ u).Sublist (db.carts.filter fun x => x.uid ≠ u)
  cartsKept : method ≠ .cartList → SameRows (fun x => x.uid ≠ u) db.carts db'.carts
  favs : SameRows (fun x => x.uid ≠ u ∧ (db.findMerchant x.merchantId).isSome) db.favs db'.favs
  favsErased : (db'.favs.filter fun x => x.uid ≠ u).Sublist (db.favs.filter fun x => x.uid ≠ u)
  favsKept : method ≠ .favList → SameRows (fun x => x.uid ≠ u) db.favs db'.favs
  orders : SameRows (fun x => x.buyer ≠ u) db.orders db'.orders
  applys : SameRows (fun x => x.applicant ≠ u) db.applys db'.applys
  kvs : SameRows (fun x => x.uid ≠ u) db.kvs db'.kvs
  pubkvs : SameRows (fun x => x.uid ≠ u) db.pubkvs db'.pubkvs
  sessions : db'.sessions = db.sessions
  administrators : db'.administrators = db.administrators
  apptokens : db'.apptokens = db.apptokens
  merchants : db'.merchants = db.merchants
  indexGoods : db'.indexGoods = db.indexGoods

/-- Rows that were there keep their id and their owner. -/
structure Db.KeepsOwners (db db' : Db) : Prop where
  carts : ∀ x ∈ db'.carts, x.id ≤ db.seq.cart → ∃ y ∈ db.carts, y.id = x.id ∧ y.uid = x.uid
  cartSeq : db.seq.cart ≤ db'.seq.cart
  orders : ∀ x ∈ db'.orders, x.id ≤ db.seq.order → ∃ y ∈ db.orders, y.id = x.id ∧ y.buyer = x.buyer
  orderSeq : db.seq.order ≤ db'.seq.order

/-- The ids are primary keys filled from sequences. -/
structure Db.IdsOk (db : Db) : Prop where
  carts : (db.carts.map CmallCart.id).Nodup
  cartSeq : ∀ x ∈ db.carts, x.id ≤ db.seq.cart
  orders : (db.orders.map CmallOrder.id).Nodup
  orderSeq : ∀ x ∈ db.orders, x.id ≤ db.seq.order

namespace Db

variable {u : Nat} {method : ReqMethod} {db db' db₁ db₂ db₃ : Db}

theorem OnlyOwn.refl (u : Nat) (method : ReqMethod) (db : Db) : db.OnlyOwn u method db := by
  constructor <;> simp [SameRows]

theorem OnlyOwn.trans (h : db₁.OnlyOwn u method db₂) (h' : db₂.OnlyOwn u method db₃) :
    db₁.OnlyOwn u method db₃ where
  users := Eq.trans h'.users h.users
  carts := by
    have hc := h'.carts
    simp only [findMerchant, h.merchants] at hc
    exact Eq.trans hc h.carts
  cartsErased := h'.cartsErased.trans h.cartsErased
  cartsKept hm := Eq.trans (h'.cartsKept hm) (h.cartsKept hm)
  favs := by
    have hf := h'.favs
    simp only [findMerchant, h.merchants] at hf
    exact Eq.trans hf h.favs
  favsErased := h'.favsErased.trans h.favsErased
  favsKept hm := Eq.trans (h'.favsKept hm) (h.favsKept hm)
  orders := Eq.trans h'.orders h.orders
  applys := Eq.trans h'.applys h.applys
  kvs := Eq.trans h'.kvs h.kvs
  pubkvs := Eq.trans h'.pubkvs h.pubkvs
  sessions := h'.sessions.trans h.sessions
  administrators := h'.administrators.trans h.administrators
  apptokens := h'.apptokens.trans h.apptokens
  merchants := h'.merchants.trans h.merchants
  indexGoods := h'.indexGoods.trans h.indexGoods

/-- Only rows of `u` in the carts change. -/
theorem OnlyOwn.of_carts {t : List CmallCart} {seq : Sequences}
    (h : SameRows (fun x => x.uid ≠ u) db.carts t) :
    db.OnlyOwn u method { db with carts := t, seq := seq } where
  __ := OnlyOwn.refl u method db
  carts := h.mono fun x hx => by simp_all
  cartsErased := by
    rw [show (t.filter fun x => x.uid ≠ u) = _ from h]
  cartsKept _ := h

/-- Only rows of `u` in the favourites change. -/
theorem OnlyOwn.of_favs {t : List CmallUserFav} {seq : Sequences}
    (h : SameRows (fun x => x.uid ≠ u) db.favs t) :
    db.OnlyOwn u method { db with favs := t, seq := seq } where
  __ := OnlyOwn.refl u method db
  favs := h.mono fun x hx => by simp_all
  favsErased := by
    rw [show (t.filter fun x => x.uid ≠ u) = _ from h]
  favsKept _ := h

theorem KeepsOwners.refl (db : Db) : db.KeepsOwners db :=
  ⟨fun x hx _ => ⟨x, hx, rfl, rfl⟩, Nat.le_refl _, fun x hx _ => ⟨x, hx, rfl, rfl⟩, Nat.le_refl _⟩

theorem KeepsOwners.trans (h : db₁.KeepsOwners db₂) (h' : db₂.KeepsOwners db₃) :
    db₁.KeepsOwners db₃ where
  carts x hx hid := by
    obtain ⟨y, hy, hyid, hyu⟩ := h'.carts x hx (Nat.le_trans hid h.cartSeq)
    obtain ⟨z, hz, hzid, hzu⟩ := h.carts y hy (hyid ▸ hid)
    exact ⟨z, hz, hzid.trans hyid, hzu.trans hyu⟩
  cartSeq := Nat.le_trans h.cartSeq h'.cartSeq
  orders x hx hid := by
    obtain ⟨y, hy, hyid, hyu⟩ := h'.orders x hx (Nat.le_trans hid h.orderSeq)
    obtain ⟨z, hz, hzid, hzu⟩ := h.orders y hy (hyid ▸ hid)
    exact ⟨z, hz, hzid.trans hyid, hzu.trans hyu⟩
  orderSeq := Nat.le_trans h.orderSeq h'.orderSeq

/-- The cart row `id` is one of user `u`, or gone for good. -/
def CartOf (u id : Nat) (db : Db) : Prop :=
  id ≤ db.seq.cart ∧ ∀ x ∈ db.carts, x.id = id → x.uid = u

/-- The order `id` is one of buyer `u`. -/
def OrderOf (u id : Nat) (db : Db) : Prop :=
  id ≤ db.seq.order ∧ ∀ x ∈ db.orders, x.id = id → x.buyer = u

theorem KeepsOwners.cartOf {id : Nat} (h : db.KeepsOwners db') (hc : CartOf u id db) :
    CartOf u id db' := by
  refine ⟨Nat.le_trans hc.1 h.cartSeq, fun x hx hid => ?_⟩
  obtain ⟨y, hy, hyid, hyu⟩ := h.carts x hx (hid ▸ hc.1)
  rw [← hyu]
  exact hc.2 y hy (hyid.trans hid)

theorem KeepsOwners.orderOf {id : Nat} (h : db.KeepsOwners db') (hc : OrderOf u id db) :
    OrderOf u id db' := by
  refine ⟨Nat.le_trans hc.1 h.orderSeq, fun x hx hid => ?_⟩
  obtain ⟨y, hy, hyid, hyu⟩ := h.orders x hx (hid ▸ hc.1)
  rw [← hyu]
  exact hc.2 y hy (hyid.trans hid)

theorem IdsOk.cartOf {x : CmallCart} (h : db.IdsOk) (hx : x ∈ db.carts) :
    CartOf x.uid x.id db := by
  refine ⟨h.cartSeq x hx, fun y hy hid => ?_⟩
  have hfind : Table.find CmallCart.id db.carts x.id = some x := Table.find_of_mem h.carts hx
  have hfind' : Table.find CmallCart.id db.carts y.id = some y := Table.find_of_mem h.carts hy
  rw [hid, hfind] at hfind'
  cases hfind'
  rfl

theorem IdsOk.orderOf {x : CmallOrder} (h : db.IdsOk) (hx : x ∈ db.orders) :
    OrderOf x.buyer x.id db := by
  refine ⟨h.orderSeq x hx, fun y hy hid => ?_⟩
  have hfind : Table.find CmallOrder.id db.orders x.id = some x := Table.find_of_mem h.orders hx
  have hfind' : Table.find CmallOrder.id db.orders y.id = some y := Table.find_of_mem h.orders hy
  rw [hid, hfind] at hfind'
  cases hfind'
  rfl

/-! ## Operations -/

/-- What a step may do to the tables. A request that is observed (`m`) changes only
rows of `u`. -/
structure Lawful (u : Nat) (m : Option ReqMethod) (db db' : Db) : Prop where
  owners : db.KeepsOwners db'
  ids : db.IdsOk → db'.IdsOk
  own : ∀ method ∈ m, db.OnlyOwn u method db'

theorem Lawful.refl (u : Nat) (m : Option ReqMethod) (db : Db) : Lawful u m db db :=
  ⟨.refl db, id, fun method _ => .refl u method db⟩

variable {m : Option ReqMethod}

theorem Lawful.trans (h : Lawful u m db₁ db₂) (h' : Lawful u m db₂ db₃) : Lawful u m db₁ db₃ :=
  ⟨h.owners.trans h'.owners, h'.ids ∘ h.ids, fun method hm => (h.own method hm).trans (h'.own method hm)⟩

/-- Neither carts nor orders change. -/
theorem Lawful.of_same (hc : db'.carts = db.carts ∧ db'.seq.cart = db.seq.cart)
    (ho : db'.orders = db.orders ∧ db'.seq.order = db.seq.order)
    (hown : ∀ method ∈ m, db.OnlyOwn u method db') : Lawful u m db db' := by
  refine ⟨⟨?_, hc.2.ge, ?_, ho.2.ge⟩, fun h => ?_, hown⟩
  · intro x hx _
    exact ⟨x, hc.1 ▸ hx, rfl, rfl⟩
  · intro x hx _
    exact ⟨x, ho.1 ▸ hx, rfl, rfl⟩
  · refine ⟨?_, ?_, ?_, ?_⟩
    · rw [hc.1]
      exact h.carts
    · rw [hc.1, hc.2]
      exact h.cartSeq
    · rw [ho.1]
      exact h.orders
    · rw [ho.1, ho.2]
      exact h.orderSeq

theorem lawful_persistCart {item : CmallCart} (hu : m.isSome = true → item.uid = u) :
    Lawful u m db (db.persistCart item) where
  owners := by
    refine { KeepsOwners.refl db with carts := fun x hx hid => ?_, cartSeq := Nat.le_succ _ }
    rcases List.mem_append.mp hx with hx | hx
    · exact ⟨x, hx, rfl, rfl⟩
    · rw [List.mem_singleton.mp hx] at hid
      exact absurd hid (Nat.not_succ_le_self _)
  ids h := by
    refine ⟨?_, ?_, h.orders, h.orderSeq⟩
    · show ((db.carts ++ [_]).map CmallCart.id).Nodup
      rw [List.map_append, List.map_singleton]
      refine List.nodup_append.mpr ⟨h.carts, List.nodup_singleton _, fun x hx y hy heq => ?_⟩
      obtain ⟨c, hc, rfl⟩ := List.mem_map.mp hx
      have hle := h.cartSeq c hc
      rw [heq, List.mem_singleton.mp hy] at hle
      exact absurd hle (Nat.not_succ_le_self _)
    · intro x hx
      rcases List.mem_append.mp hx with hx | hx
      · exact Nat.le_succ_of_le (h.cartSeq x hx)
      · rw [List.mem_singleton.mp hx]
        exact Nat.le_refl _
  own method hm := by
    have hu' := hu (Option.isSome_of_mem hm)
    refine OnlyOwn.of_carts ?_
    simp [SameRows, List.filter_append, hu']

/-- The row of a cart is replaced by one of the same owner. -/
theorem lawful_updateCart {old row : CmallCart} (hold : db.findCart row.id = some old)
    (huid : row.uid = old.uid) (hu : m.isSome = true → old.uid = u) :
    Lawful u m db { db with carts := Table.update CmallCart.id db.carts row } where
  owners := by
    refine { KeepsOwners.refl db with carts := fun x hx hid => ?_ }
    rcases Table.mem_update hx with rfl | hx
    · exact ⟨old, Table.mem_of_find hold, Table.find_key hold, huid.symm⟩
    · exact ⟨x, hx, rfl, rfl⟩
  ids h := by
    refine ⟨?_, ?_, h.orders, h.orderSeq⟩
    · have hids : (Table.update CmallCart.id db.carts row).map CmallCart.id =
          db.carts.map CmallCart.id := Table.map_update hold (Table.find_key hold).symm
      exact hids ▸ h.carts
    · intro x hx
      rcases Table.mem_update hx with rfl | hx
      · have hle := h.cartSeq old (Table.mem_of_find hold)
        have hkey : old.id = x.id := Table.find_key hold
        exact hkey ▸ hle
      · exact h.cartSeq x hx
  own method hm := by
    have hu' := hu (Option.isSome_of_mem hm)
    refine OnlyOwn.of_carts (Table.filter_update hold ?_ ?_)
    · simp [hu']
    · simp [huid, hu']

/-- Rows of carts are removed. -/
theorem lawful_filterCarts {keep : CmallCart → Bool}
    (hown : ∀ method ∈ m, db.OnlyOwn u method { db with carts := db.carts.filter keep }) :
    Lawful u m db { db with carts := db.carts.filter keep } where
  owners := { KeepsOwners.refl db with
    carts := fun x hx _ => ⟨x, List.mem_of_mem_filter hx, rfl, rfl⟩ }
  ids h := ⟨h.carts.sublist (List.filter_sublist.map _),
    fun x hx => h.cartSeq x (List.mem_of_mem_filter hx), h.orders, h.orderSeq⟩
  own := hown

theorem lawful_removeCart {itemId : Nat} {x : Unit} (h : db.removeCart itemId = some (x, db'))
    (hu : m.isSome = true → CartOf u itemId db) : Lawful u m db db' := by
  unfold removeCart at h
  split at h
  · cases h
    refine lawful_filterCarts fun method hm => OnlyOwn.of_carts (sameRows_filter ?_)
    intro y hy hk
    have hid : y.id = itemId := by simpa using hk
    simp [(hu (Option.isSome_of_mem hm)).2 y hy hid]
  · cases h

/-- The rows of a merchant that is not there are erased. -/
theorem lawful_eraseCartsOf {merchantId : Nat}
    (hm : ∀ method ∈ m, method = .cartList ∧ db.findMerchant merchantId = none) :
    Lawful u m db (db.eraseCartsOf merchantId) := by
  refine lawful_filterCarts fun method hmethod => ?_
  obtain ⟨rfl, hnone⟩ := hm method hmethod
  refine { OnlyOwn.refl u _ db with
    carts := sameRows_filter fun x _ hk => ?_
    cartsErased := (List.filter_sublist).filter _
    cartsKept := fun h => absurd rfl h }
  have hid : x.merchantId = merchantId := by simpa using hk
  simp [hid, hnone]

/-! ### Favourites, applications, users and key-value stores -/

theorem lawful_favs {t : List CmallUserFav} {n : Nat}
    (hown : ∀ method ∈ m, SameRows (fun x => x.uid ≠ u) db.favs t) :
    Lawful u m db { db with favs := t, seq := { db.seq with fav := n } } :=
  .of_same ⟨rfl, rfl⟩ ⟨rfl, rfl⟩ fun method hm => OnlyOwn.of_favs (hown method hm)

theorem lawful_persistFav {item : CmallUserFav} (hu : m.isSome = true → item.uid = u) :
    Lawful u m db (db.persistFav item) := by
  refine lawful_favs fun method hm => ?_
  simp [SameRows, List.filter_append, hu (Option.isSome_of_mem hm)]

theorem lawful_eraseFavsOf {merchantId : Nat}
    (hm : ∀ method ∈ m, method = .favList ∧ db.findMerchant merchantId = none) :
    Lawful u m db (db.eraseFavsOf merchantId) := by
  refine .of_same ⟨rfl, rfl⟩ ⟨rfl, rfl⟩ fun method hmethod => ?_
  obtain ⟨rfl, hnone⟩ := hm method hmethod
  refine { OnlyOwn.refl u _ db with
    favs := sameRows_filter fun x _ hk => ?_
    favsErased := (List.filter_sublist).filter _
    favsKept := fun h => absurd rfl h }
  have hid : x.merchantId = merchantId := by simpa using hk
  simp [hid, hnone]

theorem lawful_persistApply {x : CmallApplyForMechant} {y : Unit}
    (h : db.persistApply x = some (y, db')) (hu : m.isSome = true → x.applicant = u) :
    Lawful u m db db' := by
  unfold persistApply at h
  split at h
  · cases h
  · cases h
    refine .of_same ⟨rfl, rfl⟩ ⟨rfl, rfl⟩ fun method hm => ?_
    refine { OnlyOwn.refl u method db with applys := ?_ }
    simp [SameRows, List.filter_append, hu (Option.isSome_of_mem hm)]

theorem lawful_updateUser {old row : CmallUser} (hold : db.findUser row.uid = some old)
    (hu : m.isSome = true → row.uid = u) :
    Lawful u m db { db with users := Table.update CmallUser.uid db.users row } := by
  refine .of_same ⟨rfl, rfl⟩ ⟨rfl, rfl⟩ fun method hm => ?_
  have hu' := hu (Option.isSome_of_mem hm)
  refine { OnlyOwn.refl u method db with users := Table.filter_update hold ?_ ?_ }
  · simp [(findUser_uid hold).trans hu']
  · simp [hu']

theorem lawful_upsetKv {pub : Bool} {kv : Cmall3rdKvStore} (hu : m.isSome = true → kv.uid = u) :
    Lawful u m db (db.upsetKv pub kv) := by
  have hset : ∀ t, (∀ method ∈ m, SameRows (fun x => x.uid ≠ u) (db.kvTable pub) t) →
      Lawful u m db (db.setKvTable pub t) := by
    intro t ht
    cases pub with
    | true =>
      exact .of_same ⟨rfl, rfl⟩ ⟨rfl, rfl⟩ fun method hm =>
        { OnlyOwn.refl u method db with pubkvs := ht method hm }
    | false =>
      exact .of_same ⟨rfl, rfl⟩ ⟨rfl, rfl⟩ fun method hm =>
        { OnlyOwn.refl u method db with kvs := ht method hm }
  unfold upsetKv
  split
  · rename_i old hold
    refine hset _ fun method hm => Table.filter_update hold ?_ ?_
    · have hkey : old.key = kv.key := Table.find_key hold
      have huid : old.uid = kv.uid := congrArg Prod.fst hkey
      simp [huid, hu (Option.isSome_of_mem hm)]
    · simp [hu (Option.isSome_of_mem hm)]
  · refine hset _ fun method hm => ?_
    simp [SameRows, List.filter_append, hu (Option.isSome_of_mem hm)]

/-! ### Orders -/

theorem lawful_persistOrder {order : CmallOrder} (hu : m.isSome = true → order.buyer = u) :
    Lawful u m db (db.persistOrder order) where
  owners := by
    refine { KeepsOwners.refl db with orders := fun x hx hid => ?_, orderSeq := Nat.le_succ _ }
    rcases List.mem_append.mp hx with hx | hx
    · exact ⟨x, hx, rfl, rfl⟩
    · rw [List.mem_singleton.mp hx] at hid
      exact absurd hid (Nat.not_succ_le_self _)
  ids h := by
    refine ⟨h.carts, h.cartSeq, ?_, ?_⟩
    · show ((db.orders ++ [_]).map CmallOrder.id).Nodup
      rw [List.map_append, List.map_singleton]
      refine List.nodup_append.mpr ⟨h.orders, List.nodup_singleton _, fun x hx y hy heq => ?_⟩
      obtain ⟨c, hc, rfl⟩ := List.mem_map.mp hx
      have hle := h.orderSeq c hc
      rw [heq, List.mem_singleton.mp hy] at hle
      exact absurd hle (Nat.not_succ_le_self _)
    · intro x hx
      rcases List.mem_append.mp hx with hx | hx
      · exact Nat.le_succ_of_le (h.orderSeq x hx)
      · rw [List.mem_singleton.mp hx]
        exact Nat.le_refl _
  own method hm := by
    refine { OnlyOwn.refl u method db with orders := ?_ }
    simp [SameRows, persistOrder, List.filter_append, hu (Option.isSome_of_mem hm)]

/-- The row of an order is replaced by one of the same buyer. -/
theorem lawful_updateOrder {row : CmallOrder} (h : db.updateOrder row = some db')
    (hrow : OrderOf row.buyer row.id db) (hu : m.isSome = true → row.buyer = u) :
    Lawful u m db db' := by
  unfold updateOrder at h
  split at h
  · rename_i old hold
    cases h
    have hkey : old.id = row.id := Table.find_key hold
    have hbuyer : old.buyer = row.buyer := hrow.2 old (Table.mem_of_find hold) hkey
    refine ⟨?_, fun hi => ?_, fun method hm => ?_⟩
    · refine { KeepsOwners.refl db with orders := fun x hx hid => ?_ }
      rcases Table.mem_update hx with rfl | hx
      · exact ⟨old, Table.mem_of_find hold, hkey, hbuyer⟩
      · exact ⟨x, hx, rfl, rfl⟩
    · refine ⟨hi.carts, hi.cartSeq, ?_, ?_⟩
      · have hids : (Table.update CmallOrder.id db.orders row).map CmallOrder.id =
            db.orders.map CmallOrder.id := Table.map_update hold hkey.symm
        exact hids ▸ hi.orders
      · intro x hx
        rcases Table.mem_update hx with rfl | hx
        · exact hkey ▸ hi.orderSeq old (Table.mem_of_find hold)
        · exact hi.orderSeq x hx
    · have hu' := hu (Option.isSome_of_mem hm)
      refine { OnlyOwn.refl u method db with orders := Table.filter_update hold ?_ ?_ }
      · simp [hbuyer, hu']
      · simp [hu']
  · cases h

end Db

/-! ## The protocol -/

/-- The requests on carts, favourites and orders, and those of a logged-in user. -/
def ReqMethod.ofUser (method : ReqMethod) : Bool :=
  match method.api with
  | .cart | .fav | .order | .user true => true
  | _ => false

/-- The method that is observed: that of request `r₀`, if it is one of a user. -/
def observed (r₀ r : Nat) (q : Request) : Option ReqMethod :=
  if r = r₀ then q.method.filter ReqMethod.ofUser else none

/-- Connection `c` refers to the session at `a`, and its user is `u`. -/
structure Mem.IsUser (s : Mem) (c a u : Nat) : Prop where
  session : (s.conn c).sessionInfo = some a
  user : (s.heap a).uid = some u

/-- A merchant whose rows are about to be erased is still not there. -/
def Spot.stillVanished (spot : Spot) (db : Db) : Bool :=
  match spot with
  | .eraseVanished merchantId => (db.findMerchant merchantId).isNone
  | _ => true

instance (s : Mem) (c a u : Nat) : Decidable (s.IsUser c a u) :=
  decidable_of_iff ((s.conn c).sessionInfo = some a ∧ (s.heap a).uid = some u)
    ⟨fun h => ⟨h.1, h.2⟩, fun h => ⟨h.1, h.2⟩⟩

/-- Request `r₀` is resumed only while the session at `a` of its connection has the
user `u`, and erases the rows of a merchant only while there is none. Nothing is
asked of the other requests. -/
def isolationProtocol (r₀ a u : Nat) : Protocol Request Mem Input Point where
  inv s := s.db.IdsOk
  rely _ _ s t := s.db.KeepsOwners t.db
  guar r q s t := Db.Lawful u (observed r₀ r q) s.db t.db
  guard r q p _ s := r = r₀ → s.IsUser q.conn a u ∧ p.spot.stillVanished s.db = true
  permit _ _ := True
  rely_refl _ _ s := .refl s.db
  rely_trans _ _ _ _ _ h h' := h.trans h'
  guar_refl _ _ s := .refl u _ s.db
  guar_trans _ _ _ _ _ h h' := h.trans h'
  guar_inv _ _ _ _ hi h := h.ids hi
  guar_rely _ _ _ _ _ _ _ _ h := h.owners

instance (r₀ a u r : Nat) (q : Request) (p : Point) (i : Input) (s : Mem) :
    Decidable ((isolationProtocol r₀ a u).guard r q p i s) :=
  inferInstanceAs (Decidable (r = r₀ → s.IsUser q.conn a u ∧ p.spot.stillVanished s.db = true))

instance (r₀ a u : Nat) (q : Request) (s : Mem) :
    Decidable ((isolationProtocol r₀ a u).permit q s) := .isTrue trivial

section Handlers

variable {r₀ a u r : Nat} {q : Request} {ctx : Ctx} {cfg : Config} {α : Type} {J : Mem → Prop}

/-- The observed request finds its session and its user. -/
def Mine (r₀ a u r : Nat) (q : Request) (s : Mem) : Prop := r = r₀ → s.IsUser q.conn a u

theorem isSome_observed (h : (observed r₀ r q).isSome = true) : r = r₀ := by
  unfold observed at h
  split at h
  · assumption
  · cases h

/-- What holds of the tables and survives what the others do. -/
def Lasting (J : Mem → Prop) : Prop := ∀ s t : Mem, s.db.KeepsOwners t.db → J s → J t

theorem lasting_true : Lasting fun _ => True := fun _ _ _ _ => trivial

theorem Lasting.stable (h : Lasting J) : (isolationProtocol r₀ a u).Stable r q J :=
  fun s t _ hst hj => h s t hst hj

/-- The parts that are neither tables nor sessions. -/
def offTables : List Part :=
  [.codes, .uuids, .loginEvents, .accountEvents, .sudoEvents, .orderEvents, .cartEvents,
    .otherEvents]

theorem Keeps.lawful {K : List Part} {s t : Mem} {m : Option ReqMethod} (hk : Keeps K r s t)
    (hc : .carts ∉ K) (ho : .orders ∉ K)
    (hown : m.isSome = true → .users ∉ K ∧ .favs ∉ K ∧ .applys ∉ K ∧ .kvs ∉ K ∧ .sessions ∉ K ∧
      .administrators ∉ K ∧ .apptokens ∉ K ∧ .merchants ∉ K ∧ .indexGoods ∉ K) :
    Db.Lawful u m s.db t.db := by
  refine .of_same (hk.db.carts hc) (hk.db.orders ho) fun method hm => ?_
  obtain ⟨hu, hf, ha, hkv, hs, had, hap, hme, hig⟩ := hown (Option.isSome_of_mem hm)
  constructor
  all_goals simp [SameRows, hk.db.users hu, hk.db.carts hc, hk.db.favs hf, hk.db.orders ho,
    (hk.db.applys ha).1, hk.db.kvs hkv, hk.db.sessions hs, hk.db.administrators had,
    hk.db.apptokens hap, hk.db.merchants hme, hk.db.indexGoods hig]

theorem guard_mine {p : Point} {i : Input} {s : Mem}
    (h : (isolationProtocol r₀ a u).guard r q p i s) : Mine r₀ a u r q s := fun hr => (h hr).1

theorem triple_mine_of_each {x : M α} (hx : x.Each (Keeps offTables r)) (hJ : Lasting J) :
    (isolationProtocol r₀ a u).Triple r q (fun s => J s ∧ Mine r₀ a u r q s) x
      (fun _ s => J s ∧ Mine r₀ a u r q s) (fun _ => True) := by
  refine .conseq (.each_resumed hx hJ.stable (fun _ _ _ h => guard_mine h) ?_)
    (fun _ _ h => h) (fun _ _ _ h => h) fun _ _ _ => trivial
  intro s t _ hj hmine hk
  have hlaw : Db.Lawful u (observed r₀ r q) s.db t.db :=
    hk.lawful (by simp [offTables]) (by simp [offTables]) (by simp [offTables])
  refine ⟨hlaw, hJ s t hlaw.owners hj, fun hr => ?_⟩
  have hs := hmine hr
  refine ⟨?_, ?_⟩
  · rw [hk.conn (by simp [offTables])]
    exact hs.session
  · rw [(hk.heap (by simp [offTables])).1]
    exact hs.user

/-- The coroutine keeps `J`. -/
def MineSafe (r₀ a u r : Nat) (q : Request) (J : Mem → Prop) (x : M α) : Prop :=
  (isolationProtocol r₀ a u).Triple r q (fun s => J s ∧ Mine r₀ a u r q s) x
    (fun _ s => J s ∧ Mine r₀ a u r q s) (fun _ => True)

theorem MineSafe.bind {β : Type} {x : M α} {g : α → M β} (hx : MineSafe r₀ a u r q J x)
    (hg : ∀ b, MineSafe r₀ a u r q J (g b)) : MineSafe r₀ a u r q J (x >>= g) :=
  Triple.bind hx hg

theorem mineSafe_of_each {x : M α} (hx : x.Each (Keeps offTables r)) (hJ : Lasting J) :
    MineSafe r₀ a u r q J x :=
  triple_mine_of_each hx hJ

/-- What follows does not need `J`. -/
theorem MineSafe.forget {x : M α} (h : MineSafe r₀ a u r q (fun _ => True) x) :
    (isolationProtocol r₀ a u).Triple r q (fun s => J s ∧ Mine r₀ a u r q s) x
      (fun _ s => True ∧ Mine r₀ a u r q s) (fun _ => True) :=
  .conseq h (fun _ _ h => ⟨trivial, h.2⟩) (fun _ _ _ h => h) fun _ _ h => h

theorem thisSession_mine (hc : ctx.conn = q.conn) :
    (isolationProtocol r₀ a u).Triple r q (fun s => J s ∧ Mine r₀ a u r q s) (thisSession ctx)
      (fun b s => (r = r₀ → b = a) ∧ J s ∧ Mine r₀ a u r q s) (fun _ => True) := by
  refine .conseq (triple_thisSession fun _ _ _ => trivial) (fun _ _ h => h) ?_ fun _ _ h => h
  rintro b s _ ⟨hb, hj, hmine⟩
  refine ⟨fun hr => ?_, hj, hmine⟩
  rw [hc] at hb
  exact Option.some.inj (hb.symm.trans (hmine hr).session)

theorem thisUser_mine {b : Nat} (hb : r = r₀ → b = a) :
    (isolationProtocol r₀ a u).Triple r q (fun s => J s ∧ Mine r₀ a u r q s) (thisUser b)
      (fun v s => (r = r₀ → v.uid = u) ∧ J s ∧ Mine r₀ a u r q s) (fun _ => True) := by
  refine .conseq (triple_thisUser b fun _ _ _ => trivial) (fun _ _ h => h) ?_ fun _ _ h => h
  rintro v s _ ⟨hv, hj, hmine⟩
  refine ⟨fun hr => ?_, hj, hmine⟩
  have huser := (hmine hr).user
  rw [← hb hr, ClientSession.uid, hv] at huser
  exact Option.some.inj huser

/-- A read of the tables. -/
theorem asyncLoad_mine {f : Db → α} {after : α → Spot} (J' : α → Mem → Prop) (hJ : Lasting J)
    (hJ' : ∀ x, Lasting (J' x)) (hf : ∀ s : Mem, s.db.IdsOk → J s → J' (f s.db) s) :
    (isolationProtocol r₀ a u).Triple r q (fun s => J s ∧ Mine r₀ a u r q s)
      (asyncLoad ctx f after) (fun x s => J' x s ∧ Mine r₀ a u r q s) (fun _ => True) := by
  refine .conseq (triple_asyncLoad (L := J) J' hJ.stable (fun x => (hJ' x).stable)
    (fun _ _ _ => trivial) hf ?_) (fun _ _ h => h.1) (fun _ _ _ h => h) fun _ _ h => h
  exact fun x i s _ h hg => ⟨h, guard_mine hg⟩

/-- A lawful write of the tables. -/
theorem asyncWrite_mine {f : Mem → Option (α × Db)} {spot : Spot} {after : α → Spot}
    (hJ : Lasting J)
    (hf : ∀ s : Mem, s.db.IdsOk → J s → (r = r₀ → spot.stillVanished s.db = true) →
      ∀ x db, f s = some (x, db) → Db.Lawful u (observed r₀ r q) s.db db) :
    MineSafe r₀ a u r q J (asyncWrite ctx f spot after) := by
  refine .conseq (triple_tx (L := J) (fun _ => J) hJ.stable (fun _ => hJ.stable)
    (fun _ _ _ => trivial) ?_ fun _ _ _ _ h hg => ⟨h, guard_mine hg⟩) (fun _ _ h => h.1)
    (fun _ _ _ h => h) fun _ _ h => h
  intro i s hi hj hg
  cases hfs : f s with
  | none => exact ⟨.refl _ _ _, fun _ => hj, by simp⟩
  | some p =>
    have hlaw := hf s hi hj (fun hr => (hg hr).2) p.1 p.2 hfs
    exact ⟨hlaw, fun _ => hJ s _ hlaw.owners hj, fun _ _ => hJ s _ hlaw.owners hj⟩

/-- The user of the session, and what is done with it. -/
theorem thisUser_bind {β : Type} {b : Nat} {k : CmallUser → M β} (hb : r = r₀ → b = a)
    (hk : ∀ v, (r = r₀ → v.uid = u) → MineSafe r₀ a u r q J (k v)) :
    MineSafe r₀ a u r q J (thisUser b >>= k) :=
  Triple.bind (thisUser_mine hb) fun v => .pure fun hv => hk v hv

theorem thisSession_bind {β : Type} {k : Nat → M β} (hc : ctx.conn = q.conn)
    (hk : ∀ b, (r = r₀ → b = a) → MineSafe r₀ a u r q J (k b)) :
    MineSafe r₀ a u r q J (thisSession ctx >>= k) :=
  Triple.bind (thisSession_mine hc) fun b => .pure fun hb => hk b hb

/-! ## Carts -/

theorem lasting_cartOf {v id : Nat} : Lasting fun s => s.db.CartOf v id :=
  fun _ _ h hc => h.cartOf hc

theorem storeCart_mine {found : Option CmallCart} {item : CmallCart} (hJ : Lasting J)
    (hf : ∀ s : Mem, J s → ∀ db,
      (if found.isSome then s.db.updateCart item s.clock else some ((), s.db.persistCart item)) =
        some ((), db) → Db.Lawful u (observed r₀ r q) s.db db) :
    MineSafe r₀ a u r q J (storeCart ctx found item) := by
  refine .conseq (triple_tx (L := J) (fun _ => J) hJ.stable (fun _ => hJ.stable)
    (fun _ _ _ => trivial) ?_ fun _ _ _ _ h hg => ⟨h, guard_mine hg⟩) (fun _ _ h => h.1)
    (fun _ _ _ h => h) fun _ _ h => h
  intro i s hi hj hg
  have hlaw := hf s hj
  split
  · rename_i db hdb
    have hlaw := hlaw db hdb
    exact ⟨hlaw, fun _ => hJ s _ hlaw.owners hj, fun _ _ => hJ s _ hlaw.owners hj⟩
  · exact ⟨.refl _ _ _, fun _ => hj, by simp⟩

theorem persistCart_mine {item : CmallCart} (hu : r = r₀ → item.uid = u) :
    MineSafe r₀ a u r q (fun _ => True) (storeCart ctx none item) := by
  refine storeCart_mine lasting_true ?_
  rintro s _ db ⟨⟩
  exact Db.lawful_persistCart fun h => hu (isSome_observed h)

theorem updateCart_mine {item : CmallCart} {n : Nat} (hu : r = r₀ → item.uid = u) :
    MineSafe r₀ a u r q (fun s => s.db.CartOf item.uid item.id)
      (storeCart ctx (some item) { item with count := n }) := by
  refine storeCart_mine lasting_cartOf ?_
  intro s hof db hdb
  simp only [Option.isSome_some, if_true, Db.updateCart] at hdb
  split at hdb
  · rename_i old hold
    cases hdb
    have huid : old.uid = item.uid :=
      hof.2 old (Table.mem_of_find hold) (Table.find_key hold)
    exact Db.lawful_updateCart hold huid.symm fun h => huid.trans (hu (isSome_observed h))
  · cases hdb

/-- The row a query on the user's carts finds. -/
theorem cartFound_bind {β : Type} {p : CmallCart → Bool} {k : Option CmallCart → M β}
    (hp : ∀ x, p x = true → r = r₀ → x.uid = u)
    (hsome : ∀ item, (r = r₀ → item.uid = u) →
      MineSafe r₀ a u r q (fun s => s.db.CartOf item.uid item.id) (k (some item)))
    (hnone : MineSafe r₀ a u r q (fun _ => True) (k none)) :
    MineSafe r₀ a u r q (fun _ => True)
      (asyncLoad ctx (fun db => Table.queryOne db.carts p) >>= k) := by
  refine Triple.bind (asyncLoad_mine (fun found s => ∀ item, found = some item →
    p item = true ∧ s.db.CartOf item.uid item.id) lasting_true ?_ ?_) fun found => ?_
  · exact fun found s t h hj item hitem => ⟨(hj item hitem).1, h.cartOf (hj item hitem).2⟩
  · intro s hi _ item hitem
    obtain ⟨hmem, hpi⟩ := Table.queryOne_some hitem
    exact ⟨hpi, hi.cartOf hmem⟩
  · cases found with
    | none => exact .conseq hnone (fun _ _ h => ⟨trivial, h.2⟩) (fun _ _ _ h => h) fun _ _ h => h
    | some item =>
      refine .conseq (L := fun s => p item = true ∧ s.db.CartOf item.uid item.id ∧
        Mine r₀ a u r q s) (.pure fun hpi => ?_) (fun s _ h => ?_) (fun _ _ _ h => h) fun _ _ h => h
      · exact .conseq (hsome item (hp item hpi)) (fun _ _ h => h)
          (fun _ _ _ h => ⟨trivial, h.2⟩) fun _ _ h => h
      · exact ⟨(h.1 item rfl).1, (h.1 item rfl).2, h.2⟩

theorem notifyCartChanged_mine (hr : ctx.req = r) (b : Nat) (hJ : Lasting J) :
    MineSafe r₀ a u r q J (notifyCartChanged ctx b) :=
  mineSafe_of_each (hr ▸ notifyCartChanged_each b (by simp [offTables])) hJ

theorem cartAdd_mine (hr : ctx.req = r) {b : Nat} (hb : r = r₀ → b = a) (params : JsonObject) :
    MineSafe r₀ a u r q (fun _ => True) (cartAdd ctx b params) := by
  have hend : ∀ J, Lasting J → MineSafe r₀ a u r q J (do
      notifyCartChanged ctx b
      return .bool true : M Reply) := fun J hJ =>
    .bind (notifyCartChanged_mine hr b hJ) fun _ => mineSafe_of_each (each_pure _) hJ
  simp only [cartAdd, cartAddTo]
  repeat' first
    | (with_reducible refine thisUser_bind hb ?_; intro v hv)
    | (with_reducible refine cartFound_bind ?_ ?_ ?_)
    | (refine mineSafe_of_each ?_ lasting_true; simp; done)
    | exact hend _ lasting_true
    | exact persistCart_mine (by assumption)
    | with_reducible refine .bind ?_ fun _ => ?_
    | split
  all_goals first
    | (intro x hx hr'; simp only [decide_eq_true_eq] at hx; exact hx.1.trans (hv hr'))
    | exact fun item hitem => Triple.bind (updateCart_mine hitem) fun _ => hend _ lasting_cartOf

theorem cartOwned_bind {β : Type} {b itemId : Nat} {k : Unit → M β} (hb : r = r₀ → b = a)
    (hk : MineSafe r₀ a u r q (fun s => r = r₀ → s.db.CartOf u itemId) (k ())) :
    MineSafe r₀ a u r q (fun _ => True) (cartOwned ctx b itemId >>= k) := by
  refine Triple.bind (Q := fun _ s => (r = r₀ → s.db.CartOf u itemId) ∧ Mine r₀ a u r q s)
    (Triple.bind (asyncLoad_mine (fun found s => ∀ item, found = some item →
      s.db.CartOf item.uid itemId) lasting_true ?_ ?_) fun found => ?_) fun _ =>
    .conseq hk (fun _ _ h => h) (fun _ _ _ h => ⟨trivial, h.2⟩) fun _ _ h => h
  · exact fun found s t h hj item hitem => h.cartOf (hj item hitem)
  · intro s hi _ item hitem
    have hid : item.id = itemId := Table.find_key hitem
    exact hid ▸ hi.cartOf (Table.mem_of_find hitem)
  · cases found with
    | none => exact .throw fun _ _ _ => trivial
    | some item =>
      refine Triple.bind (thisUser_mine hb) fun v => .pure fun hv => ?_
      split
      · exact .throw fun _ _ _ => trivial
      · rename_i huid
        refine .ret fun s _ h => ⟨fun hr' => ?_, h.2⟩
        have hitem : item.uid = u := (not_not.mp huid).trans (hv hr')
        exact hitem ▸ h.1 item rfl

theorem lasting_owned {itemId : Nat} : Lasting fun s => r = r₀ → s.db.CartOf u itemId :=
  fun _ _ h hc hr => h.cartOf (hc hr)

theorem updateCartCount_mine {itemId count : Nat} :
    MineSafe r₀ a u r q (fun s => r = r₀ → s.db.CartOf u itemId)
      (asyncWrite ctx fun s => some ((), s.db.updateCartCount itemId count s.clock)) := by
  refine asyncWrite_mine lasting_owned ?_
  rintro s _ hof _ x db ⟨⟩
  unfold Db.updateCartCount
  split
  · rename_i old hold
    have hid : old.id = itemId := Table.find_key hold
    have hfind : s.db.findCart old.id = some old := hid ▸ hold
    refine Db.lawful_updateCart hfind rfl fun h => ?_
    exact (hof (isSome_observed h)).2 old (Table.mem_of_find hold) hid
  · exact .refl _ _ _

theorem removeCart_mine {itemId : Nat} :
    MineSafe r₀ a u r q (fun s => r = r₀ → s.db.CartOf u itemId)
      (asyncWrite ctx fun s => s.db.removeCart itemId) := by
  refine asyncWrite_mine lasting_owned ?_
  intro s _ hof _ x db hdb
  exact Db.lawful_removeCart hdb fun h => hof (isSome_observed h)

theorem cartMod_mine (hr : ctx.req = r) {b : Nat} (hb : r = r₀ → b = a) (params : JsonObject) :
    MineSafe r₀ a u r q (fun _ => True) (cartMod ctx b params) := by
  simp only [cartMod]
  repeat' first
    | (with_reducible refine cartOwned_bind hb ?_)
    | (with_reducible refine .bind updateCartCount_mine fun _ => ?_)
    | (with_reducible refine .bind (notifyCartChanged_mine hr b lasting_owned) fun _ => ?_)
    | (refine mineSafe_of_each ?_ lasting_true; simp; done)
    | (refine mineSafe_of_each ?_ lasting_owned; simp)
    | with_reducible refine .bind ?_ fun _ => ?_
    | split

theorem cartDel_mine (hr : ctx.req = r) {b : Nat} (hb : r = r₀ → b = a) (params : JsonObject) :
    MineSafe r₀ a u r q (fun _ => True) (cartDel ctx b params) := by
  simp only [cartDel]
  repeat' first
    | (with_reducible refine cartOwned_bind hb ?_)
    | (with_reducible refine .bind removeCart_mine fun _ => ?_)
    | (with_reducible refine .bind (notifyCartChanged_mine hr b lasting_owned) fun _ => ?_)
    | (refine mineSafe_of_each ?_ lasting_true; simp; done)
    | (refine mineSafe_of_each ?_ lasting_owned; simp)
    | with_reducible refine .bind ?_ fun _ => ?_
    | split

theorem eraseVanished_mine {erase : Db → Nat → Db}
    (herase : ∀ (db : Db) (merchantId : Nat), (r = r₀ → db.findMerchant merchantId = none) →
      Db.Lawful u (observed r₀ r q) db (erase db merchantId)) (vanished : List Nat) :
    MineSafe r₀ a u r q (fun _ => True) (eraseVanished ctx erase vanished) := by
  induction vanished with
  | nil => exact mineSafe_of_each (each_pure _) lasting_true
  | cons merchantId rest ih =>
    refine .bind (asyncWrite_mine lasting_true ?_) fun _ => ih
    rintro s _ _ hgone x db ⟨⟩
    refine herase s.db merchantId fun hr => ?_
    simpa [Spot.stillVanished] using hgone hr

theorem mem_observed {method method' : ReqMethod} (hq : q.method = some method)
    (h : method' ∈ observed r₀ r q) : method' = method ∧ r = r₀ := by
  refine ⟨?_, isSome_observed (Option.isSome_of_mem h)⟩
  unfold observed at h
  split at h
  · rw [hq] at h
    exact (Option.some.inj (Option.mem_filter_iff.mp h).1).symm
  · cases h

theorem cartList_mine (hq : q.method = some .cartList) {b : Nat} (hb : r = r₀ → b = a)
    (params : JsonObject) : MineSafe r₀ a u r q (fun _ => True) (cartList ctx b params) := by
  have herase : ∀ (db : Db) (merchantId : Nat), (r = r₀ → db.findMerchant merchantId = none) →
      Db.Lawful u (observed r₀ r q) db (db.eraseCartsOf merchantId) := by
    intro db merchantId hnone
    refine Db.lawful_eraseCartsOf fun method hm => ?_
    obtain ⟨rfl, hr⟩ := mem_observed hq hm
    exact ⟨rfl, hnone hr⟩
  simp only [cartList]
  repeat' first
    | (with_reducible refine thisUser_bind hb ?_; intro v hv)
    | exact eraseVanished_mine herase _
    | with_reducible refine .bind ?_ fun _ => ?_
    | (refine mineSafe_of_each ?_ lasting_true; simp; done)

/-! ## Favourites -/

theorem favAdd_mine {b : Nat} (hb : r = r₀ → b = a) (params : JsonObject) :
    MineSafe r₀ a u r q (fun _ => True) (favAdd ctx b params) := by
  have hpersist : ∀ item : CmallUserFav, (r = r₀ → item.uid = u) →
      MineSafe r₀ a u r q (fun _ => True)
        (asyncWrite ctx fun s => some ((), s.db.persistFav item)) := by
    intro item hu
    refine asyncWrite_mine lasting_true ?_
    rintro s _ _ _ x db ⟨⟩
    exact Db.lawful_persistFav fun h => hu (isSome_observed h)
  simp only [favAdd]
  repeat' first
    | (with_reducible refine thisUser_bind hb ?_; intro v hv)
    | exact hpersist _ hv
    | with_reducible refine .bind ?_ fun _ => ?_
    | (refine mineSafe_of_each ?_ lasting_true; simp; done)
    | split

theorem favDel_mine {b : Nat} (hb : r = r₀ → b = a) (params : JsonObject) :
    MineSafe r₀ a u r q (fun _ => True) (favDel ctx b params) := by
  have herase : ∀ v merchantId : Nat, (r = r₀ → v = u) →
      MineSafe r₀ a u r q (fun _ => True) (asyncWrite ctx fun s => some ((), { s.db with
        favs := Table.eraseQuery s.db.favs fun x => x.uid = v ∧ x.merchantId = merchantId })) := by
    intro v merchantId hu
    refine asyncWrite_mine lasting_true ?_
    rintro s _ _ _ x db ⟨⟩
    refine Db.lawful_favs (n := s.db.seq.fav) fun method hm => sameRows_filter fun y _ hk => ?_
    have hv : y.uid = v ∧ y.merchantId = merchantId := by simpa using hk
    simp [hv.1, hu (isSome_observed (Option.isSome_of_mem hm))]
  simp only [favDel]
  repeat' first
    | (with_reducible refine thisUser_bind hb ?_; intro v hv)
    | exact herase _ _ hv
    | with_reducible refine .bind ?_ fun _ => ?_
    | (refine mineSafe_of_each ?_ lasting_true; simp; done)
    | split

theorem favList_mine (hq : q.method = some .favList) {b : Nat} (hb : r = r₀ → b = a)
    (params : JsonObject) : MineSafe r₀ a u r q (fun _ => True) (favList ctx b params) := by
  have herase : ∀ (db : Db) (merchantId : Nat), (r = r₀ → db.findMerchant merchantId = none) →
      Db.Lawful u (observed r₀ r q) db (db.eraseFavsOf merchantId) := by
    intro db merchantId hnone
    refine Db.lawful_eraseFavsOf fun method hm => ?_
    obtain ⟨rfl, hr⟩ := mem_observed hq hm
    exact ⟨rfl, hnone hr⟩
  simp only [favList]
  repeat' first
    | (with_reducible refine thisUser_bind hb ?_; intro v hv)
    | exact eraseVanished_mine herase _
    | with_reducible refine .bind ?_ fun _ => ?_
    | (refine mineSafe_of_each ?_ lasting_true; simp; done)

/-! ## Users -/

theorem userApplyMerchant_mine (hc : ctx.conn = q.conn) {b : Nat} (hb : r = r₀ → b = a) :
    MineSafe r₀ a u r q (fun _ => True) (userApplyMerchant ctx b) := by
  have hpersist : ∀ x : CmallApplyForMechant, (r = r₀ → x.applicant = u) →
      MineSafe r₀ a u r q (fun _ => True) (asyncWrite ctx fun s => s.db.persistApply x) := by
    intro x hu
    refine asyncWrite_mine lasting_true ?_
    intro s _ _ _ y db hdb
    exact Db.lawful_persistApply hdb fun h => hu (isSome_observed h)
  simp only [userApplyMerchant]
  repeat' first
    | (with_reducible refine thisUser_bind hb ?_; intro v hv)
    | (with_reducible refine thisSession_bind hc ?_; intro b' hb')
    | (with_reducible refine thisUser_bind hb' ?_; intro v hv)
    | exact hpersist _ hv
    | with_reducible refine .bind ?_ fun _ => ?_
    | (refine mineSafe_of_each ?_ lasting_true; simp; done)
    | split

/-- The rows of the database and nothing else are what the tables depend on. -/
theorem overwriteUser_db (s : Mem) (b : Nat) (row : CmallUser) :
    (s.overwriteUser b row).db = s.db := by
  unfold Mem.overwriteUser
  split <;> rfl

theorem tx_mine {spot : Spot} {f : Input → Mem → Option α × Mem} {after : α → Spot}
    (hf : ∀ i (s : Mem), s.db.IdsOk → Db.Lawful u (observed r₀ r q) s.db (f i s).2.db) :
    MineSafe r₀ a u r q (fun _ => True) (tx ctx spot f after) := by
  refine .conseq (triple_tx (L := fun _ => True) (fun _ _ => True) stable_true
    (fun _ => stable_true) (fun _ _ _ => trivial) ?_ fun _ _ _ _ h hg => ⟨h, guard_mine hg⟩)
    (fun _ _ _ => trivial) (fun _ _ _ h => h) fun _ _ h => h
  exact fun i s hi _ _ => ⟨hf i s hi, fun _ => trivial, fun _ _ => trivial⟩

theorem reloadUser_mine {b uid : Nat} {after : Bool → Spot} :
    MineSafe r₀ a u r q (fun _ => True) (reloadUser ctx b uid after) := by
  refine tx_mine fun i s _ => ?_
  split
  · rw [overwriteUser_db]
    exact .refl _ _ _
  · exact .refl _ _ _

theorem updateUser_mine {b uid : Nat} {f : CmallUser → CmallUser} (hf : ∀ v, (f v).uid = v.uid)
    (hu : r = r₀ → uid = u) : MineSafe r₀ a u r q (fun _ => True) (updateUser ctx b uid f) := by
  refine tx_mine fun i s _ => ?_
  split
  · rename_i old hold
    have huid : (f old).uid = uid := (hf old).trans (Db.findUser_uid hold)
    show Db.Lawful u _ s.db { (s.overwriteUser b (f old)).db with users := _ }
    rw [overwriteUser_db]
    have hfind : s.db.findUser (f old).uid = some old := huid.symm ▸ hold
    exact Db.lawful_updateUser hfind fun h => huid.trans (hu (isSome_observed h))
  · exact .refl _ _ _

theorem userAddRecipientAddress_mine {b : Nat} (hb : r = r₀ → b = a) (params : JsonObject) :
    MineSafe r₀ a u r q (fun _ => True) (userAddRecipientAddress ctx b params) := by
  simp only [userAddRecipientAddress]
  repeat' first
    | (with_reducible refine thisUser_bind hb ?_; intro v hv)
    | exact updateUser_mine (fun _ => rfl) hv
    | with_reducible refine .bind ?_ fun _ => ?_
    | (refine mineSafe_of_each ?_ lasting_true; simp; done)

theorem userEraseReceiptAddress_mine {b : Nat} (hb : r = r₀ → b = a) (params : JsonObject) :
    MineSafe r₀ a u r q (fun _ => True) (userEraseReceiptAddress ctx b params) := by
  have hkeep : ∀ (id : Int) (v : CmallUser),
      (if 0 ≤ id ∧ id < v.recipients.length then
        { v with recipients := v.recipients.eraseIdx id.toNat } else v).uid = v.uid := by
    intro id v
    split <;> rfl
  simp only [userEraseReceiptAddress]
  repeat' first
    | (with_reducible refine thisUser_bind hb ?_; intro v hv)
    | exact updateUser_mine (hkeep _) hv
    | with_reducible refine .bind ?_ fun _ => ?_
    | (refine mineSafe_of_each ?_ lasting_true; simp; done)

theorem user3rdKvPut_mine {b : Nat} (hb : r = r₀ → b = a) (pub : Bool) (params : JsonObject) :
    MineSafe r₀ a u r q (fun _ => True) (user3rdKvPut ctx b pub params) := by
  have hput : ∀ kv : Cmall3rdKvStore, (r = r₀ → kv.uid = u) →
      MineSafe r₀ a u r q (fun _ => True)
        (asyncWrite ctx fun s => some ((), s.db.upsetKv pub kv)) := by
    intro kv hu
    refine asyncWrite_mine lasting_true ?_
    rintro s _ _ _ x db ⟨⟩
    exact Db.lawful_upsetKv fun h => hu (isSome_observed h)
  simp only [user3rdKvPut]
  repeat' first
    | (with_reducible refine thisUser_bind hb ?_; intro v hv)
    | exact hput _ hv
    | with_reducible refine .bind ?_ fun _ => ?_
    | (refine mineSafe_of_each ?_ lasting_true; simp; done)

/-! ## Orders -/

theorem liftExcept_returns {p : α → Prop} {x : Except Exn α} (h : ∀ b, x = .ok b → p b) :
    (liftExcept x).Returns p := by
  cases x with
  | ok b => exact h b rfl
  | error e => trivial

theorem OrderDraft.push_buyer {d d' : OrderDraft} {merchantId : Nat} {options : List Json}
    {p : Product} (h : d.push cfg merchantId options p = .ok d') :
    d'.order.buyer = d.order.buyer := by
  simp only [OrderDraft.push, bind, Except.bind] at h
  repeat' split at h
  all_goals first
    | (cases h; rfl)
    | cases h

theorem orderGoods_buyer (d : OrderDraft) (goods : Json) :
    (orderGoods cfg ctx d goods).Returns fun d' => d'.order.buyer = d.order.buyer := by
  simp only [orderGoods]
  repeat' first
    | exact liftExcept_returns fun d' hd' => (OrderDraft.push_buyer hd').trans rfl
    | (with_reducible refine Co.returns_bind (Co.returns_true _) fun _ _ => ?_)
    | split
    | rfl

theorem orderGoodsList_buyer (goods : List Json) (d : OrderDraft) :
    (orderGoodsList cfg ctx goods d).Returns fun d' => d'.order.buyer = d.order.buyer := by
  induction goods generalizing d with
  | nil => exact rfl
  | cons goods rest ih =>
    refine Co.returns_bind (orderGoods_buyer d goods) fun d' hd' => ?_
    exact hd' ▸ ih d'

theorem orderCreate_mine (hc : ctx.conn = q.conn) {b : Nat} (hb : r = r₀ → b = a)
    (params : JsonObject) : MineSafe r₀ a u r q (fun _ => True) (orderCreate cfg ctx b params) := by
  have hpersist : ∀ order : CmallOrder, (r = r₀ → order.buyer = u) →
      MineSafe r₀ a u r q (fun _ => True)
        (asyncWrite ctx fun s => some ((), s.db.persistOrder order)) := by
    intro order hu
    refine asyncWrite_mine lasting_true ?_
    rintro s _ _ _ x db ⟨⟩
    exact Db.lawful_persistOrder fun h => hu (isSome_observed h)
  simp only [orderCreate]
  refine thisUser_bind hb fun v hv => .bind reloadUser_mine fun _ => ?_
  refine thisSession_bind hc fun b' hb' => thisUser_bind hb' fun userInfo huser => ?_
  refine .bind (mineSafe_of_each (liftExcept_each _) lasting_true) fun goods => ?_
  refine .bind (mineSafe_of_each (liftExcept_each _) lasting_true) fun recipientId => ?_
  split
  · exact mineSafe_of_each (each_throw _) lasting_true
  · split
    · exact mineSafe_of_each (each_throw _) lasting_true
    · refine .bind (mineSafe_of_each (genUuid_each (by simp [offTables])) lasting_true) fun oid => ?_
      refine .bind (mineSafe_of_each localTime_each lasting_true) fun now => ?_
      refine Triple.bind (.returns (orderGoodsList_buyer goods _)
        (mineSafe_of_each (orderGoodsList_each _ _) lasting_true)) fun d => .pure fun hd => ?_
      refine .bind (hpersist _ fun hr => hd.trans (huser hr)) fun _ => ?_
      exact mineSafe_of_each (each_pure _) lasting_true

/-- A loaded order, with its buyer. -/
def OrderFound (o : CmallOrder) (s : Mem) : Prop := s.db.OrderOf o.buyer o.id

theorem lasting_orderFound {o : CmallOrder} : Lasting (OrderFound o) := fun _ _ h ho => h.orderOf ho

/-- A query on the orders, recorded with what it found. -/
theorem loadOrders_mine (f : Db → α) (g : List CmallOrder → Event) (rows : α → List CmallOrder)
    {p : CmallOrder → Bool} (hf : ∀ db, ∀ o ∈ rows (f db), o ∈ db.orders ∧ p o = true) :
    (isolationProtocol r₀ a u).Triple r q (fun s => True ∧ Mine r₀ a u r q s)
      (tx ctx .tx (fun _ s => (some (f s.db), { s with trace := g (rows (f s.db)) :: s.trace }))
        (fun _ => .back))
      (fun found s => (∀ o ∈ rows found, p o = true ∧ OrderFound o s) ∧ Mine r₀ a u r q s)
      (fun _ => True) := by
  refine .conseq (triple_tx (L := fun _ => True) (fun found s => ∀ o ∈ rows found,
    p o = true ∧ OrderFound o s) stable_true ?_ (fun _ _ _ => trivial) ?_
    fun _ _ _ _ h hg => ⟨h, guard_mine hg⟩) (fun _ _ _ => trivial) (fun _ _ _ h => h)
    fun _ _ h => h
  · exact fun found s t _ hst h o ho => ⟨(h o ho).1, lasting_orderFound s t hst (h o ho).2⟩
  · intro i s hi _ _
    refine ⟨.refl _ _ _, fun _ => trivial, ?_⟩
    rintro found ⟨⟩ o ho
    obtain ⟨hmem, hp⟩ := hf s.db o ho
    exact ⟨hp, hi.orderOf hmem⟩

theorem loadOneOrder_mine {who : Actor} {orderid : String} :
    (isolationProtocol r₀ a u).Triple r q (fun s => True ∧ Mine r₀ a u r q s)
      (loadOneOrder ctx who orderid)
      (fun o s => who.sees orderid o = true ∧ OrderFound o s ∧ Mine r₀ a u r q s)
      (fun _ => True) := by
  refine Triple.bind (loadOrders_mine (p := who.sees orderid)
    (fun db => Table.query db.orders (who.sees orderid))
    (.ordersLoaded ctx.req who) (fun rows => rows) fun db o ho => ?_) fun rows => ?_
  · exact ⟨List.mem_of_mem_filter ho, (List.mem_filter.mp ho).2⟩
  · split
    · rename_i o
      refine .ret fun s _ h => ?_
      have ho := h.1 o (List.mem_singleton_self o)
      exact ⟨ho.1, ho.2, h.2⟩
    · exact .throw fun _ _ _ => trivial

/-- What is done with an order that was loaded. -/
theorem found_bind {β : Type} {p : CmallOrder → Prop} {x : M CmallOrder} {k : CmallOrder → M β}
    (hx : (isolationProtocol r₀ a u).Triple r q (fun s => True ∧ Mine r₀ a u r q s) x
      (fun o s => p o ∧ OrderFound o s ∧ Mine r₀ a u r q s) (fun _ => True))
    (hk : ∀ o, p o → MineSafe r₀ a u r q (OrderFound o) (k o)) :
    MineSafe r₀ a u r q (fun _ => True) (x >>= k) :=
  Triple.bind hx fun o => .pure fun ho =>
    .conseq (hk o ho) (fun _ _ h => h) (fun _ _ _ h => ⟨trivial, h.2⟩) fun _ _ h => h

/-- A row is written back for the buyer it was loaded with. -/
theorem storeOrder_mine {change : OrderChange} {o row : CmallOrder}
    {stamp : PTime → CmallOrder → CmallOrder}
    (hrow : ∀ now, (stamp now row).id = o.id ∧ (stamp now row).buyer = o.buyer)
    (hu : (observed r₀ r q).isSome = true → o.buyer = u) :
    MineSafe r₀ a u r q (OrderFound o) (storeOrder ctx change row stamp) := by
  refine .conseq (triple_tx (L := OrderFound o) (fun _ => OrderFound o) lasting_orderFound.stable
    (fun _ => lasting_orderFound.stable) (fun _ _ _ => trivial) ?_
    fun _ _ _ _ h hg => ⟨h, guard_mine hg⟩) (fun _ _ h => h.1) (fun _ _ _ h => h) fun _ _ h => h
  intro i s _ ho _
  obtain ⟨hid, hbuyer⟩ := hrow s.clock
  cases hdb : s.db.updateOrder (stamp s.clock row) with
  | none => exact ⟨.refl _ _ _, fun _ => ho, by simp⟩
  | some db =>
    have hlaw : Db.Lawful u (observed r₀ r q) s.db db := by
      refine Db.lawful_updateOrder hdb ?_ fun h => ?_
      · rw [hid, hbuyer]
        exact ho
      · exact hbuyer.trans (hu h)
    exact ⟨hlaw, by simp, fun _ _ => lasting_orderFound s _ hlaw.owners ho⟩

theorem orderMarkPayed_mine (hr : ctx.req = r) {order : CmallOrder} {seller : M Nat}
    (hseller : seller.Each (Keeps offTables r))
    (hu : (observed r₀ r q).isSome = true → order.buyer = u) :
    MineSafe r₀ a u r q (OrderFound order) (orderMarkPayed ctx order seller) := by
  subst hr
  simp only [orderMarkPayed]
  refine .bind (mineSafe_of_each localTime_each lasting_orderFound) fun now => ?_
  refine .bind (storeOrder_mine (fun _ => ⟨rfl, rfl⟩) hu) fun _ => ?_
  refine mineSafe_of_each ?_ lasting_orderFound
  refine Co.each_bind hseller fun merchantId => Co.each_bind each_get fun s => ?_
  repeat' first
    | with_reducible refine Co.each_bind ?_ fun _ => ?_
    | simp; done
    | exact emit_each (by simp [offTables, Event.part]) rfl
    | split

theorem orderCheckPayment_mine (hr : ctx.req = r) {order : CmallOrder} {seller : M Nat}
    (hseller : seller.Each (Keeps offTables r))
    (hu : (observed r₀ r q).isSome = true → order.buyer = u) :
    MineSafe r₀ a u r q (OrderFound order) (orderCheckPayment ctx order seller) := by
  have hmark : MineSafe r₀ a u r q (OrderFound order) (orderMarkPayed ctx order seller) :=
    orderMarkPayed_mine hr hseller hu
  subst hr
  have hevent : ∀ out, (emit (.checkpay ctx.req order.oid out)).Each (Keeps offTables ctx.req) :=
    fun out => emit_each (by simp [offTables, Event.part]) rfl
  simp only [orderCheckPayment]
  repeat' first
    | exact hmark
    | with_reducible refine .bind ?_ fun _ => ?_
    | (refine mineSafe_of_each ?_ lasting_orderFound; first | exact hseller | exact hevent _ | simp; done)
    | split

theorem buyerCheckPayment_mine (hr : ctx.req = r) {b : Nat} (hb : r = r₀ → b = a)
    (params : JsonObject) : MineSafe r₀ a u r q (fun _ => True) (buyerCheckPayment ctx b params) := by
  simp only [buyerCheckPayment]
  refine thisUser_bind hb fun v hv => found_bind loadOneOrder_mine fun o ho => ?_
  have hbuyer : o.buyer = v.uid := by
    have hsees : o.oid = Json.getString params "orderid" ∧ o.buyer = v.uid ∧ o.deletedAt = none := by
      simpa [Actor.sees] using ho
    exact hsees.2.1
  split
  · exact mineSafe_of_each (each_pure _) lasting_orderFound
  · refine .bind (mineSafe_of_each (asyncLoad_each _ _) lasting_orderFound) fun found => ?_
    split
    · refine .bind (orderCheckPayment_mine hr (each_pure _) fun h =>
        hbuyer.trans (hv (isSome_observed h))) ?_
      exact fun _ => mineSafe_of_each (each_pure _) lasting_orderFound
    · exact mineSafe_of_each (each_pure _) lasting_orderFound

/-! ## Requests that are not observed -/

theorem loadSoldOrder_bind {β : Type} {b : Nat} {params : JsonObject} {k : CmallOrder → M β}
    (hk : ∀ o, MineSafe r₀ a u r q (OrderFound o) (k o)) :
    MineSafe r₀ a u r q (fun _ => True) (loadSoldOrder ctx b params >>= k) := by
  refine found_bind (p := fun _ => True) ?_ fun o _ => hk o
  refine Triple.bind (mineSafe_of_each (thisUser_each b) lasting_true) fun _ => ?_
  exact .conseq loadOneOrder_mine (fun _ _ h => h) (fun _ _ _ h => ⟨trivial, h.2⟩) fun _ _ h => h

/-- The changes of a sold order by its merchant. -/
theorem handlerOf_sold {conn : Nat} {method : ReqMethod} {params : JsonObject}
    (hapi : method.api = .merchant) (hm : .orders ∈ method.footprint)
    (hu : (observed r₀ r q).isSome = false) :
    MineSafe r₀ a u r q (fun _ => True) (handlerOf cfg ⟨conn, r⟩ method params) := by
  have hctx : (⟨conn, r⟩ : Ctx).req = r := rfl
  have hseller : ∀ b : Nat, (do return (← thisMerchant b).uid : M Nat).Each (Keeps offTables r) :=
    fun b => Co.each_bind (thisMerchant_each b) fun _ => each_pure _
  have hown : ∀ {p : Prop}, (observed r₀ r q).isSome = true → p := fun h => by simp [hu] at h
  have hend : ∀ {β : Type} {o : CmallOrder} (x : β), MineSafe r₀ a u r q (OrderFound o) (pure x) :=
    fun x => mineSafe_of_each (each_pure x) lasting_orderFound
  cases method <;> first | (simp [ReqMethod.footprint] at hm; done) | (cases hapi; done) | skip
  all_goals
    simp only [handlerOf, ReqMethod.api, handleJsonrpcMerchantApi]
    refine .bind (mineSafe_of_each merchantEntry_each lasting_true) fun b => ?_
  case merchantSoldOrdersCheckPayment =>
    refine loadSoldOrder_bind fun o => ?_
    split
    · exact hend _
    · exact .bind (orderCheckPayment_mine hctx (hseller b) hown) fun _ => hend _
  case merchantSoldOrdersMarkPayed =>
    refine loadSoldOrder_bind fun o => ?_
    split
    · exact hend _
    · exact .bind (orderMarkPayed_mine hctx (hseller b) hown) fun _ => hend _
  case merchantAlterOrderPrice =>
    refine loadSoldOrder_bind fun o => ?_
    refine .bind (mineSafe_of_each (newNumeric_each _) lasting_orderFound) fun _ => ?_
    refine .bind (mineSafe_of_each (newNumeric_each _) lasting_orderFound) fun _ => ?_
    exact .bind (storeOrder_mine (fun _ => ⟨rfl, rfl⟩) hown) fun _ => hend _
  case merchantSoldOrdersAddKuaidi =>
    refine loadSoldOrder_bind fun o => ?_
    exact .bind (storeOrder_mine (fun _ => ⟨rfl, rfl⟩) hown) fun _ => hend _
  case merchantDeleteSoldOrders =>
    refine loadSoldOrder_bind fun o => ?_
    refine .bind (mineSafe_of_each localTime_each lasting_orderFound) fun _ => ?_
    exact .bind (storeOrder_mine (fun _ => ⟨rfl, rfl⟩) hown) fun _ => hend _

theorem handleOrderWxCallback_mine (hu : (observed r₀ r q).isSome = false) (msg : NotifyMessage) :
    MineSafe r₀ a u r q (fun _ => True) (handleOrderWxCallback ctx msg) := by
  have hown : ∀ {p : Prop}, (observed r₀ r q).isSome = true → p := fun h => by simp [hu] at h
  simp only [handleOrderWxCallback]
  refine Triple.bind (loadOrders_mine (p := Actor.sees .wechat msg.outTradeNo)
    (fun db => Table.queryOne db.orders (Actor.sees .wechat msg.outTradeNo))
    (.ordersLoaded ctx.req .wechat) Option.toList fun db o ho => ?_) fun found => ?_
  · exact Table.queryOne_some (Option.mem_toList.mp ho)
  · split
    · rename_i o
      refine .conseq (L := fun s => OrderFound o s ∧ Mine r₀ a u r q s)
        (Q := fun _ s => OrderFound o s ∧ Mine r₀ a u r q s) ?_
        (fun s _ h => ⟨(h.1 o (Option.mem_toList.mpr rfl)).2, h.2⟩)
        (fun _ _ _ h => ⟨trivial, h.2⟩) fun _ _ h => h
      split
      · refine MineSafe.bind (storeOrder_mine (fun _ => ⟨rfl, rfl⟩) hown) fun _ => ?_
        exact mineSafe_of_each (each_pure _) lasting_orderFound
      · exact mineSafe_of_each (each_pure _) lasting_orderFound
    · exact .ret fun s _ h => ⟨trivial, h.2⟩

end Handlers

/-! ## Programs -/

section Programs

variable {r₀ a u r : Nat} {cfg : Config}

/-- The methods of a user whose footprint has tables in it. -/
theorem handlerOf_mine {ctx : Ctx} {conn : Nat} {method : ReqMethod} {params : JsonObject}
    (hctx : ctx.req = r) (hconn : ctx.conn = (Request.jsonrpc conn method params).conn)
    (hm : method.ofUser = true) :
    MineSafe r₀ a u r (.jsonrpc conn method params) (fun _ => True)
      (handlerOf cfg ctx method params) := by
  cases method <;> first | (cases hm; done) | skip
  all_goals
    simp only [handlerOf, ReqMethod.api, handleJsonrpcUserApi, handleJsonrpcCartApi,
      handleJsonrpcFavApi, handleJsonrpcOrderApi]
    refine thisSession_bind hconn fun b hb => ?_
  case cartAdd => exact cartAdd_mine hctx hb params
  case cartMod => exact cartMod_mine hctx hb params
  case cartDel => exact cartDel_mine hctx hb params
  case cartList => exact cartList_mine rfl hb params
  case favAdd => exact favAdd_mine hb params
  case favDel => exact favDel_mine hb params
  case favList => exact favList_mine rfl hb params
  case userApplyMerchant => exact userApplyMerchant_mine hconn hb
  case userAddRecipientAddress => exact userAddRecipientAddress_mine hb params
  case userEraseReceiptAddress => exact userEraseReceiptAddress_mine hb params
  case user3rdKvPut => exact user3rdKvPut_mine hb false params
  case user3rdKvPutPubkey => exact user3rdKvPut_mine hb true params
  case orderCreateCart => exact orderCreate_mine hconn hb params
  case orderCreateDirect => exact orderCreate_mine hconn hb params
  case orderCheckPayment => exact buyerCheckPayment_mine hctx hb params
  case userListRecipientAddress =>
    refine thisUser_bind hb fun v hv => .bind reloadUser_mine fun _ => ?_
    exact mineSafe_of_each (Co.each_bind (thisUser_each b) fun _ => each_pure _) lasting_true
  all_goals
    subst hctx
    refine mineSafe_of_each ?_ lasting_true
    try simp only [orderGetPaymethods, orderGetPayUrl, orderGetWxpayPrepayId, user3rdKvGet]
    repeat' first
      | with_reducible refine Co.each_bind ?_ fun _ => ?_
      | (simp [offTables]; done)
      | exact emit_each (by simp [offTables, Event.part]) rfl
      | split

theorem observed_of_not_ofUser {q : Request} (h : ∀ method, q.method = some method →
    method.ofUser = false) : observed r₀ r q = none := by
  unfold observed
  split
  · cases hq : q.method with
    | none => rfl
    | some method => simp [Option.filter, h method hq]
  · rfl

/-- Every program keeps to the protocol: the requests of a user because they are
safe, the changes of a sold order and of a paid one because they keep its buyer, and
the others because they touch neither carts nor orders. -/
theorem programs_isolation (cfg : Config) (r₀ a u : Nat) :
    (isolationProtocol r₀ a u).Programs (prog cfg) := by
  intro r q m _ _ _
  have hreplied : ∀ reply s, (isolationProtocol r₀ a u).guar r q s
      { s with trace := .replied r reply :: s.trace } := fun reply s => .refl _ _ _
  have hfoot : observed r₀ r q = none → .carts ∉ q.footprint → .orders ∉ q.footprint →
      (prog cfg r q).Suspended (isolationProtocol r₀ a u) r q m := by
    intro hobs hc ho
    refine prog_suspended_of_keeps (fun s t _ hk => ?_) fun _ => trivial
    exact hk.lawful hc ho fun h => by simp [hobs] at h
  cases q with
  | jsonrpc conn method params =>
    by_cases hm : method.ofUser = true
    · exact prog_suspended_of_handler (L := fun _ => True) stable_true trivial
        (fun _ _ _ _ hg => ⟨trivial, guard_mine hg⟩) (fun _ _ _ => trivial)
        (handlerOf_mine rfl rfl hm)
        fun reply s _ _ => ⟨hreplied reply s, trivial⟩
    · have hobs : observed r₀ r (.jsonrpc conn method params) = none := by
        refine observed_of_not_ofUser fun method' h => ?_
        cases h
        simpa using hm
      by_cases ho : .orders ∈ method.footprint
      · have hapi : method.api = .merchant := by
          cases method <;> first
            | (simp [ReqMethod.footprint] at ho; done)
            | rfl
            | simp [ReqMethod.ofUser, ReqMethod.api] at hm
        exact prog_suspended_of_handler (L := fun _ => True) stable_true trivial
          (fun _ _ _ _ hg => ⟨trivial, guard_mine hg⟩) (fun _ _ _ => trivial)
          (handlerOf_sold hapi ho (by rw [hobs]; rfl))
          fun reply s _ _ => ⟨hreplied reply s, trivial⟩
      · have hc : .carts ∉ method.footprint := by
          intro hc
          cases method <;> first
            | (simp [ReqMethod.footprint] at hc; done)
            | simp [ReqMethod.ofUser, ReqMethod.api] at hm
        refine hfoot hobs ?_ ?_
        · simpa [Request.footprint] using hc
        · simpa [Request.footprint] using ho
  | wxCallback msg =>
    have hobs : observed r₀ r (.wxCallback msg) = none := observed_of_not_ofUser fun _ h => by cases h
    have hmine : ∀ (p : Point) (i : Input) (s : Mem), (isolationProtocol r₀ a u).inv s → True →
        (isolationProtocol r₀ a u).guard r (.wxCallback msg) p i s →
        True ∧ Mine r₀ a u r (.wxCallback msg) s := fun _ _ _ _ _ hg => ⟨trivial, guard_mine hg⟩
    refine Triple.suspended stable_true trivial (hmine _) fun _ => ?_
    refine .bind (handleOrderWxCallback_mine (by rw [hobs]; rfl) msg) fun reply => ?_
    exact .modify fun s _ _ => ⟨hreplied reply s, trivial⟩
  | _ =>
    refine hfoot (observed_of_not_ofUser fun _ h => by cases h) ?_ ?_
    all_goals simp [Request.footprint]

end Programs

/-- In every run, whatever the other requests do: a step of a request on carts,
favourites or orders, or of a logged-in user, creates, changes and deletes only rows
of the user `u` of its session, as long as that user stays the same and the merchants
whose rows are erased have none. -/
theorem requests_touch_own_rows (cfg : Config) (m : Mem) (hm : m.db.IdsOk) (r a u : Nat)
    (ls : List (Label Request Input)) (i : Input)
    (hls : (isolationProtocol r a u).Admissible (prog cfg) (Sys.idle m) (ls ++ [.resume r i]))
    (conn : Nat) (method : ReqMethod) (params : JsonObject) (hmethod : method.ofUser = true)
    (hr : ((Sys.idle m : Service).run (prog cfg) ls).reqs[r]? =
      some (.jsonrpc conn method params)) :
    ((Sys.idle m : Service).run (prog cfg) ls).mem.db.OnlyOwn u method
      ((Sys.idle m : Service).run (prog cfg) (ls ++ [.resume r i])).mem.db := by
  obtain ⟨p, hp, hg⟩ := run_guar (programs_isolation cfg r a u)
    (good_idle (P := isolationProtocol r a u) hm fun _ => trivial) hls
  have hreq : p.req = .jsonrpc conn method params := by
    simpa [Sys.reqs, hp] using hr
  refine hg.own method ?_
  simp [observed, hreq, Request.method, Option.filter, hmethod]

/-! ## A merchant that comes into being while its rows are erased -/

/-- Users 1 and 2 have goods of merchant 5 in their carts, who has applied but is no
merchant yet; connection 2 is that of an administrator. -/
def twoCarts : Mem where
  db :=
    { users := [{ uid := 1 }, { uid := 2 }, { uid := 5 }]
      carts := [{ id := 1, uid := 1, merchantId := 5 }, { id := 2, uid := 2, merchantId := 5 }]
      applys := [{ id := 1, applicant := 5 }]
      seq := { cart := 2 } }
  heapTop := 3
  heap a := { sessionId := uuidOf 0 a, userInfo := some { uid := a + 1 }, isAdmin := a = 2 }
  conn c := { sessionInfo := some c }

theorem twoCarts_idsOk : twoCarts.db.IdsOk := by
  constructor <;> decide

/-- User 1 lists the cart and does not find the merchant; user 2 adds to its own. -/
def listAndAdd : List (Label Request Input) :=
  [.spawn (.jsonrpc 0 .cartList [])] ++ resumes 0 5 ++
    [.spawn (.jsonrpc 1 .cartAdd [("merchant_id", .int64 5), ("goods_id", .string "tea")])] ++
    resumes 1 4

/-- The rows that user 1 erases are those of a merchant that is not there. -/
theorem requests_touch_own_rows_of_user_1 :
    ((Sys.idle twoCarts : Service).run (prog bareConfig) listAndAdd).mem.db.OnlyOwn 1 .cartList
      ((Sys.idle twoCarts : Service).run (prog bareConfig) (listAndAdd ++ [.resume 0 {}])).mem.db :=
  requests_touch_own_rows bareConfig twoCarts twoCarts_idsOk 0 0 1 listAndAdd {} (by decide) 0
    .cartList [] rfl rfl

/-- User 1 lists the cart and does not find the merchant, who is approved then. -/
def listAndApprove : List (Label Request Input) :=
  [.spawn (.jsonrpc 0 .cartList [])] ++ resumes 0 5 ++
    [.spawn (.jsonrpc 2 .adminApproveMerchant [("apply_id", .int64 1)])] ++ resumes 1 4

/-- The session of `cart_list` has the user 1 all the time, and the row of user 2 is
deleted although its merchant exists. -/
theorem list_erases_rows_of_new_merchant :
    let s := (Sys.idle twoCarts : Service).run (prog bareConfig) listAndApprove
    let t := (Sys.idle twoCarts : Service).run (prog bareConfig) (listAndApprove ++ resumes 0 1)
    (∀ n ∈ List.range 13, ((Sys.idle twoCarts : Service).run (prog bareConfig)
      ((listAndApprove ++ resumes 0 1).take n)).mem.IsUser 0 0 1) ∧
      ¬ s.mem.db.OnlyOwn 1 .cartList t.mem.db := by
  refine ⟨by decide, fun h => ?_⟩
  have hkept := h.carts
  revert hkept
  unfold SameRows
  decide

end Cmall
