import Cmall.Call

/-!
Which parts of the memory a request can touch.

`Keeps K r s t` says that a step of request `r` from `s` to `t` leaves everything
outside the parts `K` as it is, and that the events it adds are its own. Every
access a handler makes keeps to the footprint of its method, so a property of the
other parts needs no proof about that handler.
-/

namespace Cmall
open Coroutine

/-! ## Parts of the memory -/

inductive Part where
  | heap | conn | codes | uuids
  /-- The columns `uid` and `active_phone` of the users. -/
  | accounts
  | users | administrators | apptokens | merchants | orders | carts | favs | applys | kvs
  /-- The stored sessions and the events that go with them. -/
  | sessions
  | indexGoods
  /-- The merchant repositories. -/
  | repos
  | loginEvents | accountEvents | sudoEvents | orderEvents | cartEvents | otherEvents
  deriving DecidableEq, Repr

/-- The request an event belongs to. -/
def Event.req : Event → Nat
  | .smsSent r .. | .codeAccepted r .. | .identified r .. | .userMissed r .. | .userAdded r ..
  | .loggedOut r .. | .sudoed r .. | .became r .. | .sessionSaved r .. | .ordersLoaded r .. | .orderStored r .. | .checkpay r ..
  | .orderstatus r .. | .payurl r .. | .prepay r .. | .directPay r .. | .cartStored r ..
  | .giteaUser r .. | .giteaRepo r .. | .notified r ..
  | .replied r .. => r

def Event.part : Event → Part
  | .smsSent .. | .codeAccepted .. | .identified .. => .loginEvents
  | .userMissed .. | .userAdded .. => .accountEvents
  | .ordersLoaded .. | .orderStored .. | .checkpay .. | .orderstatus .. | .payurl ..
  | .prepay .. | .directPay .. => .orderEvents
  | .sudoed .. => .sudoEvents
  | .became .. | .sessionSaved .. => .sessions
  | .cartStored .. => .cartEvents
  | .loggedOut .. | .giteaUser .. | .giteaRepo .. | .notified .. | .replied .. => .otherEvents

/-- What makes a user an account. -/
def CmallUser.account (u : CmallUser) : Nat × String := (u.uid, u.activePhone)

structure Db.Keeps (K : List Part) (db db' : Db) : Prop where
  accounts : .accounts ∉ K → db'.users.map CmallUser.account = db.users.map CmallUser.account
  userSeq : .accounts ∉ K → db'.seq.user = db.seq.user
  users : .users ∉ K → db'.users = db.users
  administrators : .administrators ∉ K → db'.administrators = db.administrators
  apptokens : .apptokens ∉ K → db'.apptokens = db.apptokens
  merchants : .merchants ∉ K → db'.merchants = db.merchants
  orders : .orders ∉ K → db'.orders = db.orders ∧ db'.seq.order = db.seq.order
  carts : .carts ∉ K → db'.carts = db.carts ∧ db'.seq.cart = db.seq.cart
  favs : .favs ∉ K → db'.favs = db.favs ∧ db'.seq.fav = db.seq.fav
  applys : .applys ∉ K → db'.applys = db.applys ∧ db'.seq.apply = db.seq.apply
  kvs : .kvs ∉ K → db'.kvs = db.kvs ∧ db'.pubkvs = db.pubkvs
  sessions : .sessions ∉ K → db'.sessions = db.sessions
  indexGoods : .indexGoods ∉ K → db'.indexGoods = db.indexGoods

structure Keeps (K : List Part) (r : Nat) (s t : Mem) : Prop where
  heap : .heap ∉ K → t.heap = s.heap ∧ t.heapTop = s.heapTop
  conn : .conn ∉ K → t.conn = s.conn
  codes : .codes ∉ K → t.codes = s.codes
  uuids : .uuids ∉ K → t.uuids = s.uuids
  uuids_le : s.uuids ≤ t.uuids
  repos : .repos ∉ K → t.repos = s.repos
  db : s.db.Keeps K t.db
  trace : ∃ es, t.trace = es ++ s.trace ∧ ∀ e ∈ es, e.req = r ∧ e.part ∈ K

theorem Db.Keeps.refl (K : List Part) (db : Db) : db.Keeps K db := by
  constructor <;> simp

theorem Db.Keeps.trans {K : List Part} {db₁ db₂ db₃ : Db} (h : db₁.Keeps K db₂)
    (h' : db₂.Keeps K db₃) : db₁.Keeps K db₃ where
  accounts hK := (h'.accounts hK).trans (h.accounts hK)
  userSeq hK := (h'.userSeq hK).trans (h.userSeq hK)
  users hK := (h'.users hK).trans (h.users hK)
  administrators hK := (h'.administrators hK).trans (h.administrators hK)
  apptokens hK := (h'.apptokens hK).trans (h.apptokens hK)
  merchants hK := (h'.merchants hK).trans (h.merchants hK)
  orders hK := ⟨(h'.orders hK).1.trans (h.orders hK).1, (h'.orders hK).2.trans (h.orders hK).2⟩
  carts hK := ⟨(h'.carts hK).1.trans (h.carts hK).1, (h'.carts hK).2.trans (h.carts hK).2⟩
  favs hK := ⟨(h'.favs hK).1.trans (h.favs hK).1, (h'.favs hK).2.trans (h.favs hK).2⟩
  applys hK := ⟨(h'.applys hK).1.trans (h.applys hK).1, (h'.applys hK).2.trans (h.applys hK).2⟩
  kvs hK := ⟨(h'.kvs hK).1.trans (h.kvs hK).1, (h'.kvs hK).2.trans (h.kvs hK).2⟩
  sessions hK := (h'.sessions hK).trans (h.sessions hK)
  indexGoods hK := (h'.indexGoods hK).trans (h.indexGoods hK)

theorem Keeps.refl (K : List Part) (r : Nat) (s : Mem) : Keeps K r s s where
  heap _ := ⟨rfl, rfl⟩
  conn _ := rfl
  codes _ := rfl
  uuids _ := rfl
  uuids_le := Nat.le_refl _
  repos _ := rfl
  db := .refl K s.db
  trace := ⟨[], rfl, by simp⟩

theorem Keeps.trans {K : List Part} {r : Nat} (s t u : Mem) (h : Keeps K r s t)
    (h' : Keeps K r t u) : Keeps K r s u where
  heap hK := ⟨(h'.heap hK).1.trans (h.heap hK).1, (h'.heap hK).2.trans (h.heap hK).2⟩
  conn hK := (h'.conn hK).trans (h.conn hK)
  codes hK := (h'.codes hK).trans (h.codes hK)
  uuids hK := (h'.uuids hK).trans (h.uuids hK)
  uuids_le := Nat.le_trans h.uuids_le h'.uuids_le
  repos hK := (h'.repos hK).trans (h.repos hK)
  db := h.db.trans h'.db
  trace := by
    obtain ⟨es, hes, h₁⟩ := h.trace
    obtain ⟨es', hes', h₂⟩ := h'.trace
    refine ⟨es' ++ es, by rw [hes', hes, List.append_assoc], fun e he => ?_⟩
    exact (List.mem_append.mp he).elim (h₂ e) (h₁ e)

/-! ## Database operations -/

/-- The tables a write leaves behind, if it does not throw. -/
def Db.KeepsO {α : Type} (K : List Part) (db : Db) (o : Option (α × Db)) : Prop :=
  ∀ a db', o = some (a, db') → db.Keeps K db'

section Db

variable {K : List Part} {db : Db} {α : Type}

@[simp] theorem Db.keepsO_some (a : α) (db' : Db) :
    db.KeepsO K (some (a, db')) ↔ db.Keeps K db' := by
  simp [Db.KeepsO]

@[simp] theorem Db.keeps_self : db.Keeps K db := .refl K db

/-- The new row of a user has the account of the old one. -/
theorem Db.updateUser_keeps (old row : CmallUser) (h : .users ∈ K)
    (hold : db.findUser row.uid = some old) (hrow : row.account = old.account) :
    db.Keeps K { db with users := Table.update CmallUser.uid db.users row } where
  __ := Db.Keeps.refl K db
  accounts _ := Table.map_update hold hrow
  users hK := absurd h hK

@[simp] theorem Db.persistUser_keeps (u : CmallUser) (h : .users ∈ K) (ha : .accounts ∈ K) :
    db.Keeps K (db.persistUser u).2 where
  __ := Db.Keeps.refl K db
  accounts hK := absurd ha hK
  userSeq hK := absurd ha hK
  users hK := absurd h hK

@[simp] theorem Db.banUser_keeps (uid : Nat) (now : PTime) (h : .users ∈ K) :
    db.Keeps K (db.banUser uid now) := by
  unfold Db.banUser
  split
  · rename_i old hold
    have huid := Db.findUser_uid hold
    exact Db.updateUser_keeps old _ h (by simpa [huid] using hold) rfl
  · exact .refl K db

@[simp] theorem Db.persistAdministrators_keeps (user : Option Nat) (h : .administrators ∈ K) :
    db.Keeps K (db.persistAdministrators user) :=
  { Db.Keeps.refl K db with administrators := fun hK => absurd h hK }

@[simp] theorem Db.apptokens_keeps (t : List CmallApptoken) (h : .apptokens ∈ K) :
    db.Keeps K { db with apptokens := t } :=
  { Db.Keeps.refl K db with apptokens := fun hK => absurd h hK }

@[simp] theorem Db.merchants_keeps (t : List CmallMerchant) (h : .merchants ∈ K) :
    db.Keeps K { db with merchants := t } :=
  { Db.Keeps.refl K db with merchants := fun hK => absurd h hK }

@[simp] theorem Db.updateMerchant_keeps (uid : Nat) (now : PTime)
    (f : CmallMerchant → CmallMerchant) (h : .merchants ∈ K) :
    db.Keeps K (db.updateMerchant uid now f).2 := by
  unfold Db.updateMerchant
  split
  · exact Db.merchants_keeps _ h
  · exact .refl K db

@[simp] theorem Db.updateMerchant_keepsO (uid : Nat) (now : PTime)
    (f : CmallMerchant → CmallMerchant) (h : .merchants ∈ K) :
    db.KeepsO K (some (db.updateMerchant uid now f)) :=
  (Db.keepsO_some _ _).mpr (Db.updateMerchant_keeps uid now f h)

@[simp] theorem Db.setMerchantStates_keeps (mids : List Nat) (state : MerchantState) (now : PTime)
    (h : .merchants ∈ K) : db.Keeps K (db.setMerchantStates mids state now) :=
  Db.merchants_keeps _ h

@[simp] theorem Db.storeMerchant_keeps (m : CmallMerchant) (now : PTime) (h : .merchants ∈ K) :
    db.KeepsO K (db.storeMerchant m now) := by
  unfold Db.storeMerchant
  split
  · simp [h]
  · simp [Db.KeepsO]

@[simp] theorem Db.approveMerchant_keeps (x : CmallApplyForMechant) (u : CmallUser)
    (password : String) (now : PTime) (h : .merchants ∈ K) (h' : .applys ∈ K) :
    db.KeepsO K (db.approveMerchant x u password now) := by
  unfold Db.approveMerchant
  split
  · rw [Db.keepsO_some]
    exact { Db.Keeps.refl K db with
      merchants := fun hK => absurd h hK, applys := fun hK => absurd h' hK }
  · simp [Db.KeepsO]

@[simp] theorem Db.applys_keeps (t : List CmallApplyForMechant) (h : .applys ∈ K) :
    db.Keeps K { db with applys := t } :=
  { Db.Keeps.refl K db with applys := fun hK => absurd h hK }

@[simp] theorem Db.denyApplicant_keeps (x : CmallApplyForMechant) (reason : String) (now : PTime)
    (h : .applys ∈ K) : db.KeepsO K (db.denyApplicant x reason now) := by
  unfold Db.denyApplicant
  split
  · simp [h]
  · simp [Db.KeepsO]

@[simp] theorem Db.persistApply_keeps (x : CmallApplyForMechant) (h : .applys ∈ K) :
    db.KeepsO K (db.persistApply x) := by
  unfold Db.persistApply
  split
  · simp [Db.KeepsO]
  · rw [Db.keepsO_some]
    exact { Db.Keeps.refl K db with applys := fun hK => absurd h hK }

@[simp] theorem Db.upsetKv_keeps (pub : Bool) (kv : Cmall3rdKvStore) (h : .kvs ∈ K) :
    db.Keeps K (db.upsetKv pub kv) := by
  have hset : ∀ t, db.Keeps K (db.setKvTable pub t) := by
    intro t
    cases pub <;> exact { Db.Keeps.refl K db with kvs := fun hK => absurd h hK }
  unfold Db.upsetKv
  split <;> exact hset _

@[simp] theorem Db.sessions_keeps (t : List CmallSession) (h : .sessions ∈ K) :
    db.Keeps K { db with sessions := t } :=
  { Db.Keeps.refl K db with sessions := fun hK => absurd h hK }

@[simp] theorem Db.upsetSession_keeps (row : CmallSession) (now : PTime) (h : .sessions ∈ K) :
    db.Keeps K (db.upsetSession row now) := by
  unfold Db.upsetSession
  split <;> exact Db.sessions_keeps _ h

@[simp] theorem Db.carts_keeps (t : List CmallCart) (h : .carts ∈ K) :
    db.Keeps K { db with carts := t } :=
  { Db.Keeps.refl K db with carts := fun hK => absurd h hK }

@[simp] theorem Db.persistCart_keeps (item : CmallCart) (h : .carts ∈ K) :
    db.Keeps K (db.persistCart item) :=
  { Db.Keeps.refl K db with carts := fun hK => absurd h hK }

@[simp] theorem Db.updateCart_keeps (item : CmallCart) (now : PTime) (h : .carts ∈ K) :
    db.KeepsO K (db.updateCart item now) := by
  unfold Db.updateCart
  split
  · simp [h]
  · simp [Db.KeepsO]

@[simp] theorem Db.updateCartCount_keeps (itemId count : Nat) (now : PTime) (h : .carts ∈ K) :
    db.Keeps K (db.updateCartCount itemId count now) := by
  unfold Db.updateCartCount
  split
  · exact Db.carts_keeps _ h
  · exact .refl K db

@[simp] theorem Db.removeCart_keeps (itemId : Nat) (h : .carts ∈ K) :
    db.KeepsO K (db.removeCart itemId) := by
  unfold Db.removeCart
  split
  · simp [h]
  · simp [Db.KeepsO]

@[simp] theorem Db.eraseCartsOf_keeps (merchantId : Nat) (h : .carts ∈ K) :
    db.Keeps K (db.eraseCartsOf merchantId) := Db.carts_keeps _ h

@[simp] theorem Db.favs_keeps (t : List CmallUserFav) (h : .favs ∈ K) :
    db.Keeps K { db with favs := t } :=
  { Db.Keeps.refl K db with favs := fun hK => absurd h hK }

@[simp] theorem Db.persistFav_keeps (item : CmallUserFav) (h : .favs ∈ K) :
    db.Keeps K (db.persistFav item) :=
  { Db.Keeps.refl K db with favs := fun hK => absurd h hK }

@[simp] theorem Db.eraseFavsOf_keeps (merchantId : Nat) (h : .favs ∈ K) :
    db.Keeps K (db.eraseFavsOf merchantId) := Db.favs_keeps _ h

@[simp] theorem Db.persistOrder_keeps (order : CmallOrder) (h : .orders ∈ K) :
    db.Keeps K (db.persistOrder order) :=
  { Db.Keeps.refl K db with orders := fun hK => absurd h hK }

theorem Db.updateOrder_keeps {row : CmallOrder} {db' : Db} (h : .orders ∈ K)
    (hu : db.updateOrder row = some db') : db.Keeps K db' := by
  unfold Db.updateOrder at hu
  split at hu
  · cases hu
    exact { Db.Keeps.refl K db with orders := fun hK => absurd h hK }
  · cases hu

@[simp] theorem Db.indexGoods_keeps (t : List CmallIndexPageGoods) (h : .indexGoods ∈ K) :
    db.Keeps K { db with indexGoods := t } :=
  { Db.Keeps.refl K db with indexGoods := fun hK => absurd h hK }

@[simp] theorem Db.persistIndexGoods_keeps (g : CmallIndexPageGoods) (h : .indexGoods ∈ K) :
    db.Keeps K (db.persistIndexGoods g) :=
  { Db.Keeps.refl K db with indexGoods := fun hK => absurd h hK }

@[simp] theorem Db.setIndexGoods_keeps (goods : List CmallIndexPageGoods) (h : .indexGoods ∈ K) :
    db.KeepsO K (some (db.setIndexGoods goods)) := by
  have hfold : ∀ (l : List CmallIndexPageGoods) (db' : Db), db.Keeps K db' →
      db.Keeps K (l.foldl Db.persistIndexGoods db') := by
    intro l
    induction l with
    | nil => exact fun _ h' => h'
    | cons g l ih => exact fun db' h' => ih _ (h'.trans (Db.persistIndexGoods_keeps g h))
  unfold Db.setIndexGoods
  split
  · exact (Db.keepsO_some _ _).mpr (.refl K db)
  · exact (Db.keepsO_some _ _).mpr (hfold goods _ (Db.indexGoods_keeps [] h))

end Db

/-! ## Accesses -/

section Accesses

variable {K : List Part} {r : Nat} {α : Type} {ctx : Ctx}

theorem keeps_db {s : Mem} {db : Db} (h : s.db.Keeps K db) : Keeps K r s { s with db := db } :=
  { Keeps.refl K r s with db := h }

theorem keeps_emit {s : Mem} {e : Event} (he : e.part ∈ K) :
    Keeps K e.req s { s with trace := e :: s.trace } :=
  { Keeps.refl K e.req s with trace := ⟨[e], rfl, by simpa using he⟩ }

theorem keeps_replied {s : Mem} {reply : Reply} :
    Keeps [.otherEvents] r s { s with trace := .replied r reply :: s.trace } :=
  keeps_emit (e := .replied r reply) (List.mem_singleton_self _)

theorem keeps_setSession {s : Mem} {a : Nat} {c : ClientSession} (h : .heap ∈ K) :
    Keeps K r s (s.setSession a c) :=
  { Keeps.refl K r s with heap := fun hK => absurd h hK }

theorem keeps_overwriteUser {s : Mem} {a : Nat} {row : CmallUser} (h : .heap ∈ K) :
    Keeps K r s (s.overwriteUser a row) := by
  unfold Mem.overwriteUser
  split
  · exact keeps_setSession h
  · exact .refl K r s

@[simp] theorem each_get : (Co.get : M Mem).Each (Keeps K r) := Co.each_get (Keeps.refl K r)

@[simp] theorem each_ret (a : α) : (Co.ret a : M α).Each (Keeps K r) := trivial

@[simp] theorem each_pure (a : α) : (pure a : M α).Each (Keeps K r) := trivial

@[simp] theorem each_throw (e : Exn) : (Co.throw e : M α).Each (Keeps K r) := trivial

@[simp] theorem each_suspend (p : Point) : (Co.suspend p : M Input).Each (Keeps K r) :=
  Co.each_suspend p

theorem emit_each {e : Event} (he : e.part ∈ K) (hr : e.req = r) : (emit e).Each (Keeps K r) :=
  Co.each_modify fun _ => hr ▸ keeps_emit he

@[simp] theorem liftExcept_each (x : Except Exn α) : (liftExcept x).Each (Keeps K r) := by
  cases x <;> trivial

/-- What only reads keeps to every reflexive relation. -/
theorem getSession_reads {G : Mem → Mem → Prop} (hG : ∀ s, G s s) (a : Nat) :
    (getSession a).Each G := Co.each_bind (Co.each_get hG) fun _ => trivial

theorem thisSession_reads {G : Mem → Mem → Prop} (hG : ∀ s, G s s) : (thisSession ctx).Each G := by
  refine Co.each_bind (Co.each_get hG) fun s => ?_
  split <;> trivial

theorem thisUser_reads {G : Mem → Mem → Prop} (hG : ∀ s, G s s) (a : Nat) :
    (thisUser a).Each G := by
  refine Co.each_bind (getSession_reads hG a) fun c => ?_
  split <;> trivial

@[simp] theorem getSession_each (a : Nat) : (getSession a).Each (Keeps K r) :=
  getSession_reads (Keeps.refl K r) a

@[simp] theorem localTime_each : localTime.Each (Keeps K r) :=
  Co.each_bind each_get fun _ => each_ret _

@[simp] theorem thisSession_each : (thisSession ctx).Each (Keeps K r) :=
  thisSession_reads (Keeps.refl K r)

@[simp] theorem thisUser_each (a : Nat) : (thisUser a).Each (Keeps K r) :=
  thisUser_reads (Keeps.refl K r) a

@[simp] theorem genUuid_each (h : .uuids ∈ K) : (genUuid ctx).Each (Keeps K r) :=
  Co.each_modifyGet fun s => { Keeps.refl K r s with
    uuids := fun hK => absurd h hK, uuids_le := Nat.le_succ _ }

@[simp] theorem modifySession_each (a : Nat) (f : ClientSession → ClientSession) (h : .heap ∈ K) :
    (modifySession a f).Each (Keeps K r) :=
  Co.each_modify fun _ => keeps_setSession h

@[simp] theorem setConnection_each (f : Connection → Connection) (h : .conn ∈ K) :
    (setConnection ctx f).Each (Keeps K r) :=
  Co.each_modify fun s => { Keeps.refl K r s with conn := fun hK => absurd h hK }

@[simp] theorem newSession_each (c : ClientSession) (h : .heap ∈ K) (h' : .conn ∈ K) :
    (newSession ctx c).Each (Keeps K r) :=
  Co.each_modify fun s => { Keeps.refl K r s with
    heap := fun hK => absurd h hK, conn := fun hK => absurd h' hK }

@[simp] theorem freshSession_each (h : .uuids ∈ K) : (freshSession ctx).Each (Keeps K r) :=
  Co.each_bind (genUuid_each h) fun _ => each_ret _

@[simp] theorem eraseActive_each : (eraseActive ctx).Each (Keeps K r) :=
  Co.each_modify fun s => { Keeps.refl K r s with }

@[simp] theorem pushActive_each : (pushActive ctx).Each (Keeps K r) := by
  refine Co.each_bind thisSession_each fun a => Co.each_bind (thisUser_each a) fun u => ?_
  refine Co.each_modify fun s => ?_
  split
  · exact .refl K r s
  · exact { Keeps.refl K r s with }

theorem tx_each {G : Mem → Mem → Prop} {spot : Spot} {f : Input → Mem → Option α × Mem}
    {after : α → Spot} (h : ∀ i s, G s (f i s).2) : (tx ctx spot f after).Each G := by
  refine Co.each_bind (Co.each_suspend _) fun i => ?_
  split
  · refine Co.each_bind (Co.each_modifyGet (h i)) fun a => ?_
    split
    · exact Co.each_bind (Co.each_suspend _) fun _ => trivial
    · exact Co.each_bind (Co.each_suspend _) fun _ => trivial
  · exact Co.each_bind (Co.each_suspend _) fun _ => trivial

@[simp] theorem asyncLoad_each (f : Db → α) (after : α → Spot) :
    (asyncLoad ctx f after).Each (Keeps K r) :=
  tx_each fun _ s => .refl K r s

@[simp] theorem asyncLoadPage_each (id : α → Nat) (createdAt : α → PTime) (page pageSize : Int)
    (f : Db → List α) : (asyncLoadPage ctx id createdAt page pageSize f).Each (Keeps K r) :=
  tx_each fun _ s => .refl K r s

@[simp] theorem asyncWrite_each (f : Mem → Option (α × Db)) (spot : Spot) (after : α → Spot)
    (h : ∀ s : Mem, s.db.KeepsO K (f s)) : (asyncWrite ctx f spot after).Each (Keeps K r) := by
  refine tx_each fun _ s => ?_
  cases hf : f s with
  | none => exact .refl K r s
  | some p => exact keeps_db (h s p.1 p.2 hf)

theorem asyncTransacton_each {x : M α} (h : x.Each (Keeps K r)) :
    (asyncTransacton x).Each (Keeps K r) :=
  Co.each_tryCatch h fun _ => each_throw _

@[simp] theorem external_each : (external ctx).Each (Keeps K r) := by
  refine Co.each_bind (each_suspend _) fun i => ?_
  split
  · exact each_ret _
  · exact each_throw _

@[simp] theorem sendNotifyMessage_each (uid : Nat) (msg : String) (h : .otherEvents ∈ K) :
    (sendNotifyMessage ctx uid msg).Each (Keeps K ctx.req) := by
  refine Co.each_bind each_get fun s => Co.each_bind (emit_each h rfl) fun _ => ?_
  exact Co.each_bind (each_suspend _) fun _ => each_ret _

@[simp] theorem getMerchantGitRepo_each (merchantId : Nat) :
    (getMerchantGitRepo merchantId).Each (Keeps K r) := by
  refine Co.each_bind each_get fun s => ?_
  split
  · exact each_ret _
  · exact each_throw _

@[simp] theorem readRepo_each (merchantId : Nat) (repo : Repo) (f : Repo → α) :
    (readRepo ctx merchantId repo f).Each (Keeps K r) :=
  Co.each_bind (each_suspend _) fun _ => Co.each_bind each_get fun _ => each_ret _

@[simp] theorem getProduct_each (merchantId : Nat) (goodsId name : String) :
    (getProduct ctx merchantId goodsId name).Each (Keeps K r) := by
  refine Co.each_bind (getMerchantGitRepo_each _) fun repo =>
    Co.each_bind (readRepo_each _ _ _) fun p => ?_
  split
  · exact each_ret _
  · exact each_throw _

@[simp] theorem became_each (a : Nat) (op : IdentityOp) (h : .sessions ∈ K)
    (hr : ctx.req = r := by rfl) : (became ctx a op).Each (Keeps K r) := by
  subst hr
  exact Co.each_modify fun s => keeps_emit (e := .became ctx.req a op _ _) h

@[simp] theorem saveSession_each (h : .sessions ∈ K) (hr : ctx.req = r := by rfl) :
    (saveSession ctx).Each (Keeps K r) := by
  subst hr
  refine Co.each_bind thisSession_each fun a => Co.each_bind each_get fun m => ?_
  refine tx_each fun _ s => ?_
  let row := (m.heap a).toRow (m.conn ctx.conn).xRealIp m.clock
  exact (keeps_db (Db.upsetSession_keeps row s.clock h)).trans _ _ _
    (keeps_emit (e := .sessionSaved ctx.req row) h)

@[simp] theorem loadSession_each (sessionId : String) :
    (loadSession ctx sessionId).Each (Keeps K r) := by
  refine Co.each_bind (asyncLoad_each _ _) fun row => ?_
  split
  · exact each_ret _
  · exact each_throw _

@[simp] theorem updateLifetime_each (sessionId : String) (h : .sessions ∈ K) :
    (updateLifetime ctx sessionId).Each (Keeps K r) := by
  refine Co.each_bind each_get fun s => Co.each_bind (asyncLoad_each _ _) fun found => ?_
  split
  · exact asyncWrite_each _ _ _ fun s => by simp [h]
  · exact each_pure _

end Accesses

end Cmall
