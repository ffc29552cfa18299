import Cmall.Call
import Cmall.Coroutine.Sequential

/-!
What the operations of handlers do alone, as functions of the answers they are resumed
with.
-/

namespace Cmall
open Coroutine

/-- The check before the handlers of administrators. -/
def Mem.isAdmin (m : Mem) (conn : Nat) : Bool :=
  ((m.conn conn).sessionInfo).any fun a => (m.heap a).userInfo.isSome && (m.heap a).isAdmin

section Operations

variable {m : Mem} {ctx : Ctx} {is : List Input} {i j : Input} {α : Type}

@[simp] theorem answered_liftExcept (x : Except Exn α) :
    (liftExcept x).answered is m = some (x, is, m) := by
  cases x <;> rfl

theorem answered_asyncLoad (f : Db → α) (after : α → Spot) :
    (asyncLoad ctx f after).answered (i :: j :: is) m =
      some (if i.dbOk then .ok (f m.db) else .error (.system .internalServerError), is, m) := by
  simp only [asyncLoad, tx, Co.answered_bind, Co.answered_suspend]
  split <;> simp [*]

theorem answered_asyncWrite (f : Mem → Option (α × Db)) (spot : Spot) (after : α → Spot) :
    (asyncWrite ctx f spot after).answered (i :: j :: is) m =
      match (if i.dbOk then f m else none) with
      | some (a, db) => some (.ok a, is, { m with db := db })
      | none => some (.error (.system .internalServerError), is, m) := by
  simp only [asyncWrite, tx, Co.answered_bind, Co.answered_suspend]
  cases i.dbOk with
  | false => simp
  | true => cases hf : f m <;> simp [hf]

theorem answered_external :
    (external ctx).answered (i :: is) m =
      some (match i.answer with | some out => .ok out | none => .error (.std "external"), is, m) := by
  simp only [external, Co.answered_bind, Co.answered_suspend]
  cases i.answer <;> rfl

/-- The checks before the handler. -/
theorem answered_ensureAdmin (conn r : Nat) (is : List Input) (m : Mem) :
    ∃ x, (ensureLogin ⟨conn, r⟩ true).answered is m = some (x, is, m) ∧
      (x = .ok () ↔ m.isAdmin conn = true) := by
  simp only [ensureLogin, thisSession, getSession, Co.answered_bind, Co.answered_get]
  cases hconn : (m.conn conn).sessionInfo with
  | none => exact ⟨_, rfl, by simp [Mem.isAdmin, hconn]⟩
  | some a =>
    cases hu : (m.heap a).userInfo with
    | none => exact ⟨.error (.system .loginRequired), by simp [hu], by simp [Mem.isAdmin, hconn, hu]⟩
    | some u =>
      cases ha : (m.heap a).isAdmin with
      | false =>
        exact ⟨.error (.system .adminUserRequired), by simp [hu, ha], by simp [Mem.isAdmin, hconn, ha]⟩
      | true => exact ⟨.ok (), by simp [hu, ha], by simp [Mem.isAdmin, hconn, hu, ha]⟩

/-- A transaction that has ended was done, or it has left everything as it was. -/
theorem answered_tx_some {spot : Spot} {f : Input → Mem → Option α × Mem} {after : α → Spot}
    {x : Except Exn α} {rest : List Input} {t : Mem}
    (h : (tx ctx spot f after).answered is m = some (x, rest, t)) :
    (∃ i, (∃ a, x = .ok a ∧ f i m = (some a, t)) ∨ (∃ e, x = .error e ∧ f i m = (none, t))) ∨
      ∃ e, x = .error e ∧ t = m := by
  rcases is with _ | ⟨i, _ | ⟨j, is⟩⟩
  · simp [tx] at h
  · simp only [tx, Co.answered_bind, Co.answered_suspend] at h
    cases hi : i.dbOk with
    | false => simp [hi] at h
    | true => cases hf : (f i m).1 <;> simp [hi, hf] at h
  · simp only [tx, Co.answered_bind, Co.answered_suspend] at h
    cases hi : i.dbOk with
    | false =>
      refine .inr ⟨.system .internalServerError, ?_⟩
      simp [hi] at h
      exact ⟨h.1.symm, h.2.2.symm⟩
    | true =>
      refine .inl ⟨i, ?_⟩
      cases hf : f i m with
      | mk o s =>
        cases o with
        | none =>
          simp [hi, hf] at h
          exact .inr ⟨_, h.1.symm, by rw [h.2.2]⟩
        | some a =>
          simp [hi, hf] at h
          exact .inl ⟨a, h.1.symm, by rw [h.2.2]⟩

theorem answered_asyncLoad_some {f : Db → α} {after : α → Spot} {x : Except Exn α}
    {rest : List Input} {t : Mem}
    (h : (asyncLoad ctx f after).answered is m = some (x, rest, t)) :
    t = m ∧ (x = .ok (f m.db) ∨ ∃ e, x = .error e) := by
  rcases answered_tx_some h with ⟨i, ⟨a, rfl, ha⟩ | ⟨e, rfl, he⟩⟩ | ⟨e, rfl, rfl⟩
  · cases ha
    exact ⟨rfl, .inl rfl⟩
  · cases he
  · exact ⟨rfl, .inr ⟨e, rfl⟩⟩

theorem answered_asyncWrite_some {f : Mem → Option (α × Db)} {spot : Spot} {after : α → Spot}
    {x : Except Exn α} {rest : List Input} {t : Mem}
    (h : (asyncWrite ctx f spot after).answered is m = some (x, rest, t)) :
    (∃ a db, f m = some (a, db) ∧ x = .ok a ∧ t = { m with db := db }) ∨
      ∃ e, x = .error e ∧ t = m := by
  rcases answered_tx_some h with ⟨i, ⟨a, rfl, ha⟩ | ⟨e, rfl, he⟩⟩ | h
  · cases hf : f m with
    | none => simp [hf] at ha
    | some p =>
      obtain ⟨b, db⟩ := p
      simp only [hf, Prod.mk.injEq, Option.some.injEq] at ha
      exact .inl ⟨b, db, rfl, by rw [ha.1], ha.2.symm⟩
  · cases hf : f m with
    | none =>
      simp only [hf, Prod.mk.injEq, true_and] at he
      exact .inr ⟨e, rfl, he.symm⟩
    | some p => simp [hf] at he
  · exact .inr h

end Operations

/-! ## Products -/

/-- What `get_product` finds. -/
def Mem.productOf (m : Mem) (merchantId : Nat) (goodsId merchantName : String) : Option Product :=
  (m.repos merchantId).bind fun repo =>
    (repo.getProduct goodsId).toOption.map fun p => { p with merchantName := merchantName }

section Products

variable {m : Mem} {ctx : Ctx} {is : List Input} {merchantId : Nat} {goodsId merchantName : String}

theorem answered_getProduct_some {x : Except Exn Product} {rest : List Input} {t : Mem}
    (h : (getProduct ctx merchantId goodsId merchantName).answered is m = some (x, rest, t)) :
    t = m ∧ x.toOption = m.productOf merchantId goodsId merchantName := by
  simp only [getProduct, getMerchantGitRepo, readRepo, Co.answered_bind, Co.answered_get] at h
  cases hrepo : m.repos merchantId with
  | none =>
    simp [hrepo] at h
    obtain ⟨rfl, rfl, rfl⟩ := h
    exact ⟨rfl, by simp [Mem.productOf, hrepo, Except.toOption]⟩
  | some repo =>
    cases is with
    | nil => simp [hrepo] at h
    | cons i is =>
      cases hp : repo.getProduct goodsId with
      | ok p =>
        simp [hrepo, hp] at h
        obtain ⟨rfl, rfl, rfl⟩ := h
        exact ⟨rfl, by simp [Mem.productOf, hrepo, hp, Except.toOption]⟩
      | error e =>
        simp [hrepo, hp] at h
        obtain ⟨rfl, rfl, rfl⟩ := h
        exact ⟨rfl, by simp [Mem.productOf, hrepo, hp, Except.toOption]⟩

end Products

/-! ## Requests that do all or nothing -/

/-- What ends has done what `Q` says, or it has thrown and has changed nothing. -/
def Ends {α : Type} (x : M α) (m : Mem) (Q : α → Mem → Prop) : Prop :=
  ∀ is y rest t, x.answered is m = some (y, rest, t) →
    (∃ a, y = .ok a ∧ Q a t) ∨ (∃ e, y = .error e) ∧ t = m

/-- With `n` answers of a database that works, it returns. -/
def Replies {α : Type} (x : M α) (m : Mem) (n : Nat) (Q : α → Mem → Prop) : Prop :=
  ∀ is : List Input, (∀ i ∈ is, i.dbOk = true) → n ≤ is.length →
    ∃ a t rest, x.answered is m = some (.ok a, rest, t) ∧ Q a t ∧
      (∀ i ∈ rest, i.dbOk = true) ∧ is.length ≤ rest.length + n

section Rules

variable {m : Mem} {ctx : Ctx} {α β : Type} {Q : β → Mem → Prop} {n k : Nat}

theorem Ends.bind {x : M α} {g : α → M β} {p : α → Prop} (hx : Ends x m fun a t => p a ∧ t = m)
    (hg : ∀ a, p a → Ends (g a) m Q) : Ends (x >>= g) m Q := by
  intro is y rest t h
  rcases Co.answered_bind_some h with ⟨a, is', t', ha, hy⟩ | ⟨e, he, rfl⟩
  · rcases hx is _ is' t' ha with ⟨b, hb, hp, rfl⟩ | ⟨⟨e, he⟩, -⟩
    · cases hb
      exact hg a hp is' y rest t hy
    · cases he
  · rcases hx is _ rest t he with ⟨b, hb, -⟩ | ⟨-, ht⟩
    · cases hb
    · exact .inr ⟨⟨e, rfl⟩, ht⟩

theorem Ends.ret {a : β} (h : Q a m) : Ends (pure a) m Q := by
  rintro is y rest t ⟨⟩
  exact .inl ⟨a, rfl, h⟩

theorem Ends.throw {e : Exn} : Ends (Co.throw e) m Q := by
  rintro is y rest t ⟨⟩
  exact .inr ⟨⟨e, rfl⟩, rfl⟩

/-- What is done after a write cannot fail. -/
theorem Ends.after {x : M α} {g : α → M β} {P : α → Mem → Prop} (hx : Ends x m P)
    (hg : ∀ a t is, P a t → ∃ b u, (g a).answered is t = some (.ok b, is, u) ∧ Q b u) :
    Ends (x >>= g) m Q := by
  intro is y rest t h
  rcases Co.answered_bind_some h with ⟨a, is', t', ha, hy⟩ | ⟨e, he, rfl⟩
  · rcases hx is _ is' t' ha with ⟨b, hb, hp⟩ | ⟨⟨e, he⟩, -⟩
    · cases hb
      obtain ⟨b, u, hb, hq⟩ := hg a t' is' hp
      rw [hb] at hy
      cases hy
      exact .inl ⟨b, rfl, hq⟩
    · cases he
  · rcases hx is _ rest t he with ⟨b, hb, -⟩ | ⟨-, ht⟩
    · cases hb
    · exact .inr ⟨⟨e, rfl⟩, ht⟩

theorem ends_liftExcept (x : Except Exn α) :
    Ends (liftExcept x) m fun a t => x = .ok a ∧ t = m := by
  intro is y rest t h
  rw [answered_liftExcept] at h
  cases h
  cases x with
  | ok a => exact .inl ⟨a, rfl, rfl, rfl⟩
  | error e => exact .inr ⟨⟨e, rfl⟩, rfl⟩

/-- A transaction that only reads; what it finds may depend on the answer. -/
theorem ends_tx_reads {f : Input → Mem → α} {spot : Spot} {after : α → Spot} :
    Ends (tx ctx spot (fun i s => (some (f i s), s)) after) m
      fun a t => (∃ i, a = f i m) ∧ t = m := by
  intro is y rest t h
  rcases answered_tx_some h with ⟨i, ⟨a, rfl, ha⟩ | ⟨e, rfl, he⟩⟩ | ⟨e, rfl, rfl⟩
  · cases ha
    exact .inl ⟨_, rfl, ⟨i, rfl⟩, rfl⟩
  · cases he
  · exact .inr ⟨⟨e, rfl⟩, rfl⟩

theorem ends_asyncLoad (f : Db → α) (after : α → Spot) :
    Ends (asyncLoad ctx f after) m fun a t => a = f m.db ∧ t = m := by
  intro is y rest t h
  obtain ⟨rfl, rfl | ⟨e, rfl⟩⟩ := answered_asyncLoad_some h
  · exact .inl ⟨_, rfl, rfl, rfl⟩
  · exact .inr ⟨⟨e, rfl⟩, rfl⟩

theorem ends_asyncWrite (f : Mem → Option (α × Db)) (spot : Spot) (after : α → Spot) :
    Ends (asyncWrite ctx f spot after) m fun a t => ∃ db, f m = some (a, db) ∧ t = { m with db := db } := by
  intro is y rest t h
  rcases answered_asyncWrite_some h with ⟨a, db, hf, rfl, rfl⟩ | ⟨e, rfl, rfl⟩
  · exact .inl ⟨a, rfl, db, hf, rfl⟩
  · exact .inr ⟨⟨e, rfl⟩, rfl⟩

theorem ends_asyncTransacton {x : M β} (hx : Ends x m Q) : Ends (asyncTransacton x) m Q := by
  intro is y rest t h
  rw [asyncTransacton, Co.answered_tryCatch] at h
  cases hans : x.answered is m with
  | none => simp [hans] at h
  | some r =>
    obtain ⟨z, rest', t'⟩ := r
    rw [hans] at h
    rcases hx is z rest' t' hans with ⟨a, rfl, hq⟩ | ⟨⟨e, rfl⟩, rfl⟩
    · cases h
      exact .inl ⟨a, rfl, hq⟩
    · cases h
      exact .inr ⟨⟨_, rfl⟩, rfl⟩

theorem ends_getProduct (merchantId : Nat) (goodsId name : String) :
    Ends (getProduct ctx merchantId goodsId name) m fun p t =>
      m.productOf merchantId goodsId name = some p ∧ t = m := by
  intro is y rest t h
  obtain ⟨rfl, hy⟩ := answered_getProduct_some h
  cases y with
  | ok p => exact .inl ⟨p, rfl, hy.symm, rfl⟩
  | error e => exact .inr ⟨⟨e, rfl⟩, rfl⟩

/-- A product that cannot be read is replaced. -/
theorem ends_getProduct_or (merchantId : Nat) (goodsId name : String) (d : Product) :
    Ends ((getProduct ctx merchantId goodsId name).tryCatch fun _ => .ret d) m fun p t =>
      p = (m.productOf merchantId goodsId name).getD d ∧ t = m := by
  intro is y rest t h
  rw [Co.answered_tryCatch] at h
  cases hans : (getProduct ctx merchantId goodsId name).answered is m with
  | none => simp [hans] at h
  | some r =>
    obtain ⟨x, rest', t'⟩ := r
    obtain ⟨rfl, hx⟩ := answered_getProduct_some hans
    rw [hans] at h
    cases x with
    | ok p =>
      cases h
      exact .inl ⟨p, rfl, by rw [← hx]; rfl, rfl⟩
    | error e =>
      cases h
      exact .inl ⟨d, rfl, by rw [← hx]; rfl, rfl⟩

theorem Replies.bind {x : M α} {g : α → M β} {P : α → Mem → Prop} (hx : Replies x m n P)
    (hg : ∀ a t, P a t → Replies (g a) t k Q) : Replies (x >>= g) m (n + k) Q := by
  intro is hok hlen
  obtain ⟨a, t, rest, ha, hp, hrest, hleft⟩ := hx is hok (by omega)
  obtain ⟨b, u, rest', hb, hq, hrest', hleft'⟩ := hg a t hp rest hrest (by omega)
  refine ⟨b, u, rest', ?_, hq, hrest', by omega⟩
  rw [Co.answered_bind, ha]
  exact hb

theorem Replies.ret {a : β} (h : Q a m) : Replies (pure a) m 0 Q := by
  intro is hok _
  exact ⟨a, m, is, rfl, h, hok, by omega⟩

theorem replies_liftExcept {x : Except Exn α} {a : α} (hx : x = .ok a) :
    Replies (liftExcept x) m 0 fun b t => b = a ∧ t = m := by
  subst hx
  exact .ret ⟨rfl, rfl⟩

theorem replies_tx {spot : Spot} {f : Input → Mem → Option β × Mem} {after : β → Spot}
    (hf : ∀ i, ∃ a, (f i m).1 = some a ∧ Q a (f i m).2) : Replies (tx ctx spot f after) m 2 Q := by
  intro is hok hlen
  rcases is with _ | ⟨i, _ | ⟨j, is⟩⟩
  · simp at hlen
  · simp at hlen
  · obtain ⟨a, ha, hq⟩ := hf i
    have hi : i.dbOk = true := hok i (by simp)
    refine ⟨a, (f i m).2, is, ?_, hq, fun l hl => hok l (by simp [hl]), by simp⟩
    simp [tx, hi, ha]

theorem replies_asyncLoad (f : Db → α) (after : α → Spot) :
    Replies (asyncLoad ctx f after) m 2 fun a t => a = f m.db ∧ t = m :=
  replies_tx fun _ => ⟨f m.db, rfl, rfl, rfl⟩

theorem replies_asyncWrite {f : Mem → Option (α × Db)} {a : α} {db : Db} (hf : f m = some (a, db))
    (spot : Spot) (after : α → Spot) :
    Replies (asyncWrite ctx f spot after) m 2 fun b t => b = a ∧ t = { m with db := db } :=
  replies_tx fun _ => ⟨a, by simp [hf], rfl, by simp [hf]⟩

theorem replies_asyncTransacton {x : M β} (hx : Replies x m n Q) :
    Replies (asyncTransacton x) m n Q := by
  intro is hok hlen
  obtain ⟨a, t, rest, ha, hrest⟩ := hx is hok hlen
  refine ⟨a, t, rest, ?_, hrest⟩
  rw [asyncTransacton, Co.answered_tryCatch, ha]

theorem replies_getProduct {merchantId : Nat} {goodsId name : String} {p : Product}
    (h : m.productOf merchantId goodsId name = some p) :
    Replies (getProduct ctx merchantId goodsId name) m 1 fun b t => b = p ∧ t = m := by
  intro is hok hlen
  rcases is with _ | ⟨i, is⟩
  · simp at hlen
  · cases hrepo : m.repos merchantId with
    | none => simp [Mem.productOf, hrepo] at h
    | some repo =>
      cases hp : repo.getProduct goodsId with
      | error e => simp [Mem.productOf, hrepo, hp, Except.toOption] at h
      | ok p' =>
        refine ⟨p, m, is, ?_, ⟨rfl, rfl⟩, fun j hj => hok j (by simp [hj]), by simp⟩
        simp [Mem.productOf, hrepo, hp, Except.toOption] at h
        simp [getProduct, getMerchantGitRepo, readRepo, hrepo, hp, h]

theorem replies_getProduct_or (merchantId : Nat) (goodsId name : String) (d : Product) :
    Replies ((getProduct ctx merchantId goodsId name).tryCatch fun _ => .ret d) m 1
      fun _ t => t = m := by
  intro is hok hlen
  rcases is with _ | ⟨i, is⟩
  · simp at hlen
  · cases hrepo : m.repos merchantId with
    | none =>
      refine ⟨d, m, i :: is, ?_, rfl, hok, by simp⟩
      simp [getProduct, getMerchantGitRepo, hrepo]
    | some repo =>
      have hrest : ∀ j ∈ is, j.dbOk = true := fun j hj => hok j (List.mem_cons_of_mem i hj)
      cases hp : repo.getProduct goodsId with
      | error e =>
        refine ⟨d, m, is, ?_, rfl, hrest, by simp⟩
        simp [getProduct, getMerchantGitRepo, readRepo, hrepo, hp]
      | ok p =>
        refine ⟨{ p with merchantName := name }, m, is, ?_, rfl, hrest, by simp⟩
        simp [getProduct, getMerchantGitRepo, readRepo, hrepo, hp]

theorem ends_thisSession :
    Ends (thisSession ctx) m fun a t => (m.conn ctx.conn).sessionInfo = some a ∧ t = m := by
  intro is y rest t h
  simp only [thisSession, Co.answered_bind, Co.answered_get] at h
  cases hconn : (m.conn ctx.conn).sessionInfo with
  | none =>
    simp [hconn] at h
    obtain ⟨rfl, -, rfl⟩ := h
    exact .inr ⟨⟨_, rfl⟩, rfl⟩
  | some a =>
    simp [hconn] at h
    obtain ⟨rfl, -, rfl⟩ := h
    exact .inl ⟨a, rfl, rfl, rfl⟩

theorem replies_thisSession {a : Nat} (h : (m.conn ctx.conn).sessionInfo = some a) :
    Replies (thisSession ctx) m 0 fun b t => b = a ∧ t = m := by
  intro is hok _
  exact ⟨a, m, is, by simp [thisSession, h], ⟨rfl, rfl⟩, hok, by omega⟩

end Rules

/-! ## Requests -/

section Requests

variable {cfg : Config} {m : Mem} {ctx : Ctx} {method : ReqMethod} {params : JsonObject}
  {Q : Reply → Mem → Prop} {n : Nat}

theorem ends_get : Ends (Co.get : M Mem) m fun a t => a = m ∧ t = m := by
  rintro is y rest t ⟨⟩
  exact .inl ⟨m, rfl, rfl, rfl⟩

theorem ends_ensureLogin (checkAdmin checkMerchant : Bool) :
    Ends (ensureLogin ctx checkAdmin checkMerchant) m fun _ t => True ∧ t = m := by
  refine .bind ends_thisSession fun a _ => ?_
  refine .bind (p := fun _ => True) (.bind ends_get fun s _ => .ret ⟨trivial, rfl⟩) fun c _ => ?_
  repeat' first
    | exact .throw
    | exact .ret ⟨trivial, rfl⟩
    | split

/-- A method of the administrators does nothing before its handler. -/
theorem ends_admin (hapi : method.api = .admin)
    (h : Ends (handleJsonrpcAdminApi ctx method params) m Q) :
    Ends (handleJsonrpcCall cfg ctx method params) m Q := by
  refine .bind ends_get fun s _ => ?_
  split
  · exact .throw
  · rw [hapi]
    exact .bind (ends_ensureLogin _ _) fun _ _ => h

theorem ends_goods (hapi : method.api = .goods)
    (h : Ends (handleJsonrpcGoodsApi ctx method params) m Q) :
    Ends (handleJsonrpcCall cfg ctx method params) m Q := by
  refine .bind ends_get fun s _ => ?_
  split
  · exact .throw
  · rw [hapi]
    exact h

theorem ends_serve {conn r : Nat} (h : Ends (handleJsonrpcCall cfg ⟨conn, r⟩ method params) m Q) :
    Ends (serve cfg ⟨conn, r⟩ (.jsonrpc conn method params)) m fun _ t =>
      ∃ reply t', Q reply t' ∧ t = { t' with trace := .replied r reply :: t'.trace } := by
  refine .after h fun reply t is hq => ?_
  exact ⟨(), _, rfl, reply, t, hq, rfl⟩

theorem isAdmin_session {conn : Nat} (h : m.isAdmin conn = true) :
    ∃ a, (m.conn conn).sessionInfo = some a := by
  cases ha : (m.conn conn).sessionInfo with
  | none => simp [Mem.isAdmin, ha] at h
  | some a => exact ⟨a, rfl⟩

/-- An administrator gets past the checks. -/
theorem replies_admin {conn r : Nat} (hadmin : m.isAdmin conn = true) (hapi : method.api = .admin)
    (h : Replies (handleJsonrpcAdminApi ⟨conn, r⟩ method params) m n Q) :
    Replies (handleJsonrpcCall cfg ⟨conn, r⟩ method params) m n Q := by
  intro is hok hlen
  obtain ⟨x, hlogin, hx⟩ := answered_ensureAdmin conn r is m
  obtain rfl := hx.mpr hadmin
  obtain ⟨a, t, rest, ha, hrest⟩ := h is hok hlen
  obtain ⟨b, hconn⟩ := isAdmin_session hadmin
  refine ⟨a, t, rest, ?_, hrest⟩
  simp [handleJsonrpcCall, hapi, hconn, hlogin, ha]

theorem replies_goods {conn r : Nat} (hconn : (m.conn conn).sessionInfo.isSome = true)
    (hapi : method.api = .goods)
    (h : Replies (handleJsonrpcGoodsApi ⟨conn, r⟩ method params) m n Q) :
    Replies (handleJsonrpcCall cfg ⟨conn, r⟩ method params) m n Q := by
  intro is hok hlen
  obtain ⟨a, t, rest, ha, hrest⟩ := h is hok hlen
  have hsome : (m.conn conn).sessionInfo ≠ none := by
    intro hnone
    simp [hnone] at hconn
  refine ⟨a, t, rest, ?_, hrest⟩
  simp [handleJsonrpcCall, hapi, hsome, ha]

theorem replies_serve {conn r : Nat}
    (h : Replies (handleJsonrpcCall cfg ⟨conn, r⟩ method params) m n Q) :
    Replies (serve cfg ⟨conn, r⟩ (.jsonrpc conn method params)) m n fun _ _ => True := by
  intro is hok hlen
  obtain ⟨reply, t, rest, ha, -, hrest, hleft⟩ := h is hok hlen
  refine ⟨(), { t with trace := .replied r reply :: t.trace }, rest, ?_, trivial, hrest, hleft⟩
  rw [serve, Co.answered_bind, ha]
  rfl

end Requests

/-! ## One answer for all that is asked -/

section Eval

variable {ctx : Ctx} {s t : Mem} {a : Nat} {α : Type} {i : Input}

theorem tx_eval {spot : Spot} {f : Input → Mem → Option α × Mem} {after : α → Spot} {x : α}
    (hi : i.dbOk = true) (h : f i s = (some x, t)) :
    (tx ctx spot f after).eval i s = (.ok x, t) := by
  simp only [tx]
  rw [Co.eval_bind_ok (Co.eval_suspend _), if_pos hi, Co.eval_bind_ok (Co.eval_modifyGet _), h]
  exact Co.eval_bind_ok (Co.eval_suspend _)

theorem asyncLoad_eval (hi : i.dbOk = true) (f : Db → α) (after : α → Spot) :
    (asyncLoad ctx f after).eval i s = (.ok (f s.db), s) := tx_eval hi rfl

theorem asyncWrite_eval {f : Mem → Option (α × Db)} {x : α} {db : Db} (hi : i.dbOk = true)
    (h : f s = some (x, db)) (spot : Spot) (after : α → Spot) :
    (asyncWrite ctx f spot after).eval i s = (.ok x, { s with db := db }) :=
  tx_eval hi (by rw [h])

theorem liftExcept_eval {x : Except Exn α} {y : α} (h : x = .ok y) :
    (liftExcept x).eval i s = (.ok y, s) := by
  rw [h]
  rfl

theorem thisSession_eval (h : (s.conn ctx.conn).sessionInfo = some a) :
    (thisSession ctx).eval i s = (.ok a, s) := by
  simp only [thisSession]
  rw [Co.eval_bind_ok Co.eval_get, h]
  rfl

theorem getSession_eval : (getSession a).eval i s = (.ok (s.heap a), s) := rfl

theorem thisUser_eval {u : CmallUser} (h : (s.heap a).userInfo = some u) :
    (thisUser a).eval i s = (.ok u, s) := by
  simp only [thisUser]
  rw [Co.eval_bind_ok getSession_eval, h]
  rfl

end Eval

/-! ## Turns -/

section Turns

variable {cfg : Config} {s : Service} {q : Request} {is : List Input} {Q : Unit → Mem → Prop}
  {n : Nat}

theorem turn_of_ends (h : Ends (serve cfg ⟨q.conn, s.procs.length⟩ q) s.mem Q)
    (hended : (s.turn (prog cfg) q is).ended s.procs.length = true) :
    ((s.turn (prog cfg) q is).returned s.procs.length = true ∧
        Q () (s.turn (prog cfg) q is).mem) ∨
      ((s.turn (prog cfg) q is).returned s.procs.length = false ∧
        (s.turn (prog cfg) q is).mem = s.mem) := by
  have hprog : prog cfg s.procs.length q = (Co.suspend ⟨⟨q.conn, s.procs.length⟩, .start q.method⟩ >>=
    fun _ => serve cfg ⟨q.conn, s.procs.length⟩ q) := rfl
  obtain ⟨j, js, x, rest, m, rfl, hx⟩ := Sys.turn_ended hprog hended
  rw [Sys.turn_answered hprog hx]
  rcases h js x rest m hx with ⟨a, rfl, hq⟩ | ⟨⟨e, rfl⟩, rfl⟩
  · exact .inl ⟨by simp [Sys.returned, Co.ofResult, Co.returned], hq⟩
  · exact .inr ⟨by simp [Sys.returned, Co.ofResult, Co.returned], rfl⟩

theorem turn_of_replies (h : Replies (serve cfg ⟨q.conn, s.procs.length⟩ q) s.mem n Q)
    (hok : ∀ i ∈ is, i.dbOk = true) (hlen : n < is.length) :
    (s.turn (prog cfg) q is).returned s.procs.length = true := by
  have hprog : prog cfg s.procs.length q = (Co.suspend ⟨⟨q.conn, s.procs.length⟩, .start q.method⟩ >>=
    fun _ => serve cfg ⟨q.conn, s.procs.length⟩ q) := rfl
  cases is with
  | nil => simp at hlen
  | cons j js =>
    obtain ⟨a, t, rest, ha, -⟩ := h js (fun i hi => hok i (List.mem_cons_of_mem j hi))
      (by simpa using Nat.lt_succ_iff.mp hlen)
    rw [Sys.turn_answered hprog ha]
    simp [Sys.returned, Co.ofResult, Co.returned]

end Turns

end Cmall
