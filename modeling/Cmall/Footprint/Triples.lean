import Cmall.Footprint.Handlers

/-!
Triples for the operations handlers are made of, and the rules that reduce a
protocol of the service to the handlers that matter for it.
-/

namespace Cmall
open Coroutine Protocol

variable {P : Protocol Request Mem Input Point} {r : Nat} {q : Request} {L E : Mem → Prop}
  {ctx : Ctx} {cfg : Config} {α : Type}

/-! ## Operations -/

/-- A transaction. `L'` is what holds once it is done and stays so until the
handler continues. -/
theorem triple_tx {spot : Spot} {f : Input → Mem → Option α × Mem} {after : α → Spot}
    (L' : α → Mem → Prop) {Q : α → Mem → Prop} (hL : P.Stable r q L)
    (hL' : ∀ a, P.Stable r q (L' a)) (hE : ∀ s, P.inv s → L s → E s)
    (hf : ∀ i s, P.inv s → L s → P.guard r q ⟨ctx, spot⟩ i s →
      P.guar r q s (f i s).2 ∧ ((f i s).1 = none → L (f i s).2) ∧
        ∀ a, (f i s).1 = some a → L' a (f i s).2)
    (hQ : ∀ a i s, P.inv s → L' a s → P.guard r q ⟨ctx, after a⟩ i s → Q a s) :
    P.Triple r q L (tx ctx spot f after) Q E := by
  have hback : P.Triple r q L
      (do let _ ← Co.suspend ⟨ctx, .back⟩; Co.throw (.system .internalServerError) : M α) Q E :=
    .bind (Q := fun _ => L) (.suspend hL fun _ _ _ h _ => h) fun _ => .throw hE
  refine .bind (Q := fun i s => L s ∧ P.guard r q ⟨ctx, spot⟩ i s)
    (.suspend hL fun i s _ h hg => ⟨h, hg⟩) fun i => ?_
  split
  · refine .bind (Q := fun o s => (o = none → L s) ∧ ∀ a, o = some a → L' a s)
      (.modifyGet fun s hi h => ?_) fun o => ?_
    · obtain ⟨hg, hn, hs⟩ := hf i s hi h.1 h.2
      exact ⟨hg, hn, hs⟩
    · split
      · rename_i a
        refine .conseq (L := L' a) ?_ (fun s _ h => h.2 a rfl) (fun _ _ _ h => h) fun _ _ h => h
        exact .bind (Q := fun _ => Q a) (.suspend (hL' a) (hQ a)) fun _ => .ret fun _ _ h => h
      · exact .conseq hback (fun s _ h => h.1 rfl) (fun _ _ _ h => h) fun _ _ h => h
  · exact .conseq hback (fun _ _ h => h.1) (fun _ _ _ h => h) fun _ _ h => h

/-- A transaction that only reads. -/
theorem triple_asyncLoad {f : Db → α} {after : α → Spot} (L' : α → Mem → Prop)
    {Q : α → Mem → Prop} (hL : P.Stable r q L) (hL' : ∀ a, P.Stable r q (L' a))
    (hE : ∀ s, P.inv s → L s → E s) (hf : ∀ s, P.inv s → L s → L' (f s.db) s)
    (hQ : ∀ a i s, P.inv s → L' a s → P.guard r q ⟨ctx, after a⟩ i s → Q a s) :
    P.Triple r q L (asyncLoad ctx f after) Q E := by
  refine triple_tx L' hL hL' hE (fun i s hi h _ => ⟨P.guar_refl _ _ _, by simp, ?_⟩) hQ
  intro a ha
  cases ha
  exact hf s hi h

/-- A transaction that writes the tables, if it does not throw. -/
theorem triple_asyncWrite {f : Mem → Option (α × Db)} {spot : Spot} {after : α → Spot}
    (L' : α → Mem → Prop) {Q : α → Mem → Prop} (hL : P.Stable r q L)
    (hL' : ∀ a, P.Stable r q (L' a)) (hE : ∀ s, P.inv s → L s → E s)
    (hf : ∀ i s a db, P.inv s → L s → P.guard r q ⟨ctx, spot⟩ i s → f s = some (a, db) →
      P.guar r q s { s with db := db } ∧ L' a { s with db := db })
    (hQ : ∀ a i s, P.inv s → L' a s → P.guard r q ⟨ctx, after a⟩ i s → Q a s) :
    P.Triple r q L (asyncWrite ctx f spot after) Q E := by
  refine triple_tx L' hL hL' hE (fun i s hi hl hg => ?_) hQ
  cases hfs : f s with
  | none => exact ⟨P.guar_refl _ _ _, fun _ => hl, fun a ha => nomatch ha⟩
  | some p =>
    obtain ⟨a, db⟩ := p
    obtain ⟨hguar, hl'⟩ := hf i s a db hi hl hg hfs
    refine ⟨hguar, ?_, ?_⟩
    · rintro ⟨⟩
    · rintro b ⟨⟩
      exact hl'

/-- The pure part of an operation that can throw. -/
theorem triple_liftExcept {x : Except Exn α} (hE : ∀ s, P.inv s → L s → E s) :
    P.Triple r q L (liftExcept x) (fun a s => x = .ok a ∧ L s) E := by
  cases x with
  | ok a => exact .ret fun _ _ h => ⟨rfl, h⟩
  | error e => exact .throw hE

theorem triple_getSession (a : Nat) :
    P.Triple r q L (getSession a) (fun c s => c = s.heap a ∧ L s) E :=
  .bind (Q := fun m s => m = s ∧ L s) (.get fun _ _ h => ⟨rfl, h⟩) fun _ =>
    .ret fun _ _ h => ⟨by rw [h.1], h.2⟩

/-- Dereferencing the session of the connection. -/
theorem triple_thisSession (hE : ∀ s, P.inv s → L s → E s) :
    P.Triple r q L (thisSession ctx)
      (fun a s => (s.conn ctx.conn).sessionInfo = some a ∧ L s) E := by
  refine .bind (Q := fun m s => m = s ∧ L s) (.get fun _ _ h => ⟨rfl, h⟩) fun m => ?_
  split
  · rename_i a ha
    exact .ret fun s _ h => ⟨h.1 ▸ ha, h.2⟩
  · exact .throw fun s hi h => hE s hi h.2

theorem triple_thisUser (a : Nat) (hE : ∀ s, P.inv s → L s → E s) :
    P.Triple r q L (thisUser a) (fun u s => (s.heap a).userInfo = some u ∧ L s) E := by
  refine .bind (triple_getSession a) fun c => ?_
  split
  · rename_i u hu
    exact .ret fun s _ h => ⟨h.1 ▸ hu, h.2⟩
  · exact .throw fun s hi h => hE s hi h.2

theorem triple_originalUser (a : Nat) (hE : ∀ s, P.inv s → L s → E s) :
    P.Triple r q L (originalUser a)
      (fun u s => (s.heap a).originalUser.bind Administrators.user = some u ∧ L s) E := by
  refine .bind (triple_getSession a) fun c => ?_
  split
  · exact .throw fun s hi h => hE s hi h.2
  · rename_i o ho
    split
    · exact .throw fun s hi h => hE s hi h.2
    · rename_i u hu
      refine .ret fun s _ h => ⟨?_, h.2⟩
      rw [← h.1, ho]
      exact hu

/-! ## Programs -/

/-- A program whose footprint obeys the guarantee keeps to the protocol. -/
theorem prog_suspended_of_keeps {m : Mem}
    (hG : ∀ s t, P.inv s → Keeps q.footprint r s t → P.guar r q s t)
    (hpost : ∀ s, P.post r q s) : (prog cfg r q).Suspended P r q m := by
  refine Triple.suspended (L := fun _ => True) stable_true trivial
    (fun _ _ _ _ _ => trivial) fun i => ?_
  refine .conseq (.each (serve_each q) stable_true ?_) (fun _ _ h => h)
    (fun _ s _ _ => hpost s) fun s _ _ => hpost s
  exact fun s t hi _ hk => ⟨hG s t hi hk, trivial⟩

/-- What `handle_jsonrpc_call` runs once the session and the role are checked. -/
def handlerOf (cfg : Config) (ctx : Ctx) (method : ReqMethod) (params : JsonObject) : M Reply :=
  match method.api with
  | .recover => recoverSession ctx params
  | .ping => return .text "pong"
  | .user _ => handleJsonrpcUserApi cfg ctx method params
  | .cart => handleJsonrpcCartApi ctx method params
  | .fav => handleJsonrpcFavApi ctx method params
  | .order => handleJsonrpcOrderApi cfg ctx method params
  | .goods => handleJsonrpcGoodsApi ctx method params
  | .merchant => handleJsonrpcMerchantApi cfg ctx method params
  | .admin => handleJsonrpcAdminApi ctx method params
  | .sudoCancel => handleJsonrpcAdminApi ctx method params
  | .misc => handleJsonrpcMiscApi cfg ctx method params
  | .none => Co.throw (.system .notImplemented)

theorem ensureLogin_reads {G : Mem → Mem → Prop} (hG : ∀ s, G s s)
    (checkAdmin checkMerchant : Bool) : (ensureLogin ctx checkAdmin checkMerchant).Each G := by
  refine Co.each_bind (thisSession_reads hG) fun a => Co.each_bind (getSession_reads hG a) fun c => ?_
  repeat' first
    | trivial
    | split

/-- The checks before the handler change nothing. -/
theorem handleJsonrpcCall_of_handler {G : Mem → Mem → Prop} {method : ReqMethod}
    {params : JsonObject} (hG : ∀ s, G s s) (h : (handlerOf cfg ctx method params).Each G) :
    (handleJsonrpcCall cfg ctx method params).Each G := by
  refine Co.each_bind (Co.each_get hG) fun m => ?_
  split
  · trivial
  unfold handlerOf at h
  split
  all_goals simp only [*] at h
  case h_3 =>
    split
    · exact Co.each_bind (ensureLogin_reads hG _ _) fun _ => h
    · exact h
  case h_10 =>
    refine Co.each_bind (thisSession_reads hG) fun a => ?_
    refine Co.each_bind (getSession_reads hG a) fun c => ?_
    split
    · exact h
    · trivial
  all_goals first
    | exact h
    | exact Co.each_bind (ensureLogin_reads hG _ _) fun _ => h

theorem triple_ensureLogin (checkAdmin checkMerchant : Bool) (hE : ∀ s, P.inv s → L s → E s) :
    P.Triple r q L (ensureLogin ctx checkAdmin checkMerchant) (fun _ => L) E := by
  refine .bind (triple_thisSession hE) fun a => .bind (triple_getSession a) fun c => ?_
  have hthrow : ∀ e, P.Triple r q
      (fun s => c = s.heap a ∧ (s.conn ctx.conn).sessionInfo = some a ∧ L s)
      (Co.throw e : M Unit) (fun _ => L) E := fun e => .throw fun s hi h => hE s hi h.2.2
  split
  · exact hthrow _
  · split
    · exact hthrow _
    · split
      · exact hthrow _
      · exact .ret fun _ _ h => h.2.2

/-- The checks before the handler read the memory only. -/
theorem triple_handleJsonrpcCall {method : ReqMethod} {params : JsonObject}
    {Q : Reply → Mem → Prop} (hE : ∀ s, P.inv s → L s → E s)
    (h : P.Triple r q L (handlerOf cfg ctx method params) Q E) :
    P.Triple r q L (handleJsonrpcCall cfg ctx method params) Q E := by
  refine .bind (Q := fun _ => L) (.get fun _ _ h => h) fun m => ?_
  split
  · exact .throw hE
  unfold handlerOf at h
  split
  all_goals simp only [*] at h
  case h_3 =>
    split
    · exact .bind (triple_ensureLogin _ _ hE) fun _ => h
    · exact h
  case h_10 =>
    refine .bind (Q := fun _ => L) (.conseq (triple_thisSession hE) (fun _ _ h => h)
      (fun _ _ _ h => h.2) fun _ _ h => h) fun a => ?_
    refine .bind (Q := fun _ => L) (.conseq (triple_getSession a) (fun _ _ h => h)
      (fun _ _ _ h => h.2) fun _ _ h => h) fun c => ?_
    split
    · exact h
    · exact .throw hE
  all_goals first
    | exact h
    | exact .bind (triple_ensureLogin _ _ hE) fun _ => h

/-- A JSON-RPC program keeps to the protocol when its handler does. -/
theorem prog_suspended_of_handler {conn : Nat} {method : ReqMethod} {params : JsonObject} {m : Mem}
    {L' : Mem → Prop} {Q : Reply → Mem → Prop}
    (hL : P.Stable r (.jsonrpc conn method params) L) (hm : L m)
    (hg : ∀ i s, P.inv s → L s →
      P.guard r (.jsonrpc conn method params) ⟨⟨conn, r⟩, .start (some method)⟩ i s → L' s)
    (hE : ∀ s, P.inv s → L' s → P.post r (.jsonrpc conn method params) s)
    (h : P.Triple r (.jsonrpc conn method params) L' (handlerOf cfg ⟨conn, r⟩ method params) Q
      (P.post r (.jsonrpc conn method params)))
    (hreply : ∀ reply s, P.inv s → Q reply s →
      P.guar r (.jsonrpc conn method params) s
          { s with trace := .replied r reply :: s.trace } ∧
        P.post r (.jsonrpc conn method params)
          { s with trace := .replied r reply :: s.trace }) :
    (prog cfg r (.jsonrpc conn method params)).Suspended P r (.jsonrpc conn method params) m := by
  refine Triple.suspended (L := L) hL hm (fun i s hi hl hg' => hg i s hi hl hg') fun _ => ?_
  exact .bind (triple_handleJsonrpcCall hE h) fun reply => .modify (hreply reply)

end Cmall
