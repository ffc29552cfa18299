import Cmall.Footprint.Triples

/-!
One account per phone.

A first login looks the phone up, finds nobody and inserts a row, in two
transactions and without a constraint of the database behind them. The phones of
the users stay pairwise different exactly as long as nobody inserts the phone in
between.
-/

namespace Cmall
open Coroutine Protocol

/-- At most one row of `cmall_user` for every phone. -/
def Db.OnePerPhone (db : Db) : Prop := (db.users.map CmallUser.activePhone).Nodup

instance (db : Db) : Decidable db.OnePerPhone := inferInstanceAs (Decidable (List.Nodup _))

/-- Request `r` found no user with the phone `tel`, and none was added since. -/
def missedSince (r : Nat) (tel : String) : List Event → Bool
  | [] => false
  | .userAdded _ t :: rest => t ≠ tel && missedSince r tel rest
  | .userMissed r' t :: rest => (r' = r && t = tel) || missedSince r tel rest
  | _ :: rest => missedSince r tel rest

/-- What holds between the steps of a run: a phone that was missed is not there. -/
structure AccountInv (s : Mem) : Prop where
  onePerPhone : s.db.OnePerPhone
  missed : ∀ r tel, missedSince r tel s.trace = true → ∀ u ∈ s.db.users, u.activePhone ≠ tel

/-- The phone of the row about to be inserted. -/
def Spot.inserts : Spot → Option String
  | .addUser tel => some tel
  | _ => none

/-- A row for `tel` is inserted only by a request that looked `tel` up, and before
any other request inserts it. -/
def noRival (r : Nat) (_ : Request) (p : Point) (_ : Input) (s : Mem) : Prop :=
  ∀ tel ∈ p.spot.inserts, missedSince r tel s.trace = true

def accountProtocol : Protocol Request Mem Input Point where
  inv := AccountInv
  rely _ _ _ _ := True
  guar _ _ s t := AccountInv s → AccountInv t
  guard := noRival
  permit _ _ := True
  rely_refl _ _ _ := trivial
  rely_trans _ _ _ _ _ _ _ := trivial
  guar_refl _ _ _ := id
  guar_trans _ _ _ _ _ h h' := h' ∘ h
  guar_inv _ _ _ _ h hg := hg h
  guar_rely _ _ _ _ _ _ _ _ _ := trivial

instance (r : Nat) (q : Request) (p : Point) (i : Input) (s : Mem) :
    Decidable (accountProtocol.guard r q p i s) :=
  inferInstanceAs (Decidable (∀ tel ∈ p.spot.inserts, missedSince r tel s.trace = true))

instance (q : Request) (s : Mem) : Decidable (accountProtocol.permit q s) := .isTrue trivial

/-! ## Steps -/

theorem missedSince_append {r : Nat} {tel : String} {es trace : List Event}
    (h : ∀ e ∈ es, e.part ≠ .accountEvents) :
    missedSince r tel (es ++ trace) = missedSince r tel trace := by
  induction es with
  | nil => rfl
  | cons e es ih =>
    have hrest := ih fun e' he' => h e' (List.mem_cons_of_mem _ he')
    have he := h e (List.mem_cons_self ..)
    cases e <;> first | exact hrest | exact absurd rfl he

/-- Steps outside the accounts keep the invariant. -/
theorem AccountInv.of_keeps {K : List Part} {r : Nat} {s t : Mem} (h : AccountInv s)
    (hk : Keeps K r s t) (ha : .accounts ∉ K) (he : .accountEvents ∉ K) : AccountInv t := by
  have hacc := hk.db.accounts ha
  have hphone : t.db.users.map CmallUser.activePhone = s.db.users.map CmallUser.activePhone := by
    simpa [Function.comp_def, CmallUser.account] using congrArg (List.map Prod.snd) hacc
  obtain ⟨es, hes, hpart⟩ := hk.trace
  have hnot : ∀ e ∈ es, e.part ≠ .accountEvents := fun e h' heq => he (heq ▸ (hpart e h').2)
  refine ⟨?_, fun r' tel hm u hu => ?_⟩
  · unfold Db.OnePerPhone
    rw [hphone]
    exact h.onePerPhone
  · rw [hes, missedSince_append hnot] at hm
    have hmem : u.activePhone ∈ s.db.users.map CmallUser.activePhone :=
      hphone ▸ List.mem_map_of_mem hu
    obtain ⟨v, hv, heq⟩ := List.mem_map.mp hmem
    exact heq ▸ h.missed r' tel hm v hv

theorem AccountInv.look_up {s : Mem} {r : Nat} {tel : String} (h : AccountInv s)
    (hnone : s.db.userByPhone tel = none) :
    AccountInv { s with trace := .userMissed r tel :: s.trace } := by
  refine ⟨h.onePerPhone, fun r' tel' hm u hu => ?_⟩
  simp only [missedSince, Bool.or_eq_true, Bool.and_eq_true, decide_eq_true_eq] at hm
  rcases hm with ⟨-, rfl⟩ | hm
  · simpa using Table.queryOne_none hnone u hu
  · exact h.missed r' tel' hm u hu

theorem AccountInv.add {s : Mem} {r : Nat} {u : CmallUser} (h : AccountInv s)
    (hm : missedSince r u.activePhone s.trace = true) :
    AccountInv { s with
      db := (s.db.persistUser u).2
      trace := .userAdded r u.activePhone :: s.trace } := by
  have hnew : u.activePhone ∉ s.db.users.map CmallUser.activePhone := by
    intro hmem
    obtain ⟨v, hv, heq⟩ := List.mem_map.mp hmem
    exact h.missed r _ hm v hv heq
  refine ⟨?_, fun r' tel hm' v hv => ?_⟩
  · show ((s.db.users ++ [_]).map CmallUser.activePhone).Nodup
    rw [List.map_append, List.map_singleton]
    exact List.nodup_append.mpr ⟨h.onePerPhone, List.nodup_singleton _, fun x hx y hy heq =>
      hnew (List.mem_singleton.mp hy ▸ heq ▸ hx)⟩
  · simp only [missedSince, Bool.and_eq_true, decide_eq_true_eq, ne_eq] at hm'
    rcases List.mem_append.mp hv with hv | hv
    · exact h.missed r' tel hm'.2 v hv
    · rw [List.mem_singleton.mp hv]
      exact hm'.1

/-! ## The login -/

section Login

variable {r : Nat} {q : Request} {ctx : Ctx} {α : Type}

/-- Everything in a login but the look-up and the insertion is outside the accounts. -/
theorem triple_account_of_each {x : M α}
    (hx : x.Each (Keeps [.heap, .sessions, .loginEvents] r)) :
    accountProtocol.Triple r q (fun _ => True) x (fun _ _ => True) (fun _ => True) :=
  .each hx stable_true fun _ _ _ _ hk =>
    ⟨fun hi => hi.of_keeps hk (by simp) (by simp), trivial⟩

theorem loadUserByPhone_account (a : Nat) (tel : String) :
    accountProtocol.Triple r q (fun _ => True) (loadUserByPhone ctx a tel)
      (fun _ _ => True) (fun _ => True) := by
  refine triple_tx (fun _ _ => True) stable_true (fun _ => stable_true) (fun _ _ _ => trivial)
    (fun i s hi _ _ => ⟨?_, fun _ => trivial, fun _ _ => trivial⟩) fun _ _ _ _ _ _ => trivial
  split
  · exact id
  · rename_i hnone
    exact fun h => h.look_up hnone

theorem addUser_account (hr : ctx.req = r) (u : CmallUser) :
    accountProtocol.Triple r q (fun _ => True) (addUser ctx u)
      (fun _ _ => True) (fun _ => True) := by
  refine triple_tx (fun _ _ => True) stable_true (fun _ => stable_true) (fun _ _ _ => trivial)
    (fun i s hi _ hg => ⟨?_, fun _ => trivial, fun _ _ => trivial⟩) fun _ _ _ _ _ _ => trivial
  subst hr
  exact fun h => h.add (hg _ rfl)

theorem handleUserLogin_account (hr : ctx.req = r) (a : Nat) (tel : String) :
    accountProtocol.Triple r q (fun _ => True) (handleUserLogin ctx a tel)
      (fun _ _ => True) (fun _ => True) := by
  subst hr
  have hemit : ∀ b u, (emit (.identified ctx.req b u)).Each
      (Keeps [.heap, .sessions, .loginEvents] ctx.req) := fun b u =>
    emit_each (by simp [Event.part]) rfl
  simp only [handleUserLogin, loginNewUser]
  repeat' first
    | with_reducible exact loadUserByPhone_account a tel
    | with_reducible exact addUser_account rfl _
    | with_reducible refine .bind (Q := fun _ _ => True) ?_ fun _ => ?_
    | (refine triple_account_of_each ?_; simp [hemit]; done)
    | split

/-- The two methods that log in. -/
theorem handlerOf_account {cfg : Config} {method : ReqMethod} {params : JsonObject}
    (hr : ctx.req = r) (hm : method = .userLogin ∨ method = .userFastlogin) :
    accountProtocol.Triple r q (fun _ => True) (handlerOf cfg ctx method params)
      (fun _ _ => True) (fun _ => True) := by
  have hemit : ∀ cookie code, (emit (.codeAccepted ctx.req cookie code)).Each
      (Keeps [.heap, .sessions, .loginEvents] r) := fun _ _ => emit_each (by simp [Event.part]) hr
  rcases hm with rfl | rfl
  all_goals
    simp only [handlerOf, ReqMethod.api, handleJsonrpcUserApi, userLogin, userFastlogin]
    repeat' first
      | with_reducible exact handleUserLogin_account hr _ _
      | with_reducible refine .bind (Q := fun _ _ => True) ?_ fun _ => ?_
      | (refine triple_account_of_each ?_; simp [hemit])
      | split

end Login

theorem ReqMethod.login_of_accounts {method : ReqMethod}
    (h : .accounts ∈ method.footprint ∨ .accountEvents ∈ method.footprint) :
    method = .userLogin ∨ method = .userFastlogin := by
  cases method <;> simp_all [ReqMethod.footprint]

/-- Every program keeps to the protocol. -/
theorem programs_account (cfg : Config) : accountProtocol.Programs (prog cfg) := by
  intro r q m _ _ _
  by_cases hq : .accounts ∈ q.footprint ∨ .accountEvents ∈ q.footprint
  · cases q with
    | jsonrpc conn method params =>
      have hm := ReqMethod.login_of_accounts (by simpa [Request.footprint] using hq)
      refine prog_suspended_of_handler (L := fun _ => True) stable_true trivial
        (fun _ _ _ _ _ => trivial) (fun _ _ _ => trivial) (handlerOf_account rfl hm) ?_
      intro reply s _ _
      exact ⟨fun hi => hi.of_keeps keeps_replied (by simp) (by simp), trivial⟩
    | _ => simp [Request.footprint] at hq
  · rw [not_or] at hq
    exact prog_suspended_of_keeps (fun s t _ hk hi => hi.of_keeps hk hq.1 hq.2) fun _ => trivial

/-- No repository and no payment service is configured, and no text is a decimal. -/
def bareConfig : Config := { numeric := fun _ => none, wxpayAppids := [] }

/-- Two connections, each with a session of its own. -/
def twoConnections : Mem where
  heapTop := 2
  heap a := { sessionId := uuidOf 0 a }
  conn c := { sessionInfo := some c }

/-- The label that runs request `r` on, `n` times. -/
def resumes (r n : Nat) : List (Label Request Input) := List.replicate n (.resume r {})

/-- Two connections log in with the same new phone; both look it up before either
inserts it. -/
def rivalLogins : List (Label Request Input) :=
  [ .spawn (.jsonrpc 0 .userFastlogin []), .spawn (.jsonrpc 1 .userFastlogin []),
    .resume 0 {}, .resume 0 { answer := some "138" }, .resume 0 {},
    .resume 1 {}, .resume 1 { answer := some "138" }, .resume 1 {},
    .resume 0 {}, .resume 0 {}, .resume 1 {}, .resume 1 {} ]

end Cmall
