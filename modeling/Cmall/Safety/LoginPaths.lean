import Cmall.Coroutine.Sequential
import Cmall.Safety.OneAccount

/-!
The merchant role by every way into a session.

A login, a recovery of a stored session and a recovery by an api token each decide on
their own whether the user is a merchant. Here is what each of them makes of the
session when it runs alone. They agree on a user whose merchant row, if there is one,
is in state normal: the login asks for the state, the recoveries do not.
-/

namespace Cmall
open Coroutine Protocol

/-! ## What the ways make of a session -/

def ClientSession.withMerchant (c : ClientSession) : Option CmallMerchant → ClientSession
  | some m => { c with merchantInfo := some m, isMerchant := true }
  | none => c

def ClientSession.withAdmin (c : ClientSession) : Option Administrators → ClientSession
  | some d => { c with adminInfo := some d, isAdmin := true }
  | none => c

/-- The merchant row of the user if it is in state normal. -/
def Db.normalMerchant (db : Db) (uid : Nat) : Option CmallMerchant :=
  (db.findMerchant uid).filter fun m => m.state = .normal

/-- A login of `u`. -/
def ClientSession.loggedIn (c : ClientSession) (db : Db) (u : CmallUser) : ClientSession :=
  (({ c with userInfo := some u }).withMerchant (db.normalMerchant u.uid)).withAdmin
    (db.findAdministrators u.uid)

/-- A recovery by an api token of `u`, in a new session. -/
def tokenSession (db : Db) (sessionId : String) (u : CmallUser) : ClientSession :=
  (({ sessionId := sessionId, userInfo := some u } : ClientSession).withMerchant
    (db.findMerchant u.uid)).withAdmin (db.findAdministrators u.uid)

/-- `load_user_info` in sudo mode. -/
def ClientSession.withOriginal (c : ClientSession) (db : Db) : ClientSession :=
  match c.sudoMode, c.originalUser with
  | true, some o => { c with originalUser := some ((db.findAdministrators o.uid).getD {}) }
  | _, _ => c

/-- `load_user_info` of a session whose user is `uid`. -/
def ClientSession.loaded (c : ClientSession) (db : Db) (uid : Nat) : ClientSession :=
  match db.findUser uid with
  | none => { c with userInfo := none }
  | some u =>
    ((({ c with userInfo := some u }).withMerchant (db.findMerchant u.uid)).withAdmin
      (db.findAdministrators u.uid)).withOriginal db

/-! ## Running alone -/

/-- The tables of the accounts are those of `db`. -/
structure Accounts (db : Db) (s : Mem) : Prop where
  users : s.db.users = db.users
  seq : s.db.seq.user = db.seq.user
  merchants : s.db.merchants = db.merchants
  administrators : s.db.administrators = db.administrators

/-- The connection `c` refers to the session at `a`, which is `x`. -/
structure Holds (db : Db) (c a : Nat) (x : ClientSession) (s : Mem) : Prop where
  accounts : Accounts db s
  session : (s.conn c).sessionInfo = some a
  object : s.heap a = x

section Handlers

variable {db : Db} {c a r : Nat} {x : ClientSession} {q : Request} {ctx : Ctx} {α β : Type}
  {Q : β → Mem → Prop}

/-- A coroutine that runs alone; nothing is said of its failure. -/
abbrev RunsAlone (r : Nat) (q : Request) (L : Mem → Prop) (y : M α) (Q : α → Mem → Prop) : Prop :=
  (solo r (fun _ => True) : Protocol Request Mem Input Point).Triple r q L y Q (fun _ => True)

/-- The parts that neither are sessions in use nor belong to an account. -/
def offAccounts : List Part :=
  [.codes, .uuids, .apptokens, .orders, .carts, .favs, .applys, .kvs, .sessions, .indexGoods,
    .loginEvents, .accountEvents, .sudoEvents, .orderEvents, .cartEvents, .otherEvents]

theorem Accounts.of_keeps {s t : Mem} (h : Accounts db s) (hk : Keeps offAccounts r s t) :
    Accounts db t where
  users := (hk.db.users (by simp [offAccounts])).trans h.users
  seq := (hk.db.userSeq (by simp [offAccounts])).trans h.seq
  merchants := (hk.db.merchants (by simp [offAccounts])).trans h.merchants
  administrators := (hk.db.administrators (by simp [offAccounts])).trans h.administrators

theorem Holds.of_keeps {s t : Mem} (h : Holds db c a x s) (hk : Keeps offAccounts r s t) :
    Holds db c a x t := by
  refine ⟨h.accounts.of_keeps hk, ?_, ?_⟩
  · rw [hk.conn (by simp [offAccounts])]
    exact h.session
  · rw [(hk.heap (by simp [offAccounts])).1]
    exact h.object

/-- What neither touches the sessions nor the accounts can be passed over. -/
theorem alone_skip {L : Mem → Prop} {y : M α} {k : α → M β}
    (hL : ∀ s t, Keeps offAccounts r s t → L s → L t) (hy : y.Each (Keeps offAccounts r))
    (hk : ∀ z, RunsAlone r q L (k z) Q) : RunsAlone r q L (y >>= k) Q := by
  refine Triple.bind (Q := fun _ => L) ?_ hk
  refine .conseq (.each hy solo_stable fun s t _ h hk => ⟨?_, hL s t hk h⟩) (fun _ _ h => h)
    (fun _ _ _ h => h) fun _ _ _ => trivial
  exact solo_guar fun h => h

theorem holds_skip {y : M α} {k : α → M β} (hy : y.Each (Keeps offAccounts r))
    (hk : ∀ z, RunsAlone r q (Holds db c a x) (k z) Q) :
    RunsAlone r q (Holds db c a x) (y >>= k) Q :=
  alone_skip (fun _ _ hk h => h.of_keeps hk) hy hk

theorem accounts_skip {y : M α} {k : α → M β} (hy : y.Each (Keeps offAccounts r))
    (hk : ∀ z, RunsAlone r q (Accounts db) (k z) Q) :
    RunsAlone r q (Accounts db) (y >>= k) Q :=
  alone_skip (fun _ _ hk h => h.of_keeps hk) hy hk

theorem thisSession_holds {k : Nat → M β} (hc : ctx.conn = c)
    (hk : RunsAlone r q (Holds db c a x) (k a) Q) :
    RunsAlone r q (Holds db c a x) (thisSession ctx >>= k) Q := by
  refine Triple.bind (triple_thisSession fun _ _ _ => trivial) fun b => ?_
  refine .conseq (L := fun s => b = a ∧ Holds db c a x s) (.pure fun hb => hb ▸ hk) ?_
    (fun _ _ _ h => h) fun _ _ h => h
  intro s _ h
  have hsession := h.1
  rw [hc, h.2.session] at hsession
  exact ⟨(Option.some.inj hsession).symm, h.2⟩

theorem getSession_holds {k : ClientSession → M β}
    (hk : RunsAlone r q (Holds db c a x) (k x) Q) :
    RunsAlone r q (Holds db c a x) (getSession a >>= k) Q := by
  refine Triple.bind (triple_getSession a) fun y => ?_
  refine .conseq (L := fun s => y = x ∧ Holds db c a x s) (.pure fun hy => hy ▸ hk) ?_
    (fun _ _ _ h => h) fun _ _ h => h
  exact fun s _ h => ⟨h.1.trans h.2.object, h.2⟩

theorem thisUser_holds {u : CmallUser} {k : CmallUser → M β} (hu : x.userInfo = some u)
    (hk : RunsAlone r q (Holds db c a x) (k u) Q) :
    RunsAlone r q (Holds db c a x) (thisUser a >>= k) Q := by
  refine Triple.bind (triple_thisUser a fun _ _ _ => trivial) fun v => ?_
  refine .conseq (L := fun s => v = u ∧ Holds db c a x s) (.pure fun hv => hv ▸ hk) ?_
    (fun _ _ _ h => h) fun _ _ h => h
  intro s _ h
  have huser := h.1
  rw [h.2.object, hu] at huser
  exact ⟨(Option.some.inj huser).symm, h.2⟩

theorem modifySession_holds {f : ClientSession → ClientSession} {k : Unit → M β}
    (hk : RunsAlone r q (Holds db c a (f x)) (k ()) Q) :
    RunsAlone r q (Holds db c a x) (modifySession a f >>= k) Q := by
  refine Triple.bind (Q := fun _ => Holds db c a (f x)) (.modify fun s _ h => ?_) fun _ => hk
  refine ⟨solo_guar fun h => h, ?_, h.session, by simp [Mem.setSession, h.object]⟩
  exact ⟨h.accounts.users, h.accounts.seq, h.accounts.merchants, h.accounts.administrators⟩

/-- A look-up in the tables of the accounts. -/
theorem asyncLoad_holds {f : Db → α} {after : α → Spot} {k : α → M β}
    (hf : ∀ s, Holds db c a x s → f s.db = f db)
    (hk : RunsAlone r q (Holds db c a x) (k (f db)) Q) :
    RunsAlone r q (Holds db c a x) (asyncLoad ctx f after >>= k) Q := by
  refine Triple.bind (triple_asyncLoad (fun found s => found = f db ∧ Holds db c a x s)
    solo_stable (fun _ => solo_stable) (fun _ _ _ => trivial) (fun s _ h => ⟨hf s h, h⟩)
    fun _ _ _ _ h _ => h) fun found => ?_
  exact .pure fun hfound => hfound ▸ hk

theorem Accounts.findMerchant {s : Mem} (h : Accounts db s) (uid : Nat) :
    s.db.findMerchant uid = db.findMerchant uid := by
  rw [Db.findMerchant, Db.findMerchant, h.merchants]

theorem Accounts.findUser {s : Mem} (h : Accounts db s) (uid : Nat) :
    s.db.findUser uid = db.findUser uid := by
  rw [Db.findUser, Db.findUser, h.users]

theorem Accounts.findAdministrators {s : Mem} (h : Accounts db s) (uid : Nat) :
    s.db.findAdministrators uid = db.findAdministrators uid := by
  have huser : s.db.findUser = db.findUser := funext h.findUser
  rw [Db.findAdministrators, Db.findAdministrators, h.administrators, huser]

/-! ## Recovery -/

/-- The user of the session is loaded again. -/
theorem reloadUser_holds {u : CmallUser} {uid : Nat} {after : Bool → Spot} {k : Bool → M β}
    (hu : x.userInfo = some u)
    (hfound : ∀ row, db.findUser uid = some row →
      RunsAlone r q (Holds db c a { x with userInfo := some row }) (k true) Q)
    (hnone : db.findUser uid = none → RunsAlone r q (Holds db c a x) (k false) Q) :
    RunsAlone r q (Holds db c a x) (reloadUser ctx a uid after >>= k) Q := by
  cases huid : db.findUser uid with
  | none =>
    refine Triple.bind (Q := fun ok s => ok = false ∧ Holds db c a x s) ?_ fun ok =>
      .pure fun hok => hok ▸ hnone huid
    refine triple_tx (fun ok s => ok = false ∧ Holds db c a x s) solo_stable (fun _ => solo_stable)
      (fun _ _ _ => trivial) (fun i s _ h _ => ?_) fun _ _ _ _ h _ => h
    simp only [h.accounts.findUser uid, huid]
    refine ⟨solo_guar fun h => h, fun _ => h, ?_⟩
    rintro ok ⟨⟩
    exact ⟨rfl, h⟩
  | some row =>
    refine Triple.bind (Q := fun ok s => ok = true ∧ Holds db c a { x with userInfo := some row } s)
      ?_ fun ok => .pure fun hok => hok ▸ hfound row huid
    refine triple_tx (fun ok s => ok = true ∧ Holds db c a { x with userInfo := some row } s)
      solo_stable (fun _ => solo_stable) (fun _ _ _ => trivial) (fun i s _ h _ => ?_)
      fun _ _ _ _ h _ => h
    have hsome : (s.heap a).userInfo.isSome = true := by rw [h.object, hu]; rfl
    simp only [h.accounts.findUser uid, huid, Mem.overwriteUser, hsome, if_true]
    refine ⟨solo_guar fun h => h, fun hnone => (by cases hnone), ?_⟩
    rintro ok ⟨⟩
    refine ⟨rfl, ?_, h.session, by simp [Mem.setSession, h.object]⟩
    exact ⟨h.accounts.users, h.accounts.seq, h.accounts.merchants, h.accounts.administrators⟩

theorem recoverMerchant_holds {uid : Nat} {k : Unit → M β} (hc : ctx.conn = c)
    (hk : RunsAlone r q (Holds db c a (x.withMerchant (db.findMerchant uid))) (k ()) Q) :
    RunsAlone r q (Holds db c a x) (recoverMerchant ctx uid >>= k) Q := by
  simp only [recoverMerchant, Co.bind_assoc]
  refine asyncLoad_holds (fun s h => h.accounts.findMerchant uid) ?_
  cases hm : db.findMerchant uid with
  | none =>
    rw [hm] at hk
    exact hk
  | some m =>
    rw [hm] at hk
    dsimp only
    rw [Co.bind_assoc]
    exact thisSession_holds hc (modifySession_holds hk)

theorem recoverAdmin_holds {uid : Nat} {k : Unit → M β} (hc : ctx.conn = c)
    (hk : RunsAlone r q (Holds db c a (x.withAdmin (db.findAdministrators uid))) (k ()) Q) :
    RunsAlone r q (Holds db c a x) (recoverAdmin ctx uid >>= k) Q := by
  simp only [recoverAdmin, Co.bind_assoc]
  refine asyncLoad_holds (fun s h => h.accounts.findAdministrators uid) ?_
  cases hd : db.findAdministrators uid with
  | none =>
    rw [hd] at hk
    exact hk
  | some d =>
    rw [hd] at hk
    dsimp only
    rw [Co.bind_assoc]
    exact thisSession_holds hc (modifySession_holds hk)

theorem recoverSudo_holds {k : Unit → M β} (hc : ctx.conn = c)
    (hk : RunsAlone r q (Holds db c a (x.withOriginal db)) (k ()) Q) :
    RunsAlone r q (Holds db c a x) (recoverSudo ctx >>= k) Q := by
  simp only [recoverSudo, Co.bind_assoc]
  refine thisSession_holds hc (getSession_holds ?_)
  cases hmode : x.sudoMode with
  | false =>
    have hx : x.withOriginal db = x := by
      unfold ClientSession.withOriginal
      simp [hmode]
    rw [hx] at hk
    exact hk
  | true =>
    cases ho : x.originalUser with
    | none => exact .throw fun _ _ _ => trivial
    | some o =>
      have hx : x.withOriginal db =
          { x with originalUser := some ((db.findAdministrators o.uid).getD {}) } := by
        unfold ClientSession.withOriginal
        simp [hmode, ho]
      rw [hx] at hk
      simp only [if_true, Co.bind_assoc]
      refine asyncLoad_holds (fun s h => h.accounts.findAdministrators o.uid) ?_
      exact thisSession_holds hc (modifySession_holds hk)

@[simp] theorem ClientSession.withMerchant_userInfo (o : Option CmallMerchant) :
    (x.withMerchant o).userInfo = x.userInfo := by
  cases o <;> rfl

@[simp] theorem ClientSession.withAdmin_userInfo (o : Option Administrators) :
    (x.withAdmin o).userInfo = x.userInfo := by
  cases o <;> rfl

@[simp] theorem ClientSession.withOriginal_userInfo :
    (x.withOriginal db).userInfo = x.userInfo := by
  unfold withOriginal
  split <;> rfl

/-- What `load_user_info` leaves. -/
theorem loadUserInfo_holds {u : CmallUser} {k : Unit → M β} (hc : ctx.conn = c)
    (hu : x.userInfo = some u)
    (hk : RunsAlone r q (Holds db c a (x.loaded db u.uid)) (k ()) Q) :
    RunsAlone r q (Holds db c a x) (loadUserInfo ctx >>= k) Q := by
  simp only [loadUserInfo, Co.bind_assoc]
  refine thisSession_holds hc (thisUser_holds hu ?_)
  unfold ClientSession.loaded at hk
  refine reloadUser_holds hu (fun row hrow => ?_) fun hnone => ?_
  · simp only [hrow] at hk
    simp only [not_true_eq_false, if_false, Co.bind_assoc]
    refine thisSession_holds hc (thisUser_holds rfl (recoverMerchant_holds hc ?_))
    refine thisSession_holds hc (thisUser_holds (u := row) (by simp) (recoverAdmin_holds hc ?_))
    refine recoverSudo_holds hc ?_
    exact holds_skip pushActive_each fun _ => hk
  · simp only [hnone] at hk
    simp only [Bool.false_eq_true, not_false_eq_true, if_true, Co.bind_assoc]
    exact thisSession_holds hc (modifySession_holds hk)

/-! ## The role -/

@[simp] theorem ClientSession.withMerchant_isMerchant (o : Option CmallMerchant) :
    (x.withMerchant o).isMerchant = (x.isMerchant || o.isSome) := by
  cases o <;> simp [withMerchant]

@[simp] theorem ClientSession.withAdmin_isMerchant (o : Option Administrators) :
    (x.withAdmin o).isMerchant = x.isMerchant := by
  cases o <;> rfl

@[simp] theorem ClientSession.withOriginal_isMerchant :
    (x.withOriginal db).isMerchant = x.isMerchant := by
  unfold withOriginal
  split <;> rfl

/-- If the user of the session is `uid`, it has the merchant role just when the merchant
row is in state normal. -/
def ClientSession.RightRole (db : Db) (uid : Nat) (x : ClientSession) : Prop :=
  ∀ u, x.userInfo = some u → u.uid = uid → x.isMerchant = (db.normalMerchant uid).isSome

/-- The session of connection `c` has the right role. -/
def Granted (db : Db) (uid c : Nat) (s : Mem) : Prop :=
  ∀ a, (s.conn c).sessionInfo = some a → (s.heap a).RightRole db uid

theorem Holds.granted {uid : Nat} {db' : Db} {s : Mem} (h : Holds db' c a x s)
    (hx : x.RightRole db uid) : Granted db uid c s := by
  intro b hb
  rw [h.session] at hb
  cases hb
  rw [h.object]
  exact hx

theorem rightRole_loggedIn {uid : Nat} {u : CmallUser} (hx : x.isMerchant = false) :
    (x.loggedIn db u).RightRole db uid := by
  intro v hv huid
  simp only [ClientSession.loggedIn, ClientSession.withAdmin_userInfo,
    ClientSession.withMerchant_userInfo, Option.some.injEq] at hv
  subst hv huid
  simp [ClientSession.loggedIn, hx]

/-- The row of a user whose merchant, if there is one, is in state normal. -/
theorem normalMerchant_eq {uid : Nat}
    (hnormal : ∀ m, db.findMerchant uid = some m → m.state = .normal) :
    db.normalMerchant uid = db.findMerchant uid := by
  unfold Db.normalMerchant
  cases hm : db.findMerchant uid with
  | none => rfl
  | some m => simp [Option.filter, hnormal m hm]

theorem rightRole_loaded {uid v : Nat}
    (hnormal : ∀ m, db.findMerchant uid = some m → m.state = .normal)
    (hx : x.isMerchant = false) : (x.loaded db v).RightRole db uid := by
  intro u hu huid
  unfold ClientSession.loaded at hu ⊢
  cases hrow : db.findUser v with
  | none => simp [hrow] at hu
  | some row =>
    have hrowu : row = u := by simpa [hrow] using hu
    subst hrowu huid
    simp [hx, normalMerchant_eq hnormal]

theorem rightRole_tokenSession {uid : Nat} {sessionId : String} {u : CmallUser}
    (hnormal : ∀ m, db.findMerchant uid = some m → m.state = .normal) :
    (tokenSession db sessionId u).RightRole db uid := by
  intro v hv huid
  have huv : u = v := by simpa [tokenSession] using hv
  subst huv huid
  simp [tokenSession, normalMerchant_eq hnormal]

/-! ## Requests -/

/-- An assignment to another member of the connection. -/
theorem setConnection_skip {f : Connection → Connection} {k : Unit → M β} {L : Mem → Prop}
    (hf : ∀ d, (f d).sessionInfo = d.sessionInfo)
    (hL : ∀ s t, t.db = s.db → t.heap = s.heap →
      (∀ d, (t.conn d).sessionInfo = (s.conn d).sessionInfo) → L s → L t)
    (hk : RunsAlone r q L (k ()) Q) : RunsAlone r q L (setConnection ctx f >>= k) Q := by
  refine Triple.bind (Q := fun _ => L) (.modify fun s _ h => ⟨solo_guar fun h => h, ?_⟩) fun _ => hk
  refine hL s _ rfl rfl (fun d => ?_) h
  dsimp only
  split
  · exact hf _
  · rfl

theorem newSession_holds {y : ClientSession} {k : Unit → M β} (hc : ctx.conn = c)
    (hk : ∀ a, RunsAlone r q (Holds db c a y) (k ()) Q) :
    RunsAlone r q (Accounts db) (newSession ctx y >>= k) Q := by
  refine Triple.bind (Q := fun _ s => ∃ a, Holds db c a y s) (.modify fun s _ h => ?_) fun _ =>
    .of_exists hk
  refine ⟨solo_guar fun h => h, s.heapTop, ⟨h.users, h.seq, h.merchants, h.administrators⟩, ?_, ?_⟩
  · simp [hc]
  · simp

/-- A new session of a client without one. -/
theorem allocaSessionid_holds (hc : ctx.conn = c) :
    RunsAlone r q (Accounts db) (allocaSessionid ctx)
      (fun _ s => ∃ a sessionId, Holds db c a { sessionId := sessionId } s) := by
  simp only [allocaSessionid, freshSession, Co.bind_assoc, Co.pure_eq, Co.ret_bind]
  refine accounts_skip (genUuid_each (by simp [offAccounts])) fun sessionId => ?_
  refine newSession_holds hc fun a => ?_
  refine .conseq (.each (saveSession_each (K := offAccounts) (by simp [offAccounts]))
    solo_stable fun s t _ h hk => ⟨solo_guar fun h => h, h.of_keeps hk⟩) (fun _ _ h => h)
    (fun _ s _ h => ⟨a, sessionId, h⟩) fun _ _ _ => trivial

/-- The session that a stored row stands for. -/
theorem restoreSession_holds {sessionid : String} {k : Unit → M β} (hc : ctx.conn = c)
    (hk : ∀ a row, RunsAlone r q (Holds db c a (CmallSession.toSession row sessionid)) (k ()) Q) :
    RunsAlone r q (Accounts db) (restoreSession ctx sessionid >>= k) Q := by
  simp only [restoreSession, loadSession, Co.bind_assoc]
  refine accounts_skip (asyncLoad_each _ _) fun found => ?_
  cases found with
  | none => exact .throw fun _ _ _ => trivial
  | some row => exact newSession_holds hc fun a => hk a row

/-- Before a request: the session of the connection, if there is one, has no role. -/
structure NoRole (db : Db) (c : Nat) (s : Mem) : Prop where
  accounts : Accounts db s
  session : ∀ a, (s.conn c).sessionInfo = some a → (s.heap a).isMerchant = false

/-- The session of the connection, if there is one, has no user. -/
structure NoUser (db : Db) (c : Nat) (s : Mem) : Prop where
  accounts : Accounts db s
  session : ∀ a, (s.conn c).sessionInfo = some a → (s.heap a).userInfo = none

variable {uid : Nat}

theorem NoUser.granted {s : Mem} (h : NoUser db c s) : Granted db uid c s := by
  intro a ha u hu
  rw [h.session a ha] at hu
  cases hu

theorem Accounts.of_db {s t : Mem} (h : Accounts db s) (hdb : t.db = s.db) : Accounts db t :=
  ⟨hdb ▸ h.users, hdb ▸ h.seq, hdb ▸ h.merchants, hdb ▸ h.administrators⟩

theorem NoUser.of_same {s t : Mem} (h : NoUser db c s) (hdb : t.db = s.db) (hheap : t.heap = s.heap)
    (hconn : ∀ d, (t.conn d).sessionInfo = (s.conn d).sessionInfo) : NoUser db c t := by
  refine ⟨h.accounts.of_db hdb, fun a ha => ?_⟩
  rw [hheap]
  exact h.session a (hconn c ▸ ha)

theorem NoRole.of_same {s t : Mem} (h : NoRole db c s) (hdb : t.db = s.db) (hheap : t.heap = s.heap)
    (hconn : ∀ d, (t.conn d).sessionInfo = (s.conn d).sessionInfo) : NoRole db c t := by
  refine ⟨h.accounts.of_db hdb, fun a ha => ?_⟩
  rw [hheap]
  exact h.session a (hconn c ▸ ha)

theorem NoUser.of_keeps {s t : Mem} (h : NoUser db c s) (hk : Keeps offAccounts r s t) :
    NoUser db c t := by
  refine ⟨h.accounts.of_keeps hk, fun a ha => ?_⟩
  rw [hk.conn (by simp [offAccounts])] at ha
  rw [(hk.heap (by simp [offAccounts])).1]
  exact h.session a ha

theorem NoRole.holds {s : Mem} (h : NoRole db c s) (ha : (s.conn c).sessionInfo = some a) :
    ∃ x, x.isMerchant = false ∧ Holds db c a x s :=
  ⟨s.heap a, h.session a ha, h.accounts, ha, rfl⟩

theorem thisSession_noRole {k : Nat → M β} (hc : ctx.conn = c)
    (hk : ∀ a x, x.isMerchant = false → RunsAlone r q (Holds db c a x) (k a) Q) :
    RunsAlone r q (NoRole db c) (thisSession ctx >>= k) Q := by
  refine Triple.bind (triple_thisSession fun _ _ _ => trivial) fun a => ?_
  refine .conseq (L := fun s => ∃ x, x.isMerchant = false ∧ Holds db c a x s)
    (.of_exists fun x => .pure fun hx => hk a x hx) ?_ (fun _ _ _ h => h) fun _ _ h => h
  exact fun s _ h => h.2.holds (hc ▸ h.1)

section Recover

variable (hnormal : ∀ m, db.findMerchant uid = some m → m.state = .normal)
include hnormal

theorem recoverBySessionid_granted (hc : ctx.conn = c) (sessionid : String) :
    RunsAlone r q (NoRole db c) (recoverBySessionid ctx sessionid)
      (fun _ => Granted db uid c) := by
  have hreply : ∀ {a : Nat} {y : ClientSession}, y.RightRole db uid →
      RunsAlone r q (Holds db c a y) (do
        let b ← thisSession ctx
        let z ← getSession b
        pure (Reply.session z.sessionId z.isAdmin z.isMerchant z.userInfo.isSome z.sudoMode))
        (fun _ => Granted db uid c) :=
    fun hy => thisSession_holds hc (getSession_holds (.ret fun s _ h => h.granted hy))
  have htail : ∀ (a : Nat) (y : ClientSession), y.isMerchant = false →
      RunsAlone r q (Holds db c a y) (do
        let z ← getSession a
        if z.userInfo.isSome = true then do
          loadUserInfo ctx
          let b ← thisSession ctx
          let z ← getSession b
          pure (Reply.session z.sessionId z.isAdmin z.isMerchant z.userInfo.isSome z.sudoMode)
        else do
          let b ← thisSession ctx
          let z ← getSession b
          pure (Reply.session z.sessionId z.isAdmin z.isMerchant z.userInfo.isSome z.sudoMode))
        (fun _ => Granted db uid c) := by
    intro a y hy
    refine getSession_holds ?_
    cases hu : y.userInfo with
    | none => exact hreply fun u hsome => by simp [hu] at hsome
    | some u => exact loadUserInfo_holds hc hu (hreply (rightRole_loaded hnormal hy))
  have hnew : ∀ {y : M Reply}, RunsAlone r q (Accounts db) y (fun _ => Granted db uid c) →
      RunsAlone r q (NoRole db c) y (fun _ => Granted db uid c) :=
    fun hy => .conseq hy (fun _ _ h => h.accounts) (fun _ _ _ h => h) fun _ _ h => h
  have halloca := Triple.bind
    (allocaSessionid_holds hc : RunsAlone r q (Accounts db) (allocaSessionid ctx) _) fun _ =>
    .of_exists fun a => .of_exists fun sessionId =>
      thisSession_holds hc (htail a { sessionId := sessionId } rfl)
  simp only [recoverBySessionid]
  refine Triple.bind (Q := fun _ => NoRole db c) (.get fun _ _ h => h) fun m => ?_
  split
  · refine hnew ?_
    split
    · exact halloca
    · refine accounts_skip (sessionExists_each _) fun found => ?_
      split
      · exact halloca
      · refine restoreSession_holds hc fun a row => ?_
        refine holds_skip (updateLifetime_each _ (by simp [offAccounts])) fun _ => ?_
        exact thisSession_holds hc (htail a _ rfl)
  · exact thisSession_noRole hc htail

theorem recoverByApiToken_granted (hc : ctx.conn = c) (hr : ctx.req = r) (apiToken : String) :
    RunsAlone r q (NoUser db c) (recoverByApiToken ctx apiToken)
      (fun _ => Granted db uid c) := by
  subst hr
  simp only [recoverByApiToken, freshSession, Co.bind_assoc, Co.pure_eq, Co.ret_bind]
  refine alone_skip (fun _ _ hk h => h.of_keeps hk) (apiTokenUid_each _) fun tokenUid => ?_
  refine Triple.bind (triple_asyncLoad (fun found s => found = db.findUser tokenUid ∧ NoUser db c s)
    solo_stable (fun _ => solo_stable) (fun _ _ _ => trivial)
    (fun s _ h => ⟨h.accounts.findUser tokenUid, h⟩)
    fun _ _ _ _ h _ => h) fun found => .pure fun hfound => ?_
  cases found with
  | none => exact .ret fun _ _ h => h.granted
  | some user =>
    have huser : user.uid = tokenUid := Db.findUser_uid hfound.symm
    subst huser
    refine .conseq (L := Accounts db) ?_ (fun _ _ h => h.accounts) (fun _ _ _ h => h) fun _ _ h => h
    refine accounts_skip (genUuid_each (by simp [offAccounts])) fun sessionId => ?_
    refine newSession_holds hc fun a => thisSession_holds hc ?_
    refine holds_skip (emit_each (by simp [Event.part, offAccounts]) rfl) fun _ => ?_
    refine recoverMerchant_holds hc (recoverAdmin_holds hc ?_)
    refine thisSession_holds hc (getSession_holds (.ret fun s _ h => h.granted ?_))
    exact rightRole_tokenSession hnormal

theorem recoverSession_granted (hc : ctx.conn = c) (hr : ctx.req = r) (params : JsonObject) :
    RunsAlone r q
      (fun s => NoRole db c s ∧ (Json.getString params "api-token" ≠ "" → NoUser db c s))
      (recoverSession ctx params) (fun _ => Granted db uid c) := by
  simp only [recoverSession]
  refine setConnection_skip (fun _ => rfl) (fun s t hdb hheap hconn h => ?_) ?_
  · exact ⟨h.1.of_same hdb hheap hconn, fun htoken => (h.2 htoken).of_same hdb hheap hconn⟩
  · split
    · exact .conseq (recoverBySessionid_granted hnormal hc _) (fun _ _ h => h.1)
        (fun _ _ _ h => h) fun _ _ h => h
    · rename_i htoken
      exact .conseq (recoverByApiToken_granted hnormal hc hr _) (fun _ _ h => h.2 htoken)
        (fun _ _ _ h => h) fun _ _ h => h

theorem recoverByCookie_granted (hc : ctx.conn = c) (cookies : List String) :
    RunsAlone r q (NoUser db c) (recoverByCookie ctx cookies)
      (fun _ s => Granted db uid c s ∧ ((s.conn c).sessionInfo = none → Accounts db s)) := by
  induction cookies with
  | nil => exact .ret fun s _ h => ⟨h.granted, fun _ => h.accounts⟩
  | cons sessionid rest ih =>
    have htouch : ∀ {a : Nat} {y : ClientSession}, y.RightRole db uid →
        RunsAlone r q (Holds db c a y) (updateLifetime ctx sessionid)
          (fun _ s => Granted db uid c s ∧ ((s.conn c).sessionInfo = none → Accounts db s)) := by
      intro a y hy
      refine .conseq (.each (updateLifetime_each (K := offAccounts) (r := r) _ (by simp [offAccounts]))
        solo_stable fun s t _ h hk => ⟨solo_guar fun h => h, h.of_keeps hk⟩) (fun _ _ h => h)
        (fun _ s _ h => ⟨h.granted hy, fun _ => h.accounts⟩) fun _ _ _ => trivial
    simp only [recoverByCookie]
    split
    · exact ih
    · refine alone_skip (fun _ _ hk h => h.of_keeps hk) (sessionExists_each _) fun found => ?_
      split
      · refine .conseq (L := Accounts db) ?_ (fun _ _ h => h.accounts) (fun _ _ _ h => h)
          fun _ _ h => h
        refine restoreSession_holds hc fun a row => thisSession_holds hc (getSession_holds ?_)
        cases hu : (row.toSession sessionid).userInfo with
        | none => exact htouch fun u hsome => by simp [hu] at hsome
        | some u => exact loadUserInfo_holds hc hu (htouch (rightRole_loaded hnormal rfl))
      · exact ih

theorem clientConnected_granted (hc : ctx.conn = c) (ip : String) (cookies : List String)
    (alloca : Bool) :
    RunsAlone r q (NoUser db c) (clientConnected ctx ip cookies alloca)
      (fun _ => Granted db uid c) := by
  have hrest : RunsAlone r q
      (fun s => Granted db uid c s ∧ ((s.conn c).sessionInfo = none → Accounts db s))
      (do
        let m ← Co.get
        if alloca = true ∧ (m.conn ctx.conn).sessionInfo = none then allocaSessionid ctx else pure ())
      (fun _ => Granted db uid c) := by
    refine Triple.bind (Q := fun m s => m = s ∧ Granted db uid c s ∧
      ((s.conn c).sessionInfo = none → Accounts db s)) (.get fun _ _ h => ⟨rfl, h⟩) fun m => ?_
    split
    · rename_i halloca
      refine .conseq (allocaSessionid_holds hc) (fun s _ h => h.2.2 (h.1 ▸ hc ▸ halloca.2)) ?_
        fun _ _ h => h
      rintro _ s - ⟨a, sessionId, h⟩
      exact h.granted fun u hu => by cases hu
    · exact .ret fun _ _ h => h.2.1
  simp only [clientConnected]
  refine setConnection_skip (fun _ => rfl) (fun s t hdb hheap hconn h => h.of_same hdb hheap hconn) ?_
  refine Triple.bind (Q := fun _ => NoUser db c) (.get fun _ _ h => h) fun m => ?_
  split
  · exact Triple.bind (recoverByCookie_granted hnormal hc cookies) fun _ => hrest
  · exact .conseq hrest (fun _ _ h => ⟨h.granted, fun _ => h.accounts⟩) (fun _ _ _ h => h)
      fun _ _ h => h

end Recover

/-! ## Logins -/

theorem loginMerchant_holds {v : Nat} {k : Unit → M β}
    (hk : RunsAlone r q (Holds db c a (x.withMerchant (db.normalMerchant v))) (k ()) Q) :
    RunsAlone r q (Holds db c a x) (loginMerchant ctx a v >>= k) Q := by
  simp only [loginMerchant, Co.bind_assoc]
  refine asyncLoad_holds (fun s h => h.accounts.findMerchant v) ?_
  unfold Db.normalMerchant at hk
  cases hm : db.findMerchant v with
  | none =>
    rw [hm] at hk
    exact hk
  | some m =>
    rw [hm] at hk
    dsimp only
    split
    · rename_i hstate
      simp only [Option.filter, hstate, decide_true, if_true] at hk
      exact modifySession_holds hk
    · rename_i hstate
      simp only [Option.filter, hstate, decide_false] at hk
      exact hk

theorem loginAdmin_holds {v : Nat} {k : Unit → M β}
    (hk : RunsAlone r q (Holds db c a (x.withAdmin (db.findAdministrators v))) (k ()) Q) :
    RunsAlone r q (Holds db c a x) (loginAdmin ctx a v >>= k) Q := by
  simp only [loginAdmin, Co.bind_assoc]
  refine asyncLoad_holds (fun s h => h.accounts.findAdministrators v) ?_
  cases hd : db.findAdministrators v with
  | none =>
    rw [hd] at hk
    exact hk
  | some d =>
    rw [hd] at hk
    exact modifySession_holds hk

/-- A new user has the next uid of the sequence. -/
theorem addUser_holds {u : CmallUser} {k : CmallUser → M β}
    (hk : ∀ db' v, v.uid = db.seq.user + 1 → RunsAlone r q (Holds db' c a x) (k v) Q) :
    RunsAlone r q (Holds db c a x) (addUser ctx u >>= k) Q := by
  refine Triple.bind (Q := fun v s => v.uid = db.seq.user + 1 ∧ ∃ db', Holds db' c a x s) ?_
    fun v => .pure fun hv => .of_exists fun db' => hk db' v hv
  refine triple_tx (fun v s => v.uid = db.seq.user + 1 ∧ ∃ db', Holds db' c a x s) solo_stable
    (fun _ => solo_stable) (fun _ _ _ => trivial) (fun i s _ h _ => ?_) fun _ _ _ _ h _ => h
  refine ⟨solo_guar fun h => h, fun hnone => (by cases hnone), ?_⟩
  rintro v ⟨⟩
  refine ⟨congrArg (· + 1) h.accounts.seq, (s.db.persistUser u).2, ⟨rfl, rfl, rfl, rfl⟩, ?_, ?_⟩
  · exact h.session
  · exact h.object

theorem handleUserLogin_granted {tel : String} (hc : ctx.conn = c) (hr : ctx.req = r)
    (huid : uid ≤ db.seq.user) (hx : x.isMerchant = false) :
    RunsAlone r q (Holds db c a x) (handleUserLogin ctx a tel) (fun _ => Granted db uid c) := by
  subst hr
  have htail : ∀ {db' : Db} {y : ClientSession}, y.RightRole db uid →
      RunsAlone ctx.req q (Holds db' c a y) (do
        modifySession a fun c => { c with verifySessionCookie := none }
        saveSession ctx
        let c ← getSession a
        pushActive ctx
        pure (Reply.login c.isMerchant c.isAdmin c.sudoMode)) (fun _ => Granted db uid c) := by
    intro db' y hy
    refine modifySession_holds (holds_skip (saveSession_each (by simp [offAccounts])) fun _ => ?_)
    refine getSession_holds (holds_skip pushActive_each fun _ => .ret fun s _ h => h.granted ?_)
    exact hy
  simp only [handleUserLogin, loginNewUser, Co.bind_assoc]
  refine holds_skip (loadUserByPhone_each _ _ (by simp [offAccounts])) fun found => ?_
  cases found with
  | none =>
    refine thisSession_holds hc (getSession_holds (holds_skip localTime_each fun now => ?_))
    refine addUser_holds fun db' v hv => thisSession_holds hc (modifySession_holds ?_)
    refine holds_skip (emit_each (by simp [Event.part, offAccounts]) rfl) fun _ => ?_
    refine holds_skip (became_each _ _ (by simp [offAccounts])) fun _ => ?_
    refine holds_skip (callCheckAdmin_each _) fun _ => htail fun u hu huid' => ?_
    simp only [Option.some.injEq] at hu
    subst hu
    omega
  | some user =>
    refine modifySession_holds ?_
    refine holds_skip (emit_each (by simp [Event.part, offAccounts]) rfl) fun _ => ?_
    refine holds_skip (became_each _ _ (by simp [offAccounts])) fun _ => ?_
    exact loginMerchant_holds (loginAdmin_holds (htail (rightRole_loggedIn hx)))

theorem userLogin_granted {params : JsonObject} (hc : ctx.conn = c) (hr : ctx.req = r)
    (huid : uid ≤ db.seq.user) (hx : x.isMerchant = false) :
    RunsAlone r q (Holds db c a x) (userLogin ctx a params) (fun _ => Granted db uid c) := by
  subst hr
  simp only [userLogin]
  refine getSession_holds ?_
  split
  · refine holds_skip (verifyVerifyCode_each _ _) fun ok => ?_
    split
    · refine holds_skip (emit_each (by simp [Event.part, offAccounts]) rfl) fun _ => ?_
      exact getSession_holds (handleUserLogin_granted hc rfl huid hx)
    · exact .throw fun _ _ _ => trivial
  · exact .throw fun _ _ _ => trivial

theorem userFastlogin_granted (hc : ctx.conn = c) (hr : ctx.req = r) (huid : uid ≤ db.seq.user)
    (hx : x.isMerchant = false) :
    RunsAlone r q (Holds db c a x) (userFastlogin ctx a) (fun _ => Granted db uid c) := by
  subst hr
  simp only [userFastlogin]
  refine holds_skip external_each fun realphone => ?_
  split
  · exact .throw fun _ _ _ => trivial
  · exact modifySession_holds (getSession_holds (handleUserLogin_granted hc rfl huid hx))

end Handlers

/-- The ways into a session of connection `c`, from a session without the role: the two
logins, `recover_session` (with an api token, in a session without a user), and the
cookies of a new connection. -/
def EntryPath (s : Mem) (c : Nat) : Request → Prop
  | .jsonrpc d method params =>
    d = c ∧ (∀ a, (s.conn c).sessionInfo = some a → (s.heap a).isMerchant = false) ∧
      (method = .userLogin ∨ method = .userFastlogin ∨ method = .recoverSession ∧
        (Json.getString params "api-token" ≠ "" →
          ∀ a, (s.conn c).sessionInfo = some a → (s.heap a).userInfo = none))
  | .connect d _ _ _ => d = c ∧ (s.conn c).sessionInfo = none
  | _ => False

section Entry

variable {cfg : Config} {c uid r : Nat} {q : Request} {s : Mem}

theorem serve_granted (hnormal : ∀ m, s.db.findMerchant uid = some m → m.state = .normal)
    (huid : uid ≤ s.db.seq.user) (hq : EntryPath s c q) :
    RunsAlone r q (fun t => t = s) (serve cfg ⟨q.conn, r⟩ q) (fun _ => Granted s.db uid c) := by
  have hself : Accounts s.db s := ⟨rfl, rfl, rfl, rfl⟩
  cases q with
  | jsonrpc d method params =>
    obtain ⟨rfl, hrole, hmethod⟩ := hq
    refine Triple.bind (Q := fun _ => Granted s.db uid d)
      (triple_handleJsonrpcCall (fun _ _ _ => trivial) ?_)
      fun reply => .modify fun t _ h => ⟨solo_guar fun h => h, h⟩
    have hnoRole : NoRole s.db d s := ⟨hself, hrole⟩
    rcases hmethod with rfl | rfl | ⟨rfl, htoken⟩
    · refine .conseq (L := NoRole s.db d) ?_ (fun t _ h => h ▸ hnoRole) (fun _ _ _ h => h)
        fun _ _ h => h
      exact thisSession_noRole rfl fun a x hx => userLogin_granted rfl rfl huid hx
    · refine .conseq (L := NoRole s.db d) ?_ (fun t _ h => h ▸ hnoRole) (fun _ _ _ h => h)
        fun _ _ h => h
      exact thisSession_noRole rfl fun a x hx => userFastlogin_granted rfl rfl huid hx
    · have hrecover : RunsAlone r (.jsonrpc d .recoverSession params)
          (fun t => NoRole s.db d t ∧ (Json.getString params "api-token" ≠ "" → NoUser s.db d t))
          (recoverSession ⟨d, r⟩ params) (fun _ => Granted s.db uid d) :=
        recoverSession_granted hnormal (by rfl) (by rfl) params
      refine .conseq hrecover ?_ (fun _ _ _ h => h) fun _ _ h => h
      rintro t - rfl
      exact ⟨hnoRole, fun h => ⟨hself, htoken h⟩⟩
  | connect d ip cookies alloca =>
    obtain ⟨rfl, hnone⟩ := hq
    refine .conseq (clientConnected_granted hnormal rfl ip cookies alloca) ?_ (fun _ _ _ h => h)
      fun _ _ h => h
    rintro t - rfl
    refine ⟨hself, fun a ha => ?_⟩
    cases hnone.symm.trans ha
  | _ => exact hq.elim

/-- A recovery of the session of a user with a merchant row. -/
def recovering (db : Db) (uid : Nat) : Mem where
  db := db
  heapTop := 1
  heap _ := { userInfo := some { uid := uid } }
  conn _ := { sessionInfo := some 0 }

/-- It gives the role whatever the state of the row is. -/
theorem recovering_turn (cfg : Config) {db : Db} {u : CmallUser} {m : CmallMerchant}
    (hu : db.findUser uid = some u) (hm : db.findMerchant uid = some m) :
    let t := (Sys.idle (recovering db uid) : Service).turn (prog cfg)
      (.jsonrpc 0 .recoverSession []) (List.replicate 7 {})
    t.returned 0 = true ∧ (t.mem.conn 0).sessionInfo = some 0 ∧
      (t.mem.heap 0).userInfo = some u ∧ (t.mem.heap 0).isMerchant = true := by
  have huid : u.uid = uid := Db.findUser_uid hu
  intro t
  have ht : t = (Sys.idle (recovering db uid) : Service).turn (prog cfg)
      (.jsonrpc 0 .recoverSession []) (List.replicate 7 {}) := rfl
  rw [Sys.turn_eq] at ht
  cases hd : db.findAdministrators uid with
  | none =>
    rw [ht]
    simp [prog, serve, handleJsonrpcCall, ReqMethod.api, recoverSession, recoverBySessionid,
      setConnection, Json.getString, Json.at?, thisSession, getSession, loadUserInfo, thisUser,
      reloadUser, recoverMerchant, recoverAdmin, recoverSudo, pushActive, asyncLoad, tx, emit,
      modifySession, Mem.setSession, Mem.overwriteUser, recovering, Co.suspend, Co.get, Co.modify,
      Co.modifyGet, Co.feed, Co.resume, Co.advance, Request.conn, Sys.idle, Sys.returned,
      Co.returned, List.replicate, hu, hm, hd, huid]
  | some d =>
    rw [ht]
    simp [prog, serve, handleJsonrpcCall, ReqMethod.api, recoverSession, recoverBySessionid,
      setConnection, Json.getString, Json.at?, thisSession, getSession, loadUserInfo, thisUser,
      reloadUser, recoverMerchant, recoverAdmin, recoverSudo, pushActive, asyncLoad, tx, emit,
      modifySession, Mem.setSession, Mem.overwriteUser, recovering, Co.suspend, Co.get, Co.modify,
      Co.modifyGet, Co.feed, Co.resume, Co.advance, Request.conn, Sys.idle, Sys.returned,
      Co.returned, List.replicate, hu, hm, hd, huid]

end Entry

/-- Let `uid` be a user of the database. Every way into a session of `uid` that runs from
its beginning to its end grants the merchant role just when the merchant row is there in
state normal, if and only if the row, if it is there, is in state normal. -/
theorem entries_grant_same_role_iff (cfg : Config) (db : Db) (uid : Nat) (u : CmallUser)
    (hu : db.findUser uid = some u) (hseq : ∀ v ∈ db.users, v.uid ≤ db.seq.user) :
    (∀ (s : Service) (c : Nat) (q : Request) (is : List Input), s.mem.db = db →
      EntryPath s.mem c q → (s.turn (prog cfg) q is).returned s.procs.length = true →
      ∀ a v, ((s.turn (prog cfg) q is).mem.conn c).sessionInfo = some a →
        ((s.turn (prog cfg) q is).mem.heap a).userInfo = some v → v.uid = uid →
        (((s.turn (prog cfg) q is).mem.heap a).isMerchant = true ↔
          ∃ m, db.findMerchant uid = some m ∧ m.state = .normal)) ↔
    ∀ m, db.findMerchant uid = some m → m.state = .normal := by
  constructor
  · intro h m hm
    obtain ⟨hret, hconn, huser, hrole⟩ := recovering_turn cfg hu hm
    have hentry : EntryPath (recovering db uid) 0 (.jsonrpc 0 .recoverSession []) :=
      ⟨rfl, fun _ _ => rfl, .inr (.inr ⟨rfl, fun htoken => absurd rfl htoken⟩)⟩
    obtain ⟨m', hm', hstate⟩ := (h (Sys.idle (recovering db uid)) 0 _ _ rfl hentry hret 0 u hconn
      huser (Db.findUser_uid hu)).mp hrole
    cases hm.symm.trans hm'
    exact hstate
  · rintro hnormal s c q is rfl hq hret a v hconn hv huid
    have hle : uid ≤ s.mem.db.seq.user := Db.findUser_uid hu ▸ hseq u (Table.mem_of_find hu)
    have halone : Alone s.procs.length q (fun _ => True) (fun _ => Granted s.mem.db uid c)
        (fun _ => True) (prog cfg s.procs.length q) s.mem :=
      alone_of_triple (fun _ => serve_granted hnormal hle hq) trivial rfl
    obtain ⟨-, hgranted⟩ := (turn_alone is halone).2 hret
    have hrole := hgranted a hconn v hv huid
    rw [hrole, normalMerchant_eq hnormal]
    constructor
    · intro hsome
      obtain ⟨m, hm⟩ := Option.isSome_iff_exists.mp hsome
      exact ⟨m, hm, hnormal m hm⟩
    · rintro ⟨m, hm, -⟩
      rw [hm]
      rfl

/-! ## A merchant who was disabled -/

/-- Merchant 1 has a stored session; connection 0 is that of administrator 9. -/
def storedMerchant : Mem where
  db :=
    { users := [{ uid := 1 }, { uid := 9 }]
      merchants := [{ uid := 1 }]
      administrators := [⟨9, some 9⟩]
      sessions := [⟨"S", some 1, ⟨some 1, "", "", false, none⟩, none, 0, 0⟩]
      seq := { user := 9 } }
  heapTop := 1
  heap _ := { userInfo := some { uid := 9 }, adminInfo := some ⟨9, some { uid := 9 }⟩, isAdmin := true }
  conn c := if c = 0 then { sessionInfo := some 0 } else {}

/-- Merchant 1 comes back with its cookie and has the role, as its row is in state normal. -/
theorem entries_grant_same_role_iff_normal :
    let t := (Sys.idle storedMerchant : Service).turn (prog bareConfig) (.connect 1 "" ["S"] false)
      (List.replicate 15 {})
    (t.mem.heap 1).isMerchant = true ↔
      ∃ m, storedMerchant.db.findMerchant 1 = some m ∧ m.state = .normal :=
  (entries_grant_same_role_iff bareConfig storedMerchant.db 1 { uid := 1 } (by decide)
    (by decide)).mpr (fun m hm => by cases hm; rfl) (Sys.idle storedMerchant) 1
    (.connect 1 "" ["S"] false) _ rfl ⟨rfl, rfl⟩ (by decide) 1 { uid := 1 } (by decide) (by decide) rfl

/-- Merchant 1 is disabled, comes back with its cookie and has the role again. -/
theorem disabled_merchant_comes_back :
    let s := (Sys.idle storedMerchant : Service).turns (prog bareConfig)
      [(.jsonrpc 0 .adminDisableMerchants [("merchants", .array [.int64 1])], List.replicate 3 {}),
        (.connect 1 "" ["S"] false, List.replicate 15 {}),
        (.jsonrpc 1 .merchantInfo [], List.replicate 3 {})]
    s.mem.db.merchants = [{ uid := 1, state := .disabled }] ∧
      (s.mem.conn 1).sessionInfo = some 1 ∧ (s.mem.heap 1).userInfo = some { uid := 1 } ∧
      (s.mem.heap 1).isMerchant = true ∧
      .replied 2 (.merchant { uid := 1, state := .disabled }) ∈ s.mem.trace := by
  decide

end Cmall
