import Cmall.Safety.PhoneVerification

/-!
Coherence of the roles of a session with its user.

The roles `isMerchant` and `isAdmin` are flags beside the rows they were loaded
from, and a login or a recovery only ever switches them on. They agree with the
user of the session in every run in which a session changes its user only with the
roles off, and a row that was loaded for a user is written only into a session of
that user.
-/

namespace Cmall
open Coroutine Protocol

/-- The roles of the session belong to its user. -/
structure ClientSession.Coherent (c : ClientSession) : Prop where
  merchant : c.isMerchant = true →
    ∃ u m, c.userInfo = some u ∧ c.merchantInfo = some m ∧ m.uid = u.uid
  admin : c.isAdmin = true →
    ∃ u d, c.userInfo = some u ∧ c.adminInfo = some d ∧ d.uid = u.uid

def RolesCoherent (s : Mem) : Prop := ∀ a, (s.heap a).Coherent

/-! ## The condition -/

/-- The uid of the session's user. -/
def ClientSession.uid (c : ClientSession) : Option Nat := c.userInfo.map CmallUser.uid

def ClientSession.noRoles (c : ClientSession) : Bool := !c.isMerchant && !c.isAdmin

/-- The original user of a sudo session: his administrators row and his user row
have the same uid, the one given. -/
def ClientSession.cancelsTo (c : ClientSession) (uid : Nat) : Bool :=
  match c.originalUser with
  | some ⟨adminUid, some u⟩ => adminUid = uid && u.uid = uid
  | _ => false

/-- What a step that writes a user or a role into a session needs of it. -/
def Spot.fits (spot : Spot) (c : ClientSession) : Bool :=
  match spot with
  | .lookedUp _ _ (some u) => c.noRoles || c.uid = some u.uid
  | .addedUser => c.noRoles
  | .role _ uid => c.uid = some uid
  | .connRole uid => c.uid = some uid
  | .userVanished => c.noRoles
  | .reload _ uid => c.uid = none || c.uid = some uid
  | .sudoCancel _ uid _ => c.cancelsTo uid
  | _ => true

section Fits

variable (a uid : Nat) (c : ClientSession)

@[simp] theorem Spot.fits_lookedUp (tel : String) (u : CmallUser) :
    (Spot.lookedUp a tel (some u)).fits c = (c.noRoles || c.uid = some u.uid) := rfl

@[simp] theorem Spot.fits_addedUser : Spot.addedUser.fits c = c.noRoles := rfl

@[simp] theorem Spot.fits_role : (Spot.role a uid).fits c = decide (c.uid = some uid) := rfl

@[simp] theorem Spot.fits_connRole : (Spot.connRole uid).fits c = decide (c.uid = some uid) := rfl

@[simp] theorem Spot.fits_userVanished : Spot.userVanished.fits c = c.noRoles := rfl

@[simp] theorem Spot.fits_reload :
    (Spot.reload a uid).fits c = (c.uid = none || c.uid = some uid) := rfl

@[simp] theorem Spot.fits_sudoCancel (found : Option CmallMerchant) :
    (Spot.sudoCancel a uid found).fits c = c.cancelsTo uid := rfl

end Fits

/-- The session a step writes into: the one the handler began with, or the one
the connection refers to now. -/
def Point.session (p : Point) (s : Mem) : Option Nat :=
  match p.spot with
  | .lookedUp a _ _ | .role a _ | .reload a _ | .sudoCancel a _ _ => some a
  | _ => (s.conn p.ctx.conn).sessionInfo

/-- A step writes a user or a role only into a session it fits. -/
def rolesFit (_ : Nat) (_ : Request) (p : Point) (_ : Input) (s : Mem) : Prop :=
  ∀ a ∈ p.session s, p.spot.fits (s.heap a) = true

def roleProtocol : Protocol Request Mem Input Point where
  inv := RolesCoherent
  rely _ _ _ _ := True
  guar _ _ s t := RolesCoherent s → RolesCoherent t
  guard := rolesFit
  permit _ _ := True
  rely_refl _ _ _ := trivial
  rely_trans _ _ _ _ _ _ _ := trivial
  guar_refl _ _ _ := id
  guar_trans _ _ _ _ _ h h' := h' ∘ h
  guar_inv _ _ _ _ h hg := hg h
  guar_rely _ _ _ _ _ _ _ _ _ := trivial

instance (r : Nat) (q : Request) (p : Point) (i : Input) (s : Mem) :
    Decidable (roleProtocol.guard r q p i s) :=
  inferInstanceAs (Decidable (∀ a ∈ p.session s, p.spot.fits (s.heap a) = true))

instance (q : Request) (s : Mem) : Decidable (roleProtocol.permit q s) := .isTrue trivial

/-! ## What keeps a session coherent -/

namespace ClientSession

variable {c : ClientSession}

theorem coherent_of_noRoles (h : c.noRoles = true) : c.Coherent := by
  simp only [noRoles, Bool.and_eq_true, Bool.not_eq_true'] at h
  exact ⟨fun hm => by simp [h.1] at hm, fun ha => by simp [h.2] at ha⟩

theorem Coherent.setUser {u : CmallUser} (h : c.Coherent)
    (hu : c.noRoles = true ∨ c.uid = some u.uid) : Coherent { c with userInfo := some u } := by
  rcases hu with hu | hu
  · exact coherent_of_noRoles hu
  · obtain ⟨v, hv, huid⟩ := Option.map_eq_some_iff.mp hu
    refine ⟨fun hm => ?_, fun ha => ?_⟩
    · obtain ⟨w, m, hw, hm', heq⟩ := h.merchant hm
      cases hv.symm.trans hw
      exact ⟨u, m, rfl, hm', heq.trans huid⟩
    · obtain ⟨w, d, hw, hd, heq⟩ := h.admin ha
      cases hv.symm.trans hw
      exact ⟨u, d, rfl, hd, heq.trans huid⟩

theorem Coherent.setMerchant {m : CmallMerchant} {b : Bool} (h : c.Coherent)
    (hm : c.uid = some m.uid) :
    Coherent { c with merchantInfo := some m, isMerchant := b } := by
  obtain ⟨v, hv, huid⟩ := Option.map_eq_some_iff.mp hm
  exact ⟨fun _ => ⟨v, m, hv, rfl, huid.symm⟩, h.admin⟩

theorem Coherent.setAdmin {d : Administrators} (h : c.Coherent) (hd : c.uid = some d.uid) :
    Coherent { c with adminInfo := some d, isAdmin := true } := by
  obtain ⟨v, hv, huid⟩ := Option.map_eq_some_iff.mp hd
  exact ⟨h.merchant, fun _ => ⟨v, d, hv, rfl, huid.symm⟩⟩

/-- The row of the merchant may change as long as its uid does not. -/
theorem Coherent.mapMerchant {f : CmallMerchant → CmallMerchant} (h : c.Coherent)
    (hf : ∀ m, (f m).uid = m.uid) :
    Coherent { c with merchantInfo := c.merchantInfo.map f } := by
  refine ⟨fun hm => ?_, h.admin⟩
  obtain ⟨u, m, hu, hm', heq⟩ := h.merchant hm
  exact ⟨u, f m, hu, by simp [hm'], (hf m).trans heq⟩

theorem coherent_clear : c.clear.Coherent := coherent_of_noRoles rfl

theorem coherent_sudoTo {u : CmallUser} {m : Option CmallMerchant}
    (h : ∀ x, m = some x → x.uid = u.uid) : (c.sudoTo u m).Coherent := by
  refine ⟨fun hm => ?_, fun ha => by simp [sudoTo] at ha⟩
  obtain ⟨x, hx⟩ := Option.isSome_iff_exists.mp hm
  exact ⟨u, x, rfl, hx, h x hx⟩

theorem coherent_sudoCancel {u : CmallUser} {uid : Nat} {m : Option CmallMerchant}
    (hc : c.cancelsTo uid = true) (hu : c.originalUser.bind Administrators.user = some u)
    (hm : ∀ x, m = some x → x.uid = uid) : (c.sudoCancel u m).Coherent := by
  unfold cancelsTo at hc
  split at hc
  · rename_i adminUid v ho
    simp only [Bool.and_eq_true, decide_eq_true_eq] at hc
    have huv : v = u := by simpa [ho] using hu
    subst huv
    refine ⟨fun h => ?_, fun _ => ⟨v, ⟨adminUid, some v⟩, rfl, ho, hc.1.trans hc.2.symm⟩⟩
    obtain ⟨x, hx⟩ := Option.isSome_iff_exists.mp h
    exact ⟨v, x, rfl, hx, (hm x hx).trans hc.2.symm⟩
  · cases hc

theorem coherent_restored (row : CmallSession) (sessionId : String) :
    (row.toSession sessionId).Coherent := coherent_of_noRoles rfl

end ClientSession

/-! ## Steps -/

section Handlers

variable {r : Nat} {q : Request} {ctx : Ctx} {cfg : Config} {α : Type} {L : Mem → Prop}

/-- Every part of the memory but the sessions. -/
def offHeap : List Part :=
  [.conn, .codes, .uuids, .accounts, .users, .administrators, .apptokens, .merchants, .orders,
    .carts, .favs, .applys, .kvs, .sessions, .indexGoods, .loginEvents, .accountEvents,
    .sudoEvents, .orderEvents, .cartEvents, .otherEvents]

theorem RolesCoherent.of_keeps {K : List Part} {s t : Mem} (h : RolesCoherent s)
    (hk : Keeps K r s t) (hK : .heap ∉ K) : RolesCoherent t := by
  intro a
  rw [(hk.heap hK).1]
  exact h a

theorem RolesCoherent.setSession {s : Mem} {a : Nat} {c : ClientSession} (h : RolesCoherent s)
    (hc : c.Coherent) : RolesCoherent (s.setSession a c) := by
  intro b
  by_cases hb : b = a
  · simpa [Mem.setSession, hb] using hc
  · simpa [Mem.setSession, hb] using h b

/-- The coroutine keeps to the protocol, whatever holds before and after. -/
def RoleSafe (r : Nat) (q : Request) (x : M α) : Prop :=
  roleProtocol.Triple r q (fun _ => True) x (fun _ _ => True) (fun _ => True)

theorem roleSafe_of_each {n : Nat} {x : M α} (hx : x.Each (Keeps offHeap n)) : RoleSafe r q x :=
  .each hx stable_true fun _ _ _ _ hk =>
    ⟨fun hi => hi.of_keeps hk (by simp [offHeap]), trivial⟩

theorem RoleSafe.bind {β : Type} {x : M α} {g : α → M β} (hx : RoleSafe r q x)
    (hg : ∀ a, RoleSafe r q (g a)) : RoleSafe r q (x >>= g) :=
  Triple.bind hx hg

theorem RoleSafe.triple {x : M α} (h : RoleSafe r q x) :
    roleProtocol.Triple r q L x (fun _ _ => True) (fun _ => True) :=
  .conseq h (fun _ _ _ => trivial) (fun _ _ _ h => h) fun _ _ h => h

theorem triple_modifySession {a : Nat} {f : ClientSession → ClientSession}
    (h : ∀ s, L s → (s.heap a).Coherent → (f (s.heap a)).Coherent) :
    roleProtocol.Triple r q L (modifySession a f) (fun _ _ => True) (fun _ => True) :=
  .modify fun s _ hl => ⟨fun hi => hi.setSession (h s hl (hi a)), trivial⟩

theorem modifySession_role {a : Nat} {f : ClientSession → ClientSession}
    (h : ∀ c, c.Coherent → (f c).Coherent) : RoleSafe r q (modifySession a f) :=
  triple_modifySession fun s _ => h (s.heap a)

theorem newSession_role {c : ClientSession} (h : c.Coherent) :
    RoleSafe r q (newSession ctx c) := by
  refine .modify fun s _ _ => ⟨fun hi b => ?_, trivial⟩
  by_cases hb : b = s.heapTop
  · simpa [hb] using h
  · simpa [hb] using hi b

theorem RolesCoherent.overwriteUser {s : Mem} {a : Nat} {row : CmallUser} (h : RolesCoherent s)
    (ha : (s.heap a).uid = none ∨ (s.heap a).uid = some row.uid) :
    RolesCoherent (s.overwriteUser a row) := by
  unfold Mem.overwriteUser
  split
  · rename_i hsome
    rcases ha with ha | ha
    · simp [Option.map_eq_none_iff.mp ha] at hsome
    · exact h.setSession ((h a).setUser (.inr ha))
  · exact h

theorem reloadUser_role (a uid : Nat) (after : Bool → Spot) :
    roleProtocol.Triple r q (fun _ => True) (reloadUser ctx a uid after)
      (fun ok s => ∀ b ∈ (⟨ctx, after ok⟩ : Point).session s, (after ok).fits (s.heap b) = true)
      (fun _ => True) := by
  refine triple_tx (fun _ _ => True) stable_true (fun _ => stable_true) (fun _ _ _ => trivial)
    (fun i s hi _ hg => ⟨?_, fun _ => trivial, fun _ _ => trivial⟩) fun ok _ s _ _ hg => hg
  have hfit : (s.heap a).uid = none ∨ (s.heap a).uid = some uid := by
    simpa using hg a rfl
  split
  · rename_i row hrow
    exact fun h => h.overwriteUser (Db.findUser_uid hrow ▸ hfit)
  · exact id

theorem updateUser_role (a uid : Nat) (f : CmallUser → CmallUser) (hf : ∀ v, (f v).uid = v.uid) :
    RoleSafe r q (updateUser ctx a uid f) := by
  refine triple_tx (fun _ _ => True) stable_true (fun _ => stable_true) (fun _ _ _ => trivial)
    (fun i s hi _ hg => ⟨?_, fun _ => trivial, fun _ _ => trivial⟩) fun _ _ _ _ _ _ => trivial
  have hfit : (s.heap a).uid = none ∨ (s.heap a).uid = some uid := by
    simpa using hg a rfl
  split
  · rename_i row hrow
    exact fun h => h.overwriteUser (((hf row).trans (Db.findUser_uid hrow)) ▸ hfit)
  · exact id

/-! ## Login and recovery -/

/-- A row is loaded for `uid`; it is written only if `spot` allows it. -/
theorem triple_roleLoad {β : Type} (rowUid : β → Nat) {uid : Nat} {spot : Option β → Spot}
    {f : Db → Option β} (hf : ∀ db x, f db = some x → rowUid x = uid) :
    roleProtocol.Triple r q (fun _ => True) (asyncLoad ctx f spot)
      (fun found s => (∀ x, found = some x → rowUid x = uid) ∧
        ∀ a ∈ (⟨ctx, spot found⟩ : Point).session s, (spot found).fits (s.heap a) = true)
      (fun _ => True) := by
  refine triple_asyncLoad (fun found _ => ∀ x, found = some x → rowUid x = uid) stable_true
    (fun _ _ _ _ _ h => h) (fun _ _ _ => trivial) ?_ ?_
  · exact fun s _ _ x hx => hf s.db x hx
  · exact fun found i s _ h hg => ⟨h, hg⟩

theorem loginMerchant_role (a uid : Nat) : RoleSafe r q (loginMerchant ctx a uid) := by
  simp only [loginMerchant]
  refine Triple.bind (triple_roleLoad CmallMerchant.uid fun _ _ h => Db.findMerchant_uid h)
    fun m => ?_
  split
  · rename_i m
    split
    · refine triple_modifySession fun s hl hc => hc.setMerchant ?_
      simpa [hl.1 m rfl] using hl.2 a rfl
    · exact .ret fun _ _ _ => trivial
  · exact .ret fun _ _ _ => trivial

theorem loginAdmin_role (a uid : Nat) : RoleSafe r q (loginAdmin ctx a uid) := by
  simp only [loginAdmin]
  refine Triple.bind (triple_roleLoad Administrators.uid fun _ _ h => Db.findAdministrators_uid h)
    fun d => ?_
  split
  · rename_i d
    refine triple_modifySession fun s hl hc => hc.setAdmin ?_
    simpa [hl.1 d rfl] using hl.2 a rfl
  · exact .ret fun _ _ _ => trivial

theorem recoverMerchant_role (uid : Nat) : RoleSafe r q (recoverMerchant ctx uid) := by
  simp only [recoverMerchant]
  refine Triple.bind (triple_roleLoad CmallMerchant.uid fun _ _ h => Db.findMerchant_uid h)
    fun m => ?_
  split
  · rename_i m
    refine .bind (triple_thisSession fun _ _ _ => trivial) fun a => ?_
    refine triple_modifySession fun s hl hc => hc.setMerchant ?_
    simpa [hl.2.1 m rfl] using hl.2.2 a hl.1
  · exact .ret fun _ _ _ => trivial

theorem recoverAdmin_role (uid : Nat) : RoleSafe r q (recoverAdmin ctx uid) := by
  simp only [recoverAdmin]
  refine Triple.bind (triple_roleLoad Administrators.uid fun _ _ h => Db.findAdministrators_uid h)
    fun d => ?_
  split
  · rename_i d
    refine .bind (triple_thisSession fun _ _ _ => trivial) fun a => ?_
    refine triple_modifySession fun s hl hc => hc.setAdmin ?_
    simpa [hl.2.1 d rfl] using hl.2.2 a hl.1
  · exact .ret fun _ _ _ => trivial

theorem loginNewUser_role : RoleSafe r q (loginNewUser ctx) := by
  simp only [loginNewUser]
  refine .bind (roleSafe_of_each (n := ctx.req) thisSession_each) fun b => ?_
  refine .bind (roleSafe_of_each (n := ctx.req) (getSession_each b)) fun c => ?_
  refine .bind (roleSafe_of_each (n := ctx.req) localTime_each) fun now => ?_
  -- the new user may replace the old one only in a session without roles
  refine Triple.bind (Q := fun _ s => ∀ b ∈ (s.conn ctx.conn).sessionInfo,
    (s.heap b).noRoles = true) ?_ fun u => ?_
  · refine triple_tx (fun _ _ => True) stable_true (fun _ => stable_true) (fun _ _ _ => trivial)
      (fun i s _ _ _ => ⟨fun h => h, fun _ => trivial, fun _ _ => trivial⟩) ?_
    exact fun u i s _ _ hg b hb => hg b hb
  · refine .bind (triple_thisSession fun _ _ _ => trivial) fun b => ?_
    refine .bind (triple_modifySession fun s hl hc => hc.setUser (.inl (hl.2 b hl.1))) fun _ => ?_
    refine RoleSafe.bind (.modify fun s _ _ => ⟨fun h => h, trivial⟩) fun _ => ?_
    refine .bind (roleSafe_of_each (became_each _ _ (by simp [offHeap]))) fun _ => ?_
    exact roleSafe_of_each (n := r) (callCheckAdmin_each u)

theorem handleUserLogin_role (a : Nat) (tel : String) :
    RoleSafe r q (handleUserLogin ctx a tel) := by
  have hrest : ∀ g : Unit → M Reply, RoleSafe r q (g ()) →
      RoleSafe r q (modifySession a (fun c => { c with verifySessionCookie := none }) >>= g) :=
    fun g hg => .bind (modifySession_role fun c hc => ⟨hc.merchant, hc.admin⟩) fun _ => hg
  simp only [handleUserLogin]
  refine Triple.bind (Q := fun (found : Option CmallUser) s => ∀ u, found = some u →
    (s.heap a).noRoles = true ∨ (s.heap a).uid = some u.uid) ?_ fun found => ?_
  · refine triple_tx (fun _ _ => True) stable_true (fun _ => stable_true) (fun _ _ _ => trivial)
      (fun i s _ _ _ => ⟨?_, fun _ => trivial, fun _ _ => trivial⟩) ?_
    · split <;> exact fun h => h
    · rintro found i s _ _ hg u rfl
      simpa using hg a rfl
  · split
    · rename_i u
      refine .bind (triple_modifySession fun s hl hc => hc.setUser (hl u rfl)) fun _ => ?_
      refine RoleSafe.bind (.modify fun s _ _ => ⟨fun h => h, trivial⟩) fun _ => ?_
      refine .bind (roleSafe_of_each (became_each _ _ (by simp [offHeap]))) fun _ => ?_
      refine .bind (loginMerchant_role a u.uid) fun _ => .bind (loginAdmin_role a u.uid) fun _ => ?_
      refine hrest _ ?_
      refine .bind (roleSafe_of_each (saveSession_each (by simp [offHeap]))) fun _ => ?_
      exact roleSafe_of_each (n := ctx.req) (Co.each_bind (getSession_each a) fun c =>
        Co.each_bind pushActive_each fun _ => each_pure _)
    · refine RoleSafe.triple ?_
      refine .bind loginNewUser_role fun _ => hrest _ ?_
      refine .bind (roleSafe_of_each (saveSession_each (by simp [offHeap]))) fun _ => ?_
      exact roleSafe_of_each (n := ctx.req) (Co.each_bind (getSession_each a) fun c =>
        Co.each_bind pushActive_each fun _ => each_pure _)

theorem recoverSudo_role : RoleSafe r q (recoverSudo ctx) := by
  simp only [recoverSudo]
  repeat' first
    | (refine modifySession_role fun c hc => ?_; exact ⟨hc.merchant, hc.admin⟩)
    | with_reducible refine .bind ?_ fun _ => ?_
    | (refine roleSafe_of_each (n := ctx.req) ?_; simp; done)
    | split

theorem loadUserInfo_role : RoleSafe r q (loadUserInfo ctx) := by
  simp only [loadUserInfo]
  refine .bind (roleSafe_of_each (n := ctx.req) thisSession_each) fun a => ?_
  refine .bind (roleSafe_of_each (n := ctx.req) (thisUser_each a)) fun u => ?_
  refine Triple.bind (reloadUser_role a u.uid _) fun found => ?_
  split
  · refine RoleSafe.triple ?_
    repeat' first
      | with_reducible exact recoverMerchant_role _
      | with_reducible exact recoverAdmin_role _
      | with_reducible exact recoverSudo_role
      | with_reducible refine .bind ?_ fun _ => ?_
      | (refine roleSafe_of_each (n := ctx.req) ?_; simp)
  · -- the user is dropped from a session without roles
    rename_i hfound
    refine .bind (triple_thisSession fun _ _ _ => trivial) fun b => ?_
    refine triple_modifySession fun s hl _ => ClientSession.coherent_of_noRoles ?_
    have hoff : (s.heap b).noRoles = true := by
      simpa [hfound] using hl.2 b (by simpa [hfound, Point.session] using hl.1)
    exact hoff

theorem allocaSessionid_role : RoleSafe r q (allocaSessionid ctx) := by
  have hfresh : roleProtocol.Triple r q (fun _ => True) (freshSession ctx)
      (fun c _ => c.Coherent) (fun _ => True) :=
    .bind (Q := fun _ _ => True)
      (roleSafe_of_each (n := ctx.req) (genUuid_each (by simp [offHeap])))
      fun id => .ret fun _ _ _ => ClientSession.coherent_of_noRoles rfl
  refine Triple.bind hfresh fun c => ?_
  refine .bind (Q := fun _ _ => True) (.conseq (L := fun _ => c.Coherent ∧ True) ?_
    (fun _ _ h => ⟨h, trivial⟩) (fun _ _ _ h => h) fun _ _ h => h) fun _ =>
      roleSafe_of_each (saveSession_each (by simp [offHeap]))
  exact .pure fun hc => newSession_role hc

theorem restoreSession_role (sessionid : String) : RoleSafe r q (restoreSession ctx sessionid) := by
  have hload : roleProtocol.Triple r q (fun _ => True) (loadSession ctx sessionid)
      (fun c _ => c.Coherent ∧ True) (fun _ => True) := by
    simp only [loadSession]
    refine .bind (Q := fun _ _ => True)
      (roleSafe_of_each (n := ctx.req) (asyncLoad_each _ _)) fun row => ?_
    split
    · exact .ret fun _ _ _ => ⟨ClientSession.coherent_restored _ _, trivial⟩
    · exact .throw fun _ _ _ => trivial
  exact Triple.bind hload fun c => .pure fun hc => newSession_role hc

theorem recoverBySessionid_role (sessionid : String) :
    RoleSafe r q (recoverBySessionid ctx sessionid) := by
  simp only [recoverBySessionid]
  repeat' first
    | with_reducible exact allocaSessionid_role
    | with_reducible exact restoreSession_role _
    | with_reducible exact loadUserInfo_role
    | with_reducible refine .bind ?_ fun _ => ?_
    | (refine roleSafe_of_each (n := ctx.req) ?_; simp [offHeap]; done)
    | split

theorem recoverByApiToken_role (apiToken : String) :
    RoleSafe r q (recoverByApiToken ctx apiToken) := by
  simp only [recoverByApiToken]
  refine .bind (roleSafe_of_each (n := ctx.req) (apiTokenUid_each _)) fun uid => ?_
  refine .bind (roleSafe_of_each (n := ctx.req) (asyncLoad_each _ _)) fun found => ?_
  split
  · exact roleSafe_of_each (n := ctx.req) (each_ret _)
  · rename_i u
    refine Triple.bind (Q := fun (c : ClientSession) _ => c.noRoles = true ∧ True) ?_ fun c => ?_
    · exact .bind (Q := fun _ _ => True)
        (roleSafe_of_each (n := ctx.req) (genUuid_each (by simp [offHeap])))
        fun id => .ret fun _ _ _ => ⟨rfl, trivial⟩
    · refine .pure fun hc => ?_
      refine RoleSafe.bind (newSession_role (ClientSession.coherent_of_noRoles hc)) fun _ => ?_
      repeat' first
        | with_reducible exact recoverMerchant_role _
        | with_reducible exact recoverAdmin_role _
        | with_reducible refine .bind ?_ fun _ => ?_
        | (refine roleSafe_of_each (n := ctx.req) ?_; simp; done)
        | exact Triple.modify fun s _ _ => ⟨fun h => h, trivial⟩

theorem recoverByCookie_role (cookies : List String) : RoleSafe r q (recoverByCookie ctx cookies) := by
  induction cookies with
  | nil => exact roleSafe_of_each (n := ctx.req) (each_ret _)
  | cons sessionid rest ih =>
    simp only [recoverByCookie]
    repeat' first
      | with_reducible exact restoreSession_role _
      | with_reducible exact loadUserInfo_role
      | with_reducible exact ih
      | with_reducible refine .bind ?_ fun _ => ?_
      | (refine roleSafe_of_each (n := ctx.req) ?_; simp [offHeap]; done)
      | split

theorem clientConnected_role (ip : String) (cookies : List String) (alloca : Bool) :
    RoleSafe r q (clientConnected ctx ip cookies alloca) := by
  simp only [clientConnected]
  repeat' first
    | with_reducible exact allocaSessionid_role
    | with_reducible exact recoverByCookie_role _
    | with_reducible refine .bind ?_ fun _ => ?_
    | (refine roleSafe_of_each (n := ctx.req) ?_; simp [offHeap]; done)
    | split

/-! ## The other requests that write into the session -/

theorem merchantInfo_role (a : Nat) : RoleSafe r q (merchantInfo ctx a) := by
  simp only [merchantInfo]
  refine .bind (roleSafe_of_each (n := ctx.req) (thisMerchant_each a)) fun m => ?_
  refine Triple.bind (triple_roleLoad CmallMerchant.uid fun _ _ h => Db.findMerchant_uid h)
    fun found => ?_
  split
  · rename_i x
    refine .bind (Q := fun _ _ => True) (triple_modifySession fun s hl hc => ?_) fun _ =>
      .ret fun _ _ h => h
    exact hc.setMerchant (by simpa [hl.1 x rfl] using hl.2 a rfl)
  · exact .throw fun _ _ _ => trivial

theorem adminSudoTo_role (a actor uid : Nat) : RoleSafe r q (adminSudoTo ctx a actor uid) := by
  simp only [adminSudoTo]
  refine Triple.bind (triple_roleLoad CmallUser.uid fun _ _ h => Db.findUser_uid h)
    fun found => ?_
  split
  · exact .throw fun _ _ _ => trivial
  · rename_i u
    refine .conseq (L := fun _ => u.uid = uid ∧ True) (.pure fun hu => ?_)
      (fun _ _ h => ⟨h.1 u rfl, trivial⟩) (fun _ _ _ h => h) fun _ _ h => h
    refine .bind (triple_roleLoad CmallMerchant.uid fun _ _ h => Db.findMerchant_uid h)
      fun m => ?_
    refine .bind (triple_modifySession fun s hl _ => ?_) fun _ => ?_
    · exact ClientSession.coherent_sudoTo fun x hx => (hl.1 x hx).trans hu.symm
    · refine RoleSafe.bind (.modify fun s _ _ => ⟨fun h => h, trivial⟩) fun _ => ?_
      refine .bind (roleSafe_of_each (became_each _ _ (by simp [offHeap]))) fun _ => ?_
      refine .bind (roleSafe_of_each (saveSession_each (by simp [offHeap]))) fun _ => ?_
      refine roleSafe_of_each (n := ctx.req) ?_
      exact Co.each_bind (getSession_each a) fun c => each_pure _

theorem adminSudo_role (a : Nat) (params : JsonObject) : RoleSafe r q (adminSudo ctx a params) := by
  simp only [adminSudo]
  repeat' first
    | with_reducible exact adminSudoTo_role a _ _
    | with_reducible refine .bind ?_ fun _ => ?_
    | (refine roleSafe_of_each (n := ctx.req) ?_; simp; done)
    | split

theorem adminSudoCancel_role (a : Nat) : RoleSafe r q (adminSudoCancel ctx a) := by
  simp only [adminSudoCancel]
  refine .bind (roleSafe_of_each (n := ctx.req) (originalUser_each a)) fun o => ?_
  refine Triple.bind (triple_roleLoad CmallMerchant.uid fun _ _ h => Db.findMerchant_uid h)
    fun m => ?_
  refine .bind (triple_originalUser a fun _ _ _ => trivial) fun u => ?_
  refine .bind (triple_modifySession fun s hl _ => ?_) fun _ => ?_
  · exact ClientSession.coherent_sudoCancel (hl.2.2 a rfl) hl.1 hl.2.1
  · refine .bind (roleSafe_of_each (became_each _ _ (by simp [offHeap]))) fun _ => ?_
    refine .bind (roleSafe_of_each (saveSession_each (by simp [offHeap]))) fun _ => ?_
    refine roleSafe_of_each (n := ctx.req) ?_
    exact Co.each_bind (getSession_each a) fun c => each_pure _

theorem modifyMerchantInfo_role (a : Nat) {f : CmallMerchant → CmallMerchant}
    (hf : ∀ m, (f m).uid = m.uid) : RoleSafe r q (modifyMerchantInfo a f) :=
  modifySession_role fun _ hc => hc.mapMerchant hf

theorem userLogout_role : RoleSafe r q (userLogout ctx) := by
  simp only [userLogout]
  repeat' first
    | exact modifySession_role fun _ _ => ClientSession.coherent_clear
    | with_reducible refine .bind ?_ fun _ => ?_
    | (refine roleSafe_of_each (n := ctx.req) ?_; simp [offHeap]; done)
    | exact Triple.modify fun s _ _ => ⟨fun h => h, trivial⟩
    | split

theorem userPrelogin_role (hr : ctx.req = r) (a : Nat) (params : JsonObject) :
    RoleSafe r q (userPrelogin ctx a params) := by
  subst hr
  simp only [userPrelogin]
  repeat' first
    | (refine modifySession_role fun c hc => ?_; exact ⟨hc.merchant, hc.admin⟩)
    | with_reducible refine .bind ?_ fun _ => ?_
    | (refine roleSafe_of_each (n := ctx.req) ?_; simp [offHeap]; done)
    | split

/-- The methods whose footprint has sessions in it. -/
theorem handlerOf_role {conn : Nat} {method : ReqMethod} {params : JsonObject}
    (hm : .heap ∈ method.footprint) :
    RoleSafe r q (handlerOf cfg ⟨conn, r⟩ method params) := by
  have hctx : (⟨conn, r⟩ : Ctx).req = r := rfl
  have hreload : ∀ a uid, RoleSafe r q (reloadUser ⟨conn, r⟩ a uid) := fun a uid =>
    .conseq (reloadUser_role a uid _) (fun _ _ h => h) (fun _ _ _ _ => trivial) fun _ _ h => h
  cases method <;> first | (simp [ReqMethod.footprint] at hm; done) | skip
  all_goals
    simp only [handlerOf, ReqMethod.api, recoverSession, handleJsonrpcUserApi,
      handleJsonrpcOrderApi, handleJsonrpcMerchantApi, handleJsonrpcAdminApi, userLogin,
      userFastlogin, userAddRecipientAddress, userEraseReceiptAddress, orderCreate,
      merchantResetGiteaPassword, merchantAlterName]
  all_goals
    repeat' first
      | with_reducible exact recoverBySessionid_role _
      | with_reducible exact recoverByApiToken_role _
      | with_reducible exact handleUserLogin_role _ _
      | with_reducible exact userLogout_role
      | with_reducible exact userPrelogin_role hctx _ _
      | with_reducible exact merchantInfo_role _
      | with_reducible exact adminSudo_role _ _
      | with_reducible exact adminSudoCancel_role _
      | with_reducible exact hreload _ _
      | (with_reducible refine updateUser_role _ _ _ ?_; intro v; split <;> rfl)
      | (with_reducible refine updateUser_role _ _ _ ?_; intro v; rfl)
      | (with_reducible refine modifyMerchantInfo_role _ ?_; intro m; rfl)
      | (refine modifySession_role fun c hc => ?_; exact ⟨hc.merchant, hc.admin⟩)
      | with_reducible refine .bind ?_ fun _ => ?_
      | (refine roleSafe_of_each (n := r) ?_; simp [offHeap]; done)
      | exact Triple.modify fun s _ _ => ⟨fun h => h, trivial⟩
      | split

end Handlers

/-- Every program keeps to the protocol. -/
theorem programs_role (cfg : Config) : roleProtocol.Programs (prog cfg) := by
  intro r q m _ _ _
  by_cases hq : .heap ∈ q.footprint
  · cases q with
    | jsonrpc conn method params =>
      have hm : .heap ∈ method.footprint := by simpa [Request.footprint] using hq
      refine prog_suspended_of_handler (L := fun _ => True) stable_true trivial
        (fun _ _ _ _ _ => trivial) (fun _ _ _ => trivial) (handlerOf_role hm) ?_
      intro reply s _ _
      exact ⟨fun hi => hi.of_keeps keeps_replied (by simp), trivial⟩
    | connect conn ip cookies alloca =>
      exact Triple.suspended (L := fun _ => True) stable_true trivial (fun _ _ _ _ _ => trivial)
        fun _ => clientConnected_role ip cookies alloca
    | _ => simp [Request.footprint] at hq
  · exact prog_suspended_of_keeps (fun s t _ hk hi => hi.of_keeps hk hq) fun _ => trivial

/-- In every run in which a user and the roles are only written into a session they
fit, every session is coherent in every state. -/
theorem roles_belong_to_user (cfg : Config) (m : Mem) (ls : List (Label Request Input))
    (hm : RolesCoherent m) (hls : roleProtocol.Admissible (prog cfg) (Sys.idle m) ls) (a : Nat) :
    let c := ((Sys.idle m : Service).run (prog cfg) ls).mem.heap a
    c.Coherent ∧ (c.userInfo = none → c.isAdmin = false ∧ c.isMerchant = false) := by
  have hgood := run_good (programs_role cfg)
    (good_idle (P := roleProtocol) hm fun _ => trivial) hls
  have hc := hgood.inv a
  refine ⟨hc, fun hnone => ⟨?_, ?_⟩⟩
  · refine Bool.eq_false_iff.mpr fun hadmin => ?_
    obtain ⟨u, d, hu, -⟩ := hc.admin hadmin
    cases hnone.symm.trans hu
  · refine Bool.eq_false_iff.mpr fun hmerchant => ?_
    obtain ⟨u, x, hu, -⟩ := hc.merchant hmerchant
    cases hnone.symm.trans hu

/-! ## A second login in the same session -/

/-- The account of phone 100 is that of a merchant; the account of phone 200 is not. -/
def merchantAndUser : Mem :=
  { twoConnections with
    db.users := [{ uid := 1, activePhone := "100" }, user200]
    db.merchants := [{ uid := 1 }] }

/-- Request `r` is a one-click login of an existing user on connection 0. -/
def fastlogin (r : Nat) (tel : String) : List (Label Request Input) :=
  [.spawn (.jsonrpc 0 .userFastlogin []), .resume r {}, .resume r { answer := some tel }] ++
    resumes r 8

/-- With a logout in between, the second user has the roles of its own. -/
theorem roles_belong_to_user_after_logout :
    let c := ((Sys.idle merchantAndUser : Service).run (prog bareConfig)
      (fastlogin 0 "100" ++ [.spawn (.jsonrpc 0 .userLogout [])] ++ resumes 1 3 ++
        fastlogin 2 "200")).mem.heap 0
    c.Coherent ∧ (c.userInfo = none → c.isAdmin = false ∧ c.isMerchant = false) :=
  roles_belong_to_user bareConfig merchantAndUser _
    (fun _ => ClientSession.coherent_of_noRoles rfl) (by decide) 0

/-- Without one, the user of phone 200 is left with the merchant of phone 100. -/
theorem second_login_keeps_roles :
    ¬ (((Sys.idle merchantAndUser : Service).run (prog bareConfig)
      (fastlogin 0 "100" ++ fastlogin 1 "200")).mem.heap 0).Coherent := by
  intro h
  obtain ⟨u, m, hu, hm, heq⟩ := h.merchant (by decide)
  have hu' : (((Sys.idle merchantAndUser : Service).run (prog bareConfig)
      (fastlogin 0 "100" ++ fastlogin 1 "200")).mem.heap 0).userInfo = some user200 := by decide
  have hm' : (((Sys.idle merchantAndUser : Service).run (prog bareConfig)
      (fastlogin 0 "100" ++ fastlogin 1 "200")).mem.heap 0).merchantInfo =
        some { uid := 1 } := by decide
  cases hu.symm.trans hu'
  cases hm.symm.trans hm'
  exact absurd heq (by decide)

end Cmall
