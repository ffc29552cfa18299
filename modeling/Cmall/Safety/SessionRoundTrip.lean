import Cmall.Footprint.Answers
import Cmall.Safety.LoginPaths

/-!
A stored session and the session that is loaded from it.

`persist_session::save` keeps ids, phone, cookie and sudo mode of a session and drops its
roles; `load_user_info` looks the roles up again. The session comes back as it was just
when it is `Current`: its flags are those the tables give its user, and its sudo mode is
complete. A login of a merchant whose row is not in state normal and a sudo to an
administrator leave sessions that are not.
-/

namespace Cmall
open Coroutine Protocol

/-- What has to come back. -/
structure ClientSession.SameAs (c c' : ClientSession) : Prop where
  user : c'.userInfo.map CmallUser.uid = c.userInfo.map CmallUser.uid
  verifyTelephone : c'.verifyTelephone = c.verifyTelephone
  verifySessionCookie : c'.verifySessionCookie = c.verifySessionCookie
  sudoMode : c'.sudoMode = c.sudoMode
  originalUser : c'.originalUser.map Administrators.uid = c.originalUser.map Administrators.uid
  isAdmin : c'.isAdmin = c.isAdmin
  isMerchant : c'.isMerchant = c.isMerchant

/-- The roles of a session without a user are off; those of a user are what the tables
say, and so is the user. In sudo mode of a user there is an original user with its row;
outside of sudo mode there is none. A cookie is not the empty text. -/
structure ClientSession.Current (db : Db) (c : ClientSession) : Prop where
  cookie : c.verifySessionCookie ≠ some ""
  nobody : c.userInfo = none → c.isAdmin = false ∧ c.isMerchant = false
  user : ∀ u, c.userInfo = some u → (db.findUser u.uid).isSome = true
  isAdmin : ∀ u, c.userInfo = some u → c.isAdmin = (db.findAdministrators u.uid).isSome
  isMerchant : ∀ u, c.userInfo = some u → c.isMerchant = (db.findMerchant u.uid).isSome
  original : c.sudoMode = true → c.userInfo.isSome = true →
    ∃ o, c.originalUser = some o ∧ (o.uid = 0 ∨ (db.findAdministrators o.uid).isSome = true)
  noOriginal : c.sudoMode = false → c.originalUser = none

/-! ## Evaluation of the operations -/

section Eval

variable {ctx : Ctx} {s : Mem} {a : Nat} {α : Type}

@[simp] theorem Mem.setSession_heap (x : ClientSession) : (s.setSession a x).heap a = x := by
  simp [setSession]

@[simp] theorem Mem.setSession_db (x : ClientSession) : (s.setSession a x).db = s.db := rfl

@[simp] theorem Mem.setSession_conn (x : ClientSession) : (s.setSession a x).conn = s.conn := rfl

@[simp] theorem Mem.setSession_setSession (x y : ClientSession) :
    (s.setSession a x).setSession a y = s.setSession a y := by
  simp only [setSession]
  congr
  funext b
  split <;> rfl

@[simp] theorem Mem.setSession_self : s.setSession a (s.heap a) = s := by
  have hheap : (fun b => if b = a then s.heap a else s.heap b) = s.heap := by
    funext b
    split
    · rename_i h
      rw [h]
    · rfl
  simp [setSession, hheap]

theorem modifySession_eval (f : ClientSession → ClientSession) :
    (modifySession a f).eval {} s = (.ok (), s.setSession a (f (s.heap a))) := rfl

theorem recoverMerchant_eval (h : (s.conn ctx.conn).sessionInfo = some a) (uid : Nat) :
    (recoverMerchant ctx uid).eval {} s =
      (.ok (), s.setSession a ((s.heap a).withMerchant (s.db.findMerchant uid))) := by
  simp only [recoverMerchant]
  rw [Co.eval_bind_ok (asyncLoad_eval rfl _ _)]
  cases s.db.findMerchant uid with
  | none => simp [ClientSession.withMerchant]
  | some m => exact Co.eval_bind_ok (thisSession_eval h)

theorem recoverAdmin_eval (h : (s.conn ctx.conn).sessionInfo = some a) (uid : Nat) :
    (recoverAdmin ctx uid).eval {} s =
      (.ok (), s.setSession a ((s.heap a).withAdmin (s.db.findAdministrators uid))) := by
  simp only [recoverAdmin]
  rw [Co.eval_bind_ok (asyncLoad_eval rfl _ _)]
  cases s.db.findAdministrators uid with
  | none => simp [ClientSession.withAdmin]
  | some d => exact Co.eval_bind_ok (thisSession_eval h)

/-- In sudo mode without an original user there is nothing to load. -/
theorem recoverSudo_eval (h : (s.conn ctx.conn).sessionInfo = some a) :
    (recoverSudo ctx).eval {} s =
      if (s.heap a).sudoMode = true ∧ (s.heap a).originalUser = none then
        (.error (.undefined "original_user"), s)
      else (.ok (), s.setSession a ((s.heap a).withOriginal s.db)) := by
  simp only [recoverSudo]
  rw [Co.eval_bind_ok (thisSession_eval h), Co.eval_bind_ok getSession_eval]
  cases hmode : (s.heap a).sudoMode with
  | false =>
    have hx : (s.heap a).withOriginal s.db = s.heap a := by simp [ClientSession.withOriginal, hmode]
    simp [hx]
  | true =>
    cases ho : (s.heap a).originalUser with
    | none => simp
    | some o =>
      have hx : (s.heap a).withOriginal s.db =
          { s.heap a with originalUser := some ((s.db.findAdministrators o.uid).getD {}) } := by
        simp [ClientSession.withOriginal, hmode, ho]
      simp only [if_true, reduceCtorEq, and_false, if_false]
      rw [Co.eval_bind_ok (asyncLoad_eval rfl _ _), Co.eval_bind_ok (thisSession_eval h), hx]
      rfl

theorem pushActive_eval {u : CmallUser} (h : (s.conn ctx.conn).sessionInfo = some a)
    (hu : (s.heap a).userInfo = some u) :
    ∃ users, (pushActive ctx).eval {} s = (.ok (), { s with activeUsers := users }) := by
  simp only [pushActive]
  rw [Co.eval_bind_ok (thisSession_eval h), Co.eval_bind_ok (thisUser_eval hu)]
  by_cases hfiled : s.activeUsers.any (fun e => e.1 = ctx.conn) = true
  · exact ⟨s.activeUsers, by simp [hfiled]⟩
  · exact ⟨s.activeUsers ++ [(ctx.conn, u.uid)], by simp [hfiled]⟩

/-- The user of the session is loaded again. -/
theorem reloadUser_eval {u : CmallUser} {uid : Nat} (after : Bool → Spot)
    (hu : (s.heap a).userInfo = some u) :
    (reloadUser ctx a uid after).eval {} s =
      match s.db.findUser uid with
      | some row => (.ok true, s.setSession a { s.heap a with userInfo := some row })
      | none => (.ok false, s) := by
  cases hrow : s.db.findUser uid with
  | none => exact tx_eval rfl (by simp only [hrow])
  | some row => exact tx_eval rfl (by simp [hrow, Mem.overwriteUser, hu])

/-- The session before `load_user_info` comes to the original user. -/
def ClientSession.withRoles (c : ClientSession) (db : Db) (row : CmallUser) : ClientSession :=
  (({ c with userInfo := some row }).withMerchant (db.findMerchant row.uid)).withAdmin
    (db.findAdministrators row.uid)

@[simp] theorem ClientSession.withMerchant_sudoMode (c : ClientSession) (o : Option CmallMerchant) :
    (c.withMerchant o).sudoMode = c.sudoMode := by
  cases o <;> rfl

@[simp] theorem ClientSession.withAdmin_sudoMode (c : ClientSession) (o : Option Administrators) :
    (c.withAdmin o).sudoMode = c.sudoMode := by
  cases o <;> rfl

@[simp] theorem ClientSession.withMerchant_originalUser (c : ClientSession)
    (o : Option CmallMerchant) : (c.withMerchant o).originalUser = c.originalUser := by
  cases o <;> rfl

@[simp] theorem ClientSession.withAdmin_originalUser (c : ClientSession)
    (o : Option Administrators) : (c.withAdmin o).originalUser = c.originalUser := by
  cases o <;> rfl

/-- `load_user_info` up to the original user. -/
theorem loadUserInfo_eval_roles {u row : CmallUser} (h : (s.conn ctx.conn).sessionInfo = some a)
    (hu : (s.heap a).userInfo = some u) (hrow : s.db.findUser u.uid = some row) :
    (loadUserInfo ctx).eval {} s = (do recoverSudo ctx; pushActive ctx : M Unit).eval {}
      (s.setSession a ((s.heap a).withRoles s.db row)) := by
  have h' : ∀ x, ((s.setSession a x).conn ctx.conn).sessionInfo = some a := fun _ => h
  have hreload : (reloadUser ctx a u.uid fun ok => if ok then .back else .userVanished).eval {} s =
      (.ok true, s.setSession a { s.heap a with userInfo := some row }) := by
    rw [reloadUser_eval _ hu, hrow]
  simp only [loadUserInfo]
  rw [Co.eval_bind_ok (thisSession_eval h), Co.eval_bind_ok (thisUser_eval hu),
    Co.eval_bind_ok hreload]
  simp only [not_true_eq_false, if_false]
  rw [Co.eval_bind_ok (thisSession_eval (h' _)), Co.eval_bind_ok (thisUser_eval (u := row) (by simp)),
    Co.eval_bind_ok (recoverMerchant_eval (h' _) _)]
  simp only [Mem.setSession_setSession, Mem.setSession_heap, Mem.setSession_db]
  rw [Co.eval_bind_ok (thisSession_eval (h' _)), Co.eval_bind_ok (thisUser_eval (u := row) (by simp)),
    Co.eval_bind_ok (recoverAdmin_eval (h' _) _)]
  simp [ClientSession.withRoles]

/-- `load_user_info` of a session that is not in sudo mode without an original user. -/
theorem loadUserInfo_eval_ok {u : CmallUser} (h : (s.conn ctx.conn).sessionInfo = some a)
    (hu : (s.heap a).userInfo = some u)
    (hsudo : (s.db.findUser u.uid).isSome = true →
      ¬ ((s.heap a).sudoMode = true ∧ (s.heap a).originalUser = none)) :
    ∃ users, (loadUserInfo ctx).eval {} s =
      (.ok (), { s.setSession a ((s.heap a).loaded s.db u.uid) with activeUsers := users }) := by
  cases hrow : s.db.findUser u.uid with
  | none =>
    refine ⟨s.activeUsers, ?_⟩
    have hreload : (reloadUser ctx a u.uid fun ok => if ok then .back else .userVanished).eval {} s =
        (.ok false, s) := by
      rw [reloadUser_eval _ hu, hrow]
    simp only [loadUserInfo, ClientSession.loaded, hrow]
    rw [Co.eval_bind_ok (thisSession_eval h), Co.eval_bind_ok (thisUser_eval hu),
      Co.eval_bind_ok hreload]
    exact Co.eval_bind_ok (thisSession_eval h)
  | some row =>
    have hnot := hsudo (by rw [hrow]; rfl)
    have hloaded : (s.heap a).loaded s.db u.uid =
        ((s.heap a).withRoles s.db row).withOriginal s.db := by
      simp only [ClientSession.loaded, hrow, ClientSession.withRoles]
    have hconn : ((s.setSession a ((s.heap a).withRoles s.db row)).conn ctx.conn).sessionInfo =
        some a := h
    have hsudo' := recoverSudo_eval hconn
    rw [if_neg (by simpa [ClientSession.withRoles] using hnot)] at hsudo'
    simp only [Mem.setSession_heap, Mem.setSession_db, Mem.setSession_setSession] at hsudo'
    rw [loadUserInfo_eval_roles h hu hrow, Co.eval_bind_ok hsudo', hloaded]
    exact pushActive_eval (u := row) h (by simp [ClientSession.withRoles])

/-- In sudo mode without an original user the dereference is undefined. -/
theorem loadUserInfo_eval_error {u : CmallUser} (h : (s.conn ctx.conn).sessionInfo = some a)
    (hu : (s.heap a).userInfo = some u) (hrow : (s.db.findUser u.uid).isSome = true)
    (hsudo : (s.heap a).sudoMode = true ∧ (s.heap a).originalUser = none) :
    ∃ t, (loadUserInfo ctx).eval {} s = (.error (.undefined "original_user"), t) := by
  obtain ⟨row, hrow⟩ := Option.isSome_iff_exists.mp hrow
  have hconn : ((s.setSession a ((s.heap a).withRoles s.db row)).conn ctx.conn).sessionInfo =
      some a := h
  have hsudo' := recoverSudo_eval hconn
  rw [if_pos (by simpa [ClientSession.withRoles] using hsudo)] at hsudo'
  exact ⟨_, (loadUserInfo_eval_roles h hu hrow).trans (Co.eval_bind_error hsudo')⟩

/-- What a recovery makes of a session that was loaded. -/
def ClientSession.restored (c : ClientSession) (db : Db) : ClientSession :=
  match c.userInfo with
  | some u => c.loaded db u.uid
  | none => c

theorem updateLifetime_eval (ctx : Ctx) (s : Mem) (sessionid : String) :
    ∃ db, (updateLifetime ctx sessionid).eval {} s = (.ok (), { s with db := db }) := by
  simp only [updateLifetime]
  rw [Co.eval_bind_ok Co.eval_get, Co.eval_bind_ok (asyncLoad_eval rfl _ _)]
  cases s.db.findSession sessionid with
  | none => exact ⟨s.db, rfl⟩
  | some row => exact ⟨_, tx_eval rfl rfl⟩

/-- The memory in which the recovery of a stored session begins. -/
def Mem.withRestored (s : Mem) (ctx : Ctx) (x : ClientSession) : Mem :=
  { s with
    heap := fun b => if b = s.heapTop then x else s.heap b
    heapTop := s.heapTop + 1
    conn := fun d => if d = ctx.conn then { s.conn d with sessionInfo := some s.heapTop }
      else s.conn d }

theorem recoverByCookie_eval {sessionid : String} {row : CmallSession} (hid : sessionid ≠ "")
    (hrow : s.db.findSession sessionid = some row) :
    (recoverByCookie ctx [sessionid]).eval {} s = (do
      if (row.toSession sessionid).userInfo.isSome = true then do
        loadUserInfo ctx
        updateLifetime ctx sessionid
      else updateLifetime ctx sessionid : M Unit).eval {}
        (s.withRestored ctx (row.toSession sessionid)) := by
  have hexists : (sessionExists ctx sessionid).eval {} s = (.ok true, s) := by
    rw [sessionExists, asyncLoad_eval rfl, hrow]
    rfl
  have hrestore : (restoreSession ctx sessionid).eval {} s =
      (.ok (), s.withRestored ctx (row.toSession sessionid)) := by
    simp only [restoreSession, loadSession, Co.bind_assoc]
    rw [Co.eval_bind_ok (asyncLoad_eval rfl _ _), hrow]
    rfl
  simp only [recoverByCookie, hid, if_false]
  rw [Co.eval_bind_ok hexists]
  simp only [if_true]
  rw [Co.eval_bind_ok hrestore,
    Co.eval_bind_ok (thisSession_eval (a := s.heapTop) (by simp [Mem.withRestored])),
    Co.eval_bind_ok getSession_eval]
  simp [Mem.withRestored]

theorem recoverByCookie_eval_ok {sessionid : String} {row : CmallSession} (hid : sessionid ≠ "")
    (hrow : s.db.findSession sessionid = some row)
    (hsudo : ∀ u, (row.toSession sessionid).userInfo = some u →
      (s.db.findUser u.uid).isSome = true → ¬ ((row.toSession sessionid).sudoMode = true ∧
        (row.toSession sessionid).originalUser = none)) :
    ∃ t, (recoverByCookie ctx [sessionid]).eval {} s = (.ok (), t) ∧
      (t.conn ctx.conn).sessionInfo = some s.heapTop ∧
      t.heap s.heapTop = (row.toSession sessionid).restored s.db := by
  have hconn : ((s.withRestored ctx (row.toSession sessionid)).conn ctx.conn).sessionInfo =
      some s.heapTop := by simp [Mem.withRestored]
  have hheap : (s.withRestored ctx (row.toSession sessionid)).heap s.heapTop =
      row.toSession sessionid := by simp [Mem.withRestored]
  rw [recoverByCookie_eval hid hrow]
  cases hu : (row.toSession sessionid).userInfo with
  | none =>
    obtain ⟨db, hlife⟩ := updateLifetime_eval ctx (s.withRestored ctx (row.toSession sessionid))
      sessionid
    refine ⟨_, hlife, hconn, ?_⟩
    simpa [ClientSession.restored, hu] using hheap
  | some u =>
    have hu' : ((s.withRestored ctx (row.toSession sessionid)).heap s.heapTop).userInfo = some u := by
      rw [hheap]
      exact hu
    obtain ⟨users, hload⟩ := loadUserInfo_eval_ok hconn hu' (by rw [hheap]; exact hsudo u hu)
    obtain ⟨db, hlife⟩ := updateLifetime_eval ctx { (s.withRestored ctx
      (row.toSession sessionid)).setSession s.heapTop
        (((s.withRestored ctx (row.toSession sessionid)).heap s.heapTop).loaded
          (s.withRestored ctx (row.toSession sessionid)).db u.uid) with activeUsers := users } sessionid
    refine ⟨_, (Co.eval_bind_ok hload).trans hlife, hconn, ?_⟩
    simp only [ClientSession.restored, hu, hheap, Mem.setSession_heap]
    rfl

/-- In sudo mode without an original user the recovery ends in an error. -/
theorem recoverByCookie_eval_error {sessionid : String} {row : CmallSession} {u : CmallUser}
    (hid : sessionid ≠ "") (hrow : s.db.findSession sessionid = some row)
    (hu : (row.toSession sessionid).userInfo = some u) (huser : (s.db.findUser u.uid).isSome = true)
    (hsudo : (row.toSession sessionid).sudoMode = true ∧
      (row.toSession sessionid).originalUser = none) :
    ∃ e t, (recoverByCookie ctx [sessionid]).eval {} s = (.error e, t) := by
  have hconn : ((s.withRestored ctx (row.toSession sessionid)).conn ctx.conn).sessionInfo =
      some s.heapTop := by simp [Mem.withRestored]
  have hheap : (s.withRestored ctx (row.toSession sessionid)).heap s.heapTop =
      row.toSession sessionid := by simp [Mem.withRestored]
  have hu' : ((s.withRestored ctx (row.toSession sessionid)).heap s.heapTop).userInfo = some u := by
    rw [hheap]
    exact hu
  obtain ⟨t, hload⟩ := loadUserInfo_eval_error hconn hu' huser (by rw [hheap]; exact hsudo)
  rw [recoverByCookie_eval hid hrow, hu]
  exact ⟨_, t, Co.eval_bind_error hload⟩

/-- The memory once connection `c` has its address. -/
def Mem.withRealIp (s : Mem) (c : Nat) (ip : String) : Mem :=
  { s with conn := fun d => if d = c then { s.conn d with xRealIp := ip } else s.conn d }

/-- A new connection runs the recovery and nothing after it. -/
theorem clientConnected_eval {ip sessionid : String} (hconn : (s.conn ctx.conn).sessionInfo = none) :
    (clientConnected ctx ip [sessionid] false).eval {} s =
      (recoverByCookie ctx [sessionid]).eval {} (s.withRealIp ctx.conn ip) := by
  simp only [clientConnected, setConnection, Mem.withRealIp]
  rw [Co.eval_bind_ok (Co.eval_modify _), Co.eval_bind_ok Co.eval_get]
  simp only [if_true, hconn]
  generalize hx : (recoverByCookie ctx [sessionid]).eval {} _ = x
  obtain ⟨x, t⟩ := x
  cases x with
  | error e => rw [Co.eval_bind_error hx]
  | ok z =>
    rw [Co.eval_bind_ok hx, Co.eval_bind_ok Co.eval_get]
    simp

end Eval

/-! ## The round trip -/

section RoundTrip

variable {db : Db} {c : ClientSession} {row : CmallSession} {ip : String} {now : PTime}

/-- A load of this session dereferences an original user that is not there. -/
def ClientSession.Dangling (db : Db) (c : ClientSession) : Prop :=
  (∃ u, c.userInfo = some u ∧ (db.findUser u.uid).isSome = true) ∧
    c.sudoMode = true ∧ c.originalUser = none

theorem ClientSession.Current.not_dangling (h : c.Current db) : ¬ c.Dangling db := by
  rintro ⟨⟨u, hu, -⟩, hmode, ho⟩
  obtain ⟨o, ho', -⟩ := h.original hmode (by rw [hu]; rfl)
  rw [ho] at ho'
  cases ho'

theorem getD_cookie_iff (o : Option String) :
    (if o.getD "" = "" then none else some (o.getD "")) = o ↔ o ≠ some "" := by
  cases o with
  | none => simp
  | some x => by_cases hx : x = "" <;> simp [hx]

/-- The uid of the original user after a load in sudo mode. -/
theorem original_uid_iff (o : Administrators) :
    ((db.findAdministrators o.uid).getD {}).uid = o.uid ↔
      o.uid = 0 ∨ (db.findAdministrators o.uid).isSome = true := by
  cases hd : db.findAdministrators o.uid with
  | none =>
    simp only [Option.getD_none, Option.isSome_none, Bool.false_eq_true, or_false]
    exact eq_comm
  | some d => simpa using Db.findAdministrators_uid hd

/-- The session that is loaded from a row with the content of `c`. -/
def ClientSession.stored (c : ClientSession) : ClientSession :=
  ((c.toRow "" 0).toSession c.sessionId)

theorem toSession_stored (hrow : row.cacheContent = (c.toRow ip now).cacheContent) :
    row.toSession c.sessionId = c.stored := by
  simp only [ClientSession.stored, CmallSession.toSession, hrow]
  rfl

@[simp] theorem withOriginal_roles (c : ClientSession) (db : Db) :
    (c.withOriginal db).userInfo = c.userInfo ∧ (c.withOriginal db).isAdmin = c.isAdmin ∧
      (c.withOriginal db).isMerchant = c.isMerchant ∧ (c.withOriginal db).sudoMode = c.sudoMode ∧
      (c.withOriginal db).verifyTelephone = c.verifyTelephone ∧
      (c.withOriginal db).verifySessionCookie = c.verifySessionCookie := by
  unfold ClientSession.withOriginal
  split <;> simp

theorem stored_originalUser : c.stored.originalUser =
    if c.sudoMode = true then
      c.originalUser.map fun o => { uid := o.uid, user := none }
    else none := by
  simp [ClientSession.stored, CmallSession.toSession, ClientSession.toRow, Function.comp_def]

theorem stored_userInfo : c.stored.userInfo = c.userInfo.map fun u => { uid := u.uid } := by
  simp [ClientSession.stored, CmallSession.toSession, ClientSession.toRow, Function.comp_def]

/-- It is the session itself that is dangling. -/
theorem stored_dangling {u : CmallUser} (hu : c.stored.userInfo = some u)
    (huser : (db.findUser u.uid).isSome = true)
    (hsudo : c.stored.sudoMode = true ∧ c.stored.originalUser = none) : c.Dangling db := by
  have hmode : c.sudoMode = true := hsudo.1
  rw [stored_originalUser, if_pos hmode] at hsudo
  rw [stored_userInfo] at hu
  obtain ⟨v, hv, rfl⟩ := Option.map_eq_some_iff.mp hu
  exact ⟨⟨v, hv, huser⟩, hmode, Option.map_eq_none_iff.mp hsudo.2⟩

/-- Without a user nothing is looked up. -/
theorem restored_sameAs_none (hu : c.userInfo = none) :
    c.SameAs (c.stored.restored db) ↔ c.Current db := by
  have hstored : c.stored.restored db = c.stored := by
    simp [ClientSession.restored, ClientSession.stored, CmallSession.toSession,
      ClientSession.toRow, hu]
  rw [hstored]
  constructor
  · intro h
    constructor
    · exact (getD_cookie_iff _).mp h.verifySessionCookie
    · intro _
      exact ⟨h.isAdmin.symm, h.isMerchant.symm⟩
    · intro u hu'
      rw [hu] at hu'
      cases hu'
    · intro u hu'
      rw [hu] at hu'
      cases hu'
    · intro u hu'
      rw [hu] at hu'
      cases hu'
    · intro _ hsome
      rw [hu] at hsome
      cases hsome
    · intro hmode
      have ho := h.originalUser
      simp only [ClientSession.stored, CmallSession.toSession, ClientSession.toRow, hmode] at ho
      cases hx : c.originalUser with
      | none => rfl
      | some o => simp [hx] at ho
  · intro h
    obtain ⟨hadmin, hmerchant⟩ := h.nobody hu
    constructor
    · simp [ClientSession.stored, CmallSession.toSession, ClientSession.toRow, hu]
    · rfl
    · exact (getD_cookie_iff _).mpr h.cookie
    · rfl
    · cases hmode : c.sudoMode with
      | false => simp [ClientSession.stored, CmallSession.toSession, ClientSession.toRow, hmode,
          h.noOriginal hmode]
      | true =>
        cases ho : c.originalUser <;>
          simp [ClientSession.stored, CmallSession.toSession, ClientSession.toRow, hmode, ho]
    · exact hadmin.symm
    · exact hmerchant.symm

/-- What `load_user_info` makes of a stored session whose user has a row. -/
theorem restored_some {u usr : CmallUser} (hu : c.userInfo = some u)
    (husr : db.findUser u.uid = some usr) :
    c.stored.restored db = (c.stored.withRoles db usr).withOriginal db := by
  simp [ClientSession.restored, ClientSession.loaded, ClientSession.withRoles,
    ClientSession.stored, CmallSession.toSession, ClientSession.toRow, hu, husr]

theorem withRoles_isAdmin (db : Db) (c : ClientSession) (usr : CmallUser) :
    (c.stored.withRoles db usr).isAdmin = (db.findAdministrators usr.uid).isSome := by
  simp only [ClientSession.withRoles]
  cases db.findAdministrators usr.uid with
  | some d => rfl
  | none => cases db.findMerchant usr.uid <;> rfl

theorem withRoles_isMerchant (db : Db) (c : ClientSession) (usr : CmallUser) :
    (c.stored.withRoles db usr).isMerchant = (db.findMerchant usr.uid).isSome := by
  simp only [ClientSession.withRoles]
  cases db.findMerchant usr.uid <;> cases db.findAdministrators usr.uid <;> rfl

theorem withRoles_kept (db : Db) (c : ClientSession) (usr : CmallUser) :
    (c.stored.withRoles db usr).userInfo = some usr ∧
      (c.stored.withRoles db usr).sudoMode = c.sudoMode ∧
      (c.stored.withRoles db usr).verifyTelephone = c.verifyTelephone ∧
      (c.stored.withRoles db usr).verifySessionCookie = c.stored.verifySessionCookie ∧
      (c.stored.withRoles db usr).originalUser = c.stored.originalUser := by
  simp only [ClientSession.withRoles]
  cases db.findMerchant usr.uid <;> cases db.findAdministrators usr.uid <;>
    exact ⟨rfl, rfl, rfl, rfl, rfl⟩

/-- The original user is looked up by the uid that was stored. -/
theorem withRoles_original (db : Db) (c : ClientSession) (usr : CmallUser) :
    ((c.stored.withRoles db usr).withOriginal db).originalUser.map Administrators.uid =
      if c.sudoMode = true then
        c.originalUser.map fun o => ((db.findAdministrators o.uid).getD {}).uid
      else none := by
  obtain ⟨-, hmode, -, -, ho⟩ := withRoles_kept db c usr
  rw [stored_originalUser] at ho
  simp only [ClientSession.withOriginal, hmode]
  cases hc : c.sudoMode with
  | false => simp [hc, ho]
  | true => cases hx : c.originalUser <;> simp [hc, hx, ho]

theorem restored_sameAs_some {u usr : CmallUser} (hu : c.userInfo = some u)
    (husr : db.findUser u.uid = some usr) (hdangling : ¬ c.Dangling db) :
    c.SameAs (c.stored.restored db) ↔ c.Current db := by
  have huid : usr.uid = u.uid := Db.findUser_uid husr
  obtain ⟨kuser, kmode, ktel, kcookie, -⟩ := withRoles_kept db c usr
  obtain ⟨ouser, oadmin, omerchant, omode, otel, ocookie⟩ :=
    withOriginal_roles (c.stored.withRoles db usr) db
  have horiginal := withRoles_original db c usr
  have hadmin := withRoles_isAdmin db c usr
  have hmerchant := withRoles_isMerchant db c usr
  rw [huid] at hadmin hmerchant
  rw [restored_some hu husr]
  constructor
  · intro h
    have ho := h.originalUser
    rw [horiginal] at ho
    constructor
    · apply (getD_cookie_iff _).mp
      exact (kcookie.symm.trans ocookie.symm).trans h.verifySessionCookie
    · intro hnone
      rw [hu] at hnone
      cases hnone
    · rintro v hv
      cases hu.symm.trans hv
      rw [husr]
      rfl
    · rintro v hv
      cases hu.symm.trans hv
      rw [← hadmin, ← oadmin, h.isAdmin]
    · rintro v hv
      cases hu.symm.trans hv
      rw [← hmerchant, ← omerchant, h.isMerchant]
    · intro hmode _
      cases hx : c.originalUser with
      | none => exact absurd ⟨⟨u, hu, by rw [husr]; rfl⟩, hmode, hx⟩ hdangling
      | some o =>
        simp only [hmode, hx, if_true, Option.map_some, Option.some.injEq] at ho
        exact ⟨o, rfl, (original_uid_iff o).mp ho⟩
    · intro hmode
      cases hx : c.originalUser with
      | none => rfl
      | some o => simp [hmode, hx] at ho
  · intro h
    constructor
    · rw [ouser, kuser, hu, Option.map_some, Option.map_some, huid]
    · exact otel.trans ktel
    · exact (ocookie.trans kcookie).trans ((getD_cookie_iff _).mpr h.cookie)
    · exact omode.trans kmode
    · rw [horiginal]
      cases hmode : c.sudoMode with
      | false => simp [h.noOriginal hmode]
      | true =>
        obtain ⟨o, ho, hrow⟩ := h.original hmode (by rw [hu]; rfl)
        simpa [ho] using (original_uid_iff o).mpr hrow
    · rw [oadmin, hadmin, h.isAdmin u hu]
    · rw [omerchant, hmerchant, h.isMerchant u hu]

/-- A user without a row is not loaded. -/
theorem restored_sameAs_gone {u : CmallUser} (hu : c.userInfo = some u)
    (hgone : db.findUser u.uid = none) :
    c.SameAs (c.stored.restored db) ↔ c.Current db := by
  have hrestored : (c.stored.restored db).userInfo = none := by
    simp [ClientSession.restored, ClientSession.loaded, ClientSession.stored,
      CmallSession.toSession, ClientSession.toRow, hu, hgone]
  constructor
  · intro h
    have huser := h.user
    rw [hrestored, hu] at huser
    cases huser
  · intro h
    have huser := h.user u hu
    rw [hgone] at huser
    cases huser

theorem restored_sameAs_iff (hdangling : ¬ c.Dangling db) :
    c.SameAs (c.stored.restored db) ↔ c.Current db := by
  cases hu : c.userInfo with
  | none => exact restored_sameAs_none hu
  | some u =>
    cases husr : db.findUser u.uid with
    | none => exact restored_sameAs_gone hu husr
    | some usr => exact restored_sameAs_some hu husr hdangling

end RoundTrip

/-! ### The operations that save -/

section Saved

variable {db : Db} {c : ClientSession} {u : CmallUser}

theorem loggedIn_isMerchant (hmerchant : c.isMerchant = false) :
    (c.loggedIn db u).isMerchant = (db.normalMerchant u.uid).isSome := by
  simp only [ClientSession.loggedIn]
  cases db.normalMerchant u.uid <;> cases db.findAdministrators u.uid <;> first | rfl | exact hmerchant

theorem loggedIn_isAdmin (hadmin : c.isAdmin = false) :
    (c.loggedIn db u).isAdmin = (db.findAdministrators u.uid).isSome := by
  simp only [ClientSession.loggedIn]
  cases db.normalMerchant u.uid <;> cases db.findAdministrators u.uid <;> first | rfl | exact hadmin

theorem loggedIn_kept (db : Db) (c : ClientSession) (u : CmallUser) :
    (c.loggedIn db u).userInfo = some u ∧
    (c.loggedIn db u).sudoMode = c.sudoMode ∧
    (c.loggedIn db u).originalUser = c.originalUser := by
  simp only [ClientSession.loggedIn]
  cases db.normalMerchant u.uid <;> cases db.findAdministrators u.uid <;> exact ⟨rfl, rfl, rfl⟩

/-- Only the login asks for the state of the merchant. -/
theorem normalMerchant_isSome_iff : (db.normalMerchant u.uid).isSome = (db.findMerchant u.uid).isSome ↔
    ∀ m, db.findMerchant u.uid = some m → m.state = .normal := by
  unfold Db.normalMerchant
  cases db.findMerchant u.uid with
  | none => simp
  | some m => by_cases hm : m.state = .normal <;> simp [Option.filter, hm]

/-- A login on a new session. -/
theorem loggedIn_current_iff (hadmin : c.isAdmin = false) (hmerchant : c.isMerchant = false)
    (hmode : c.sudoMode = false) (horiginal : c.originalUser = none)
    (hu : (db.findUser u.uid).isSome = true) :
    ({ c.loggedIn db u with verifySessionCookie := none }).Current db ↔
      ∀ m, db.findMerchant u.uid = some m → m.state = .normal := by
  obtain ⟨kuser, kmode, koriginal⟩ := loggedIn_kept db c u
  rw [← normalMerchant_isSome_iff, ← loggedIn_isMerchant hmerchant]
  constructor
  · exact fun h => h.isMerchant u kuser
  · intro h
    constructor
    · exact fun h => nomatch h
    · intro hnone
      cases kuser.symm.trans hnone
    · intro v hv
      cases kuser.symm.trans hv
      exact hu
    · intro v hv
      cases kuser.symm.trans hv
      exact loggedIn_isAdmin hadmin
    · intro v hv
      cases kuser.symm.trans hv
      exact h
    · intro hsudo
      cases (kmode.trans hmode).symm.trans hsudo
    · exact fun _ => koriginal.trans horiginal

/-- A sudo to `u`. -/
theorem sudoTo_current_iff (hcookie : c.verifySessionCookie ≠ some "")
    (hu : (db.findUser u.uid).isSome = true) :
    (c.sudoTo u (db.findMerchant u.uid)).Current db ↔
      db.findAdministrators u.uid = none ∧
        ∃ o, c.adminInfo = some o ∧ (o.uid = 0 ∨ (db.findAdministrators o.uid).isSome = true) := by
  constructor
  · intro h
    have hadmin : false = (db.findAdministrators u.uid).isSome := h.isAdmin u rfl
    exact ⟨by simpa using hadmin.symm, h.original rfl rfl⟩
  · rintro ⟨hadmin, horiginal⟩
    constructor
    · exact hcookie
    · exact fun h => nomatch h
    · rintro v ⟨⟩
      exact hu
    · rintro v ⟨⟩
      rw [hadmin]
      rfl
    · rintro v ⟨⟩
      rfl
    · exact fun _ _ => horiginal
    · exact fun h => nomatch h

/-- A logout leaves the sudo mode, and the original user with it. -/
theorem clear_current_iff : c.clear.Current db ↔ (c.sudoMode = false → c.originalUser = none) := by
  constructor
  · exact fun h => h.noOriginal
  · intro h
    constructor
    · exact fun h => nomatch h
    · exact fun _ => ⟨rfl, rfl⟩
    · exact fun u h => nomatch h
    · exact fun u h => nomatch h
    · exact fun u h => nomatch h
    · exact fun _ h => nomatch h
    · exact h

end Saved

/-! ### A new connection -/

/-- A new connection `c` that sends the cookie of the session at `a` gets that session. -/
def Service.RoundTrips (cfg : Config) (s : Service) (a c : Nat) (ip : String) : Prop :=
  ∃ n, ∀ m, n ≤ m →
    (s.turn (prog cfg) (.connect c ip [(s.mem.heap a).sessionId] false)
      (List.replicate m {})).returned s.procs.length = true ∧
    ∃ b, ((s.turn (prog cfg) (.connect c ip [(s.mem.heap a).sessionId] false)
        (List.replicate m {})).mem.conn c).sessionInfo = some b ∧
      (s.mem.heap a).SameAs ((s.turn (prog cfg) (.connect c ip [(s.mem.heap a).sessionId] false)
        (List.replicate m {})).mem.heap b)

/-- The turn of the new connection is the recovery. -/
theorem connect_turn (cfg : Config) (s : Service) {c : Nat} (ip sessionid : String)
    (hfree : (s.mem.conn c).sessionInfo = none) {x : Except Exn Unit} {t : Mem}
    (hx : (recoverByCookie ⟨c, s.procs.length⟩ [sessionid]).eval {} (s.mem.withRealIp c ip) =
      (x, t)) :
    ∃ n, ∀ m, n ≤ m →
      s.turn (prog cfg) (.connect c ip [sessionid] false) (List.replicate m {}) =
        ⟨t, s.procs ++ [⟨.connect c ip [sessionid] false, Co.ofResult x⟩]⟩ := by
  have hprog : prog cfg s.procs.length (.connect c ip [sessionid] false) =
      (Co.suspend ⟨⟨c, s.procs.length⟩, .start none⟩ >>= fun _ =>
        serve cfg ⟨c, s.procs.length⟩ (.connect c ip [sessionid] false)) := rfl
  obtain ⟨n, hn⟩ := Sys.turn_eval {} hprog
  refine ⟨n, fun m hm => ?_⟩
  rw [hn m hm]
  simp only [serve]
  rw [clientConnected_eval hfree, hx]

/-- A session that is stored as it is comes back as it is just when it is current. -/
theorem stored_session_round_trip_iff (cfg : Config) (s : Service) (a c : Nat) (ip : String)
    (row : CmallSession) (saveIp : String) (now : PTime)
    (hfree : (s.mem.conn c).sessionInfo = none) (hid : (s.mem.heap a).sessionId ≠ "")
    (hrow : s.mem.db.findSession (s.mem.heap a).sessionId = some row)
    (hsaved : row.cacheContent = ((s.mem.heap a).toRow saveIp now).cacheContent) :
    Service.RoundTrips cfg s a c ip ↔ (s.mem.heap a).Current s.mem.db := by
  have hstored := toSession_stored hsaved
  by_cases hdangling : (s.mem.heap a).Dangling s.mem.db
  · -- the recovery ends in the dereference
    obtain ⟨⟨u, hu, huser⟩, hmode, horiginal⟩ := hdangling
    obtain ⟨e, t, hx⟩ : ∃ e t, (recoverByCookie ⟨c, s.procs.length⟩
        [(s.mem.heap a).sessionId]).eval {} (s.mem.withRealIp c ip) = (.error e, t) := by
      apply recoverByCookie_eval_error (s := s.mem.withRealIp c ip) (u := { uid := u.uid }) hid hrow
      · rw [hstored, stored_userInfo, hu]
        rfl
      · exact huser
      · rw [hstored, stored_originalUser, horiginal]
        exact ⟨hmode, by simp⟩
    obtain ⟨n, hturn⟩ := connect_turn cfg s ip (s.mem.heap a).sessionId hfree hx
    constructor
    · rintro ⟨n', hn'⟩
      have hret := (hn' (max n n') (Nat.le_max_right _ _)).1
      rw [hturn _ (Nat.le_max_left _ _)] at hret
      simp [Sys.returned, Co.ofResult, Co.returned] at hret
    · intro h
      exact absurd ⟨⟨u, hu, huser⟩, hmode, horiginal⟩ h.not_dangling
  · have hsudo : ∀ u, (row.toSession (s.mem.heap a).sessionId).userInfo = some u →
        (s.mem.db.findUser u.uid).isSome = true →
          ¬ ((row.toSession (s.mem.heap a).sessionId).sudoMode = true ∧
            (row.toSession (s.mem.heap a).sessionId).originalUser = none) := by
      rw [hstored]
      exact fun u hu huser hsudo => hdangling (stored_dangling hu huser hsudo)
    obtain ⟨t, hx, hconn, hheap⟩ : ∃ t, (recoverByCookie ⟨c, s.procs.length⟩
        [(s.mem.heap a).sessionId]).eval {} (s.mem.withRealIp c ip) = (.ok (), t) ∧
        (t.conn c).sessionInfo = some s.mem.heapTop ∧
        t.heap s.mem.heapTop = (row.toSession (s.mem.heap a).sessionId).restored s.mem.db :=
      recoverByCookie_eval_ok hid hrow hsudo
    rw [hstored] at hheap
    obtain ⟨n, hturn⟩ := connect_turn cfg s ip (s.mem.heap a).sessionId hfree hx
    rw [← restored_sameAs_iff hdangling]
    constructor
    · rintro ⟨n', hn'⟩
      obtain ⟨-, b, hb, hsame⟩ := hn' (max n n') (Nat.le_max_right _ _)
      rw [hturn _ (Nat.le_max_left _ _)] at hb hsame
      cases hconn.symm.trans hb
      have hheap' := hheap ▸ hsame
      exact hheap'
    · intro h
      refine ⟨n, fun m hm => ?_⟩
      rw [hturn m hm]
      refine ⟨by simp [Sys.returned, Co.ofResult, Co.returned], _, hconn, ?_⟩
      rw [hheap]
      exact h

/-! ## A merchant logs in -/

/-- Merchant 1 has not logged in yet on connection 0. -/
def merchantBefore (state : MerchantState) : Mem where
  db :=
    { users := [{ uid := 1, activePhone := "1" }]
      merchants := [{ uid := 1, state := state }]
      seq := { user := 1 } }
  heapTop := 1
  heap _ := { sessionId := "S" }
  conn c := if c = 0 then { sessionInfo := some 0 } else {}

/-- The login, which saves the session. -/
def merchantLoggedIn (state : MerchantState) : Service :=
  (Sys.idle (merchantBefore state) : Service).turn (prog bareConfig)
    (.jsonrpc 0 .userFastlogin []) ({} :: { answer := some "1" } :: List.replicate 8 {})

/-- The session of a merchant in state normal comes back as it is. -/
theorem stored_session_round_trip_iff_normal :
    (merchantLoggedIn .normal).quiet = true ∧
      Service.RoundTrips bareConfig (merchantLoggedIn .normal) 0 1 "" := by
  constructor
  · decide
  · refine (stored_session_round_trip_iff bareConfig (merchantLoggedIn .normal) 0 1 ""
      ⟨"S", some 1, ⟨some 1, "1", "", false, none⟩, some "", 0, 0⟩ "" 0 (by decide) (by decide)
      (by decide) (by decide)).mpr ?_
    have hu : ((merchantLoggedIn .normal).mem.heap 0).userInfo =
        some { uid := 1, activePhone := "1" } := by decide
    constructor
    · decide
    · rw [hu]
      exact fun h => nomatch h
    · rw [hu]
      rintro u ⟨⟩
      decide
    · rw [hu]
      rintro u ⟨⟩
      decide
    · rw [hu]
      rintro u ⟨⟩
      decide
    · decide
    · decide

/-- The session of a disabled merchant comes back with the merchant role it did not have. -/
theorem disabled_merchant_session_changes :
    let s := merchantLoggedIn .disabled
    let t := s.turn (prog bareConfig) (.connect 1 "" ["S"] false) (List.replicate 15 {})
    s.quiet = true ∧ (s.mem.heap 0).sessionId = "S" ∧
      (s.mem.db.findSession "S").map CmallSession.cacheContent =
        some ((s.mem.heap 0).toRow "" 0).cacheContent ∧
      (s.mem.heap 0).userInfo = some { uid := 1, activePhone := "1" } ∧
      (s.mem.heap 0).isMerchant = false ∧
      t.quiet = true ∧ (t.mem.conn 1).sessionInfo = some 1 ∧
      (t.mem.heap 1).userInfo = some { uid := 1, activePhone := "1" } ∧
      (t.mem.heap 1).isMerchant = true ∧ ¬ (s.mem.heap 0).SameAs (t.mem.heap 1) := by
  refine ⟨by decide, by decide, by decide, by decide, by decide, by decide, by decide, by decide,
    by decide, ?_⟩
  intro h
  exact absurd h.isMerchant (by decide)

end Cmall
