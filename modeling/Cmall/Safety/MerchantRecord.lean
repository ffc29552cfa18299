import Cmall.Footprint.Sessions
import Cmall.Safety.RoleCoherence

/-!
A merchant session has its merchant record.

Every write of `isMerchant` and of `merchant_info` keeps the flag beside a record, at
every suspension point. A `merchant_*` request that passes `ensure_login` runs on to
the entry of its handler without suspension, so the references there are valid.
-/

namespace Cmall
open Coroutine

/-- The flag of the merchant role stands beside a merchant record. -/
def ClientSession.HasRecord (c : ClientSession) : Prop :=
  c.isMerchant = true → c.merchantInfo.isSome = true

theorem SessionWrite.hasRecord {c c' : ClientSession} (h : SessionWrite c c') (hc : c.HasRecord) :
    c'.HasRecord := by
  cases h with
  | user u => exact hc
  | dropUser => exact hc
  | merchant m => exact fun _ => rfl
  | merchantInfo m => exact fun _ => rfl
  | editMerchant f =>
    intro hrole
    rw [Option.isSome_map]
    exact hc hrole
  | admin d => exact hc
  | original o => exact hc
  | telephone tel => exact hc
  | cookie x => exact hc
  | logout => exact fun hrole => by cases hrole
  -- the flag of both is whether there is a row
  | sudoTo u m => exact id
  | sudoCancel u m => exact id

theorem NewSession.hasRecord {c : ClientSession} (h : NewSession c) : c.HasRecord := by
  cases h with
  | fresh sessionId => exact fun hrole => by cases hrole
  | apiToken sessionId u => exact fun hrole => by cases hrole
  | stored row sessionId => exact fun hrole => by cases hrole

/-- What `ensure_login(false, true)` lets pass. -/
theorem ensureLogin_merchant {ctx : Ctx} {s : Mem}
    (h : (ensureLogin ctx false true).advance s = (s, .ret ())) :
    ∃ a, (s.conn ctx.conn).sessionInfo = some a ∧ (s.heap a).userInfo.isSome = true ∧
      (s.heap a).isMerchant = true := by
  cases hconn : (s.conn ctx.conn).sessionInfo with
  | none => simp [ensureLogin, thisSession, getSession, Co.get, Co.throw, Co.advance, hconn] at h
  | some a =>
    refine ⟨a, rfl, ?_⟩
    cases huser : (s.heap a).userInfo with
    | none =>
      simp [ensureLogin, thisSession, getSession, Co.get, Co.throw, Co.advance, hconn, huser] at h
    | some u =>
      cases hrole : (s.heap a).isMerchant with
      | false =>
        simp [ensureLogin, thisSession, getSession, Co.get, Co.throw, Co.advance, hconn, huser,
          hrole] at h
      | true => exact ⟨rfl, rfl⟩

/-- In every state of every run a session with the merchant role has a merchant record,
and when `ensure_login(false, true)` passes, the session, the user and the merchant that
the handler refers to at its entry are there. -/
theorem merchant_sessions_have_record (cfg : Config) (m : Mem) (ls : List (Label Request Input))
    (hm : ∀ a, (m.heap a).isMerchant = true → (m.heap a).merchantInfo.isSome = true) :
    let s := ((Sys.idle m : Service).run (prog cfg) ls).mem
    (∀ a, (s.heap a).isMerchant = true → (s.heap a).merchantInfo.isSome = true) ∧
      ∀ ctx, (ensureLogin ctx false true).advance s = (s, .ret ()) →
        ∃ a, (merchantEntry ctx).advance s = (s, .ret a) := by
  intro s
  have hrecord : ∀ a, (s.heap a).HasRecord :=
    run_sessions (fun _ _ h => h.hasRecord) (fun _ h => h.hasRecord) hm cfg ls
  refine ⟨hrecord, fun ctx hlogin => ?_⟩
  obtain ⟨a, hconn, huser, hrole⟩ := ensureLogin_merchant hlogin
  obtain ⟨u, hu⟩ := Option.isSome_iff_exists.mp huser
  obtain ⟨x, hx⟩ := Option.isSome_iff_exists.mp (hrecord a hrole)
  refine ⟨a, ?_⟩
  simp [merchantEntry, thisSession, thisUser, thisMerchant, getSession, Co.get, Co.advance, hconn,
    hu, hx]

/-- The user of phone 100 logs in and is a merchant. -/
theorem merchant_sessions_have_record_after_login :
    let s := ((Sys.idle merchantAndUser : Service).run (prog bareConfig) (fastlogin 0 "100")).mem
    (s.heap 0).isMerchant = true ∧ (s.heap 0).merchantInfo.isSome = true :=
  ⟨by decide, (merchant_sessions_have_record bareConfig merchantAndUser (fastlogin 0 "100")
    fun _ h => by cases h).1 0 (by decide)⟩

end Cmall
