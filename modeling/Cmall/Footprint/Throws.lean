import Cmall.Coroutine.Failures
import Cmall.Footprint.Handlers

/-!
What the operations handlers are made of can fail with. All of them can end with a
`system_error` or another `std::exception`; undefined behaviour is told apart by the
dereference it comes from: `e.Not w` says that `e` is not the one that `w` names.
-/

namespace Cmall
open Coroutine

/-- The error is not undefined behaviour at `w`. -/
def Exn.Not (w : String) (e : Exn) : Prop := e ≠ .undefined w

@[simp] theorem Exn.not_system (w : String) (e : Errc) : (Exn.system e).Not w := by simp [Exn.Not]

@[simp] theorem Exn.not_std (w text : String) : (Exn.std text).Not w := by simp [Exn.Not]

@[simp] theorem Exn.not_undefined (w text : String) : (Exn.undefined text).Not w ↔ text ≠ w := by
  simp [Exn.Not]

instance (w : String) (e : Exn) : Decidable (e.Not w) := inferInstanceAs (Decidable (e ≠ _))

/-- `F` allows the exceptions that any operation can end with. -/
class Usual (F : Exn → Prop) : Prop where
  system : ∀ e, F (.system e)
  std : ∀ text, F (.std text)

instance (w : String) : Usual (Exn.Not w) := ⟨Exn.not_system w, Exn.not_std w⟩

section Throws

variable {F : Exn → Prop} {α : Type} {ctx : Ctx}

@[simp] theorem throws_ret (a : α) : (Co.ret a : M α).Throws F := trivial

@[simp] theorem throws_pure (a : α) : (pure a : M α).Throws F := trivial

@[simp] theorem throws_throw (e : Exn) : (Co.throw e : M α).Throws F ↔ F e := Iff.rfl

@[simp] theorem throws_get : (Co.get : M Mem).Throws F := fun _ => trivial

@[simp] theorem throws_modify (f : Mem → Mem) : (Co.modify f : M Unit).Throws F :=
  fun _ => trivial

@[simp] theorem throws_modifyGet (f : Mem → α × Mem) :
    (Co.modifyGet f : M α).Throws F := fun _ => trivial

@[simp] theorem throws_suspend (p : Point) : (Co.suspend p : M Input).Throws F :=
  fun _ => trivial

@[simp] theorem emit_throws (e : Event) : (emit e).Throws F := throws_modify _

@[simp] theorem getSession_throws (a : Nat) : (getSession a).Throws F :=
  Co.throws_bind throws_get fun _ => throws_pure _

@[simp] theorem modifySession_throws (a : Nat) (f : ClientSession → ClientSession) :
    (modifySession a f).Throws F := throws_modify _

@[simp] theorem thisSession_throws (h : F (.undefined "session_info")) :
    (thisSession ctx).Throws F := by
  refine Co.throws_bind throws_get fun s => ?_
  split
  · exact throws_pure _
  · simpa using h

@[simp] theorem thisUser_throws (a : Nat) (h : F (.undefined "user_info")) :
    (thisUser a).Throws F := by
  refine Co.throws_bind (getSession_throws a) fun c => ?_
  split
  · exact throws_pure _
  · simpa using h

@[simp] theorem readRepo_throws (merchantId : Nat) (repo : Repo) (f : Repo → α) :
    (readRepo ctx merchantId repo f).Throws F :=
  Co.throws_bind (throws_suspend _) fun _ => Co.throws_bind throws_get fun _ => throws_pure _

@[simp] theorem pushActive_throws (h : F (.undefined "session_info")) (h' : F (.undefined "user_info")) :
    (pushActive ctx).Throws F :=
  Co.throws_bind (thisSession_throws h) fun a => Co.throws_bind (thisUser_throws a h') fun _ =>
    throws_modify _

variable [Usual F]

@[simp] theorem tx_throws (spot : Spot) (f : Input → Mem → Option α × Mem) (after : α → Spot) :
    (tx ctx spot f after).Throws F := by
  refine Co.throws_bind (throws_suspend _) fun i => ?_
  split
  · refine Co.throws_bind (throws_modifyGet _) fun o => ?_
    split
    · exact Co.throws_bind (throws_suspend _) fun _ => throws_pure _
    · exact Co.throws_bind (throws_suspend _) fun _ => Usual.system _
  · exact Co.throws_bind (throws_suspend _) fun _ => Usual.system _

@[simp] theorem asyncLoad_throws (f : Db → α) (after : α → Spot) :
    (asyncLoad ctx f after).Throws F := tx_throws _ _ _

@[simp] theorem asyncWrite_throws (f : Mem → Option (α × Db)) (spot : Spot) (after : α → Spot) :
    (asyncWrite ctx f spot after).Throws F := tx_throws _ _ _

@[simp] theorem reloadUser_throws (a uid : Nat) (after : Bool → Spot) :
    (reloadUser ctx a uid after).Throws F := tx_throws _ _ _

@[simp] theorem asyncLoadOrder_throws (who : Actor) (p : CmallOrder → Bool) (spot : Spot) :
    (asyncLoadOrder ctx who p spot).Throws F := tx_throws _ _ _

@[simp] theorem external_throws : (external ctx).Throws F := by
  refine Co.throws_bind (throws_suspend _) fun i => ?_
  split
  · exact throws_pure _
  · exact Usual.std _

@[simp] theorem getMerchantGitRepo_throws (merchantId : Nat) :
    (getMerchantGitRepo merchantId).Throws F := by
  refine Co.throws_bind throws_get fun s => ?_
  split
  · exact throws_pure _
  · exact Usual.system _

@[simp] theorem saveSession_throws (h : F (.undefined "session_info")) :
    (saveSession ctx).Throws F :=
  Co.throws_bind (thisSession_throws h) fun _ => Co.throws_bind throws_get fun _ =>
    tx_throws _ _ _

@[simp] theorem ensureLogin_throws (checkAdmin checkMerchant : Bool) (h : F (.undefined "session_info")) :
    (ensureLogin ctx checkAdmin checkMerchant).Throws F := by
  refine Co.throws_bind (thisSession_throws h) fun a => Co.throws_bind (getSession_throws a) ?_
  intro c
  split
  · exact Usual.system _
  · split
    · exact Usual.system _
    · split
      · exact Usual.system _
      · exact throws_pure _

end Throws

end Cmall
