import Cmall.Footprint.Triples
import Cmall.Safety.OneAccount

/-!
Applications for a merchant account and the decisions on them.

`admin_approve_merchant` and `admin_deny_applicant` select an application and write the
whole row back; other transactions can commit in between. `DecisionRules` is what a
protocol has to grant so that both keep to it.
-/

namespace Cmall
open Coroutine Protocol

/-! ## Rows -/

def Db.applyRow (db : Db) (k : Nat) : Option CmallApplyForMechant :=
  Table.find CmallApplyForMechant.id db.applys k

/-- What no decision changes of a row. -/
def CmallApplyForMechant.origin (x : CmallApplyForMechant) : Nat × Option Nat :=
  (x.applicant, x.seq)

/-- Ids are drawn from a sequence. -/
structure Db.ApplyIds (db : Db) : Prop where
  nodup : (db.applys.map CmallApplyForMechant.id).Nodup
  le : ∀ x ∈ db.applys, x.id ≤ db.seq.apply

/-- The row of `x` is there, as it was but for the decision. -/
def Db.HasRow (x : CmallApplyForMechant) (db : Db) : Prop :=
  ∃ y, db.applyRow x.id = some y ∧ y.origin = x.origin

/-- Every row stays, as it was but for the decision. -/
def Db.KeepsRows (db db' : Db) : Prop :=
  ∀ k y, db.applyRow k = some y → ∃ z, db'.applyRow k = some z ∧ z.origin = y.origin

section Rows

variable {db db' : Db} {x row : CmallApplyForMechant}

theorem Db.hasRow_of_find {k : Nat} (h : db.applyRow k = some x) : db.HasRow x :=
  ⟨x, by rw [Table.find_key h]; exact h, rfl⟩

theorem Db.ApplyIds.applyRow (h : db.ApplyIds) (hx : x ∈ db.applys) : db.applyRow x.id = some x :=
  Table.find_of_mem h.nodup hx

theorem Db.KeepsRows.hasRow (h : db.KeepsRows db') (hx : db.HasRow x) : db'.HasRow x := by
  obtain ⟨y, hy, horigin⟩ := hx
  obtain ⟨z, hz, hsame⟩ := h _ _ hy
  exact ⟨z, hz, hsame.trans horigin⟩

theorem Db.KeepsRows.refl (db : Db) : db.KeepsRows db := fun _ y h => ⟨y, h, rfl⟩

theorem Db.KeepsRows.trans {db'' : Db} (h : db.KeepsRows db') (h' : db'.KeepsRows db'') :
    db.KeepsRows db'' := by
  intro k y hy
  obtain ⟨z, hz, hzy⟩ := h k y hy
  obtain ⟨w, hw, hwz⟩ := h' k z hz
  exact ⟨w, hw, hwz.trans hzy⟩

theorem Db.KeepsRows.of_eq (h : db'.applys = db.applys) : db.KeepsRows db' := by
  intro k y hy
  refine ⟨y, ?_, rfl⟩
  rw [Db.applyRow, h]
  exact hy

/-- A decision is written. -/
theorem Db.KeepsRows.update (hrow : db.HasRow row)
    (h : db'.applys = Table.update CmallApplyForMechant.id db.applys row) : db.KeepsRows db' := by
  obtain ⟨old, hold, horigin⟩ := hrow
  intro k y hy
  rw [Db.applyRow, h]
  by_cases hk : k = row.id
  · subst hk
    rw [hold] at hy
    cases hy
    exact ⟨row, Table.find_update_self (Option.isSome_iff_exists.mpr ⟨old, hold⟩), horigin.symm⟩
  · exact ⟨y, (Table.find_update_ne hk).trans hy, rfl⟩

theorem Db.ApplyIds.update (hi : db.ApplyIds) (hrow : db.HasRow row)
    (h : db'.applys = Table.update CmallApplyForMechant.id db.applys row)
    (hseq : db'.seq.apply = db.seq.apply) : db'.ApplyIds := by
  obtain ⟨old, hold, -⟩ := hrow
  constructor
  · rw [h, Table.map_update hold (Table.find_key hold).symm]
    exact hi.nodup
  · intro y hy
    rw [h] at hy
    rw [hseq]
    rcases Table.mem_update hy with rfl | hy
    · exact Table.find_key hold ▸ hi.le old (Table.mem_of_find hold)
    · exact hi.le y hy

theorem Db.ApplyIds.of_eq (hi : db.ApplyIds) (h : db'.applys = db.applys)
    (hseq : db'.seq.apply = db.seq.apply) : db'.ApplyIds := by
  constructor
  · rw [h]
    exact hi.nodup
  · rw [h, hseq]
    exact hi.le

end Rows

/-! ## Writes -/

section Writes

variable {db db' : Db} {x : CmallApplyForMechant} {u : CmallUser} {password reason : String}
  {now : PTime}

/-- An approval that does not throw. -/
theorem Db.approveMerchant_some {m : CmallMerchant}
    (h : db.approveMerchant x u password now = some (m, db')) :
    (∃ y, db.applyRow x.id = some y) ∧ db.findMerchant u.uid = none ∧ m.uid = u.uid ∧
      db'.merchants = db.merchants ++ [m] ∧ db'.seq = db.seq ∧
      db'.applys = Table.update CmallApplyForMechant.id db.applys
        { x with state := .approved, deletedAt := some now } := by
  unfold Db.approveMerchant at h
  split at h
  · rename_i y hy hm
    cases h
    exact ⟨⟨y, hy⟩, hm, rfl, rfl, rfl, rfl⟩
  · cases h

/-- A denial that does not throw. -/
theorem Db.denyApplicant_some (h : db.denyApplicant x reason now = some ((), db')) :
    (∃ y, db.applyRow x.id = some y) ∧ db'.merchants = db.merchants ∧ db'.seq = db.seq ∧
      db'.applys = Table.update CmallApplyForMechant.id db.applys
        { x with state := .denied, ext := reason, updatedAt := now } := by
  unfold Db.denyApplicant at h
  split at h
  · rename_i y hy
    cases h
    exact ⟨⟨y, hy⟩, rfl, rfl, rfl⟩
  · cases h

/-- An application that does not throw. -/
theorem Db.persistApply_some (h : db.persistApply x = some ((), db')) :
    (∀ y ∈ db.applys, ¬ (y.applicant = x.applicant ∧ y.seq = x.seq ∧ x.seq.isSome = true)) ∧
      db'.merchants = db.merchants ∧ db'.seq.apply = db.seq.apply + 1 ∧
      db'.applys = db.applys ++ [{ x with id := db.seq.apply + 1 }] := by
  unfold Db.persistApply at h
  split at h
  · cases h
  · rename_i hnew
    cases h
    refine ⟨?_, rfl, rfl, rfl⟩
    simpa using hnew

theorem Db.KeepsRows.append {row : CmallApplyForMechant} (h : db'.applys = db.applys ++ [row]) :
    db.KeepsRows db' := by
  intro k y hy
  rw [Db.applyRow, h]
  exact ⟨y, Table.find_append_of_some hy, rfl⟩

theorem Db.ApplyIds.persistApply (hi : db.ApplyIds) (h : db.persistApply x = some ((), db')) :
    db'.ApplyIds := by
  obtain ⟨-, -, hseq, happlys⟩ := Db.persistApply_some h
  constructor
  · rw [happlys, List.map_append, List.nodup_append]
    refine ⟨hi.nodup, by simp, ?_⟩
    rintro k hk j hj rfl
    obtain ⟨y, hy, rfl⟩ := List.mem_map.mp hk
    have hle := hi.le y hy
    simp at hj
    omega
  · intro y hy
    rw [happlys] at hy
    rcases List.mem_append.mp hy with hy | hy
    · have hle := hi.le y hy
      omega
    · rw [List.mem_singleton.mp hy, hseq]

end Writes

/-! ## Handlers -/

theorem ReqMethod.applys_of_footprint {method : ReqMethod} (h : .applys ∈ method.footprint) :
    method = .userApplyMerchant ∨ method = .adminApproveMerchant ∨ method = .adminDenyApplicant := by
  cases method <;> simp [ReqMethod.footprint] at h ⊢

/-- What decisions touch besides their tables. -/
def besideDecisions : List Part := [.uuids, .repos, .otherEvents]

/-- What the two handlers need of a protocol. `L x` is what is known of a row `x` from the
time it is selected. -/
structure DecisionRules (P : Protocol Request Mem Input Point) (r : Nat) (q : Request) (ctx : Ctx)
    (L : CmallApplyForMechant → Db → Prop) : Prop where
  ids : ∀ s, P.inv s → s.db.ApplyIds
  stable : ∀ x, P.Stable r q fun s => L x s.db
  found : ∀ s k x, P.inv s → s.db.applyRow k = some x → L x s.db
  beside : ∀ s t, P.inv s → Keeps besideDecisions r s t → P.guar r q s t
  approve : ∀ i s x u password m db, P.inv s → L x s.db → P.guard r q ⟨ctx, .approve x⟩ i s →
    u.uid = x.applicant → s.db.approveMerchant x u password s.clock = some (m, db) →
    P.guar r q s { s with db := db }
  deny : ∀ i s x reason db, P.inv s → L x s.db → P.guard r q ⟨ctx, .deny x⟩ i s →
    s.db.denyApplicant x reason s.clock = some ((), db) → P.guar r q s { s with db := db }

section Handlers

variable {P : Protocol Request Mem Input Point} {r : Nat} {q : Request} {ctx : Ctx} {α : Type}
  {L : CmallApplyForMechant → Db → Prop}

/-- The coroutine keeps to the protocol, whatever holds before and after. -/
def KeepsTo (P : Protocol Request Mem Input Point) (r : Nat) (q : Request) (x : M α) : Prop :=
  P.Triple r q (fun _ => True) x (fun _ _ => True) (fun _ => True)

theorem KeepsTo.bind {β : Type} {x : M α} {g : α → M β} (hx : KeepsTo P r q x)
    (hg : ∀ a, KeepsTo P r q (g a)) : KeepsTo P r q (x >>= g) := Triple.bind hx hg

theorem keepsTo_throw (e : Exn) : KeepsTo P r q (Co.throw e : M α) := .throw fun _ _ _ => trivial

theorem keepsTo_ret (a : α) : KeepsTo P r q (Co.ret a : M α) := .ret fun _ _ _ => trivial

theorem DecisionRules.keepsTo (h : DecisionRules P r q ctx L) {x : M α}
    (hx : x.Each (Keeps besideDecisions r)) : KeepsTo P r q x :=
  .each hx stable_true fun s t hi _ hk => ⟨h.beside s t hi hk, trivial⟩

/-- A row is selected; `p` is what the select says of it. -/
theorem triple_selected {f : Db → Option α} {g : α → CmallApplyForMechant} {p : α → Prop}
    (h : DecisionRules P r q ctx L)
    (hf : ∀ s a, P.inv s → f s.db = some a → s.db.applyRow (g a).id = some (g a) ∧ p a) :
    P.Triple r q (fun _ => True) (asyncLoad ctx f)
      (fun found s => ∀ a, found = some a → p a ∧ L (g a) s.db) (fun _ => True) := by
  refine triple_asyncLoad (fun found s => ∀ a, found = some a → p a ∧ L (g a) s.db) stable_true ?_
    (fun _ _ _ => trivial) ?_ fun _ _ _ _ hl _ => hl
  · intro found s t hi hr hl a ha
    exact ⟨(hl a ha).1, h.stable (g a) s t hi hr (hl a ha).2⟩
  · intro s hi _ a ha
    obtain ⟨hrow, hp⟩ := hf s a hi ha
    exact ⟨hp, h.found s _ _ hi hrow⟩

/-- A selected row is written back by `f`. -/
theorem triple_writeBack {x : CmallApplyForMechant} {f : Mem → Option (α × Db)} {spot : Spot}
    (h : DecisionRules P r q ctx L)
    (hf : ∀ i s a db, P.inv s → L x s.db → P.guard r q ⟨ctx, spot⟩ i s → f s = some (a, db) →
      P.guar r q s { s with db := db }) :
    P.Triple r q (fun s => L x s.db) (asyncWrite ctx f spot) (fun _ _ => True) (fun _ => True) := by
  exact triple_asyncWrite (fun _ _ => True) (h.stable x) (fun _ => stable_true) (fun _ _ _ => trivial)
    (fun i s a db hi hl hg hw => ⟨hf i s a db hi hl hg hw, trivial⟩) fun _ _ _ _ _ _ => trivial

theorem approveTransaction_keepsTo (h : DecisionRules P r q ctx L) (applyId : Nat) :
    KeepsTo P r q (approveTransaction ctx applyId) := by
  refine Triple.tryCatch (F := fun _ => True) ?_ fun e => keepsTo_throw _
  refine .bind (triple_selected (g := fun a => a.1)
    (p := fun a => ∀ u, a.2 = some u → u.uid = a.1.applicant) h ?_) fun found => ?_
  · intro s a _ ha
    obtain ⟨y, hy, rfl⟩ := Option.map_eq_some_iff.mp ha
    refine ⟨?_, fun u hu => Db.findUser_uid hu⟩
    rw [Table.find_key hy]
    exact hy
  have hend : ∀ (x : M (Option CmallMerchant)), KeepsTo P r q x → P.Triple r q
      (fun s => ∀ a, found = some a → (∀ u, a.2 = some u → u.uid = a.1.applicant) ∧ L a.1 s.db)
      x (fun _ _ => True) (fun _ => True) :=
    fun x hx => .conseq hx (fun _ _ _ => trivial) (fun _ _ _ hq => hq) fun _ _ he => he
  split
  · exact hend _ (keepsTo_ret _)
  · exact hend _ (keepsTo_throw _)
  · rename_i x u
    split
    · exact hend _ (keepsTo_ret _)
    · refine .conseq (L := fun s => u.uid = x.applicant ∧ L x s.db) (.pure fun hu => ?_)
        (fun s _ hl => ?_) (fun _ _ _ hq => hq) fun _ _ he => he
      · refine .bind (Q := fun _ s => L x s.db) (.modifyGet fun s hi hl => ⟨?_, hl⟩) fun password => ?_
        · exact h.beside _ _ hi { Keeps.refl besideDecisions r s with
            uuids := fun hK => absurd (by simp [besideDecisions]) hK
            uuids_le := Nat.le_succ _ }
        · refine .bind (triple_writeBack h fun i s m db hi hl hg hw => ?_) fun m => keepsTo_ret _
          exact h.approve i s x u password m db hi hl hg hu hw
      · obtain ⟨hu, hx⟩ := hl (x, some u) rfl
        exact ⟨hu u rfl, hx⟩

theorem adminApproveMerchant_keepsTo (h : DecisionRules P r q ctx L) (hr : ctx.req = r)
    (params : JsonObject) : KeepsTo P r q (adminApproveMerchant ctx params) := by
  subst hr
  simp only [adminApproveMerchant]
  repeat' first
    | with_reducible exact approveTransaction_keepsTo h _
    | with_reducible refine .bind ?_ fun _ => ?_
    | (refine h.keepsTo ?_; simp [besideDecisions]; done)
    | split

theorem denyWaiting_keepsTo (h : DecisionRules P r q ctx L) (applyId : Nat) (reason : String) :
    KeepsTo P r q (denyWaiting ctx applyId reason) := by
  refine Triple.bind (triple_selected (g := fun x => x) (p := fun _ => True) h ?_) fun found => ?_
  · intro s x hi hx
    exact ⟨(h.ids s hi).applyRow (Table.queryOne_some hx).1, trivial⟩
  · split
    · rename_i x
      refine .conseq (triple_writeBack h fun i s a db hi hl hg hw => ?_)
        (fun s _ hl => (hl x rfl).2) (fun _ _ _ hq => hq) fun _ _ he => he
      exact h.deny i s x reason db hi hl hg hw
    · exact .conseq (keepsTo_ret _) (fun _ _ _ => trivial) (fun _ _ _ hq => hq) fun _ _ he => he

theorem adminDenyApplicant_keepsTo (h : DecisionRules P r q ctx L) (params : JsonObject) :
    KeepsTo P r q (adminDenyApplicant ctx params) := by
  simp only [adminDenyApplicant]
  repeat' first
    | with_reducible exact denyWaiting_keepsTo h _ _
    | with_reducible refine .bind ?_ fun _ => ?_
    | (refine h.keepsTo ?_; simp; done)
    | split

/-- A program keeps to the protocol when its handler does. -/
theorem prog_of_keepsTo {cfg : Config} {conn : Nat} {method : ReqMethod} {params : JsonObject} {m : Mem}
    (hpost : ∀ s, P.post r (.jsonrpc conn method params) s)
    (hreply : ∀ reply s, P.inv s → P.guar r (.jsonrpc conn method params) s
      { s with trace := .replied r reply :: s.trace })
    (h : KeepsTo P r (.jsonrpc conn method params) (handlerOf cfg ⟨conn, r⟩ method params)) :
    (prog cfg r (.jsonrpc conn method params)).Suspended P r (.jsonrpc conn method params) m := by
  have hhandler : P.Triple r (.jsonrpc conn method params) (fun _ => True)
      (handlerOf cfg ⟨conn, r⟩ method params) (fun _ _ => True)
      (P.post r (.jsonrpc conn method params)) :=
    .conseq h (fun _ _ hl => hl) (fun _ _ _ hq => hq) fun s _ _ => hpost s
  exact prog_suspended_of_handler (L := fun _ => True) stable_true trivial
    (fun _ _ _ _ _ => trivial) (fun s _ _ => hpost s) hhandler
    fun reply s hi _ => ⟨hreply reply s hi, hpost _⟩

/-- The programs of the two handlers keep to the protocol. -/
theorem prog_decision {cfg : Config} {conn : Nat} {method : ReqMethod} {params : JsonObject} {m : Mem}
    (hmethod : method = .adminApproveMerchant ∨ method = .adminDenyApplicant)
    (hpost : ∀ s, P.post r (.jsonrpc conn method params) s)
    (h : DecisionRules P r (.jsonrpc conn method params) ⟨conn, r⟩ L) :
    (prog cfg r (.jsonrpc conn method params)).Suspended P r (.jsonrpc conn method params) m := by
  refine prog_of_keepsTo hpost (fun reply s hi => h.beside _ _ hi ?_) ?_
  · exact keeps_emit (e := .replied r reply) (by simp [Event.part, besideDecisions])
  · rcases hmethod with rfl | rfl
    · exact .bind (h.keepsTo thisSession_each) fun _ => adminApproveMerchant_keepsTo h rfl params
    · exact .bind (h.keepsTo thisSession_each) fun _ => adminDenyApplicant_keepsTo h params

end Handlers

end Cmall
