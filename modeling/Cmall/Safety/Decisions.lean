import Cmall.Safety.Applications

/-!
Decisions on applications and the merchants they make.

Both handlers test that an application is waiting when they select it, and write the
whole row back later; nothing tests it again. The merchant table refuses a second
approval of one applicant, so what goes wrong is a denial written over an approval and an
approval written over a denial. Without these a decision is final, and an applicant is a
merchant just when an application of his is approved.
-/

namespace Cmall
open Coroutine Protocol

/-- An application of `u` is approved. -/
def Db.ApprovedFor (db : Db) (u : Nat) : Prop :=
  ∃ k x, db.applyRow k = some x ∧ x.applicant = u ∧ x.state = .approved

/-- The merchant row of `u` is there just when an application of `u` is approved. -/
def Db.Matches (db : Db) (u : Nat) : Prop :=
  (db.findMerchant u).isSome = true ↔ db.ApprovedFor u

/-- A decision that has been taken stands. -/
def Db.KeepsDecisions (db db' : Db) : Prop :=
  ∀ k x, db.applyRow k = some x → x.state ≠ .waiting →
    ∃ y, db'.applyRow k = some y ∧ y.state = x.state

/-- No approval is written over a denial of an applicant who is no merchant, and no denial
over an approval. -/
def decidesOnce (spot : Spot) (db : Db) : Bool :=
  match spot with
  | .approve x => (db.applyRow x.id).all fun y =>
    ¬ (y.state = .denied ∧ db.findMerchant x.applicant = none)
  | .deny x => (db.applyRow x.id).all fun y => y.state ≠ .approved
  | _ => true

/-- What may happen to applications and merchants. -/
structure Db.DecisionSteps (db db' : Db) : Prop where
  rows : db.KeepsRows db'
  decisions : db.KeepsDecisions db'
  matching : ∀ u, db.Matches u → db'.Matches u
  ids : db.ApplyIds → db'.ApplyIds

section Steps

variable {db db' db'' : Db}

theorem Db.KeepsDecisions.trans (h : db.KeepsDecisions db') (h' : db'.KeepsDecisions db'') :
    db.KeepsDecisions db'' := by
  intro k x hx hdecided
  obtain ⟨y, hy, hsame⟩ := h k x hx hdecided
  obtain ⟨z, hz, hsame'⟩ := h' k y hy (hsame ▸ hdecided)
  exact ⟨z, hz, hsame'.trans hsame⟩

theorem Db.DecisionSteps.trans (h : db.DecisionSteps db') (h' : db'.DecisionSteps db'') :
    db.DecisionSteps db'' where
  rows := h.rows.trans h'.rows
  decisions := h.decisions.trans h'.decisions
  matching u hu := h'.matching u (h.matching u hu)
  ids hi := h'.ids (h.ids hi)

/-- Neither table is touched. -/
theorem Db.DecisionSteps.of_eq (ha : db'.applys = db.applys) (hm : db'.merchants = db.merchants)
    (hseq : db'.seq.apply = db.seq.apply) : db.DecisionSteps db' := by
  have hrow : db'.applyRow = db.applyRow := by
    funext k
    rw [Db.applyRow, ha]
    rfl
  have hmerchant : db'.findMerchant = db.findMerchant := by
    funext k
    rw [Db.findMerchant, hm]
    rfl
  refine ⟨.of_eq ha, fun k x hx _ => ⟨x, by rw [hrow]; exact hx, rfl⟩, fun u hu => ?_,
    fun hi => hi.of_eq ha hseq⟩
  rw [Db.Matches, Db.ApprovedFor, hrow, hmerchant]
  exact hu

theorem Db.DecisionSteps.refl (db : Db) : db.DecisionSteps db := .of_eq rfl rfl rfl

/-- The row of an id after an update. -/
theorem Db.applyRow_update {row old : CmallApplyForMechant} {k : Nat}
    (ha : db'.applys = Table.update CmallApplyForMechant.id db.applys row)
    (hold : db.applyRow row.id = some old) :
    db'.applyRow k = if k = row.id then some row else db.applyRow k := by
  rw [Db.applyRow, ha]
  split
  · rename_i hk
    subst hk
    exact Table.find_update_self (Option.isSome_iff_exists.mpr ⟨old, hold⟩)
  · rename_i hk
    exact Table.find_update_ne hk

theorem Db.KeepsDecisions.update {row old : CmallApplyForMechant}
    (ha : db'.applys = Table.update CmallApplyForMechant.id db.applys row)
    (hold : db.applyRow row.id = some old) (hstate : old.state ≠ .waiting → row.state = old.state) :
    db.KeepsDecisions db' := by
  intro k x hx hdecided
  rw [Db.applyRow_update ha hold]
  split
  · rename_i hk
    subst hk
    rw [hold] at hx
    cases hx
    exact ⟨row, rfl, hstate hdecided⟩
  · exact ⟨x, hx, rfl⟩

/-- A new application is waiting. -/
theorem Db.DecisionSteps.apply {x : CmallApplyForMechant} (hx : x.state = .waiting)
    (h : db.persistApply x = some ((), db')) : db.DecisionSteps db' := by
  obtain ⟨-, hm, -, ha⟩ := Db.persistApply_some h
  have hrow : ∀ k y, db.applyRow k = some y → db'.applyRow k = some y := by
    intro k y hy
    rw [Db.applyRow, ha]
    exact Table.find_append_of_some hy
  refine ⟨.append ha, fun k y hy _ => ⟨y, hrow k y hy, rfl⟩, fun u hu => ?_, fun hi => hi.persistApply h⟩
  have hmerchant : db'.findMerchant u = db.findMerchant u := by
    rw [Db.findMerchant, hm]
    rfl
  rw [Db.Matches, hmerchant]
  refine hu.trans ⟨?_, ?_⟩
  · rintro ⟨k, y, hy, happlicant, hstate⟩
    exact ⟨k, y, hrow k y hy, happlicant, hstate⟩
  · rintro ⟨k, y, hy, happlicant, hstate⟩
    rw [Db.applyRow, ha] at hy
    rcases Table.find_append_cases hy with hy | rfl
    · exact ⟨k, y, hy, happlicant, hstate⟩
    · simp [hx] at hstate

/-- The merchants with a new one. -/
theorem Db.findMerchant_append {m : CmallMerchant} (hm : db'.merchants = db.merchants ++ [m])
    (hnone : db.findMerchant m.uid = none) (u : Nat) :
    db'.findMerchant u = if u = m.uid then some m else db.findMerchant u := by
  have hnone' : (db.merchants.find? fun y => y.uid = m.uid) = none := hnone
  rw [Db.findMerchant, hm]
  split
  · rename_i hu
    subst hu
    simp [Table.find, List.find?_append, hnone']
  · rename_i hu
    have hne : ¬ m.uid = u := fun h => hu h.symm
    simp [Db.findMerchant, Table.find, List.find?_append, hne]

/-- An approval that is not written over a denial. -/
theorem Db.DecisionSteps.approve {x : CmallApplyForMechant} {v : CmallUser} {password : String}
    {now : PTime} {m : CmallMerchant} (hx : db.HasRow x) (hv : v.uid = x.applicant)
    (hguard : decidesOnce (.approve x) db = true)
    (h : db.approveMerchant x v password now = some (m, db')) : db.DecisionSteps db' := by
  obtain ⟨-, hnone, huid, hm, hseq, ha⟩ := Db.approveMerchant_some h
  obtain ⟨row, hrow⟩ : ∃ row, row = { x with state := .approved, deletedAt := some now } := ⟨_, rfl⟩
  rw [← hrow] at ha
  have hstate : row.state = .approved := by rw [hrow]
  have happlicant : row.applicant = m.uid := by
    rw [hrow, huid]
    exact hv.symm
  have hhas : db.HasRow row := by
    rw [hrow]
    exact hx
  obtain ⟨old, hold, horigin⟩ := id hhas
  have holdOf : old.applicant = m.uid := (congrArg Prod.fst horigin).trans happlicant
  refine ⟨.update hhas ha, .update ha hold ?_, fun u hu => ?_, fun hi => hi.update hhas ha (by rw [hseq])⟩
  · intro hdecided
    have hguard' : old.state = .denied → db.findMerchant x.applicant ≠ none := by
      have hid : row.id = x.id := by rw [hrow]
      rw [hid] at hold
      simpa [decidesOnce, hold, imp_iff_not_or] using hguard
    cases hs : old.state with
    | waiting => exact absurd hs hdecided
    | approved => exact hstate
    | denied => exact absurd (hv ▸ hnone) (hguard' hs)
  · rw [Db.Matches, Db.findMerchant_append hm (huid ▸ hnone) u]
    by_cases hu' : u = m.uid
    · refine ⟨fun _ => ⟨row.id, row, ?_, happlicant.trans hu'.symm, hstate⟩, fun _ => by simp [hu']⟩
      rw [Db.applyRow_update ha hold, if_pos rfl]
    · rw [if_neg hu']
      refine hu.trans ⟨?_, ?_⟩
      · rintro ⟨k, y, hy, hyu, hys⟩
        refine ⟨k, y, ?_, hyu, hys⟩
        rw [Db.applyRow_update ha hold]
        split
        · rename_i hk
          subst hk
          rw [hold] at hy
          cases hy
          exact absurd (hyu.symm.trans holdOf) hu'
        · exact hy
      · rintro ⟨k, y, hy, hyu, hys⟩
        rw [Db.applyRow_update ha hold] at hy
        split at hy
        · cases hy
          exact absurd (hyu.symm.trans happlicant) hu'
        · exact ⟨k, y, hy, hyu, hys⟩

/-- A denial that is not written over an approval. -/
theorem Db.DecisionSteps.deny {x : CmallApplyForMechant} {reason : String} {now : PTime}
    (hx : db.HasRow x) (hguard : decidesOnce (.deny x) db = true)
    (h : db.denyApplicant x reason now = some ((), db')) : db.DecisionSteps db' := by
  obtain ⟨-, hm, hseq, ha⟩ := Db.denyApplicant_some h
  obtain ⟨row, hrow⟩ : ∃ row, row = { x with state := .denied, ext := reason, updatedAt := now } :=
    ⟨_, rfl⟩
  rw [← hrow] at ha
  have hstate : row.state = .denied := by rw [hrow]
  have hhas : db.HasRow row := by
    rw [hrow]
    exact hx
  obtain ⟨old, hold, -⟩ := id hhas
  have hopen : old.state ≠ .approved := by
    have hid : row.id = x.id := by rw [hrow]
    rw [hid] at hold
    simpa [decidesOnce, hold] using hguard
  refine ⟨.update hhas ha, .update ha hold ?_, fun u hu => ?_, fun hi => hi.update hhas ha (by rw [hseq])⟩
  · intro hdecided
    cases hs : old.state with
    | waiting => exact absurd hs hdecided
    | approved => exact absurd hs hopen
    | denied => exact hstate
  · have hmerchant : db'.findMerchant u = db.findMerchant u := by
      rw [Db.findMerchant, hm]
      rfl
    rw [Db.Matches, hmerchant]
    refine hu.trans ⟨?_, ?_⟩
    · rintro ⟨k, y, hy, hyu, hys⟩
      refine ⟨k, y, ?_, hyu, hys⟩
      rw [Db.applyRow_update ha hold]
      split
      · rename_i hk
        subst hk
        rw [hold] at hy
        cases hy
        exact absurd hys hopen
      · exact hy
    · rintro ⟨k, y, hy, hyu, hys⟩
      rw [Db.applyRow_update ha hold] at hy
      split at hy
      · cases hy
        rw [hstate] at hys
        cases hys
      · exact ⟨k, y, hy, hyu, hys⟩

end Steps

/-! ## The protocol -/

/-- Requests that change merchants in other ways are left out. -/
def decisionProtocol : Protocol Request Mem Input Point where
  inv s := s.db.ApplyIds
  rely _ _ s t := s.db.DecisionSteps t.db
  guar _ _ s t := s.db.DecisionSteps t.db
  guard _ _ p _ s := decidesOnce p.spot s.db = true
  permit q _ := .merchants ∈ q.footprint → q.method = some .adminApproveMerchant
  rely_refl _ _ s := .refl s.db
  rely_trans _ _ _ _ _ h h' := h.trans h'
  guar_refl _ _ s := .refl s.db
  guar_trans _ _ _ _ _ h h' := h.trans h'
  guar_inv _ _ _ _ hi h := h.ids hi
  guar_rely _ _ _ _ _ _ _ _ h := h

instance (r : Nat) (q : Request) (p : Point) (i : Input) (s : Mem) :
    Decidable (decisionProtocol.guard r q p i s) :=
  inferInstanceAs (Decidable (decidesOnce p.spot s.db = true))

instance (q : Request) (s : Mem) : Decidable (decisionProtocol.permit q s) :=
  inferInstanceAs (Decidable (.merchants ∈ q.footprint → q.method = some .adminApproveMerchant))

section Programs

variable {r : Nat} {q : Request} {ctx : Ctx} {cfg : Config}

/-- A step that touches neither applications nor merchants. -/
theorem decisions_of_keeps {K : List Part} {s t : Mem} (hk : Keeps K r s t) (ha : .applys ∉ K)
    (hm : .merchants ∉ K) : s.db.DecisionSteps t.db :=
  .of_eq (hk.db.applys ha).1 (hk.db.merchants hm) (hk.db.applys ha).2

theorem decisionRules : DecisionRules decisionProtocol r q ctx Db.HasRow where
  ids s hi := hi
  stable x s t _ hr hx := hr.rows.hasRow hx
  found s k x _ h := Db.hasRow_of_find h
  beside s t _ hk := decisions_of_keeps hk (by decide) (by decide)
  approve i s x u password m db _ hx hg hu hw := .approve hx hu hg hw
  deny i s x reason db _ hx hg hw := .deny hx hg hw

/-- An application only reads the tables and inserts a waiting row. -/
theorem userApplyMerchant_steps (a : Nat) :
    (userApplyMerchant ctx a).Each fun s t => s.db.DecisionSteps t.db := by
  have hread : ∀ s : Mem, s.db.DecisionSteps s.db := fun s => .refl s.db
  have hload : ∀ {α : Type} (f : Db → α), (asyncLoad ctx f).Each fun s t => s.db.DecisionSteps t.db :=
    fun f => tx_each fun _ s => hread s
  have hthrow : ∀ e : Exn, (Co.throw e : M Reply).Each fun s t => s.db.DecisionSteps t.db :=
    fun _ => trivial
  refine Co.each_bind (thisUser_reads hread a) fun u => Co.each_bind (hload _) fun found => ?_
  split
  · exact hthrow _
  refine Co.each_bind (thisUser_reads hread a) fun v => Co.each_bind (hload _) fun last => ?_
  refine Co.each_bind (thisUser_reads hread a) fun w => Co.each_bind (hload _) fun waiting => ?_
  split
  · exact hthrow _
  refine Co.each_bind (thisSession_reads hread) fun b => ?_
  refine Co.each_bind (thisUser_reads hread b) fun user => ?_
  refine Co.each_bind (Co.each_bind (Co.each_get hread) fun _ => trivial) fun now => ?_
  refine Co.each_bind (tx_each fun _ s => ?_) fun _ => trivial
  split
  · rename_i hw
    exact .apply rfl hw
  · exact hread s

theorem programs_decisions (cfg : Config) : decisionProtocol.Programs (prog cfg) := by
  intro r q m _ _ hpermit
  by_cases hq : .applys ∈ q.footprint
  · cases q with
    | jsonrpc conn method params =>
      rcases ReqMethod.applys_of_footprint (by simpa [Request.footprint] using hq) with rfl | hdecision
      · refine prog_of_keepsTo (fun _ => trivial) (fun reply s _ => .refl s.db) ?_
        refine .each ?_ stable_true fun s t _ _ h => ⟨h, trivial⟩
        exact Co.each_bind (thisSession_reads fun s => .refl s.db) userApplyMerchant_steps
      · exact prog_decision hdecision (fun _ => trivial) decisionRules
    | _ => simp [Request.footprint] at hq
  · refine prog_suspended_of_keeps (fun s t _ hk => decisions_of_keeps hk hq fun hm => ?_)
      fun _ => trivial
    have hmethod := hpermit hm
    cases q <;> simp_all [Request.method, Request.footprint, ReqMethod.footprint]

end Programs

/-- In every run in which no approval is written over a denial and no denial over an
approval: a decision that has been taken stands in every later state, and an applicant
for whom it was so at the beginning is a merchant just when one of his applications is
approved. -/
theorem decisions_stand (cfg : Config) (m : Mem) (hids : m.db.ApplyIds)
    (ls ms : List (Label Request Input))
    (hls : decisionProtocol.Admissible (prog cfg) (Sys.idle m) (ls ++ ms)) :
    let s := (Sys.idle m : Service).run (prog cfg) ls
    let t := (Sys.idle m : Service).run (prog cfg) (ls ++ ms)
    s.mem.db.KeepsDecisions t.mem.db ∧ ∀ u, m.db.Matches u → t.mem.db.Matches u := by
  intro s t
  have hidle : decisionProtocol.Good (Sys.idle m : Service) :=
    good_idle (P := decisionProtocol) hids fun _ => trivial
  obtain ⟨hl, hr⟩ := admissible_append.mp hls
  have hgood : decisionProtocol.Good s := run_good (programs_decisions cfg) hidle hl
  -- what one step may do, a run may do
  have hsteps : ∀ (s₀ : Service), decisionProtocol.Good s₀ → ∀ ks,
      decisionProtocol.Admissible (prog cfg) s₀ ks →
      s₀.mem.db.DecisionSteps (s₀.run (prog cfg) ks).mem.db := by
    intro s₀ h₀ ks hks
    let J : List Request → Mem → Prop := fun _ m' => s₀.mem.db.DecisionSteps m'.db
    exact run_view (J := J) (programs_decisions cfg) h₀ hks (fun _ _ _ _ h => h)
      (fun _ _ _ _ _ _ _ hstep h => Db.DecisionSteps.trans h hstep) (Db.DecisionSteps.refl _)
  refine ⟨?_, fun u hu => (hsteps _ hidle _ hls).matching u hu⟩
  have ht : t = s.run (prog cfg) ms := Sys.run_append ..
  rw [ht]
  exact (hsteps s hgood ms hr).decisions

/-! ## Two administrators -/

/-- User 5 has applied; connections 1 and 2 are those of administrators. -/
def twoAdministrators : Mem where
  db :=
    { users := [{ uid := 3 }, { uid := 5 }]
      applys := [{ id := 1, applicant := 5 }]
      seq := { apply := 1 } }
  heapTop := 1
  heap _ := { sessionId := "s", userInfo := some { uid := 3 }, isAdmin := true }
  conn _ := { sessionInfo := some 0 }

def denyFive : Request := .jsonrpc 1 .adminDenyApplicant [("apply_id", .int64 1)]

def approveFive : Request := .jsonrpc 2 .adminApproveMerchant [("apply_id", .int64 1)]

/-- The application is approved, and a later denial finds it decided. -/
theorem decisions_stand_when_approved :
    let s := (Sys.idle twoAdministrators : Service).run (prog bareConfig)
      (.spawn approveFive :: resumes 0 4)
    let t := (Sys.idle twoAdministrators : Service).run (prog bareConfig)
      ((.spawn approveFive :: resumes 0 4) ++ (.spawn denyFive :: resumes 1 3))
    s.mem.db.KeepsDecisions t.mem.db ∧ ∀ u, twoAdministrators.db.Matches u → t.mem.db.Matches u :=
  decisions_stand bareConfig twoAdministrators ⟨by decide, by decide⟩ _ _ (by decide)

/-- The denial has selected the application when the approval commits. -/
def denyOverApproval : List (Label Request Input) :=
  [.spawn denyFive, .spawn approveFive] ++ resumes 0 3 ++ resumes 1 4

/-- The approved application becomes denied; its applicant stays a merchant. -/
theorem denial_over_approval :
    let s := (Sys.idle twoAdministrators : Service).run (prog bareConfig) denyOverApproval
    let t := (Sys.idle twoAdministrators : Service).run (prog bareConfig)
      (denyOverApproval ++ resumes 0 1)
    s.mem.db.applys.map CmallApplyForMechant.state = [.approved] ∧
      t.mem.db.applys.map CmallApplyForMechant.state = [.denied] ∧
      ¬ s.mem.db.KeepsDecisions t.mem.db ∧ ¬ t.mem.db.Matches 5 := by
  intro s t
  have hs : ∃ x, s.mem.db.applyRow 1 = some x ∧ x.state = .approved := by decide
  have ht : ∀ x ∈ t.mem.db.applys, x.state = .denied := by decide
  refine ⟨by decide, by decide, fun h => ?_, fun h => ?_⟩
  · obtain ⟨x, hx, hstate⟩ := hs
    obtain ⟨y, hy, hsame⟩ := h 1 x hx (by simp [hstate])
    rw [ht y (Table.mem_of_find hy), hstate] at hsame
    cases hsame
  · obtain ⟨k, x, hx, -, hstate⟩ := h.mp (by decide)
    rw [ht x (Table.mem_of_find hx)] at hstate
    cases hstate

end Cmall
