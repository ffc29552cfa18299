import Cmall.Footprint.Answers
import Cmall.Safety.OneAccount

/-!
What an approval leaves behind.

`admin_approve_merchant` commits the new merchant before it asks Gitea for the account
and the repository, and it looks at neither answer. The approval is followed here for
every outcome of its transaction and of the calls after it.
-/

namespace Cmall
open Coroutine

/-! ## Outcomes -/

/-- How the calls of an approval end: whether the database selects the application and
does the writes, the status of `create_user` and of `create_repo` and what
`load_merchant_git` finds (`none` where the call throws). -/
structure ApprovalOutcome where
  select : Bool := true
  write : Bool := true
  createUser : Option String := none
  createRepo : Option String := none
  loadGit : Option String := none
  deriving DecidableEq, Repr

/-- The answers of Gitea; `create_repo` is called for an account only. -/
def ApprovalOutcome.gitea (o : ApprovalOutcome) : List Input :=
  { answer := o.createUser } ::
    if o.createUser = some "201" then [{ answer := o.createRepo }] else []

/-- What the request is resumed with. -/
def ApprovalOutcome.inputs (o : ApprovalOutcome) : List Input :=
  let done : Input := {}
  done :: { dbOk := o.select } :: done :: { dbOk := o.write } :: done ::
    (o.gitea ++ [{ answer := o.loadGit }, done])

/-- The merchant of the application is there, and so are its account and its repository. -/
def Mem.Complete (m : Mem) (applyId : Nat) : Prop :=
  ∃ x, Table.find CmallApplyForMechant.id m.db.applys applyId = some x ∧
    (m.db.findMerchant x.applicant).isSome = true ∧
    (∃ r, .giteaUser r x.applicant ∈ m.trace) ∧ ∃ r, .giteaRepo r x.applicant ∈ m.trace

def Mem.Waiting (m : Mem) (applyId : Nat) : Prop :=
  ∃ x, Table.find CmallApplyForMechant.id m.db.applys applyId = some x ∧ x.state = .waiting

/-- The events of `t` that are not in `s` yet. -/
def Mem.newEvents (s t : Mem) : List Event := t.trace.take (t.trace.length - s.trace.length)

theorem Mem.newEvents_eq {s t : Mem} {es : List Event} (h : t.trace = es ++ s.trace) :
    s.newEvents t = es := by
  simp [Mem.newEvents, h]

/-- The request ended from `s` in `t` without a half-made merchant. -/
def NotHalfMade (applyId r : Nat) (s t : Mem) : Prop :=
  (t.Complete applyId ∨ t.Waiting applyId) ∧
    (.replied r (.bool true) ∈ s.newEvents t → t.Complete applyId)

/-! ## The calls -/

section Calls

variable {m : Mem} {ctx : Ctx} {is : List Input} {i j : Input} {α : Type}

theorem answered_approveTransaction {applyId : Nat} {w v : Input} :
    (approveTransaction ctx applyId).answered (i :: j :: w :: v :: is) m =
      if i.dbOk then
        match m.db.findApply applyId with
        | none => some (.ok none, w :: v :: is, m)
        | some (_, none) => some (.error (.std "odb"), w :: v :: is, m)
        | some (x, some u) =>
          if x.state ≠ .waiting then some (.ok none, w :: v :: is, m)
          else
            match (if w.dbOk then m.db.approveMerchant x u (uuidOf ctx.req m.uuids) m.clock
              else none) with
            | some (merchant, db) =>
              some (.ok (some merchant), is, { m with uuids := m.uuids + 1, db := db })
            | none => some (.error (.std "odb"), is, { m with uuids := m.uuids + 1 })
      else some (.error (.std "odb"), w :: v :: is, m) := by
  simp only [approveTransaction, asyncTransacton, Co.answered_tryCatch, Co.answered_bind,
    answered_asyncLoad]
  cases i.dbOk with
  | false => rfl
  | true =>
    rcases hfound : m.db.findApply applyId with _ | ⟨x, _ | u⟩
    · rfl
    · rfl
    · by_cases hx : x.state = .waiting
      · simp only [hx, ne_eq, not_true_eq_false, ↓reduceIte, genUuid, Co.answered_bind,
          Co.answered_modifyGet, answered_asyncWrite]
        rcases (if w.dbOk then m.db.approveMerchant x u (uuidOf ctx.req m.uuids) m.clock
          else none) with _ | ⟨merchant, db⟩ <;> rfl
      · simp [hx]

theorem answered_giteaCreate {created : Event} :
    (giteaCreate ctx created).answered (i :: is) m =
      match i.answer with
      | some status =>
        if status = "201" then some (.ok true, is, { m with trace := created :: m.trace })
        else some (.ok false, is, m)
      | none => some (.error (.std "external"), is, m) := by
  simp only [giteaCreate, Co.answered_bind, answered_external]
  cases i.answer with
  | none => rfl
  | some status =>
    by_cases h : status = "201"
    · simp [h, emit]
    · simp [h]

/-- What `init_user` has created is what was answered 201. -/
theorem answered_initUser (ctx : Ctx) (o : ApprovalOutcome) (uid : Nat) (is : List Input) (m : Mem) :
    ∃ x es, (initUser ctx uid).answered (o.gitea ++ is) m =
        some (x, is, { m with trace := es ++ m.trace }) ∧
      ∀ e, e ∈ es ↔ o.createUser = some "201" ∧
        (e = .giteaUser ctx.req uid ∨ o.createRepo = some "201" ∧ e = .giteaRepo ctx.req uid) := by
  simp only [initUser, ApprovalOutcome.gitea, List.cons_append, Co.answered_bind,
    answered_giteaCreate]
  cases hu : o.createUser with
  | none => exact ⟨.error (.std "external"), [], by simp, by simp⟩
  | some status =>
    by_cases h : status = "201"
    · subst h
      simp only [↓reduceIte, List.cons_append, List.nil_append, answered_giteaCreate]
      cases hr : o.createRepo with
      | none => exact ⟨_, [.giteaUser ctx.req uid], rfl, by simp⟩
      | some status' =>
        by_cases h' : status' = "201"
        · subst h'
          refine ⟨_, [.giteaRepo ctx.req uid, .giteaUser ctx.req uid], rfl, ?_⟩
          intro e
          simp [or_comm]
        · refine ⟨.ok false, [.giteaUser ctx.req uid], by simp [h'], ?_⟩
          intro e
          simp [h']
    · exact ⟨.ok false, [], by simp [h], by simp [h]⟩

theorem answered_loadMerchantGit (ctx : Ctx) (uid : Nat) (i : Input) (is : List Input) (m : Mem) :
    ∃ x repos, (loadMerchantGit ctx uid).answered (i :: is) m =
      some (x, is, { m with repos := repos }) := by
  simp only [loadMerchantGit, Co.answered_bind, answered_external]
  cases i.answer with
  | none => exact ⟨_, m.repos, rfl⟩
  | some found =>
    by_cases h : found = "true"
    · exact ⟨.ok true, m.repos, by simp [h]⟩
    · exact ⟨.ok false, _, by simp [h]; rfl⟩

theorem answered_initMerchant (ctx : Ctx) (o : ApprovalOutcome) (applyId uid : Nat) (i j : Input)
    (is : List Input) (m : Mem) :
    ∃ x rest t es, (initMerchant ctx applyId uid).answered (o.gitea ++ i :: j :: is) m =
        some (x, rest, t) ∧ t.db = m.db ∧ t.trace = es ++ m.trace ∧
      ∀ r u, (.giteaUser r u ∈ es ↔ o.createUser = some "201" ∧ r = ctx.req ∧ u = uid) ∧
        (.giteaRepo r u ∈ es ↔
          o.createUser = some "201" ∧ o.createRepo = some "201" ∧ r = ctx.req ∧ u = uid) := by
  obtain ⟨x, es, hinit, hes⟩ := answered_initUser ctx o uid (i :: j :: is) m
  simp only [initMerchant, Co.answered_bind, hinit]
  have hevents : ∀ r u,
      (.giteaUser r u ∈ es ↔ o.createUser = some "201" ∧ r = ctx.req ∧ u = uid) ∧
        (.giteaRepo r u ∈ es ↔
          o.createUser = some "201" ∧ o.createRepo = some "201" ∧ r = ctx.req ∧ u = uid) := by
    intro r u
    simp [hes]
  cases x with
  | error e => exact ⟨_, _, _, es, rfl, rfl, rfl, hevents⟩
  | ok ok =>
    obtain ⟨x, repos, hgit⟩ := answered_loadMerchantGit ctx uid i (j :: is)
      { m with trace := es ++ m.trace }
    simp only [hgit]
    cases x with
    | error e => exact ⟨_, _, _, es, rfl, rfl, rfl, hevents⟩
    | ok found =>
      refine ⟨_, _, _, .notified ctx.req _ _ :: es, rfl, rfl, rfl, fun r u => ?_⟩
      simpa using hevents r u

/-- The transaction goes through: the database does its part, the application is waiting
and its applicant, `u`, is no merchant yet. -/
structure Mem.Approves (m : Mem) (applyId : Nat) (o : ApprovalOutcome) (x : CmallApplyForMechant)
    (u : CmallUser) : Prop where
  select : o.select = true
  write : o.write = true
  found : m.db.findApply applyId = some (x, some u)
  waiting : x.state = .waiting
  merchant : m.db.findMerchant u.uid = none

/-- The approval has gone through, and `t` is what it leaves. -/
structure Mem.Approved (m : Mem) (applyId r : Nat) (o : ApprovalOutcome) (t : Mem)
    (x : CmallApplyForMechant) (u : CmallUser) (es : List Event) : Prop where
  approves : m.Approves applyId o x u
  db : ∃ merchant, m.db.approveMerchant x u (uuidOf r m.uuids) m.clock = some (merchant, t.db)
  trace : t.trace = es ++ m.trace
  giteaUser : ∀ r' u', .giteaUser r' u' ∈ es ↔ o.createUser = some "201" ∧ r' = r ∧ u' = u.uid
  giteaRepo : ∀ r' u', .giteaRepo r' u' ∈ es ↔
    o.createUser = some "201" ∧ o.createRepo = some "201" ∧ r' = r ∧ u' = u.uid

theorem Db.findApply_eq {db : Db} {applyId : Nat} {x : CmallApplyForMechant} {u : Option CmallUser}
    (h : db.findApply applyId = some (x, u)) :
    Table.find CmallApplyForMechant.id db.applys applyId = some x ∧ db.findUser x.applicant = u := by
  obtain ⟨y, hy, heq⟩ := Option.map_eq_some_iff.mp h
  cases heq
  exact ⟨hy, rfl⟩

theorem Mem.not_waiting {applyId : Nat} {x : CmallApplyForMechant} {u : Option CmallUser}
    (h : m.db.findApply applyId = some (x, u)) (hx : x.state ≠ .waiting) : ¬ m.Waiting applyId := by
  rintro ⟨y, hy, hw⟩
  rw [(Db.findApply_eq h).1] at hy
  cases hy
  exact hx hw

/-- The writes are done just when the applicant is no merchant. -/
theorem Db.approveMerchant_iff {db : Db} {applyId : Nat} {x : CmallApplyForMechant} {u : CmallUser}
    (h : db.findApply applyId = some (x, some u)) (password : String) (now : PTime) :
    (db.approveMerchant x u password now).isSome = true ↔ db.findMerchant u.uid = none := by
  obtain ⟨hx, -⟩ := Db.findApply_eq h
  have hid : x.id = applyId := Table.find_key hx
  unfold Db.approveMerchant
  rw [hid, hx]
  cases db.findMerchant u.uid <;> simp

theorem answered_adminApproveMerchant (ctx : Ctx) (m : Mem) (params : JsonObject) (applyId : Nat)
    (o : ApprovalOutcome)
    (hid : (Json.get params "apply_id" (.int64 (-1))).asInt64 = .ok (applyId : Int)) :
    ∃ x rest t, (adminApproveMerchant ctx params).answered o.inputs.tail m = some (x, rest, t) ∧
      ((t.db = m.db ∧ t.trace = m.trace ∧ (∀ y u, ¬ m.Approves applyId o y u) ∧
          ∀ reply, x = .ok reply → reply = .bool true ∧ ¬ m.Waiting applyId) ∨
        ∃ y u es, m.Approved applyId ctx.req o t y u es) := by
  have hnat : ¬ (applyId : Int) < 0 := by omega
  simp only [adminApproveMerchant, Co.answered_bind, answered_liftExcept, hid, hnat, ↓reduceIte,
    ApprovalOutcome.inputs, List.tail_cons, Int.toNat_natCast, answered_approveTransaction]
  cases hs : o.select with
  | false =>
    refine ⟨_, _, m, rfl, .inl ⟨rfl, rfl, fun y u h => ?_, fun reply h => by cases h⟩⟩
    simp [h.select] at hs
  | true =>
    rcases hfound : m.db.findApply applyId with _ | ⟨y, _ | u⟩
    · refine ⟨_, _, m, rfl, .inl ⟨rfl, rfl, fun y u h => ?_, fun reply h => ?_⟩⟩
      · simp [h.found] at hfound
      · cases h
        refine ⟨rfl, ?_⟩
        rintro ⟨y, hy, -⟩
        simp [Db.findApply, hy] at hfound
    · refine ⟨_, _, m, rfl, .inl ⟨rfl, rfl, fun z u h => ?_, fun reply h => by cases h⟩⟩
      simp [h.found] at hfound
    · by_cases hy : y.state = .waiting
      · simp only [hy, ne_eq, not_true_eq_false, ↓reduceIte]
        cases hw : (if o.write = true then m.db.approveMerchant y u (uuidOf ctx.req m.uuids) m.clock
            else none) with
        | none =>
          refine ⟨_, _, _, rfl, .inl ⟨rfl, rfl, fun z v h => ?_, fun reply h => by cases h⟩⟩
          have hz := h.found
          rw [hfound] at hz
          cases hz
          rw [if_pos h.write] at hw
          have hsome := (Db.approveMerchant_iff hfound (uuidOf ctx.req m.uuids) m.clock).mpr h.merchant
          simp [hw] at hsome
        | some p =>
          obtain ⟨merchant, db⟩ := p
          have hwrite : o.write = true := by
            by_contra hn
            simp [hn] at hw
          rw [if_pos hwrite] at hw
          have hmerchant := (Db.approveMerchant_iff hfound (uuidOf ctx.req m.uuids) m.clock).mp
            (by simp [hw])
          have huid : merchant.uid = u.uid := by
            unfold Db.approveMerchant at hw
            split at hw
            · cases hw
              rfl
            · cases hw
          obtain ⟨x, rest, t, es, hx, hdb, htrace, hevents⟩ := answered_initMerchant ctx o applyId
            merchant.uid { answer := o.loadGit } {} [] { m with uuids := m.uuids + 1, db := db }
          refine ⟨x, rest, t, hx, .inr ⟨y, u, es, ⟨hs, hwrite, hfound, hy, hmerchant⟩, ⟨merchant, ?_⟩,
            htrace, fun r' u' => ?_, fun r' u' => ?_⟩⟩
          · rw [hdb]
            exact hw
          · rw [← huid]
            exact (hevents r' u').1
          · rw [← huid]
            exact (hevents r' u').2
      · simp only [hy, ne_eq, not_false_eq_true, ↓reduceIte]
        refine ⟨_, _, m, rfl, .inl ⟨rfl, rfl, fun z v h => ?_, fun reply h => ?_⟩⟩
        · have hz := h.found
          rw [hfound] at hz
          cases hz
          exact hy h.waiting
        · cases h
          exact ⟨rfl, Mem.not_waiting hfound hy⟩

/-- The whole request. -/
theorem answered_approval (cfg : Config) (m : Mem) (conn r applyId : Nat) (params : JsonObject)
    (o : ApprovalOutcome)
    (hid : (Json.get params "apply_id" (.int64 (-1))).asInt64 = .ok (applyId : Int)) :
    ∃ x rest t, (serve cfg ⟨conn, r⟩ (.jsonrpc conn .adminApproveMerchant params)).answered
        o.inputs.tail m = some (x, rest, t) ∧
      ((t.db = m.db ∧ (∀ y u, ¬ (m.isAdmin conn = true ∧ m.Approves applyId o y u)) ∧
          (t.trace = m.trace ∨ t.trace = .replied r (.bool true) :: m.trace ∧ ¬ m.Waiting applyId)) ∨
        m.isAdmin conn = true ∧ ∃ y u es, m.Approved applyId r o t y u es) := by
  obtain ⟨x, hlogin, hadmin⟩ := answered_ensureAdmin conn r o.inputs.tail m
  simp only [serve, handleJsonrpcCall, ReqMethod.api, Co.answered_bind, Co.answered_get]
  cases hconn : (m.conn conn).sessionInfo with
  | none =>
    have hno : m.isAdmin conn = false := by simp [Mem.isAdmin, hconn]
    refine ⟨_, _, m, by simp; exact ⟨rfl, rfl⟩, .inl ⟨rfl, fun y u h => ?_, .inl rfl⟩⟩
    simp [hno] at h
  | some a =>
    simp only [ne_eq, reduceCtorEq, not_false_eq_true, and_false, ↓reduceIte, Co.answered_bind, hlogin]
    cases x with
    | error e =>
      refine ⟨_, _, m, rfl, .inl ⟨rfl, fun y u h => ?_, .inl rfl⟩⟩
      cases hadmin.mpr h.1
    | ok _ =>
      have hyes : m.isAdmin conn = true := hadmin.mp rfl
      obtain ⟨x, rest, t, hx, hcases⟩ := answered_adminApproveMerchant ⟨conn, r⟩ m params
        applyId o hid
      simp only [handleJsonrpcAdminApi, thisSession, Co.answered_bind, Co.answered_get, hconn,
        Co.answered_pure, hx]
      cases x with
      | error e =>
        refine ⟨_, _, t, rfl, ?_⟩
        rcases hcases with ⟨hdb, htrace, hno, -⟩ | happroved
        · exact .inl ⟨hdb, fun y u h => hno y u h.2, .inl htrace⟩
        · exact .inr ⟨hyes, happroved⟩
      | ok reply =>
        refine ⟨_, _, _, rfl, ?_⟩
        rcases hcases with ⟨hdb, htrace, hno, hreply⟩ | ⟨y, u, es, happroved⟩
        · obtain ⟨rfl, hw⟩ := hreply reply rfl
          exact .inl ⟨hdb, fun y u h => hno y u h.2, .inr ⟨by simp [htrace], hw⟩⟩
        · refine .inr ⟨hyes, y, u, .replied r reply :: es, happroved.approves, happroved.db, ?_, ?_, ?_⟩
          · simp [happroved.trace]
          · simpa using happroved.giteaUser
          · simpa using happroved.giteaRepo

end Calls

/-! ## What is left -/

/-- The account and the repository were there, or are created now. -/
def GiteaMade (m : Mem) (o : ApprovalOutcome) (uid : Nat) : Prop :=
  (o.createUser = some "201" ∨ ∃ r, .giteaUser r uid ∈ m.trace) ∧
    (o.createUser = some "201" ∧ o.createRepo = some "201" ∨ ∃ r, .giteaRepo r uid ∈ m.trace)

section Approved

variable {m t : Mem} {applyId r : Nat} {o : ApprovalOutcome} {y : CmallApplyForMechant}
  {u : CmallUser} {es : List Event}

theorem Mem.Approves.applicant (h : m.Approves applyId o y u) : u.uid = y.applicant :=
  Db.findUser_uid (Db.findApply_eq h.found).2

theorem Mem.Approves.not_complete (h : m.Approves applyId o y u) : ¬ m.Complete applyId := by
  rintro ⟨x, hx, hmerchant, -⟩
  rw [(Db.findApply_eq h.found).1] at hx
  cases hx
  rw [← h.applicant, h.merchant] at hmerchant
  cases hmerchant

/-- The row is approved, and the merchant is there. -/
theorem Mem.Approved.tables (h : m.Approved applyId r o t y u es) :
    (∃ x, Table.find CmallApplyForMechant.id t.db.applys applyId = some x ∧ x.state = .approved ∧
      x.applicant = u.uid) ∧ (t.db.findMerchant u.uid).isSome = true := by
  obtain ⟨merchant, hdb⟩ := h.db
  have hfind := (Db.findApply_eq h.approves.found).1
  have hid : y.id = applyId := Table.find_key hfind
  unfold Db.approveMerchant at hdb
  split at hdb
  · have ht := (congrArg Prod.snd (Option.some.inj hdb)).symm
    simp only at ht
    rw [ht]
    refine ⟨⟨{ y with state := .approved, deletedAt := some m.clock }, ?_, rfl,
      h.approves.applicant.symm⟩, ?_⟩
    · have hsome : (Table.find CmallApplyForMechant.id m.db.applys y.id).isSome = true := by
        rw [hid, hfind]
        rfl
      rw [← hid]
      exact Table.find_update_self (v := { y with state := .approved, deletedAt := some m.clock })
        hsome
    · have hnone : m.db.merchants.find? (fun x => x.uid = u.uid) = none := h.approves.merchant
      simp [Db.findMerchant, Table.find, hnone]
  · cases hdb

theorem Mem.Approved.not_waiting (h : m.Approved applyId r o t y u es) : ¬ t.Waiting applyId := by
  obtain ⟨⟨x, hx, hstate, -⟩, -⟩ := h.tables
  rintro ⟨z, hz, hw⟩
  rw [hx] at hz
  cases hz
  rw [hstate] at hw
  cases hw

theorem Mem.Approved.complete_iff (h : m.Approved applyId r o t y u es) :
    t.Complete applyId ↔ GiteaMade m o u.uid := by
  obtain ⟨⟨x, hx, -, happlicant⟩, hmerchant⟩ := h.tables
  have huser : (∃ r', .giteaUser r' u.uid ∈ t.trace) ↔
      o.createUser = some "201" ∨ ∃ r', .giteaUser r' u.uid ∈ m.trace := by
    simp [h.trace, h.giteaUser, exists_or]
  have hrepo : (∃ r', .giteaRepo r' u.uid ∈ t.trace) ↔
      o.createUser = some "201" ∧ o.createRepo = some "201" ∨
        ∃ r', .giteaRepo r' u.uid ∈ m.trace := by
    simp [h.trace, h.giteaRepo, exists_or]
  unfold GiteaMade
  rw [← huser, ← hrepo]
  constructor
  · rintro ⟨z, hz, -, hmade⟩
    rw [hx] at hz
    cases hz
    rw [happlicant] at hmade
    exact hmade
  · intro hmade
    refine ⟨x, hx, ?_, ?_⟩
    · rw [happlicant]
      exact hmerchant
    · rw [happlicant]
      exact hmade

end Approved

/-- Without writes nothing is half-made that was not before. -/
theorem notHalfMade_of_same {m t : Mem} {applyId r : Nat} (hdb : t.db = m.db)
    (htrace : t.trace = m.trace ∨
      t.trace = .replied r (.bool true) :: m.trace ∧ ¬ m.Waiting applyId) :
    NotHalfMade applyId r m t ↔ m.Complete applyId ∨ m.Waiting applyId := by
  have hwaiting : t.Waiting applyId ↔ m.Waiting applyId := by simp [Mem.Waiting, hdb]
  rcases htrace with htrace | ⟨htrace, hw⟩
  · have hcomplete : t.Complete applyId ↔ m.Complete applyId := by simp [Mem.Complete, hdb, htrace]
    have hnew : m.newEvents t = [] := Mem.newEvents_eq htrace
    simp [NotHalfMade, hwaiting, hcomplete, hnew]
  · have hcomplete : t.Complete applyId ↔ m.Complete applyId := by simp [Mem.Complete, hdb, htrace]
    have hnew : m.newEvents t = [.replied r (.bool true)] := Mem.newEvents_eq htrace
    simp [NotHalfMade, hwaiting, hcomplete, hnew, hw]

/-- An approval, run to its end from any state of the service with any outcome of its
calls, leaves no half-made merchant just when the merchant was complete before, or the
application was waiting and, if the transaction goes through, Gitea has the account and
the repository. -/
theorem approval_not_half_made_iff (cfg : Config) (s : Service) (conn applyId : Nat)
    (params : JsonObject) (o : ApprovalOutcome)
    (hid : (Json.get params "apply_id" (.int64 (-1))).asInt64 = .ok (applyId : Int)) :
    let t := s.turn (prog cfg) (.jsonrpc conn .adminApproveMerchant params) o.inputs
    (t.returned s.procs.length = true ∨ t.failed s.procs.length = true) ∧
      (NotHalfMade applyId s.procs.length s.mem t.mem ↔
        s.mem.Complete applyId ∨ s.mem.Waiting applyId ∧
          ∀ y u, s.mem.isAdmin conn = true → s.mem.Approves applyId o y u →
            GiteaMade s.mem o u.uid) := by
  intro t
  obtain ⟨x, rest, m, hx, hcases⟩ :=
    answered_approval cfg s.mem conn s.procs.length applyId params o hid
  have ht : t = ⟨m, s.procs ++ [⟨.jsonrpc conn .adminApproveMerchant params, Co.ofResult x⟩]⟩ :=
    Sys.turn_answered rfl hx
  refine ⟨?_, ?_⟩
  · rw [ht]
    cases x with
    | ok a => exact .inl (by simp [Sys.returned, Co.ofResult, Co.returned])
    | error e => exact .inr (by simp [Sys.failed, Co.ofResult, Co.returned, Co.finished])
  · rw [ht]
    rcases hcases with ⟨hdb, hno, htrace⟩ | ⟨hadmin, y, u, es, h⟩
    · rw [notHalfMade_of_same hdb htrace]
      constructor
      · rintro (hc | hw)
        · exact .inl hc
        · exact .inr ⟨hw, fun y u ha h => absurd ⟨ha, h⟩ (hno y u)⟩
      · rintro (hc | hw)
        · exact .inl hc
        · exact .inr hw.1
    · constructor
      · rintro ⟨hc | hw, -⟩
        · refine .inr ⟨?_, fun z v _ h' => ?_⟩
          · exact ⟨y, (Db.findApply_eq h.approves.found).1, h.approves.waiting⟩
          · have hz := h'.found
            rw [h.approves.found] at hz
            cases hz
            exact h.complete_iff.mp hc
        · exact absurd hw h.not_waiting
      · rintro (hc | ⟨-, hmade⟩)
        · exact absurd hc h.approves.not_complete
        · have hc := h.complete_iff.mpr (hmade y u hadmin h.approves)
          exact ⟨.inl hc, fun _ => hc⟩

/-! ## One applicant -/

/-- User 5 has applied; connection 2 is that of an administrator. -/
def oneApplicant : Mem where
  db := { users := [{ uid := 3 }, { uid := 5 }], applys := [{ id := 1, applicant := 5 }] }
  heapTop := 1
  heap _ := { sessionId := "s", userInfo := some { uid := 3 }, isAdmin := true }
  conn c := { sessionInfo := if c = 2 then some 0 else none }

def approveOne : Request := .jsonrpc 2 .adminApproveMerchant [("apply_id", .int64 1)]

/-- Gitea creates both. -/
theorem approval_not_half_made_when_created :
    let o : ApprovalOutcome :=
      { createUser := some "201", createRepo := some "201", loadGit := some "false" }
    NotHalfMade 1 0 oneApplicant
      ((Sys.idle oneApplicant : Service).turn (prog bareConfig) approveOne o.inputs).mem := by
  intro o
  refine (approval_not_half_made_iff bareConfig (Sys.idle oneApplicant) 2 1
    [("apply_id", .int64 1)] o rfl).2.mpr (.inr ⟨⟨{ id := 1, applicant := 5 }, rfl, rfl⟩, ?_⟩)
  exact fun y u _ _ => ⟨.inl rfl, .inl ⟨rfl, rfl⟩⟩

/-- Gitea answers 500: the reply is true and the application is approved, but there is
no account. -/
theorem approval_half_made_without_account :
    let o : ApprovalOutcome := { createUser := some "500", loadGit := some "false" }
    let t := (Sys.idle oneApplicant : Service).turn (prog bareConfig) approveOne o.inputs
    .replied 0 (.bool true) ∈ oneApplicant.newEvents t.mem ∧
      t.mem.db.applys.map CmallApplyForMechant.state = [.approved] ∧
      ¬ NotHalfMade 1 0 oneApplicant t.mem := by
  intro o t
  have hreply : .replied 0 (.bool true) ∈ oneApplicant.newEvents t.mem := by decide
  have htrace : t.mem.trace = [.replied 0 (.bool true),
      .notified 0 [] "\x7b\x7b\"topic\":\"status_updated\"\x7d\x7d"] := by decide
  refine ⟨hreply, by decide, fun h => ?_⟩
  obtain ⟨x, hx, -, ⟨r, hr⟩, -⟩ := h.2 hreply
  rw [htrace] at hr
  simp at hr

end Cmall
