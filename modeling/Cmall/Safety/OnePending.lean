import Cmall.Safety.Applications

/-!
At most one pending application for an applicant.

`user_apply_merchant` reads the highest sequence number of the applicant before it looks
for a waiting application, and inserts with the next number. If another application of
the applicant is inserted in between, it has just that number, and the unique index
rejects the second one; if none is, what was looked for is still not there.
-/

namespace Cmall
open Coroutine Protocol

/-! ## Sequence numbers -/

/-- The sequence numbers of the applications of `A`. -/
def Db.seqsOf (db : Db) (A : Nat) : List Nat :=
  (db.applys.filter fun x => x.applicant = A).filterMap (·.seq)

/-- The number after the last one. -/
def nextOf : Option Nat → Nat
  | some last => last + 1
  | none => 0

/-- The number the next application of `A` is given. -/
def Db.nextSeq (db : Db) (A : Nat) : Nat := nextOf (db.maxApplicationSeq A)

def Db.waitingOf (db : Db) (A : Nat) : List CmallApplyForMechant :=
  db.applys.filter fun x => x.applicant = A ∧ x.state = .waiting

/-- At most one application of every applicant is waiting, and the numbers of its
applications are all different. -/
structure Db.OnePending (db : Db) : Prop where
  waiting : ∀ A, (db.waitingOf A).length ≤ 1
  seqs : ∀ A, (db.seqsOf A).Nodup

/-- What may happen to the applications: the rows stay, and those of an applicant stay as
they are, without a new waiting one, until the next number is in use. -/
structure Db.ApplySteps (db db' : Db) : Prop where
  rows : db.KeepsRows db'
  seqs : ∀ A n, n ∈ db.seqsOf A → n ∈ db'.seqsOf A
  next : ∀ A, (db'.seqsOf A = db.seqsOf A ∧ (db.waitingOf A = [] → db'.waitingOf A = [])) ∨
    db.nextSeq A ∈ db'.seqsOf A

section Seqs

variable {db db' db'' : Db} {A n : Nat}

theorem Db.nextSeq_not_mem (db : Db) (A : Nat) : db.nextSeq A ∉ db.seqsOf A := by
  intro h
  cases hmax : db.maxApplicationSeq A with
  | none =>
    have hnil : db.seqsOf A = [] := List.max?_eq_none_iff.mp hmax
    simp [hnil] at h
  | some last =>
    have hle := (List.max?_eq_some_iff.mp hmax).2 _ h
    simp only [Db.nextSeq, hmax, nextOf] at hle
    omega

theorem Db.nextSeq_congr (h : db'.seqsOf A = db.seqsOf A) : db'.nextSeq A = db.nextSeq A := by
  have hmax : db'.maxApplicationSeq A = db.maxApplicationSeq A := congrArg List.max? h
  rw [Db.nextSeq, Db.nextSeq, hmax]

theorem Db.ApplySteps.refl (db : Db) : db.ApplySteps db :=
  ⟨.refl db, fun _ _ h => h, fun _ => .inl ⟨rfl, fun h => h⟩⟩

theorem Db.ApplySteps.trans (h : db.ApplySteps db') (h' : db'.ApplySteps db'') :
    db.ApplySteps db'' := by
  refine ⟨h.rows.trans h'.rows, fun A n hn => h'.seqs A n (h.seqs A n hn), fun A => ?_⟩
  rcases h.next A with ⟨hseqs, hwaiting⟩ | hnext
  · rcases h'.next A with ⟨hseqs', hwaiting'⟩ | hnext
    · exact .inl ⟨hseqs'.trans hseqs, fun hw => hwaiting' (hwaiting hw)⟩
    · exact .inr (Db.nextSeq_congr hseqs ▸ hnext)
  · exact .inr (h'.seqs A _ hnext)

/-- The number of a request is in use, or is still the next one. -/
theorem Db.ApplySteps.pending (h : db.ApplySteps db')
    (hn : n ∈ db.seqsOf A ∨ n = db.nextSeq A) : n ∈ db'.seqsOf A ∨ n = db'.nextSeq A := by
  rcases hn with hn | rfl
  · exact .inl (h.seqs A n hn)
  · rcases h.next A with ⟨hseqs, -⟩ | hnext
    · exact .inr (Db.nextSeq_congr hseqs).symm
    · exact .inl hnext

/-- The number of a request is in use, or nothing is waiting still. -/
theorem Db.ApplySteps.clear (h : db.ApplySteps db')
    (hn : n ∈ db.seqsOf A ∨ n = db.nextSeq A ∧ db.waitingOf A = []) :
    n ∈ db'.seqsOf A ∨ n = db'.nextSeq A ∧ db'.waitingOf A = [] := by
  rcases hn with hn | ⟨rfl, hw⟩
  · exact .inl (h.seqs A n hn)
  · rcases h.next A with ⟨hseqs, hwaiting⟩ | hnext
    · exact .inr ⟨(Db.nextSeq_congr hseqs).symm, hwaiting hw⟩
    · exact .inl hnext

end Seqs

/-! ## Writes -/

section Writes

variable {db db' : Db} {row : CmallApplyForMechant}

theorem Db.seqsOf_eq (db : Db) (A : Nat) : db.seqsOf A =
    ((db.applys.map CmallApplyForMechant.origin).filter fun x => x.1 = A).filterMap (·.2) := by
  rw [List.filter_map, List.filterMap_map]
  rfl

/-- A decision on a row. -/
theorem Db.ApplySteps.decide (hrow : db.HasRow row) (hstate : row.state ≠ .waiting)
    (h : db'.applys = Table.update CmallApplyForMechant.id db.applys row) :
    db.ApplySteps db' ∧ (db.OnePending → db'.OnePending) := by
  have hseqs : ∀ A, db'.seqsOf A = db.seqsOf A := by
    intro A
    obtain ⟨old, hold, horigin⟩ := hrow
    rw [Db.seqsOf_eq, Db.seqsOf_eq, h, Table.map_update hold horigin.symm]
  have hwaiting : ∀ A, (db'.waitingOf A).Sublist (db.waitingOf A) := by
    intro A
    rw [Db.waitingOf, h]
    exact Table.filter_update_sublist (by simp [hstate])
  refine ⟨⟨.update hrow h, fun A n hn => by rw [hseqs]; exact hn, fun A => .inl ⟨hseqs A, ?_⟩⟩, ?_⟩
  · intro hw
    exact List.eq_nil_of_sublist_nil (hw ▸ hwaiting A)
  · intro hi
    exact ⟨fun A => (hwaiting A).length_le.trans (hi.waiting A), fun A => by rw [hseqs]; exact hi.seqs A⟩

/-- An application with the next number, when nothing is waiting. -/
theorem Db.ApplySteps.apply {x : CmallApplyForMechant} (h : db.persistApply x = some ((), db'))
    (hseq : x.seq = some (db.nextSeq x.applicant)) (hw : db.waitingOf x.applicant = []) :
    db.ApplySteps db' ∧ (db.OnePending → db'.OnePending) := by
  obtain ⟨-, -, -, happlys⟩ := Db.persistApply_some h
  have hmine : db'.seqsOf x.applicant = db.seqsOf x.applicant ++ [db.nextSeq x.applicant] := by
    simp [Db.seqsOf, happlys, hseq]
  have hother : ∀ A, A ≠ x.applicant → db'.seqsOf A = db.seqsOf A ∧ db'.waitingOf A = db.waitingOf A := by
    intro A hA
    have hne : ¬ x.applicant = A := fun h => hA h.symm
    simp [Db.seqsOf, Db.waitingOf, happlys, hne]
  refine ⟨⟨.append happlys, fun A n hn => ?_, fun A => ?_⟩, fun hi => ⟨fun A => ?_, fun A => ?_⟩⟩
  · by_cases hA : A = x.applicant
    · subst hA
      simp [hmine, hn]
    · rw [(hother A hA).1]
      exact hn
  · by_cases hA : A = x.applicant
    · subst hA
      exact .inr (by simp [hmine])
    · exact .inl ⟨(hother A hA).1, fun h => (hother A hA).2.trans h⟩
  · by_cases hA : A = x.applicant
    · subst hA
      have hone : db'.waitingOf x.applicant = db.waitingOf x.applicant ++
          [{ x with id := db.seq.apply + 1 }].filter fun y => y.applicant = x.applicant ∧ y.state = .waiting := by
        simp [Db.waitingOf, happlys]
      rw [hone, hw]
      exact List.length_filter_le _ _
    · rw [(hother A hA).2]
      exact hi.waiting A
  · by_cases hA : A = x.applicant
    · subst hA
      rw [hmine, List.nodup_append]
      refine ⟨hi.seqs _, by simp, ?_⟩
      rintro a ha b hb rfl
      rw [List.mem_singleton.mp hb] at ha
      exact Db.nextSeq_not_mem db x.applicant ha
    · rw [(hother A hA).1]
      exact hi.seqs A

end Writes

/-! ## The protocol -/

/-- Requests that change sessions are left out: an application is made by one user. -/
def pendingProtocol : Protocol Request Mem Input Point where
  inv s := s.db.ApplyIds ∧ s.db.OnePending
  rely _ _ s t := s.db.ApplySteps t.db ∧ t.heap = s.heap ∧ t.conn = s.conn
  guar _ _ s t := (s.db.ApplySteps t.db ∧ t.heap = s.heap ∧ t.conn = s.conn) ∧
    (s.db.ApplyIds ∧ s.db.OnePending → t.db.ApplyIds ∧ t.db.OnePending)
  guard _ _ _ _ _ := True
  permit q _ := .heap ∉ q.footprint ∧ .conn ∉ q.footprint
  rely_refl _ _ s := ⟨.refl s.db, rfl, rfl⟩
  rely_trans _ _ _ _ _ h h' := ⟨h.1.trans h'.1, h'.2.1.trans h.2.1, h'.2.2.trans h.2.2⟩
  guar_refl _ _ s := ⟨⟨.refl s.db, rfl, rfl⟩, fun h => h⟩
  guar_trans _ _ _ _ _ h h' :=
    ⟨⟨h.1.1.trans h'.1.1, h'.1.2.1.trans h.1.2.1, h'.1.2.2.trans h.1.2.2⟩, fun hi => h'.2 (h.2 hi)⟩
  guar_inv _ _ _ _ hi h := h.2 hi
  guar_rely _ _ _ _ _ _ _ _ h := h.1

instance (r : Nat) (q : Request) (p : Point) (i : Input) (s : Mem) :
    Decidable (pendingProtocol.guard r q p i s) := .isTrue trivial

instance (q : Request) (s : Mem) : Decidable (pendingProtocol.permit q s) :=
  inferInstanceAs (Decidable (.heap ∉ q.footprint ∧ .conn ∉ q.footprint))

section Programs

variable {r : Nat} {q : Request} {ctx : Ctx} {cfg : Config}

theorem pending_guar {s : Mem} {db : Db}
    (h : s.db.ApplySteps db ∧ (s.db.OnePending → db.OnePending))
    (hids : s.db.ApplyIds → db.ApplyIds) : pendingProtocol.guar r q s { s with db := db } :=
  ⟨⟨h.1, rfl, rfl⟩, fun hi => ⟨hids hi.1, h.2 hi.2⟩⟩

/-- A step that touches neither applications nor sessions. -/
theorem pending_of_keeps {K : List Part} {s t : Mem} (hk : Keeps K r s t) (ha : .applys ∉ K)
    (hh : .heap ∉ K) (hc : .conn ∉ K) : pendingProtocol.guar r q s t := by
  obtain ⟨happlys, hseq⟩ := hk.db.applys ha
  have hseqs : ∀ A, t.db.seqsOf A = s.db.seqsOf A := fun A => by rw [Db.seqsOf, happlys]; rfl
  have hwaiting : ∀ A, t.db.waitingOf A = s.db.waitingOf A := fun A => by rw [Db.waitingOf, happlys]; rfl
  refine ⟨⟨⟨.of_eq happlys, fun A n hn => by rw [hseqs]; exact hn, fun A => .inl ⟨hseqs A, ?_⟩⟩,
    (hk.heap hh).1, hk.conn hc⟩, fun hi => ⟨hi.1.of_eq happlys hseq, ?_⟩⟩
  · exact fun h => (hwaiting A).trans h
  · constructor
    · intro A
      rw [hwaiting]
      exact hi.2.waiting A
    · intro A
      rw [hseqs]
      exact hi.2.seqs A

theorem pendingRules : DecisionRules pendingProtocol r q ctx Db.HasRow where
  ids s hi := hi.1
  stable x s t _ hr hx := hr.1.rows.hasRow hx
  found s k x _ h := Db.hasRow_of_find h
  beside s t _ hk := pending_of_keeps hk (by decide) (by decide) (by decide)
  approve i s x u password m db hi hx _ _ hw := by
    obtain ⟨-, -, -, -, hseq, happlys⟩ := Db.approveMerchant_some hw
    have hrow : s.db.HasRow { x with state := .approved, deletedAt := some s.clock } := hx
    exact pending_guar (Db.ApplySteps.decide hrow (by simp) happlys) fun h => h.update hrow happlys (by rw [hseq])
  deny i s x reason db hi hx _ hw := by
    obtain ⟨-, -, hseq, happlys⟩ := Db.denyApplicant_some hw
    have hrow : s.db.HasRow { x with state := .denied, ext := reason, updatedAt := s.clock } := hx
    exact pending_guar (Db.ApplySteps.decide hrow (by simp) happlys) fun h => h.update hrow happlys (by rw [hseq])

/-! ## An application -/

/-- The session at `a` has the user `u`, and it is that of the connection. -/
def AppliesAs (ctx : Ctx) (a : Nat) (u : CmallUser) (s : Mem) : Prop :=
  (s.conn ctx.conn).sessionInfo = some a ∧ (s.heap a).userInfo = some u

theorem appliesAs_stable (a : Nat) (u : CmallUser) :
    pendingProtocol.Stable r q (AppliesAs ctx a u) := by
  rintro s t - ⟨-, hheap, hconn⟩ ⟨hsession, huser⟩
  exact ⟨by rw [hconn]; exact hsession, by rw [hheap]; exact huser⟩

/-- `L` survives what can happen to the applications. -/
def KeptBySteps (L : Db → Prop) : Prop := ∀ db db', db.ApplySteps db' → L db → L db'

theorem appliesAs_and_stable {L : Db → Prop} (hL : KeptBySteps L) (a : Nat) (u : CmallUser) :
    pendingProtocol.Stable r q fun s => AppliesAs ctx a u s ∧ L s.db :=
  (appliesAs_stable a u).and fun s t _ hr hl => hL s.db t.db hr.1 hl

/-- The user of the session is read again. -/
theorem triple_sameUser {L : Db → Prop} {a : Nat} {u : CmallUser} :
    pendingProtocol.Triple r q (fun s => AppliesAs ctx a u s ∧ L s.db) (thisUser a)
      (fun v s => v = u ∧ AppliesAs ctx a u s ∧ L s.db) (fun _ => True) := by
  refine .conseq (triple_thisUser a fun _ _ _ => trivial) (fun _ _ h => h) (fun v s _ h => ?_)
    fun _ _ h => h
  refine ⟨?_, h.2⟩
  have huser := h.2.1.2
  rw [h.1] at huser
  exact Option.some.inj huser

/-- A read for the user. -/
theorem triple_loadAs {α : Type} {f : Db → α} {a : Nat} {u : CmallUser} {L : Db → Prop}
    (L' : α → Db → Prop) (hL : KeptBySteps L) (hL' : ∀ x, KeptBySteps (L' x))
    (hf : ∀ db, L db → L' (f db) db) :
    pendingProtocol.Triple r q (fun s => AppliesAs ctx a u s ∧ L s.db) (asyncLoad ctx f)
      (fun x s => AppliesAs ctx a u s ∧ L' x s.db) (fun _ => True) :=
  triple_asyncLoad (fun x s => AppliesAs ctx a u s ∧ L' x s.db) (appliesAs_and_stable hL a u)
    (fun x => appliesAs_and_stable (hL' x) a u) (fun _ _ _ => trivial)
    (fun s _ h => ⟨h.1, hf s.db h.2⟩) fun _ _ _ _ h _ => h

/-- The insert. -/
theorem triple_insert {a n : Nat} {u : CmallUser} {now : PTime} :
    pendingProtocol.Triple r q
      (fun s => AppliesAs ctx a u s ∧
        (n ∈ s.db.seqsOf u.uid ∨ n = s.db.nextSeq u.uid ∧ s.db.waitingOf u.uid = []))
      (asyncWrite ctx fun s => s.db.persistApply
        { applicant := u.uid, seq := some n, createdAt := now, updatedAt := now })
      (fun _ _ => True) (fun _ => True) := by
  refine triple_asyncWrite (fun _ _ => True)
    (appliesAs_and_stable (fun _ _ hs hn => hs.clear hn) a u)
    (fun _ => stable_true) (fun _ _ _ => trivial) ?_ fun _ _ _ _ _ _ => trivial
  intro i s _ db _ hl _ hw
  -- the unique index: the number is not in use
  have hnew : n ∉ s.db.seqsOf u.uid := by
    intro hmem
    obtain ⟨y, hy, hseq⟩ := List.mem_filterMap.mp hmem
    obtain ⟨hyin, hyof⟩ := List.mem_filter.mp hy
    exact (Db.persistApply_some hw).1 y hyin ⟨of_decide_eq_true hyof, hseq, rfl⟩
  obtain ⟨hnext, hnone⟩ := hl.2.resolve_left hnew
  have hstep := Db.ApplySteps.apply hw (congrArg some hnext) hnone
  exact ⟨pending_guar hstep fun h => h.persistApply hw, trivial⟩

theorem userApplyMerchant_keepsTo (a : Nat) :
    pendingProtocol.Triple r q (fun s => (s.conn ctx.conn).sessionInfo = some a)
      (userApplyMerchant ctx a) (fun _ _ => True) (fun _ => True) := by
  have hend : ∀ (L : Mem → Prop) (e : Exn), pendingProtocol.Triple r q L (Co.throw e : M Reply)
      (fun _ _ => True) (fun _ => True) := fun L e => .throw fun _ _ _ => trivial
  have htrue : KeptBySteps fun _ => True := fun _ _ _ _ => trivial
  refine .bind (triple_thisUser a fun _ _ _ => trivial) fun u => ?_
  refine .conseq (L := fun s => AppliesAs ctx a u s ∧ True) ?_ (fun s _ h => ⟨⟨h.2, h.1⟩, trivial⟩)
    (fun _ _ _ h => h) fun _ _ h => h
  refine .bind (triple_loadAs (L := fun _ => True) (fun _ _ => True) htrue (fun _ => htrue)
    fun _ h => h) fun found => ?_
  split
  · exact hend _ _
  refine .bind (triple_sameUser (L := fun _ => True)) fun v => .pure fun hv => ?_
  subst hv
  refine .bind (triple_loadAs (L := fun _ => True)
    (fun o db => nextOf o ∈ db.seqsOf v.uid ∨ nextOf o = db.nextSeq v.uid)
    htrue (fun o db db' hs h => hs.pending h) fun _ _ => .inr rfl) fun o => ?_
  have hpending : KeptBySteps fun db => nextOf o ∈ db.seqsOf v.uid ∨ nextOf o = db.nextSeq v.uid :=
    fun db db' hs h => hs.pending h
  refine .bind (triple_sameUser
    (L := fun db => nextOf o ∈ db.seqsOf v.uid ∨ nextOf o = db.nextSeq v.uid)) fun w => .pure fun hw => ?_
  subst hw
  refine .bind (triple_loadAs
    (L := fun db => nextOf o ∈ db.seqsOf w.uid ∨ nextOf o = db.nextSeq w.uid)
    (fun waiting db => waiting = none → nextOf o ∈ db.seqsOf w.uid ∨
      nextOf o = db.nextSeq w.uid ∧ db.waitingOf w.uid = []) hpending
    (fun waiting db db' hs h hn => hs.clear (h hn)) fun db h hn => ?_) fun waiting => ?_
  · refine h.imp id fun hnext => ⟨hnext, ?_⟩
    rw [Db.waitingOf, List.filter_eq_nil_iff]
    intro x hx
    simpa using Table.queryOne_none hn x hx
  split
  · exact hend _ _
  let L : Db → Prop := fun db => nextOf o ∈ db.seqsOf w.uid ∨
    nextOf o = db.nextSeq w.uid ∧ db.waitingOf w.uid = []
  refine .conseq (L := fun s => AppliesAs ctx a w s ∧ L s.db) ?_ (fun s _ h => ⟨h.1, h.2 rfl⟩)
    (fun _ _ _ h => h) fun _ _ h => h
  refine .bind (triple_thisSession fun _ _ _ => trivial) fun b => ?_
  refine .conseq (L := fun s => b = a ∧ AppliesAs ctx a w s ∧ L s.db) (.pure fun hb => ?_)
    (fun s _ h => ⟨Option.some.inj (h.1.symm.trans h.2.1.1), h.2⟩) (fun _ _ _ h => h) fun _ _ h => h
  subst hb
  refine .bind (triple_sameUser (L := L)) fun user => .pure fun huser => ?_
  subst huser
  refine .bind (Q := fun _ s => AppliesAs ctx b user s ∧ L s.db) ?_ fun now => ?_
  · exact .bind (Q := fun _ s => AppliesAs ctx b user s ∧ L s.db) (.get fun _ _ h => h) fun _ =>
      .ret fun _ _ h => h
  · exact .bind triple_insert fun _ => keepsTo_ret _

theorem programs_pending (cfg : Config) : pendingProtocol.Programs (prog cfg) := by
  intro r q m _ _ hpermit
  by_cases hq : .applys ∈ q.footprint
  · cases q with
    | jsonrpc conn method params =>
      rcases ReqMethod.applys_of_footprint (by simpa [Request.footprint] using hq) with rfl | hdecision
      · refine prog_of_keepsTo (fun _ => trivial) (fun reply s _ => ?_) ?_
        · exact pending_of_keeps keeps_replied (by decide) (by decide) (by decide)
        · refine Triple.bind (triple_thisSession fun _ _ _ => trivial) fun a => ?_
          exact .conseq (userApplyMerchant_keepsTo a) (fun _ _ h => h.1) (fun _ _ _ h => h)
            fun _ _ h => h
      · exact prog_decision hdecision (fun _ => trivial) pendingRules
    | _ => simp [Request.footprint] at hq
  · exact prog_suspended_of_keeps (fun s t _ hk => pending_of_keeps hk hq hpermit.1 hpermit.2)
      fun _ => trivial

end Programs

/-- In every run of applications, decisions on them and any requests that change no
session: no applicant ever has two waiting applications, and the sequence numbers of an
applicant stay different. -/
theorem one_pending_application (cfg : Config) (m : Mem) (hids : m.db.ApplyIds)
    (hm : m.db.OnePending) (ls : List (Label Request Input))
    (hls : pendingProtocol.Admissible (prog cfg) (Sys.idle m) ls) :
    ((Sys.idle m : Service).run (prog cfg) ls).mem.db.OnePending :=
  (run_good (programs_pending cfg) (good_idle (P := pendingProtocol) ⟨hids, hm⟩ fun _ => trivial)
    hls).inv.2

/-- User 5 has been denied once; its session is open twice, and connection 2 is that of an
administrator. -/
def deniedOnce : Mem where
  db :=
    { users := [{ uid := 3 }, { uid := 5 }]
      applys := [{ id := 1, applicant := 5, seq := some 0, state := .denied }]
      seq := { apply := 1 } }
  heapTop := 2
  heap a := { sessionId := uuidOf 0 a, userInfo := some { uid := if a = 0 then 5 else 3 }, isAdmin := a = 1 }
  conn c := { sessionInfo := some (if c = 2 then 1 else 0) }

/-- Both requests of user 5 find nothing waiting; one is inserted and denied before the
other is inserted. -/
def applyTwice : List (Label Request Input) :=
  [.spawn (.jsonrpc 0 .userApplyMerchant []), .spawn (.jsonrpc 1 .userApplyMerchant [])] ++
    resumes 0 7 ++ resumes 1 7 ++ resumes 0 2 ++
    [.spawn (.jsonrpc 2 .adminDenyApplicant [("apply_id", .int64 2)])] ++ resumes 2 5 ++ resumes 1 2

theorem one_pending_application_applyTwice :
    let s := (Sys.idle deniedOnce : Service).run (prog bareConfig) applyTwice
    s.mem.db.applys.map (fun x => (x.seq, x.state)) = [(some 0, .denied), (some 1, .denied)] ∧
      s.mem.db.OnePending := by
  have hone : ∀ A, (deniedOnce.db.waitingOf A).length ≤ 1 ∧ (deniedOnce.db.seqsOf A).Nodup := by
    intro A
    by_cases hA : 5 = A <;> simp [Db.waitingOf, Db.seqsOf, deniedOnce, hA]
  refine ⟨by decide, ?_⟩
  exact one_pending_application bareConfig deniedOnce ⟨by decide, by decide⟩
    ⟨fun A => (hone A).1, fun A => (hone A).2⟩ applyTwice (by decide)

end Cmall
