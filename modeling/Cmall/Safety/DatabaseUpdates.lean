import Cmall.Coroutine.Safe
import Cmall.Database
import Mathlib.Data.List.Permutation

/-!
Concurrent calls of `update(id, updater)`.

The call loads the row in one statement and writes the whole row in another one, and
at READ COMMITTED nothing keeps other transactions out in between. As long as every
call still finds the row it loaded when it writes, the calls that returned `true` have
worked on the row one after the other.
-/

namespace Cmall.Database
open Coroutine

variable {T κ : Type} [DecidableEq κ] (tr : Traits T κ)

/-- A call, or the clock going on. -/
inductive Client (T κ : Type) where
  | update (id : κ) (updater : T → T)
  | clock (now : PTime)

def setClock (now : PTime) : DbM T Bool := do
  statement
  Co.modify fun s => { s with now }
  return true

def client : Client T κ → DbM T Bool
  | .update id updater => updateId tr id updater
  | .clock now => setClock now

/-- The table with the calls made so far. -/
abbrev Clients (T κ : Type) := Sys (Client T κ) (Work T) Unit (Call T) DbError Bool

namespace Clients

/-- The number of a call is its place among the clients. -/
def updater (s : Clients T κ) (r : Nat) : T → T :=
  match s.reqs[r]? with
  | some (.update _ updater) => updater
  | _ => id

/-- Call `r` was for the row of `id` and has returned `true`. -/
def Updated (s : Clients T κ) (id : κ) (r : Nat) : Prop :=
  ∃ updater, s.procs[r]? = some ⟨.update id updater, .ret true⟩

/-- The row of `id`, once `v`, is what the calls that have returned `true` make of it in
some order. Each of them also stamps the row with its own time. -/
def Serial (s : Clients T κ) (id : κ) (v : T) : Prop :=
  ∃ order : List (Nat × PTime), (order.map Prod.fst).Nodup ∧
    (∀ r, r ∈ order.map Prod.fst ↔ s.Updated id r) ∧
    Table.find tr.id s.mem.db.rows id =
      some (order.foldl (fun v x => tr.touch x.2 (s.updater x.1 v)) v)

end Clients

/-- The row that is about to be written is still the one that was loaded, and the updater
leaves its id alone. -/
def rowStands : Client T κ → Call T → Work T → Prop
  | .update id updater, .update old, s =>
    Table.find tr.id s.db.rows id = some old ∧ tr.id (updater old) = id
  | _, _, _ => True

/-- The runs in which every `UPDATE` meets the row as it was loaded. -/
def updateProtocol : Protocol (Client T κ) (Work T) Unit (Call T) where
  inv _ := True
  rely _ _ _ _ := True
  guar _ _ _ _ := True
  guard _ q c _ s := rowStands tr q c s
  permit _ _ := True
  rely_refl _ _ _ := trivial
  rely_trans _ _ _ _ _ _ _ := trivial
  guar_refl _ _ _ := trivial
  guar_trans _ _ _ _ _ _ _ := trivial
  guar_inv _ _ _ _ _ _ := trivial
  guar_rely _ _ _ _ _ _ _ _ _ := trivial

/-! ## One step -/

/-- How far a client has got. -/
inductive Stage : Client T κ → DbM T Bool → Prop
  | start (q : Client T κ) : Stage q (client tr q)
  | loaded (id : κ) (updater : T → T) (old : T) :
      Stage (.update id updater) (storeUpdated tr updater old)
  | ended (q : Client T κ) (b : Bool) : Stage q (.ret b)

variable {tr}

/-- The load. -/
theorem updateId_resume (id : κ) (updater : T → T) (m : Work T) :
    (updateId tr id updater).resume () m =
      (m, match Table.find tr.id m.db.rows id with
        | none => .ret false
        | some old => storeUpdated tr updater old) := by
  cases h : Table.find tr.id m.db.rows id with
  | none => simp [updateId, statement, Co.suspend, Co.get, Co.resume, Co.advance, h]
  | some old =>
    simp [updateId, statement, Co.suspend, Co.get, Co.resume, Co.advance, h, storeUpdated]

/-- The write, when the row is still there. -/
theorem storeUpdated_resume {id : κ} {updater : T → T} {old : T} {m : Work T}
    (hrow : Table.find tr.id m.db.rows id = some old) (hid : tr.id (updater old) = id) :
    (storeUpdated tr updater old).resume () m =
      ({ m with db.rows := Table.update tr.id m.db.rows (tr.touch m.now (updater old)) },
        .ret true) := by
  have hsome : (Table.find tr.id m.db.rows (tr.id (updater old))).isSome := by
    rw [hid, hrow]
    rfl
  simp [storeUpdated, updateRow, setRows, Co.suspend, Co.get, Co.modify, Co.resume, Co.advance,
    Co.tryCatch, tr.id_touch, hsome]

/-- What a step of a client that waits does: it sets the clock or loads, or it writes and
returns `true`. -/
theorem Stage.resume {q : Client T κ} {code : DbM T Bool} {m : Work T} (h : Stage tr q code)
    (hwaits : ∃ c k, code = .await c k ∧ rowStands tr q c m) :
    (Stage tr q (code.resume () m).2 ∧ (code.resume () m).1.db = m.db ∧
        ∀ id updater, q = .update id updater → (code.resume () m).2 ≠ .ret true) ∨
      ∃ id updater old, q = .update id updater ∧ Table.find tr.id m.db.rows id = some old ∧
        tr.id (updater old) = id ∧ code.resume () m =
          ({ m with db.rows := Table.update tr.id m.db.rows (tr.touch m.now (updater old)) },
            .ret true) := by
  cases h with
  | start =>
    refine .inl ?_
    cases q with
    | clock now => exact ⟨.ended _ true, rfl, fun _ _ h => by cases h⟩
    | update id updater =>
      rw [client, updateId_resume]
      cases Table.find tr.id m.db.rows id with
      | none => exact ⟨.ended _ false, rfl, fun _ _ _ h => by cases h⟩
      | some old => exact ⟨.loaded id updater old, rfl, fun _ _ _ h => by cases h⟩
  | loaded id updater old =>
    obtain ⟨c, k, hcode, hstands⟩ := hwaits
    cases hcode
    exact .inr ⟨id, updater, old, rfl, hstands.1, hstands.2, storeUpdated_resume hstands.1 hstands.2⟩
  | ended =>
    obtain ⟨c, k, hcode, -⟩ := hwaits
    cases hcode

/-! ## Whole runs -/

section Run

variable {s s' : Clients T κ} {id : κ} {v : T}

/-- Nothing has changed for the row of `id`. -/
theorem Clients.Serial.congr (h : s.Serial tr id v)
    (hrow : Table.find tr.id s'.mem.db.rows id = Table.find tr.id s.mem.db.rows id)
    (hupdated : ∀ r, s'.Updated id r ↔ s.Updated id r)
    (hupdater : ∀ r, s.Updated id r → s'.updater r = s.updater r) : s'.Serial tr id v := by
  obtain ⟨order, hnodup, hmem, heq⟩ := h
  refine ⟨order, hnodup, fun r => (hmem r).trans (hupdated r).symm, ?_⟩
  rw [hrow, heq]
  congr 1
  refine List.foldl_ext _ _ _ fun v x hx => ?_
  rw [hupdater x.1 ((hmem x.1).mp (List.mem_map_of_mem hx))]

/-- Call `r` has written the row and returned `true`. -/
theorem Clients.Serial.write (h : s.Serial tr id v) {r : Nat} {old : T} (now : PTime)
    (hold : Table.find tr.id s.mem.db.rows id = some old)
    (hrow : Table.find tr.id s'.mem.db.rows id = some (tr.touch now (s.updater r old)))
    (hnot : ¬ s.Updated id r) (hupdated : ∀ r', s'.Updated id r' ↔ r' = r ∨ s.Updated id r')
    (hupdater : ∀ r, s'.updater r = s.updater r) : s'.Serial tr id v := by
  obtain ⟨order, hnodup, hmem, heq⟩ := h
  refine ⟨order ++ [(r, now)], ?_, fun r' => ?_, ?_⟩
  · have hr : r ∉ order.map Prod.fst := fun hr => hnot ((hmem r).mp hr)
    rw [List.map_append, List.nodup_append]
    refine ⟨hnodup, by simp, ?_⟩
    rintro a ha b hb rfl
    have har : a = r := by simpa using hb
    exact hr (har ▸ ha)
  · rw [List.map_append, List.mem_append, hmem r', hupdated r']
    simp [or_comm]
  · have hlast : old = order.foldl (fun v x => tr.touch x.2 (s.updater x.1 v)) v :=
      Option.some.inj (hold.symm.trans heq)
    rw [hrow, List.foldl_append, hlast]
    simp [hupdater]

/-- Every client is at one of its stages and the row of `id` is accounted for. -/
structure Steady (tr : Traits T κ) (s : Clients T κ) (id : κ) (v : T) : Prop where
  stages : ∀ p ∈ s.procs, Stage tr p.req p.code
  serial : s.Serial tr id v

theorem Steady.spawn (h : Steady tr s id v) (q : Client T κ) :
    Steady tr (s.step (fun _ => client tr) (.spawn q)) id v := by
  have hlt : ∀ r, s.Updated id r → r < s.procs.length := fun r ⟨f, hf⟩ =>
    (List.getElem?_eq_some_iff.mp hf).1
  refine ⟨fun p hp => ?_, h.serial.congr rfl (fun r => ?_) fun r hr => ?_⟩
  · rcases List.mem_append.mp hp with hp | hp
    · exact h.stages p hp
    · rw [List.mem_singleton.mp hp]
      exact .start q
  · constructor
    · rintro ⟨f, hf⟩
      simp only [Sys.step, List.getElem?_append] at hf
      split at hf
      · exact ⟨f, hf⟩
      · rw [List.getElem?_singleton] at hf
        split at hf
        · cases q <;> cases hf
        · cases hf
    · rintro ⟨f, hf⟩
      refine ⟨f, ?_⟩
      rw [← hf]
      exact List.getElem?_append_left (hlt r ⟨f, hf⟩)
  · have hr : r < s.reqs.length := by simpa [Sys.reqs] using hlt r hr
    simp [Clients.updater, Sys.reqs_spawn, List.getElem?_append, hr]

theorem stages_set (h : ∀ p ∈ s.procs, Stage tr p.req p.code) {r : Nat} {q : Client T κ}
    {code : DbM T Bool} {i : Unit} (hp : s.procs[r]? = some ⟨q, code⟩)
    (hstage : Stage tr q (code.resume i s.mem).2) :
    ∀ p ∈ (s.step (fun _ => client tr) (.resume r i)).procs, Stage tr p.req p.code := by
  intro p hmem
  simp only [Sys.step, hp] at hmem
  rcases List.mem_or_eq_of_mem_set hmem with hmem | rfl
  · exact h p hmem
  · exact hstage

theorem Steady.resume (h : Steady tr s id v) {r : Nat}
    (ha : (updateProtocol tr).Allows s (.resume r ())) :
    Steady tr (s.step (fun _ => client tr) (.resume r ())) id v := by
  cases hp : s.procs[r]? with
  | none => simp [Protocol.Allows, hp] at ha
  | some p =>
    obtain ⟨q, code⟩ := p
    have hr : r < s.procs.length := (List.getElem?_eq_some_iff.mp hp).1
    have hstage : Stage tr q code := h.stages _ (List.mem_of_getElem? hp)
    have hwaits : ∃ c k, code = .await c k ∧ rowStands tr q c s.mem := by
      cases code with
      | await c k => exact ⟨c, k, rfl, by simpa [Protocol.Allows, hp, updateProtocol] using ha⟩
      | _ => simp [Protocol.Allows, hp] at ha
    have hnot : ¬ s.Updated id r := by
      rintro ⟨f, hf⟩
      obtain ⟨c, k, hcode, -⟩ := hwaits
      rw [hp, hcode] at hf
      cases hf
    have hreqs : ∀ r', Clients.updater (s.step (fun _ => client tr) (.resume r ())) r' =
        s.updater r' := by
      intro r'
      simp only [Clients.updater, Sys.reqs_resume]
    -- only the client that makes the step can have come to its end
    have hother : ∀ r', r' ≠ r → (Clients.Updated (s.step (fun _ => client tr) (.resume r ())) id r' ↔
        s.Updated id r') := by
      intro r' hr'
      simp [Clients.Updated, Sys.step, hp, Ne.symm hr']
    have hself : Clients.Updated (s.step (fun _ => client tr) (.resume r ())) id r ↔
        ∃ f, q = .update id f ∧ (code.resume () s.mem).2 = .ret true := by
      simp only [Clients.Updated, Sys.step, hp]
      simp [hr]
    rcases hstage.resume hwaits with ⟨hstage', hdb, hend⟩ | ⟨id', f, old, rfl, hrow, hid, hres⟩
    · refine ⟨stages_set h.stages hp hstage', h.serial.congr ?_ (fun r' => ?_) fun r' _ => hreqs r'⟩
      · simp [Sys.step, hp, hdb]
      · by_cases hr' : r' = r
        · subst hr'
          rw [hself]
          refine iff_of_false ?_ hnot
          rintro ⟨f, rfl, hret⟩
          exact hend id f rfl hret
        · exact hother r' hr'
    · have hmem : (s.step (fun _ => client tr) (.resume r ())).mem.db.rows =
          Table.update tr.id s.mem.db.rows (tr.touch s.mem.now (f old)) := by
        simp [Sys.step, hp, hres]
      have hkey : tr.id (tr.touch s.mem.now (f old)) = id' := by rw [tr.id_touch, hid]
      refine ⟨stages_set h.stages hp (by rw [hres]; exact .ended _ true), ?_⟩
      by_cases hid' : id' = id
      · subst hid'
        refine h.serial.write (r := r) s.mem.now hrow ?_ hnot (fun r' => ?_) hreqs
        · have hf : s.updater r = f := by simp [Clients.updater, Sys.reqs, hp]
          rw [hmem, hf, ← hkey]
          refine Table.find_update_self ?_
          rw [hkey, hrow]
          rfl
        · by_cases hr' : r' = r
          · subst hr'
            simp [hself, hres]
          · simp [hother r' hr', hr']
      · refine h.serial.congr ?_ (fun r' => ?_) fun r' _ => hreqs r'
        · rw [hmem]
          exact Table.find_update_ne (by rw [hkey]; exact fun e => hid' e.symm)
        · by_cases hr' : r' = r
          · subst hr'
            rw [hself]
            refine iff_of_false ?_ hnot
            rintro ⟨f', hq, -⟩
            cases hq
            exact hid' rfl
          · exact hother r' hr'

theorem Steady.run (h : Steady tr s id v) {ls : List (Label (Client T κ) Unit)}
    (ha : (updateProtocol tr).Admissible (fun _ => client tr) s ls) :
    Steady tr (s.run (fun _ => client tr) ls) id v := by
  induction ls generalizing s with
  | nil => exact h
  | cons l ls ih =>
    refine ih ?_ ha.2
    cases l with
    | spawn q => exact h.spawn q
    | resume r i => exact h.resume ha.1

end Run

/-- In every run in which each `UPDATE` meets the row its call loaded, the row is what the
calls that have returned `true` make of it in some order. -/
theorem update_serial (tr : Traits T κ) (m : Work T)
    (ls : List (Label (Client T κ) Unit))
    (hrun : (updateProtocol tr).Admissible (fun _ => client tr) (Sys.idle m : Clients T κ) ls)
    (id : κ) (v : T) (hv : Table.find tr.id m.db.rows id = some v) :
    Clients.Serial tr ((Sys.idle m).run (fun _ => client tr) ls) id v := by
  have hidle : Steady tr (Sys.idle m : Clients T κ) id v := by
    refine ⟨by simp [Sys.idle], [], List.nodup_nil, fun r => ?_, hv⟩
    simp [Clients.Updated, Sys.idle]
  exact (hidle.run hrun).serial

/-- `merchant_alter_name` and `merchant_reset_gitea_password` for one merchant. -/
def renameAndReset : List (Client CmallMerchant Nat) :=
  [.update 3 fun m => { m with name := "B" },
    .update 3 fun m => { m with giteaPassword := some "secret" }]

def oneMerchant : Work CmallMerchant := ⟨⟨[{ uid := 3, name := "A" }], 0⟩, ⟨{}, []⟩, 100⟩

/-- One after the other, each meets the row it loaded. -/
theorem update_serial_rename_then_reset :
    Clients.Serial merchantTraits ((Sys.idle oneMerchant).run (fun _ => client merchantTraits)
      (renameAndReset.map .spawn ++ [.resume 0 (), .resume 0 (), .resume 1 (), .resume 1 ()]))
      3 { uid := 3, name := "A" } := by
  refine update_serial merchantTraits oneMerchant _ ?_ 3 _ rfl
  simp only [renameAndReset, List.map_cons, List.map_nil, List.cons_append, List.nil_append]
  exact ⟨trivial, trivial, trivial, ⟨rfl, rfl⟩, trivial, ⟨rfl, rfl⟩, trivial⟩

/-- Both load before either writes: both calls return `true`, and the name is lost. -/
theorem not_serial_rename_and_reset :
    let s : Clients CmallMerchant Nat := (Sys.idle oneMerchant).run (fun _ => client merchantTraits)
      (renameAndReset.map .spawn ++ [.resume 0 (), .resume 1 (), .resume 0 (), .resume 1 ()])
    s.Updated 3 0 ∧ s.Updated 3 1 ∧ ¬ s.Serial merchantTraits 3 { uid := 3, name := "A" } := by
  intro s
  have hprocs : s.procs = [⟨.update 3 fun m => { m with name := "B" }, .ret true⟩,
      ⟨.update 3 fun m => { m with giteaPassword := some "secret" }, .ret true⟩] := rfl
  refine ⟨⟨_, rfl⟩, ⟨_, rfl⟩, ?_⟩
  rintro ⟨order, hnodup, hmem, hrow⟩
  have hperm : (order.map Prod.fst).Perm [0, 1] := by
    rw [List.perm_ext_iff_of_nodup hnodup (by decide)]
    intro r
    rw [hmem r, Clients.Updated, hprocs]
    rcases r with _ | _ | r <;> simp
  have horder : order.map Prod.fst ∈ ([0, 1] : List Nat).permutations :=
    List.mem_permutations.mpr hperm
  have hname : (Table.find merchantTraits.id s.mem.db.rows 3).map CmallMerchant.name = some "A" := rfl
  rw [hrow] at hname
  rcases order with _ | ⟨⟨r, t⟩, _ | ⟨⟨r', t'⟩, _ | ⟨x, order⟩⟩⟩
  all_goals simp [List.permutations] at horder
  rcases horder with ⟨rfl, rfl⟩ | ⟨rfl, rfl⟩
  · simp [Clients.updater, Sys.reqs, hprocs, merchantTraits] at hname
  · simp [Clients.updater, Sys.reqs, hprocs, merchantTraits] at hname

end Cmall.Database
