import Cmall.Bootstrap
import Cmall.Transition

/-!
Who becomes an administrator.

The key of `administrators` is drawn from a sequence of its own while every reader takes it
for the uid of the user. The rows of the bootstrap are right just when each attempt that
inserts one draws the uid of the user it is for.
-/

namespace Cmall.Bootstrap
open Transition

/-- Every row of `administrators` has the uid of the user it points to. -/
def LinksAgree (db : Db) : Prop := ∀ row ∈ db.administrators, row.user = some row.uid

/-- The users who are made administrators are those that rows point to. -/
def RightsGoToLinked (db : Db) : Prop :=
  ∀ u, (db.findAdministrators u).isSome = true ↔ ∃ row ∈ db.administrators, row.user = some u

/-- The next value of the sequence of `administrators` is the uid of the user that the
attempt inserts a row for. -/
def DrawsUid (s : State) : Step → Prop
  | .resume i attempt =>
    match s.tasks[i]? with
    | some (.addAdmin newUser) =>
      attempt.writes = true → s.db.seq.administrators + 1 = newUser.uid
    | _ => True
  | _ => True

instance (s : State) (l : Step) : Decidable (DrawsUid s l) := by
  unfold DrawsUid
  split
  · split <;> infer_instance
  · infer_instance

theorem LinksAgree.rights {db : Db} (h : LinksAgree db) : RightsGoToLinked db := by
  intro u
  constructor
  · intro hsome
    obtain ⟨admin, hadmin⟩ := Option.isSome_iff_exists.mp hsome
    obtain ⟨row, hrow, -⟩ := Option.map_eq_some_iff.mp hadmin
    refine ⟨row, Table.mem_of_find hrow, ?_⟩
    have hkey : row.uid = u := Table.find_key hrow
    rw [h row (Table.mem_of_find hrow), hkey]
  · rintro ⟨row, hrow, huser⟩
    have huid : row.uid = u := Option.some.inj ((h row hrow).symm.trans huser)
    have hfind : (Table.find AdministratorsRow.uid db.administrators u).isSome = true := by
      rw [Table.find, List.find?_isSome]
      exact ⟨row, hrow, decide_eq_true huid⟩
    simpa [Db.findAdministrators] using hfind

/-! ## One step -/

/-- A row that an attempt has inserted. -/
inductive Inserted (s : State) : Step → AdministratorsRow → Prop where
  | addAdmin {i : Nat} {attempt : Attempt} {newUser : CmallUser}
      (task : s.tasks[i]? = some (.addAdmin newUser)) (writes : attempt.writes = true) :
      Inserted s (.resume i attempt) ⟨s.db.seq.administrators + 1, some newUser.uid⟩

section Steps

variable {s : State}

theorem advance_administrators (phase : Phase) (attempt : Attempt) :
    ((advance s phase attempt).1.db.administrators = s.db.administrators ∧
        ∀ newUser, phase = .addAdmin newUser → attempt.writes ≠ true) ∨
      ∃ newUser, phase = .addAdmin newUser ∧ attempt.writes = true ∧
        (advance s phase attempt).1.db.administrators =
          s.db.administrators ++ [⟨s.db.seq.administrators + 1, some newUser.uid⟩] := by
  cases phase with
  | addUser u =>
    refine .inl ⟨?_, fun newUser h => by cases h⟩
    simp only [advance, persistUser]
    split <;> rfl
  | addedUser u =>
    refine .inl ⟨?_, fun newUser h => by cases h⟩
    simp only [advance]
    split <;> rfl
  | loadAdmins u =>
    refine .inl ⟨?_, fun newUser h => by cases h⟩
    cases attempt <;> rfl
  | addAdmin newUser =>
    cases hw : attempt.writes with
    | true =>
      refine .inr ⟨newUser, rfl, rfl, ?_⟩
      simp [advance, persistAdmin, hw, Db.persistAdministrators]
    | false =>
      refine .inl ⟨?_, fun _ _ => by simp⟩
      simp [advance, persistAdmin, hw]
  | done => exact .inl ⟨rfl, fun newUser h => by cases h⟩

/-- Rows are only added, and only by the task. -/
theorem step_administrators (l : Step) :
    ((step s l).db.administrators = s.db.administrators ∧ ∀ row, ¬ Inserted s l row) ∨
      ∃ row, (step s l).db.administrators = s.db.administrators ++ [row] ∧
        ∀ row', Inserted s l row' ↔ row' = row := by
  cases l with
  | register phone => exact .inl ⟨rfl, fun row h => by cases h⟩
  | restart => exact .inl ⟨rfl, fun row h => by cases h⟩
  | resume i attempt =>
    simp only [step]
    cases ht : s.tasks[i]? with
    | none =>
      refine .inl ⟨rfl, ?_⟩
      rintro row ⟨ht', -⟩
      rw [ht] at ht'
      cases ht'
    | some phase =>
      rcases advance_administrators (s := s) phase attempt with ⟨h, hnot⟩ | ⟨newUser, rfl, hw, h⟩
      · refine .inl ⟨h, ?_⟩
        rintro row ⟨ht', hw⟩
        rw [ht] at ht'
        exact hnot _ (Option.some.inj ht') hw
      · refine .inr ⟨_, h, fun row' => ⟨?_, ?_⟩⟩
        · rintro ⟨ht', -⟩
          rw [ht] at ht'
          cases ht'
          rfl
        · rintro rfl
          exact .addAdmin ht hw

/-- The condition on a step is that its row, if it inserts one, is right. -/
theorem drawsUid_iff (l : Step) :
    DrawsUid s l ↔ ∀ row, Inserted s l row → row.user = some row.uid := by
  constructor
  · rintro h row ⟨ht, hw⟩
    simp only [DrawsUid, ht] at h
    rw [h hw]
  · intro h
    unfold DrawsUid
    split
    · rename_i i attempt
      split
      · rename_i newUser ht
        intro hw
        exact (Option.some.inj (h _ (.addAdmin ht hw))).symm
      · trivial
    · trivial

theorem linksAgree_step (l : Step) :
    LinksAgree (step s l).db ↔ LinksAgree s.db ∧ DrawsUid s l := by
  rw [drawsUid_iff]
  rcases step_administrators (s := s) l with ⟨hsame, hnone⟩ | ⟨row, hadded, hinserted⟩
  · rw [LinksAgree, hsame]
    exact ⟨fun h => ⟨h, fun row hrow => absurd hrow (hnone row)⟩, And.left⟩
  · rw [LinksAgree, hadded]
    constructor
    · intro h
      refine ⟨fun row' hrow' => h row' (List.mem_append_left _ hrow'), ?_⟩
      intro row' hrow'
      rw [(hinserted row').mp hrow']
      exact h row (by simp)
    · rintro ⟨hold, hnew⟩ row' hrow'
      rcases List.mem_append.mp hrow' with hrow' | hrow'
      · exact hold row' hrow'
      · rw [List.mem_singleton] at hrow'
        exact hrow' ▸ hnew row ((hinserted row).mpr rfl)

end Steps

/-! ## Every run -/

theorem linksAgree_run (s : State) (ls : List Step) :
    LinksAgree (run step s ls).db ↔ LinksAgree s.db ∧ Meets step DrawsUid s ls := by
  induction ls generalizing s with
  | nil => exact ⟨fun h => ⟨h, trivial⟩, And.left⟩
  | cons l ls ih =>
    rw [run_cons, ih, linksAgree_step, and_assoc]
    rfl

/-- From a database without administrators, over any number of process lifetimes: the rows
have the uids of the users they point to, and the users who are made administrators are
those, if and only if every attempt that inserts a row draws the uid of its user. -/
theorem administrators_linked_iff (db : Db) (hdb : db.administrators = []) (ls : List Step) :
    (LinksAgree (run step { db := db } ls).db ∧ RightsGoToLinked (run step { db := db } ls).db) ↔
      Meets step DrawsUid { db := db } ls := by
  have hstart : LinksAgree db := by
    intro row hrow
    rw [hdb] at hrow
    cases hrow
  constructor
  · rintro ⟨hagree, -⟩
    exact ((linksAgree_run _ ls).mp hagree).2
  · intro hmeets
    have hagree := (linksAgree_run { db := db } ls).mpr ⟨hstart, hmeets⟩
    exact ⟨hagree, hagree.rights⟩

/-! ## Histories -/

/-- The `n`-th task of the process is a registration; the check it starts is run. -/
def registration (phone : String) (n : Nat) : List Step :=
  [.register phone, .resume n .committed, .resume n .committed, .resume n .committed,
    .resume n .committed]

/-- On a fresh database the two sequences coincide: user 1 is the administrator. -/
theorem administrators_linked_fresh :
    let t := run step { db := {} } (registration "13" 0 ++ registration "14" 1)
    t.db.administrators = [⟨1, some 1⟩] ∧ LinksAgree t.db ∧ RightsGoToLinked t.db :=
  ⟨by decide, (administrators_linked_iff {} rfl _).mpr (by decide)⟩

/-- Five users registered before. The sixth is linked to the row, and user 1 is made an
administrator by it. -/
theorem administrator_is_another :
    let db : Db :=
      { users := (List.range 5).map fun n => { uid := n + 1, activePhone := toString n }
        seq := { user := 5 } }
    let t := run step { db := db } (registration "13" 0)
    t.db.administrators = [⟨1, some 6⟩] ∧
      (t.db.findAdministrators 1).isSome = true ∧ t.db.findAdministrators 6 = none ∧
      ¬ (LinksAgree t.db ∧ RightsGoToLinked t.db) := by
  refine ⟨by decide, by decide, by decide, ?_⟩
  rintro ⟨hagree, -⟩
  exact absurd (hagree ⟨1, some 6⟩ (by decide)) (by decide)

end Cmall.Bootstrap
