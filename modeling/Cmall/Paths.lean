import Mathlib.Data.List.Induction

/-!
Lexical normalisation of paths.

A path is a walk from the root: a name goes down, `..` goes up, and at the root `..` stays.
`names` is where the walk ends. `prefix_names_iff` says the same by counting: a component is
still there at the end just when what comes before it has been left again and what comes
after it does not climb above it.
-/

namespace Paths

inductive Move (α : Type) where
  | down (name : α)
  | up
  deriving DecidableEq, Repr

variable {α : Type}

/-- One component more, from the directory `dir`. -/
def Move.apply (dir : List α) : Move α → List α
  | .down a => dir ++ [a]
  | .up => dir.dropLast

/-- The directory the walk ends in, from the root down. -/
def names (ms : List (Move α)) : List α := ms.foldl Move.apply []

def downs (ms : List (Move α)) : Nat := ms.countP fun | .down _ => true | .up => false

def ups (ms : List (Move α)) : Nat := ms.countP fun | .down _ => false | .up => true

/-- No initial part has more `..` than names: the walk does not climb above its start. -/
def Below (ms : List (Move α)) : Prop := ∀ p, p <+: ms → ups p ≤ downs p

/-- No final part has more names than `..`: the walk has left what it entered. -/
def Closes (ms : List (Move α)) : Prop := ∀ s, s <:+ ms → downs s ≤ ups s

/-- The components of `tree` occur one after the other, each after a part that `Closes` and
before one that stays `Below` it. -/
def Enters : List α → List (Move α) → Prop
  | [], _ => True
  | a :: tree, ms => ∃ h p, ms = h ++ .down a :: p ∧ Closes h ∧ Below p ∧ Enters tree p

/-! ## Counting -/

@[simp] theorem names_nil : names ([] : List (Move α)) = [] := rfl

@[simp] theorem names_down (ms : List (Move α)) (a : α) :
    names (ms ++ [.down a]) = names ms ++ [a] := by
  simp [names, Move.apply]

@[simp] theorem names_up (ms : List (Move α)) : names (ms ++ [.up]) = (names ms).dropLast := by
  simp [names, Move.apply]

@[simp] theorem downs_append (ms ns : List (Move α)) : downs (ms ++ ns) = downs ms + downs ns := by
  simp [downs]

@[simp] theorem ups_append (ms ns : List (Move α)) : ups (ms ++ ns) = ups ms + ups ns := by
  simp [ups]

@[simp] theorem downs_nil : downs ([] : List (Move α)) = 0 := rfl
@[simp] theorem ups_nil : ups ([] : List (Move α)) = 0 := rfl
@[simp] theorem downs_down (a : α) : downs [Move.down a] = 1 := rfl
@[simp] theorem ups_down (a : α) : ups [Move.down a] = 0 := rfl
@[simp] theorem downs_up : downs [(.up : Move α)] = 0 := rfl
@[simp] theorem ups_up : ups [(.up : Move α)] = 1 := rfl

theorem below_nil : Below ([] : List (Move α)) := by
  intro p hp
  rw [List.prefix_nil.mp hp]
  exact Nat.le_refl _

theorem Below.init {ms : List (Move α)} {m : Move α} (h : Below (ms ++ [m])) : Below ms := by
  intro p hp
  exact h p (hp.trans (List.prefix_append ms [m]))

theorem Below.snoc {ms : List (Move α)} {m : Move α} (h : Below ms)
    (hm : ups (ms ++ [m]) ≤ downs (ms ++ [m])) : Below (ms ++ [m]) := by
  intro p hp
  rcases List.prefix_concat_iff.mp (by simpa using hp) with rfl | hp
  · simpa using hm
  · exact h p hp

/-- A walk that stays below its start ends as deep as the difference of the counts. -/
theorem Below.length_names {ms : List (Move α)} (h : Below ms) :
    (names ms).length + ups ms = downs ms := by
  induction ms using List.reverseRecOn with
  | nil => rfl
  | append_singleton ms m ih =>
    have hlen := ih h.init
    have hm := h _ (List.prefix_refl _)
    cases m with
    | down a => simp; omega
    | up =>
      simp at hm ⊢
      omega

/-- A walk is at most `k` deep at its end when no final part goes down by more than `k`. -/
theorem length_names_le_iff (ms : List (Move α)) (k : Nat) :
    (names ms).length ≤ k ↔ ∀ s, s <:+ ms → downs s ≤ ups s + k := by
  induction ms using List.reverseRecOn generalizing k with
  | nil =>
    constructor
    · intro _ s hs
      rw [List.suffix_nil.mp hs]
      simp
    · intro _
      simp
  | append_singleton ms m ih =>
    -- a final part is empty or a final part of `ms` with the last component
    have hsuf : ∀ P : List (Move α) → Prop,
        (∀ s, s <:+ ms ++ [m] → P s) ↔ P [] ∧ ∀ s, s <:+ ms → P (s ++ [m]) := by
      intro P
      constructor
      · intro h
        exact ⟨h [] (List.nil_suffix), fun s ⟨t, ht⟩ => h _ ⟨t, by rw [← List.append_assoc, ht]⟩⟩
      · rintro ⟨h0, h1⟩ s hs
        rcases List.eq_nil_or_concat s with rfl | ⟨l, x, rfl⟩
        · exact h0
        · obtain ⟨t, ht⟩ := hs
          rw [List.concat_eq_append, ← List.append_assoc] at ht
          obtain ⟨ht', hx⟩ := List.append_inj' ht rfl
          simp only [List.cons.injEq, and_true] at hx
          subst hx
          simpa using h1 l ⟨t, ht'⟩
    rw [hsuf]
    cases m with
    | down a =>
      cases k with
      | zero =>
        simp only [names_down, List.length_append, List.length_singleton]
        constructor
        · intro h
          omega
        · rintro ⟨_, h⟩
          have := h [] List.nil_suffix
          simp at this
      | succ k =>
        have := ih k
        simp only [names_down, List.length_append, List.length_singleton, downs_append, ups_append,
          downs_down, ups_down, Nat.add_zero, Nat.add_le_add_iff_right, ← Nat.add_assoc] at this ⊢
        rw [this]
        simp
    | up =>
      have := ih (k + 1)
      simp only [names_up, List.length_dropLast, downs_append, ups_append, downs_up, ups_up,
        Nat.add_zero] at this ⊢
      rw [Nat.sub_le_iff_le_add, this]
      constructor
      · intro h
        exact ⟨by simp, fun s hs => by have := h s hs; omega⟩
      · rintro ⟨_, h⟩ s hs
        have := h s hs
        omega

theorem closes_iff (ms : List (Move α)) : Closes ms ↔ names ms = [] := by
  have := length_names_le_iff ms 0
  simp only [Nat.le_zero_eq, List.length_eq_zero_iff, Nat.add_zero] at this
  exact this.symm

/-! ## Surviving components -/

theorem names_append_down {h p : List (Move α)} {a : α} (hp : Below p) :
    names (h ++ .down a :: p) = names h ++ a :: names p := by
  induction p using List.reverseRecOn with
  | nil => simp
  | append_singleton p m ih =>
    have ih := ih hp.init
    have hlen := hp.init.length_names
    have hm := hp _ (List.prefix_refl _)
    have heq : h ++ Move.down a :: (p ++ [m]) = (h ++ .down a :: p) ++ [m] := by simp
    rw [heq]
    cases m with
    | down b => rw [names_down, names_down, ih]; simp
    | up =>
      have hne : names p ≠ [] := by
        intro h0
        rw [h0] at hlen
        simp at hlen hm
        omega
      rw [names_up, names_up, ih, List.dropLast_append_of_ne_nil (by simp),
        List.dropLast_cons_of_ne_nil hne]

/-- The component the end lies under was entered once for good. -/
theorem exists_of_names_cons {ms : List (Move α)} {a : α} {rest : List α}
    (h : names ms = a :: rest) :
    ∃ h' p, ms = h' ++ .down a :: p ∧ names h' = [] ∧ Below p ∧ names p = rest := by
  induction ms using List.reverseRecOn generalizing rest with
  | nil => cases h
  | append_singleton ms m ih =>
    cases m with
    | down b =>
      rw [names_down] at h
      rcases hn : names ms with _ | ⟨c, r⟩
      · rw [hn] at h
        simp only [List.nil_append, List.cons.injEq] at h
        obtain ⟨rfl, rfl⟩ := h
        exact ⟨ms, [], rfl, hn, below_nil, rfl⟩
      · rw [hn] at h
        simp only [List.cons_append, List.cons.injEq] at h
        obtain ⟨rfl, rfl⟩ := h
        obtain ⟨h', p, rfl, hh, hp, hr⟩ := ih hn
        refine ⟨h', p ++ [.down b], by simp, hh, hp.snoc ?_, by rw [names_down, hr]⟩
        have := hp p (List.prefix_refl _)
        simp
        omega
    | up =>
      rw [names_up] at h
      have hne : names ms ≠ [] := by
        intro h0
        rw [h0] at h
        cases h
      have hn : names ms = a :: (rest ++ [(names ms).getLast hne]) := by
        conv_lhs => rw [← List.dropLast_concat_getLast hne, h]
        simp
      obtain ⟨h', p, hms, hh, hp, hr⟩ := ih hn
      have hlen := hp.length_names
      rw [hr] at hlen
      refine ⟨h', p ++ [.up], by simp [hms], hh, hp.snoc ?_, by rw [names_up, hr]; simp⟩
      simp at hlen ⊢
      omega

/-- A path ends inside `tree` just when it enters it and does not climb out again. -/
theorem prefix_names_iff (tree : List α) (ms : List (Move α)) :
    tree <+: names ms ↔ Enters tree ms := by
  induction tree generalizing ms with
  | nil => simp [Enters]
  | cons a tree ih =>
    constructor
    · rintro ⟨rest, h⟩
      obtain ⟨h', p, rfl, hh, hp, hr⟩ := exists_of_names_cons h.symm
      exact ⟨h', p, rfl, (closes_iff h').mpr hh, hp, (ih p).mp ⟨rest, hr.symm⟩⟩
    · rintro ⟨h', p, rfl, hh, hp, ht⟩
      rw [names_append_down hp, (closes_iff h').mp hh, List.nil_append, List.cons_prefix_cons]
      exact ⟨rfl, (ih p).mpr ht⟩

end Paths
