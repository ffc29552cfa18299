import Mathlib.Data.List.Sort

/-!
Rows with an order number, read as a list.

`Reads key f rows l` says that `l` is one of the ways to read the rows in ascending order of
`key`: rows of the same number come in any order. There is one lemma for each way to change
the rows: strictly increasing rows are read in one way, a row after all others is read last,
and dropping rows drops their readings.
-/

namespace Numbered

variable {α β κ : Type} [LinearOrder κ] {key : α → κ} {f : α → β} {rows : List α} {l : List β}

def Reads (key : α → κ) (f : α → β) (rows : List α) (l : List β) : Prop :=
  ∃ sorted : List α, sorted.Perm rows ∧ (sorted.Pairwise fun x y => key x ≤ key y) ∧
    sorted.map f = l

/-- What a sort that refines the order of the keys returns. -/
theorem reads_insertionSort {before : α → α → Prop} [DecidableRel before] [Std.Total before]
    [IsTrans α before] (hkey : ∀ x y, before x y → key x ≤ key y) :
    Reads key f rows ((rows.insertionSort before).map f) :=
  ⟨rows.insertionSort before, List.perm_insertionSort before rows,
    (List.pairwise_insertionSort before rows).imp fun {x y} => hkey x y, rfl⟩

theorem reads_strict (h : rows.Pairwise fun x y => key x < key y) :
    Reads key f rows l ↔ l = rows.map f := by
  have hle : rows.Pairwise fun x y => key x ≤ key y := h.imp fun {x y} hxy => le_of_lt hxy
  constructor
  · rintro ⟨sorted, hperm, hsorted, rfl⟩
    have hnodup : (rows.map key).Nodup := by
      rw [List.Nodup, List.pairwise_map]
      exact h.imp fun {x y} hxy => ne_of_lt hxy
    have heq : sorted = rows := by
      apply List.Perm.eq_of_pairwise ?_ hsorted hle hperm
      intro x y hx hy hxy hyx
      exact List.inj_on_of_nodup_map hnodup (hperm.mem_iff.mp hx) hy (le_antisymm hxy hyx)
    rw [heq]
  · rintro rfl
    exact ⟨rows, .refl rows, hle, rfl⟩

theorem reads_append {y : α} (h : ∀ x ∈ rows, key x < key y) :
    Reads key f (rows ++ [y]) l ↔ ∃ l₀, Reads key f rows l₀ ∧ l = l₀ ++ [f y] := by
  constructor
  · rintro ⟨sorted, hperm, hsorted, rfl⟩
    obtain ⟨front, back, rfl⟩ := List.append_of_mem (hperm.mem_iff.mpr (by simp : y ∈ rows ++ [y]))
    have hrest : (front ++ back).Perm rows := by
      have hmiddle : (y :: (front ++ back)).Perm (y :: rows) :=
        (List.perm_middle.symm.trans hperm).trans (List.perm_append_singleton y rows)
      exact hmiddle.cons_inv
    -- what comes after `y` has a number that is not smaller, so nothing comes after it
    have hback : back = [] := by
      rw [List.eq_nil_iff_forall_not_mem]
      intro z hz
      have hlt := h z (hrest.mem_iff.mp (List.mem_append_right front hz))
      have hle := List.rel_of_pairwise_cons (List.pairwise_append.mp hsorted).2.1 hz
      exact absurd hle (not_le_of_gt hlt)
    subst hback
    rw [List.append_nil] at hrest
    exact ⟨front.map f, ⟨front, hrest, (List.pairwise_append.mp hsorted).1, rfl⟩, by simp⟩
  · rintro ⟨_, ⟨sorted, hperm, hsorted, rfl⟩, rfl⟩
    refine ⟨sorted ++ [y], hperm.append_right [y], ?_, by simp⟩
    rw [List.pairwise_append]
    refine ⟨hsorted, List.pairwise_singleton _ y, ?_⟩
    intro x hx z hz
    rw [List.mem_singleton] at hz
    subst hz
    exact le_of_lt (h x (hperm.mem_iff.mp hx))

/-- Elements that a filter drops can be put anywhere before it. -/
theorem exists_sorted_insert {p : α → Bool} {dropped sorted : List α}
    (hdropped : ∀ x ∈ dropped, p x = false) (hsorted : sorted.Pairwise fun x y => key x ≤ key y) :
    ∃ full : List α, full.Perm (dropped ++ sorted) ∧ (full.Pairwise fun x y => key x ≤ key y) ∧
      full.filter p = sorted.filter p := by
  have : Std.Total fun x y => key x ≤ key y := ⟨fun x y => le_total (key x) (key y)⟩
  have : IsTrans α fun x y => key x ≤ key y := ⟨fun _ _ _ => le_trans⟩
  induction dropped with
  | nil => exact ⟨sorted, .refl _, hsorted, rfl⟩
  | cons x dropped ih =>
    obtain ⟨full, hperm, hfull, hfilter⟩ := ih fun y hy => hdropped y (List.mem_cons_of_mem x hy)
    refine ⟨full.orderedInsert (fun x y => key x ≤ key y) x, ?_, hfull.orderedInsert x full, ?_⟩
    · exact (List.perm_orderedInsert _ x full).trans (hperm.cons x)
    · have hx : p x = false := hdropped x (List.mem_cons_self ..)
      rw [List.orderedInsert_eq_take_drop, List.filter_append, List.filter_cons, hx, ← hfilter]
      simp only [Bool.false_eq_true, if_false]
      rw [← List.filter_append, List.takeWhile_append_dropWhile]

/-- Rows that are left out can be put back without a change to the order of the others. -/
theorem exists_sorted_filter {p : α → Bool} {sorted : List α}
    (hperm : sorted.Perm (rows.filter p)) (hsorted : sorted.Pairwise fun x y => key x ≤ key y) :
    ∃ full : List α, full.Perm rows ∧ (full.Pairwise fun x y => key x ≤ key y) ∧
      full.filter p = sorted := by
  have hdropped : ∀ x ∈ rows.filter (fun x => !p x), p x = false := by
    intro x hx
    simpa using (List.mem_filter.mp hx).2
  obtain ⟨full, hfull, hle, hfilter⟩ := exists_sorted_insert hdropped hsorted
  refine ⟨full, ?_, hle, ?_⟩
  · have hsplit := (List.perm_append_comm.trans (List.filter_append_perm p rows))
    exact (hfull.trans (hperm.append_left _)).trans hsplit
  · rw [hfilter, List.filter_eq_self]
    intro x hx
    exact (List.mem_filter.mp (hperm.mem_iff.mp hx)).2

theorem reads_filter {p : α → Bool} {q : β → Bool} (hpq : ∀ x, p x = q (f x)) :
    Reads key f (rows.filter p) l ↔ ∃ l₀, Reads key f rows l₀ ∧ l = l₀.filter q := by
  have hmap : ∀ sorted : List α, (sorted.filter p).map f = (sorted.map f).filter q := by
    intro sorted
    rw [List.filter_map]
    congr 2
    funext x
    exact hpq x
  constructor
  · rintro ⟨sorted, hperm, hsorted, rfl⟩
    obtain ⟨full, hfull, hle, rfl⟩ := exists_sorted_filter hperm hsorted
    exact ⟨full.map f, ⟨full, hfull, hle, rfl⟩, hmap full⟩
  · rintro ⟨_, ⟨sorted, hperm, hsorted, rfl⟩, rfl⟩
    exact ⟨sorted.filter p, hperm.filter p, hsorted.filter p, hmap sorted⟩

end Numbered
