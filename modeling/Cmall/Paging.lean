import Mathlib.Data.List.GetD
import Mathlib.Data.List.Nodup
import Mathlib.Data.List.Perm.Basic
import Mathlib.Tactic.Push

/-!
Lists read page by page.

Every page is cut out of an order of its own (`limit` and `offset` of separate queries). One
order for all pages gives back the list; two orders that differ can be mixed so that an
element is read twice.
-/

namespace Paging

variable {α : Type} {l l' : List α} {n k : Nat}

/-- `limit n offset p * n` -/
def page (n p : Nat) (l : List α) : List α := (l.drop (p * n)).take n

/-- The first `k` pages, each out of the order chosen for it. -/
def pages (n k : Nat) (order : Nat → List α) : List α :=
  (List.range k).flatMap fun p => page n p (order p)

theorem pages_succ (n k : Nat) (order : Nat → List α) :
    pages n (k + 1) order = pages n k order ++ page n k (order k) := by
  simp [pages, List.range_succ]

theorem pages_const (n k : Nat) (l : List α) : pages n k (fun _ => l) = l.take (k * n) := by
  induction k with
  | zero => simp [pages]
  | succ k ih =>
    rw [pages_succ, ih, page, Nat.succ_mul, List.take_add]

/-- One order for all pages: everything is read once. -/
theorem pages_const_of_le (h : l.length ≤ k * n) : pages n k (fun _ => l) = l := by
  rw [pages_const, List.take_of_length_le h]

theorem page_one (d : α) {p : Nat} (h : p < l.length) : page 1 p l = [l.getD p d] := by
  rw [page, Nat.mul_one, List.drop_eq_getElem_cons h, List.getD_eq_getElem l d h]
  rfl

theorem pages_one (d : α) {order : Nat → List α} (h : ∀ p < k, p < (order p).length) :
    pages 1 k order = (List.range k).map fun p => (order p).getD p d := by
  rw [List.map_eq_flatMap]
  exact List.flatMap_congr fun p hp => page_one d (h p (List.mem_range.mp hp))

/-- Two orders of the same elements, mixed page by page, read one of the elements twice. -/
theorem exists_repeat (hperm : l'.Perm l) (hne : l ≠ l') :
    ∃ order : Nat → List α, (∀ p, order p = l ∨ order p = l') ∧
      ¬ (pages 1 l.length order).Nodup := by
  have hlen : l.length = l'.length := hperm.length_eq.symm
  obtain ⟨i, hi, hi', hdiff⟩ : ∃ i, ∃ (hi : i < l.length) (hi' : i < l'.length), l[i] ≠ l'[i] := by
    by_contra hno
    push Not at hno
    exact hne (List.ext_getElem hlen hno)
  obtain ⟨j, hj, hsame⟩ := List.getElem_of_mem (hperm.mem_iff.mpr (List.getElem_mem hi))
  have hij : i ≠ j := by
    rintro rfl
    exact hdiff hsame.symm
  -- page `i` comes out of `l`, and `l'` has the same element on page `j`
  let order := fun p => if p = i then l else l'
  have horder : ∀ p, order p = l ∨ order p = l' := by
    intro p
    by_cases hp : p = i
    · exact .inl (if_pos hp)
    · exact .inr (if_neg hp)
  refine ⟨order, horder, fun hnodup => hij ?_⟩
  have hinside : ∀ p < l.length, p < (order p).length := by
    intro p hp
    rcases horder p with h | h <;> rw [h] <;> omega
  rw [pages_one l[i] hinside] at hnodup
  refine List.inj_on_of_nodup_map hnodup (List.mem_range.mpr hi) (List.mem_range.mpr (by omega)) ?_
  have hread : order i = l := if_pos rfl
  have hread' : order j = l' := if_neg (Ne.symm hij)
  rw [hread, hread', List.getD_eq_getElem l _ hi, List.getD_eq_getElem l' _ hj, hsame]

end Paging
