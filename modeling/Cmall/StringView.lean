import Mathlib.Algebra.Group.Int.Defs
import Mathlib.Algebra.Group.Nat.Defs
import Mathlib.Data.List.Infix
import Mathlib.Data.Nat.Find

/-!
`std::string_view` over a list: `find` and `substr` with 64 bit positions.

A position that `find` does not have is `none`; it stands for `npos`, which is greater than
every position there is and on which arithmetic wraps around.
-/

namespace StringView

variable {α : Type}

/-- `a - b` on `std::size_t`. -/
def sub (a b : Nat) : Nat := (a + 2 ^ 64 - b) % 2 ^ 64

def npos : Nat := 2 ^ 64 - 1

/-- `substr(pos, count)`; `none` when it throws `std::out_of_range`. -/
def substr (s : List α) (pos count : Nat) : Option (List α) :=
  if s.length < pos then none else some ((s.drop pos).take count)

/-- `substr(pos)`. -/
def substrFrom (s : List α) (pos : Nat) : Option (List α) :=
  if s.length < pos then none else some (s.drop pos)

/-- `pat` stands at position `p` of `s`. -/
def At (pat s : List α) (p : Nat) : Prop := pat <+: s.drop p

theorem sub_of_le {a b : Nat} (h : b ≤ a) (ha : a < 2 ^ 64) : sub a b = a - b := by
  unfold sub
  omega

theorem At.length_le {pat s : List α} {p : Nat} (h : At pat s p) (hpat : pat ≠ []) :
    p + pat.length ≤ s.length := by
  have hlen := List.IsPrefix.length_le h
  have hpos := List.length_pos_iff.mpr hpat
  rw [List.length_drop] at hlen
  omega

/-! ## `find` -/

section Find

variable [DecidableEq α] {s pat : List α} {pos p : Nat}

instance (pat s : List α) (p : Nat) : Decidable (At pat s p) :=
  inferInstanceAs (Decidable (pat <+: s.drop p))

/-- `find(pat, pos)`. -/
def find (s pat : List α) (pos : Nat) : Option Nat :=
  ((s.drop pos).tails.findIdx? fun t => pat.isPrefixOf t).map (pos + ·)

/-- `find` gives the first position from `pos` on where the pattern stands. -/
theorem find_eq_some_iff (hpat : pat ≠ []) : find s pat pos = some p ↔
    pos ≤ p ∧ At pat s p ∧ ∀ q, pos ≤ q → q < p → ¬ At pat s q := by
  simp only [find, Option.map_eq_some_iff, List.findIdx?_eq_some_iff_getElem,
    List.getElem_tails, List.isPrefixOf_iff_prefix, List.drop_drop, List.length_tails]
  constructor
  · rintro ⟨i, ⟨hi, hat, hmin⟩, rfl⟩
    refine ⟨Nat.le_add_right pos i, hat, fun q hq hlt => ?_⟩
    have hq' := hmin (q - pos) (by omega)
    rw [Nat.add_sub_cancel' hq] at hq'
    exact hq'
  · rintro ⟨hle, hat, hmin⟩
    have hlen := hat.length_le hpat
    refine ⟨p - pos, ⟨?_, ?_, fun j hj => ?_⟩, by omega⟩
    · rw [List.length_drop]
      omega
    · rw [Nat.add_sub_cancel' hle]
      exact hat
    · exact hmin (pos + j) (Nat.le_add_right pos j) (by omega)

theorem find_eq_none_iff (hpat : pat ≠ []) :
    find s pat pos = none ↔ ∀ q, pos ≤ q → ¬ At pat s q := by
  constructor
  · intro h q hq hat
    have hex : ∃ q, pos ≤ q ∧ At pat s q := ⟨q, hq, hat⟩
    obtain ⟨hle, hat'⟩ := Nat.find_spec hex
    have hmin : ∀ q, pos ≤ q → q < Nat.find hex → ¬ At pat s q :=
      fun q hq hlt hat => Nat.find_min hex hlt ⟨hq, hat⟩
    rw [(find_eq_some_iff hpat).mpr ⟨hle, hat', hmin⟩] at h
    cases h
  · intro h
    cases hfind : find s pat pos with
    | none => rfl
    | some p =>
      obtain ⟨hle, hat, -⟩ := (find_eq_some_iff hpat).mp hfind
      exact absurd hat (h p hle)

end Find

end StringView
