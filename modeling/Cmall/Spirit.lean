import Mathlib.Algebra.Group.Int.Defs
import Mathlib.Algebra.Group.Nat.Defs
import Mathlib.Data.List.TakeWhile

/-!
Rules of a Spirit grammar over characters. A rule reads a prefix of its input and gives
its attribute with the rest, or fails; alternatives are not tried again once a rule has
succeeded, and repetitions are greedy.
-/

namespace Spirit

variable {α : Type}

abbrev Rule (α : Type) := List Char → Option (α × List Char)

/-- `qi::lit(c)`. -/
def lit (c : Char) : Rule Unit
  | [] => none
  | x :: rest => if x = c then some ((), rest) else none

/-- `qi::lit("…")`. -/
def lits : List Char → Rule Unit
  | [], input => some ((), input)
  | _ :: _, [] => none
  | c :: w, x :: rest => if x = c then lits w rest else none

/-- `+(qi::char_ - …)`: the longest prefix of characters in `p`, which is not empty. -/
def plus (p : Char → Bool) : Rule (List Char) := fun input =>
  match input.takeWhile p with
  | [] => none
  | w => some (w, input.dropWhile p)

/-- `r | s`. -/
def choice (r s : Rule α) : Rule α := fun input => (r input).or (s input)

/-- `r[_val = f(_1)]`. -/
def action {β : Type} (r : Rule α) (f : α → β) : Rule β := fun input =>
  (r input).map fun x => (f x.1, x.2)

/-- `qi::uint_`: all the digits, unless their value does not fit an `unsigned int`. -/
def uint : Rule Nat := fun input => do
  let (digits, rest) ← plus Char.isDigit input
  let n := Nat.ofDigitChars 10 digits 0
  if n < 2 ^ 32 then some (n, rest) else none

/-- `qi::space` in the classic locale. -/
def isSpace (c : Char) : Bool :=
  c = ' ' ∨ c = '\t' ∨ c = '\n' ∨ c = '\x0b' ∨ c = '\x0c' ∨ c = '\r'

/-- At most `n` times. -/
def upTo (r : Rule α) : Nat → List Char → List α × List Char
  | 0, input => ([], input)
  | n + 1, input =>
    match r input with
    | none => ([], input)
    | some (a, rest) => (a :: (upTo r n rest).1, (upTo r n rest).2)

/-- `*r`, for a rule that does not succeed without reading anything. -/
def kleene (r : Rule α) (input : List Char) : List α × List Char := upTo r input.length input

/-- `qi::raw[r]`: the text that is read is the attribute. -/
def raw (r : Rule α) : Rule (List Char) := fun input =>
  (r input).map fun x => (input.take (input.length - x.2.length), x.2)

/-- The rule does not succeed without reading anything. -/
def Consumes (r : Rule α) : Prop :=
  ∀ {input rest a}, r input = some (a, rest) → rest.length < input.length

@[simp] theorem lit_nil (c : Char) : lit c [] = none := rfl

@[simp] theorem lit_cons (c : Char) (rest : List Char) : lit c (c :: rest) = some ((), rest) := by
  simp [lit]

theorem lits_append (w rest : List Char) : lits w (w ++ rest) = some ((), rest) := by
  induction w with
  | nil => rfl
  | cons c w ih => simpa [lits] using ih

theorem lits_eq_some {w input rest : List Char} (h : lits w input = some ((), rest)) :
    input = w ++ rest := by
  induction w generalizing input with
  | nil =>
    cases h
    rfl
  | cons c w ih =>
    cases input with
    | nil => cases h
    | cons x input =>
      simp only [lits, Option.ite_none_right_eq_some] at h
      obtain ⟨rfl, h⟩ := h
      rw [ih h, List.cons_append]

/-- A character that the word does not have does not hide a difference before it. -/
theorem lits_append_stop {w : List Char} {c : Char} (hc : c ∉ w) (input rest : List Char) :
    lits w (input ++ c :: rest) = (lits w input).map fun x => ((), x.2 ++ c :: rest) := by
  induction w generalizing input with
  | nil => rfl
  | cons x w ih =>
    rw [List.mem_cons, not_or] at hc
    cases input with
    | nil => simp [lits, hc.1]
    | cons y input =>
      by_cases hxy : y = x
      · simp [lits, hxy, ih hc.2]
      · simp [lits, hxy]

@[simp] theorem plus_nil (p : Char → Bool) : plus p [] = none := rfl

/-- A word is read whole when what comes after it does not go on with it. -/
theorem plus_append_of_head {p : Char → Bool} {w rest : List Char} (hne : w ≠ [])
    (hw : ∀ x ∈ w, p x = true) (hrest : ∀ c ∈ rest.head?, p c = false) :
    plus p (w ++ rest) = some (w, rest) := by
  have hend : rest.takeWhile p = [] ∧ rest.dropWhile p = rest := by
    cases rest with
    | nil => exact ⟨rfl, rfl⟩
    | cons c rest =>
      have hc := hrest c rfl
      exact ⟨List.takeWhile_cons_of_neg (by simp [hc]), List.dropWhile_cons_of_neg (by simp [hc])⟩
  have htake : (w ++ rest).takeWhile p = w := by
    rw [List.takeWhile_append_of_pos hw, hend.1, List.append_nil]
  have hdrop : (w ++ rest).dropWhile p = rest := by
    rw [List.dropWhile_append_of_pos hw, hend.2]
  cases w with
  | nil => exact absurd rfl hne
  | cons x w => simp only [plus, htake, hdrop]

theorem plus_append {p : Char → Bool} {w rest : List Char} {c : Char} (hne : w ≠ [])
    (hw : ∀ x ∈ w, p x = true) (hc : p c = false) :
    plus p (w ++ c :: rest) = some (w, c :: rest) := by
  refine plus_append_of_head hne hw fun x hx => ?_
  cases hx
  exact hc

/-- There is no word where no character of it stands. -/
theorem plus_eq_none {p : Char → Bool} {input : List Char} (h : ∀ c ∈ input.head?, p c = false) :
    plus p input = none := by
  cases input with
  | nil => rfl
  | cons c input => simp [plus, h c rfl]

theorem plus_some {p : Char → Bool} {input w rest : List Char}
    (h : plus p input = some (w, rest)) : w ≠ [] ∧ ∀ x ∈ w, p x = true := by
  unfold plus at h
  split at h
  · cases h
  · rename_i hne
    cases h
    exact ⟨hne, fun x hx => List.mem_takeWhile_imp hx⟩

theorem plus_eq_append {p : Char → Bool} {input w rest : List Char}
    (h : plus p input = some (w, rest)) : input = w ++ rest := by
  unfold plus at h
  split at h
  · cases h
  · cases h
    exact List.takeWhile_append_dropWhile.symm

theorem uint_lt {input rest : List Char} {n : Nat} (h : uint input = some (n, rest)) :
    n < 2 ^ 32 := by
  simp only [uint, Option.bind_eq_bind, Option.bind_eq_some_iff] at h
  obtain ⟨⟨digits, rest'⟩, -, h⟩ := h
  split at h
  · rename_i hlt
    cases h
    exact hlt
  · cases h

theorem lit_eq_some {c : Char} {input rest : List Char} (h : lit c input = some ((), rest)) :
    input = c :: rest := by
  cases input with
  | nil => cases h
  | cons x input =>
    simp only [lit, Option.ite_none_right_eq_some] at h
    obtain ⟨rfl, h⟩ := h
    cases h
    rfl

theorem raw_append {r : Rule α} {w rest : List Char} {a : α}
    (h : r (w ++ rest) = some (a, rest)) : raw r (w ++ rest) = some (w, rest) := by
  simp [raw, h]

/-! ## Repetitions -/

section Kleene

variable {r : Rule α}

theorem kleene_none {input : List Char} (h : r input = none) : kleene r input = ([], input) := by
  rw [kleene]
  cases input.length with
  | zero => rfl
  | succ n => rw [upTo, h]

/-- More steps than there are characters change nothing. -/
theorem upTo_of_length_le (hr : Consumes r) {n : Nat} (input : List Char)
    (hn : input.length ≤ n) : upTo r n input = kleene r input := by
  rw [kleene]
  induction n using Nat.strong_induction_on generalizing input with
  | _ n ih =>
    cases n with
    | zero => rw [Nat.le_zero.mp hn]
    | succ n =>
      cases hread : r input with
      | none =>
        rw [upTo, hread]
        exact (kleene_none hread).symm
      | some x =>
        have hlt : x.2.length < input.length := hr (a := x.1) hread
        obtain ⟨m, hm⟩ : ∃ m, input.length = m + 1 := ⟨input.length - 1, by omega⟩
        have hone := ih n (Nat.lt_succ_self n) x.2 (by omega)
        have htwo := ih m (by omega) x.2 (by omega)
        rw [hm, upTo, upTo, hread]
        simp only [hone, htwo]

theorem kleene_some (hr : Consumes r) {input rest : List Char} {a : α}
    (h : r input = some (a, rest)) :
    kleene r input = (a :: (kleene r rest).1, (kleene r rest).2) := by
  have hlt := hr h
  obtain ⟨m, hm⟩ : ∃ m, input.length = m + 1 := ⟨input.length - 1, by omega⟩
  have hrest := upTo_of_length_le hr (n := m) rest (by omega)
  rw [kleene, hm, upTo, h]
  simp only [hrest]

theorem kleene_suffix (hr : ∀ input rest a, r input = some (a, rest) → rest <:+ input)
    (input : List Char) : (kleene r input).2 <:+ input := by
  have hupTo : ∀ n input, (upTo r n input).2 <:+ input := by
    intro n
    induction n with
    | zero => exact fun input => List.suffix_refl input
    | succ n ih =>
      intro input
      cases h : r input with
      | none => simp [upTo, h]
      | some x => simpa [upTo, h] using (ih x.2).trans (hr input x.2 x.1 h)
  exact hupTo _ input

variable {β : Type} {enc : β → List Char} {val : β → α} {l : List β}

/-- A rule that reads each of the texts, whatever follows, reads all of them in a row and goes
on behind them. -/
theorem kleene_map (hr : Consumes r) (hread : ∀ b ∈ l, ∀ rest,
    r (enc b ++ rest) = some (val b, rest)) (rest : List Char) :
    kleene r (l.flatMap enc ++ rest) = (l.map val ++ (kleene r rest).1, (kleene r rest).2) := by
  induction l with
  | nil => rfl
  | cons b l ih =>
    have htail := ih fun b hb => hread b (List.mem_cons_of_mem _ hb)
    rw [List.flatMap_cons, List.append_assoc,
      kleene_some hr (hread b (List.mem_cons_self ..) _), htail]
    rfl

/-- A rule that reads each of the texts, where something that is `ok` follows, reads all of
them in a row, up to the first thing it fails on. -/
theorem kleene_map_append (ok : List Char → Prop) {rest : List Char}
    (hne : ∀ b ∈ l, enc b ≠ [])
    (hread : ∀ b ∈ l, ∀ rest, ok rest → r (enc b ++ rest) = some (val b, rest))
    (hok : ∀ b ∈ l, ∀ rest, ok (enc b ++ rest)) (hrest : ok rest) (hstop : r rest = none) :
    kleene r (l.flatMap enc ++ rest) = (l.map val, rest) := by
  have hupTo : ∀ n, (l.flatMap enc).length ≤ n →
      upTo r n (l.flatMap enc ++ rest) = (l.map val, rest) := by
    induction l with
    | nil =>
      intro n _
      cases n with
      | zero => rfl
      | succ n => simp [upTo, hstop]
    | cons a l ih =>
      intro n hn
      have hpos : 0 < (enc a).length := List.length_pos_iff.mpr (hne a (List.mem_cons_self ..))
      rw [List.flatMap_cons, List.length_append] at hn
      obtain ⟨n, rfl⟩ : ∃ m, n = m + 1 := ⟨n - 1, by omega⟩
      have htail := ih (fun b hb => hne b (List.mem_cons_of_mem _ hb))
        (fun b hb => hread b (List.mem_cons_of_mem _ hb))
        (fun b hb => hok b (List.mem_cons_of_mem _ hb)) n (by omega)
      have hnext : ok (l.flatMap enc ++ rest) := by
        cases l with
        | nil => exact hrest
        | cons b l =>
          rw [List.flatMap_cons, List.append_assoc]
          exact hok b (List.mem_cons_of_mem _ (List.mem_cons_self ..)) _
      rw [List.flatMap_cons, List.append_assoc]
      simp [upTo, hread a (List.mem_cons_self ..) _ hnext, htail]
  refine hupTo _ ?_
  rw [List.length_append]
  exact Nat.le_add_right _ _

/-- A rule that reads back each of the encodings, where something that is `ok` follows, reads
back all of them in a row, up to the first thing it fails on. -/
theorem kleene_flatMap_append {enc : α → List Char} {l : List α} (ok : List Char → Prop)
    {rest : List Char} (hne : ∀ a ∈ l, enc a ≠ [])
    (hread : ∀ a ∈ l, ∀ rest, ok rest → r (enc a ++ rest) = some (a, rest))
    (hok : ∀ a ∈ l, ∀ rest, ok (enc a ++ rest)) (hrest : ok rest) (hstop : r rest = none) :
    kleene r (l.flatMap enc ++ rest) = (l, rest) := by
  have h : kleene r (l.flatMap enc ++ rest) = (l.map fun a => a, rest) :=
    kleene_map_append ok hne hread hok hrest hstop
  rwa [List.map_id'' fun _ => rfl] at h

/-- A rule that reads back each of the encodings reads back all of them in a row. -/
theorem kleene_flatMap {enc : α → List Char} {l : List α} (hne : ∀ a ∈ l, enc a ≠ [])
    (hread : ∀ a ∈ l, ∀ rest, r (enc a ++ rest) = some (a, rest)) (hnil : r [] = none) :
    kleene r (l.flatMap enc) = (l, []) := by
  have h := kleene_flatMap_append (fun _ => True) hne (fun a ha rest _ => hread a ha rest)
    (fun _ _ _ => trivial) trivial hnil
  rwa [List.append_nil] at h

end Kleene

/-- What every attribute of a rule satisfies, all attributes of `*r` satisfy. -/
theorem kleene_forall {r : Rule α} {P : α → Prop} (hr : ∀ s a rest, r s = some (a, rest) → P a)
    (input : List Char) : ∀ a ∈ (kleene r input).1, P a := by
  have hupTo : ∀ n s, ∀ a ∈ (upTo r n s).1, P a := by
    intro n
    induction n with
    | zero => simp [upTo]
    | succ n ih =>
      intro s a ha
      cases h : r s with
      | none => simp [upTo, h] at ha
      | some x =>
        simp only [upTo, h, List.mem_cons] at ha
        rcases ha with rfl | ha
        · exact hr s _ _ h
        · exact ih _ a ha
  exact hupTo _ input

end Spirit
