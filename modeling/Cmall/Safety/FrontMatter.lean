import Cmall.GoodsFile

/-!
Front matter.

`split_markdown` looks for the text of a fence wherever it stands, not for a line, and takes
the end of the file for a second fence. It is right when the fences it finds are lines, the
first one the first line, or when there is nothing that looks like a fence.
-/

namespace Cmall.GoodsFile
open StringView

/-! ## What is to be found -/

/-- The text of a fence. -/
def dashes : List Char := "---".toList

/-- The line at position `p` is a fence; it may be the last one, without a line end. -/
structure FenceAt (md : List Char) (p : Nat) : Prop where
  begins : p = 0 ∨ md[p - 1]? = some '\n'
  line : fence <+: md.drop p ∨ md.drop p = dashes

/-- A fence with a line at least between it and one at the start. -/
def ClosesAt (md : List Char) (p : Nat) : Prop := 5 ≤ p ∧ FenceAt md p

def HasFrontMatter (md : List Char) : Prop := FenceAt md 0 ∧ ∃ p, ClosesAt md p

/-- The text up to the second fence, and the rest. -/
def FrontMatter (md metadata body : List Char) : Prop :=
  FenceAt md 0 ∧ ∃ p, ClosesAt md p ∧ (∀ q < p, ¬ ClosesAt md q) ∧
    metadata = md.take (p + 4) ∧ body = md.drop (p + 4)

/-- The text is split as it should be. -/
structure SplitRight (md : List Char) : Prop where
  succeeds : HasFrontMatter md → ∃ metadata body, splitMarkdown md = .ok (some (metadata, body))
  exact : ∀ metadata body, splitMarkdown md = .ok (some (metadata, body)) →
    FrontMatter md metadata body ∧ metadata ++ body = md
  fails : ¬ HasFrontMatter md → splitMarkdown md = .ok none
  /-- A second fence that is not there is not calculated with. -/
  noNpos : ∀ first, find md fence 0 = some first → find md fence (first + 4) ≠ none

/-- What looks like a fence is one: the text has none, or the first two are lines with one
between them, or they stand one after the other and there is no front matter. -/
def FencesStand (md : List Char) : Prop :=
  ∀ first, find md fence 0 = some first → ∃ second, find md fence (first + 4) = some second ∧
    if second = first + 4 then first = 0 → ∀ p, ¬ ClosesAt md p
    else first = 0 ∧ md[second - 1]? = some '\n'

/-! ## Fences -/

theorem fence_ne : fence ≠ [] := by decide

theorem length_fence : fence.length = 4 := by decide

section Fences

variable {md : List Char} {p q first second : Nat}

/-- A fence with a line end looks like one. -/
theorem FenceAt.at_or (h : FenceAt md p) : At fence md p ∨ md.length = p + 3 := by
  rcases h.line with hline | hline
  · exact .inl hline
  · have hlen := congrArg List.length hline
    rw [List.length_drop, show dashes.length = 3 by decide] at hlen
    exact .inr (by omega)

/-- The text does not end both with a fence and a line end and with one without. -/
theorem FenceAt.not_at_last (h : FenceAt md p) (hend : md.length = p + 3)
    (hat : At fence md q) : md.length ≠ q + 4 := by
  intro hlen
  have hline : md.drop p = dashes := by
    rcases h.line with hline | hline
    · have := List.IsPrefix.length_le hline
      rw [length_fence, List.length_drop] at this
      omega
    · exact hline
  have hfence : md.drop q = fence := by
    refine (List.IsPrefix.eq_of_length hat ?_).symm
    rw [length_fence, List.length_drop]
    omega
  have hdash : md[p + 2]? = some '-' := by
    rw [← List.getElem?_drop, hline]
    decide
  have hnewline : md[q + 3]? = some '\n' := by
    rw [← List.getElem?_drop, hfence]
    decide
  rw [show p + 2 = q + 3 by omega, hnewline] at hdash
  exact absurd hdash (by decide)

/-- A first line that is a fence is followed by another line when there is a second fence. -/
theorem at_zero_of_frontMatter (h : HasFrontMatter md) : At fence md 0 := by
  obtain ⟨hopens, p, hp, hclose⟩ := h
  have hlen : p < md.length := by
    rcases hclose.at_or with hat | hend
    · have := hat.length_le fence_ne
      rw [length_fence] at this
      omega
    · omega
  rcases hopens.at_or with hat | hend
  · exact hat
  · omega

theorem find_zero_of_at (h : At fence md 0) : find md fence 0 = some 0 :=
  (find_eq_some_iff fence_ne).mpr ⟨Nat.le_refl 0, h, fun q _ hlt => absurd hlt (Nat.not_lt_zero q)⟩

/-- Where `find` has a first fence at the start it is one. -/
theorem fenceAt_zero (h : find md fence 0 = some 0) : FenceAt md 0 :=
  ⟨.inl rfl, .inl ((find_eq_some_iff fence_ne).mp h).2.1⟩

theorem first_eq_zero (h : HasFrontMatter md) (hfirst : find md fence 0 = some first) :
    first = 0 := by
  rw [find_zero_of_at (at_zero_of_frontMatter h)] at hfirst
  exact (Option.some.inj hfirst).symm

/-- The bounds of what is found after a first fence at the start. -/
theorem second_bounds (hsecond : find md fence 4 = some second) :
    4 ≤ second ∧ second + 4 ≤ md.length := by
  obtain ⟨hle, hat, -⟩ := (find_eq_some_iff fence_ne).mp hsecond
  have := hat.length_le fence_ne
  rw [length_fence] at this
  exact ⟨hle, this⟩

/-- A second fence that is a line is the first one that closes. -/
theorem closesAt_second (hsecond : find md fence 4 = some second) (hne : second ≠ 4)
    (hline : md[second - 1]? = some '\n') :
    ClosesAt md second ∧ ∀ q < second, ¬ ClosesAt md q := by
  obtain ⟨hle, hat, hmin⟩ := (find_eq_some_iff fence_ne).mp hsecond
  refine ⟨⟨by omega, .inr hline, .inl hat⟩, fun q hq hclose => ?_⟩
  rcases hclose.2.at_or with hatq | hend
  · exact hmin q (by have := hclose.1; omega) hq hatq
  · have := (second_bounds hsecond).2
    omega

end Fences

/-! ## The splits -/

section Splits

variable {md : List Char} {first second : Nat}

theorem inRange_substr (md : List Char) (pos : Nat) (h : pos ≤ md.length) (count : Nat) :
    inRange (substr md pos count) = .ok ((md.drop pos).take count) := by
  simp [inRange, substr, Nat.not_lt.mpr h]

theorem inRange_substrFrom (md : List Char) (pos : Nat) (h : pos ≤ md.length) :
    inRange (substrFrom md pos) = .ok (md.drop pos) := by
  simp [inRange, substrFrom, Nat.not_lt.mpr h]

theorem split_none (h : find md fence 0 = none) : splitMarkdown md = .ok none := by
  simp [splitMarkdown, h]

theorem split_adjacent (hfirst : find md fence 0 = some first)
    (hsecond : find md fence (first + 4) = some (first + 4)) : splitMarkdown md = .ok none := by
  simp [splitMarkdown, hfirst, hsecond]

/-- Two fences that are not adjacent: what lies between them, and the rest. -/
theorem split_two (hfirst : find md fence 0 = some first)
    (hsecond : find md fence (first + 4) = some second) (hne : second ≠ first + 4) :
    splitMarkdown md =
      .ok (some ((md.drop first).take (second - first + 4), md.drop (second + 4))) := by
  obtain ⟨hle, hat, -⟩ := (find_eq_some_iff fence_ne).mp hsecond
  have hlen := hat.length_le fence_ne
  rw [length_fence] at hlen
  have hlt : first + 4 < second := by omega
  have hmeta := inRange_substr md first (by omega) (second - first + 4)
  simp [splitMarkdown, hfirst, hsecond, hlt, hmeta, inRange_substrFrom _ _ hlen, bind, Except.bind,
    pure, Except.pure]

/-- Without a second fence it succeeds all the same. -/
theorem split_npos (hfirst : find md fence 0 = some first)
    (hsecond : find md fence (first + 4) = none) :
    ∃ metadata body, splitMarkdown md = .ok (some (metadata, body)) := by
  have hlen := ((find_eq_some_iff fence_ne).mp hfirst).2.1.length_le fence_ne
  rw [length_fence] at hlen
  have hthree : sub (npos + 4) 0 = 3 := by decide
  have hmeta := inRange_substr md first (by omega) (sub (npos + 4) first)
  have hbody := inRange_substrFrom md 3 (by omega)
  exact ⟨_, _, by simp [splitMarkdown, hfirst, hsecond, hthree, hmeta, hbody, bind, Except.bind,
    pure, Except.pure]; exact ⟨rfl, rfl⟩⟩

/-- No text makes it throw. -/
theorem splitMarkdown_ok (md : List Char) : ∃ split, splitMarkdown md = .ok split := by
  cases hfirst : find md fence 0 with
  | none => exact ⟨_, split_none hfirst⟩
  | some first =>
    cases hsecond : find md fence (first + 4) with
    | none =>
      obtain ⟨metadata, body, h⟩ := split_npos hfirst hsecond
      exact ⟨_, h⟩
    | some second =>
      by_cases hadj : second = first + 4
      · subst hadj
        exact ⟨_, split_adjacent hfirst hsecond⟩
      · exact ⟨_, split_two hfirst hsecond hadj⟩

end Splits

/-! ## The condition -/

section Right

variable {md : List Char}

theorem splitRight_of_fencesStand (h : FencesStand md) : SplitRight md := by
  cases hfirst : find md fence 0 with
  | none =>
    have hno : ¬ HasFrontMatter md := fun hfm =>
      absurd (hfirst.symm.trans (find_zero_of_at (at_zero_of_frontMatter hfm))) (by simp)
    have hsplit := split_none hfirst
    refine ⟨fun hfm => absurd hfm hno, fun metadata body hs => ?_, fun _ => hsplit,
      fun first hf => ?_⟩
    · rw [hsplit] at hs
      cases hs
    · rw [hfirst] at hf
      cases hf
  | some first =>
    obtain ⟨second, hsecond, hcond⟩ := h first hfirst
    have hnpos : ∀ first', find md fence 0 = some first' → find md fence (first' + 4) ≠ none := by
      intro first' hf
      cases hfirst.symm.trans hf
      simp [hsecond]
    by_cases hadj : second = first + 4
    · rw [if_pos hadj] at hcond
      subst hadj
      have hsplit := split_adjacent hfirst hsecond
      have hno : ¬ HasFrontMatter md := by
        intro hfm
        obtain ⟨p, hp⟩ := hfm.2
        exact hcond (first_eq_zero hfm hfirst) p hp
      refine ⟨fun hfm => absurd hfm hno, fun metadata body hs => ?_, fun _ => hsplit, hnpos⟩
      rw [hsplit] at hs
      cases hs
    · rw [if_neg hadj] at hcond
      obtain ⟨rfl, hline⟩ := hcond
      rw [Nat.zero_add] at hsecond hadj
      have hsplit := split_two hfirst (by simpa using hsecond) (by simpa using hadj)
      obtain ⟨hclose, hmin⟩ := closesAt_second hsecond hadj hline
      have hfm : HasFrontMatter md := ⟨fenceAt_zero hfirst, second, hclose⟩
      simp only [List.drop_zero, Nat.sub_zero] at hsplit
      refine ⟨fun _ => ⟨_, _, hsplit⟩, fun metadata body hs => ?_, fun hno => absurd hfm hno, hnpos⟩
      rw [hsplit] at hs
      cases hs
      exact ⟨⟨fenceAt_zero hfirst, second, hclose, hmin, rfl, rfl⟩, List.take_append_drop _ _⟩

theorem fencesStand_of_splitRight (h : SplitRight md) : FencesStand md := by
  intro first hfirst
  cases hsecond : find md fence (first + 4) with
  | none => exact absurd hsecond (h.noNpos first hfirst)
  | some second =>
    refine ⟨second, rfl, ?_⟩
    split
    · rename_i hadj
      subst hadj
      rintro rfl p hp
      obtain ⟨metadata, body, hs⟩ := h.succeeds ⟨fenceAt_zero hfirst, p, hp⟩
      rw [split_adjacent hfirst hsecond] at hs
      cases hs
    · rename_i hadj
      have hsplit := split_two hfirst hsecond hadj
      obtain ⟨⟨hopens, p, hclose, hmin, hmeta, hbody⟩, -⟩ := h.exact _ _ hsplit
      have hzero := first_eq_zero ⟨hopens, p, hclose⟩ hfirst
      subst hzero
      rw [Nat.zero_add] at hsecond
      obtain ⟨hle, hlen⟩ := second_bounds hsecond
      -- the metadata ends with the fence that was found, so that is the one that closes
      have hlast : second = p ∨ md.length = p + 3 := by
        rcases hclose.2.at_or with hat | hend
        · have hp := hat.length_le fence_ne
          rw [length_fence] at hp
          have hcount := congrArg List.length hmeta
          simp only [List.drop_zero, Nat.sub_zero, List.length_take] at hcount
          exact .inl (by omega)
        · exact .inr hend
      rcases hlast with rfl | hend
      · refine ⟨rfl, ?_⟩
        rcases hclose.2.begins with hp | hp
        · have := hclose.1
          omega
        · exact hp
      · have hcount := congrArg List.length hmeta
        simp only [List.drop_zero, Nat.sub_zero, List.length_take] at hcount
        have hat := ((find_eq_some_iff fence_ne).mp hsecond).2.1
        have hlast := hclose.2.not_at_last hend hat
        omega

end Right

/-- A text is split as it should be exactly when what looks like a fence is one. -/
theorem front_matter_iff (md : List Char) : SplitRight md ↔ FencesStand md :=
  ⟨fencesStand_of_splitRight, splitRight_of_fencesStand⟩

/-- The file ends before the metadata does, and the split succeeds. -/
theorem unclosed_front_matter_is_split :
    splitMarkdown "---\ntitle: tea\n".toList =
        .ok (some ("---".toList, "\ntitle: tea\n".toList)) ∧
      ¬ HasFrontMatter "---\ntitle: tea\n".toList ∧ ¬ SplitRight "---\ntitle: tea\n".toList := by
  have hsplit : splitMarkdown "---\ntitle: tea\n".toList =
      .ok (some ("---".toList, "\ntitle: tea\n".toList)) := by decide
  have hclosed : ¬ HasFrontMatter "---\ntitle: tea\n".toList := by
    rintro ⟨-, p, hp⟩
    have hnone : find "---\ntitle: tea\n".toList fence 4 = none := by decide
    have hlast : "---\ntitle: tea\n".toList.length ≠ p + 3 := by
      intro hlen
      have hline := hp.2.line
      obtain rfl : p = 12 := Nat.add_right_cancel (m := 3) hlen.symm
      exact absurd hline (by decide)
    rcases hp.2.at_or with hat | hend
    · exact (find_eq_none_iff fence_ne).mp hnone p (by have := hp.1; omega) hat
    · exact hlast hend
  refine ⟨hsplit, hclosed, fun h => ?_⟩
  have hfm := (h.exact _ _ hsplit).1
  obtain ⟨hopens, p, hclose, -⟩ := hfm
  exact hclosed ⟨hopens, p, hclose⟩

end Cmall.GoodsFile
