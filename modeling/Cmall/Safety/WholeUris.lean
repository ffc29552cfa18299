import Cmall.Safety.UriCoding

/-!
The coding of whole URIs: what the decoder makes of the encoder's text, and the delimiters that it
leaves where they are.
-/

namespace Cmall.Uri

/-! ## The decoder -/

theorem decodeURI_cons_ne {c : Int8} (h : c ≠ '%') (str : List Int8) :
    decodeURI (c :: str) = (decodeURI str).map (c :: ·) := by
  rw [decodeURI.eq_def]
  simp only [if_neg h]
  cases decodeURI str <;> rfl

theorem hexDigit_ne {c n : Int8} (h : hexDigit isdigit c = .ok n) : c ≠ '%' := by
  rintro rfl
  contradiction

/-- A triple is decoded unless it stands for a delimiter. -/
theorem decodeURI_triple {first second high low : Int8}
    (hfirst : hexDigit isdigit first = .ok high) (hsecond : hexDigit isdigit second = .ok low)
    (str : List Int8) : decodeURI (('%' : Int8) :: first :: second :: str) =
      (decodeURI str).map fun t =>
        if keepsEscape ((high <<< 4) + low) then ('%' : Int8) :: first :: second :: t
        else ((high <<< 4) + low) :: t := by
  have hkept : decodeURI (first :: second :: str) =
      (decodeURI str).map fun t => first :: second :: t := by
    rw [decodeURI_cons_ne (hexDigit_ne hfirst), decodeURI_cons_ne (hexDigit_ne hsecond)]
    cases decodeURI str <;> rfl
  rw [decodeURI.eq_def]
  simp only [if_true, hfirst, hsecond]
  show (if keepsEscape ((high <<< 4) + low) then _ else _) = _
  rw [hkept]
  split
  · cases decodeURI str <;> rfl
  · cases decodeURI str <;> rfl

/-- A `%` that is not refused begins a triple. -/
theorem decodeURI_percent_ok {str t : List Int8} (h : decodeURI (('%' : Int8) :: str) = .ok t) :
    ∃ first second rest high low, str = first :: second :: rest ∧
      hexDigit isdigit first = .ok high ∧ hexDigit isdigit second = .ok low := by
  rw [decodeURI.eq_def] at h
  simp only [if_true] at h
  match str, h with
  | first :: second :: rest, h =>
    cases hfirst : hexDigit isdigit first with
    | error e =>
      simp only [hfirst] at h
      contradiction
    | ok high =>
      cases hsecond : hexDigit isdigit second with
      | error e =>
        simp only [hfirst, hsecond] at h
        contradiction
      | ok low => exact ⟨first, second, rest, high, low, rfl, hfirst, hsecond⟩

/-! ## The round trip -/

/-- The bytes that are not escaped. -/
def Literal (c : Int8) : Prop :=
  isalpha c = true ∨ isdigit c = true ∨ uriMark c = true ∨ uriReserved c = true

instance (c : Int8) : Decidable (Literal c) :=
  inferInstanceAs (Decidable (_ ∨ _))

theorem encodeURI_cons (c : Int8) (str : List Int8) : encodeURI (c :: str) =
    (if Literal c then [c] else '%' :: toHex c.toUInt8) ++ encodeURI str := by
  rw [encodeURI, List.flatMap_cons]
  rfl

theorem literal_ne {c : Int8} (h : Literal c) : c ≠ '%' := by
  rintro rfl
  revert h
  decide

/-- A byte that is escaped is decoded, but for `#`. -/
theorem decodeURI_toHex (c : Int8) (str : List Int8) :
    decodeURI (('%' : Int8) :: toHex c.toUInt8 ++ str) =
      (decodeURI str).map fun t =>
        if keepsEscape c then ('%' : Int8) :: (toHex c.toUInt8 ++ t) else c :: t := by
  have hc : c.toUInt8.toNat < 256 := c.toUInt8.toNat_lt
  have hhigh := hexDigit_hexstring (n := c.toUInt8.toNat / 16) (by omega)
  have hlow := hexDigit_hexstring (n := c.toUInt8.toNat % 16) (by omega)
  have hsum := shift_add hc
  rw [ofNat_toUInt8] at hsum
  have htriple := decodeURI_triple hhigh hlow str
  rw [hsum] at htriple
  exact htriple

/-- What is decoded is never shorter, and the same but for `#`. -/
theorem decodeURI_encodeURI_ok (str : List Int8) : ∃ t, decodeURI (encodeURI str) = .ok t ∧
    str.length ≤ t.length ∧ (t = str ↔ ('#' : Int8) ∉ str) := by
  induction str with
  | nil => exact ⟨[], rfl, Nat.le_refl 0, by simp⟩
  | cons c str ih =>
    obtain ⟨t, ht, hlen, hiff⟩ := ih
    rw [encodeURI_cons]
    by_cases hc : Literal c
    · have hne : ('#' : Int8) ≠ c := by
        rintro rfl
        revert hc
        decide
      rw [if_pos hc, List.cons_append, List.nil_append, decodeURI_cons_ne (literal_ne hc), ht]
      refine ⟨c :: t, rfl, Nat.succ_le_succ hlen, ?_⟩
      rw [List.cons.injEq, List.mem_cons, not_or, hiff]
      exact ⟨fun h => ⟨hne, h.2⟩, fun h => ⟨rfl, h.2⟩⟩
    · rw [if_neg hc, decodeURI_toHex, ht]
      have hkeeps : keepsEscape c = true ↔ ('#' : Int8) = c := by
        simp only [keepsEscape, decide_eq_true_eq]
        constructor
        · rintro (h | h)
          · exact absurd (.inr (.inr (.inr h))) hc
          · exact h.symm
        · exact fun h => .inr h.symm
      refine ⟨_, rfl, ?_⟩
      dsimp only
      split
      next h =>
        have hmem : ('#' : Int8) ∈ c :: str := by
          rw [hkeeps.mp h]
          exact List.mem_cons_self
        have hlonger : (c :: str).length <
            (('%' : Int8) :: (toHex c.toUInt8 ++ t)).length := by
          simp only [toHex, List.length_cons, List.length_append, List.length_nil]
          omega
        refine ⟨by omega, iff_of_false (fun heq => ?_) (fun hnot => hnot hmem)⟩
        rw [heq] at hlonger
        omega
      next h =>
        refine ⟨Nat.succ_le_succ hlen, ?_⟩
        rw [List.cons.injEq, List.mem_cons, not_or, hiff]
        exact ⟨fun hs => ⟨mt hkeeps.mpr h, hs.2⟩, fun hs => ⟨rfl, hs.2⟩⟩

/-! ## The pieces of a URI -/

/-- A piece of a URI that can be decoded: a character, or a triple and what its digits count. -/
inductive Piece where
  | plain (c : Int8) (h : c ≠ '%')
  | escape (first second high low : Int8) (hfirst : hexDigit isdigit first = .ok high)
      (hsecond : hexDigit isdigit second = .ok low)

/-- The piece as it is written. -/
def Piece.text : Piece → List Int8
  | plain c _ => [c]
  | escape first second _ _ _ _ => ['%', first, second]

/-- The character that the piece stands for. -/
def Piece.value : Piece → Int8
  | plain c _ => c
  | escape _ _ high low _ _ => (high <<< 4) + low

/-- What is left of the piece when the triples of some characters are kept. -/
def Piece.decoded (kept : Int8 → Bool) : Piece → List Int8
  | plain c _ => [c]
  | escape first second high low _ _ =>
    if kept ((high <<< 4) + low) then ['%', first, second] else [(high <<< 4) + low]

/-- A triple that stands for `#`. -/
def Piece.EscapesHash : Piece → Prop
  | plain _ _ => False
  | escape _ _ high low _ _ => (high <<< 4) + low = '#'

instance (piece : Piece) : Decidable piece.EscapesHash :=
  match piece with
  | .plain _ _ => inferInstanceAs (Decidable False)
  | .escape _ _ high low _ _ => inferInstanceAs (Decidable ((high <<< 4) + low = '#'))

theorem decodeURI_pieces (uri : List Piece) :
    decodeURI (uri.flatMap Piece.text) = .ok (uri.flatMap (Piece.decoded keepsEscape)) := by
  induction uri with
  | nil => rfl
  | cons piece uri ih =>
    rw [List.flatMap_cons, List.flatMap_cons]
    cases piece with
    | plain c h =>
      rw [Piece.text, List.cons_append, List.nil_append, decodeURI_cons_ne h, ih]
      rfl
    | escape first second high low hfirst hsecond =>
      rw [Piece.text, List.cons_append, List.cons_append, List.cons_append, List.nil_append,
        decodeURI_triple hfirst hsecond, ih, Piece.decoded]
      split
      · rfl
      · rfl

/-- What is accepted is a list of pieces. -/
theorem pieces_of_ok {str t : List Int8} (h : decodeURI str = .ok t) :
    ∃ uri : List Piece, str = uri.flatMap Piece.text := by
  induction hlen : str.length using Nat.strong_induction_on generalizing str t with
  | _ n ih =>
    cases str with
    | nil => exact ⟨[], rfl⟩
    | cons c str =>
      by_cases hc : c = '%'
      · subst hc
        obtain ⟨first, second, rest, high, low, rfl, hfirst, hsecond⟩ := decodeURI_percent_ok h
        rw [decodeURI_triple hfirst hsecond] at h
        cases hrest : decodeURI rest with
        | error e =>
          rw [hrest] at h
          contradiction
        | ok s =>
          obtain ⟨uri, rfl⟩ := ih rest.length (by simp at hlen; omega) hrest rfl
          exact ⟨.escape first second high low hfirst hsecond :: uri, rfl⟩
      · rw [decodeURI_cons_ne hc] at h
        cases hrest : decodeURI str with
        | error e =>
          rw [hrest] at h
          contradiction
        | ok s =>
          obtain ⟨uri, rfl⟩ := ih str.length (by simp at hlen; omega) hrest rfl
          exact ⟨.plain c hc :: uri, rfl⟩

/-! ## Delimiters -/

/-- The delimiters of a URI. -/
def delimiters (str : List Int8) : List Int8 := str.filter uriReserved

theorem delimiters_hex {c n : Int8} (h : hexDigit isdigit c = .ok n) : uriReserved c = false := by
  have hhex : IsHex c := (isHex_iff c).mpr (by rw [h]; rfl)
  have hall : ((chars "0123456789abcdefABCDEF").all fun c => !uriReserved c) = true := by decide
  have hc := List.all_eq_true.mp hall c hhex
  rwa [Bool.not_eq_true'] at hc

/-- A piece that is decoded gains no delimiter. -/
theorem delimiters_decoded (piece : Piece) :
    delimiters (piece.decoded keepsEscape) = delimiters piece.text := by
  cases piece with
  | plain c h => rfl
  | escape first second high low hfirst hsecond =>
    rw [Piece.decoded, Piece.text]
    split
    next h => rfl
    next h =>
      have hvalue : uriReserved ((high <<< 4) + low) = false := by
        rw [Bool.eq_false_iff]
        exact fun hreserved => h (decide_eq_true (.inl hreserved))
      have hpercent : uriReserved 37 = false := by decide
      simp [delimiters, List.filter_cons, hvalue, hpercent, delimiters_hex hfirst,
        delimiters_hex hsecond]

theorem decodeURI_delimiters {str t : List Int8} (h : decodeURI str = .ok t) :
    delimiters t = delimiters str := by
  obtain ⟨uri, rfl⟩ := pieces_of_ok h
  rw [decodeURI_pieces, Except.ok.injEq] at h
  rw [← h, delimiters, delimiters, List.filter_flatMap, List.filter_flatMap]
  congr 1
  funext piece
  exact delimiters_decoded piece

/-! ## The triples that are kept -/

theorem decoded_of_not_hash {piece : Piece} (h : ¬piece.EscapesHash) :
    piece.decoded keepsEscape = piece.decoded uriReserved := by
  cases piece with
  | plain c _ => rfl
  | escape first second high low hfirst hsecond =>
    have hne : (high <<< 4) + low ≠ '#' := h
    simp only [Piece.decoded, keepsEscape, hne, or_false, decide_eq_true_eq]

/-- A triple that stands for `#` is kept though it is no delimiter. -/
theorem decoded_of_hash {piece : Piece} (h : piece.EscapesHash) :
    (piece.decoded uriReserved).length < (piece.decoded keepsEscape).length := by
  cases piece with
  | plain c _ => exact h.elim
  | escape first second high low hfirst hsecond =>
    have heq : (high <<< 4) + low = '#' := h
    have hreserved : uriReserved ('#' : Int8) = false := by decide
    have hkept : keepsEscape ('#' : Int8) = true := by decide
    rw [Piece.decoded, Piece.decoded, heq, hreserved, hkept]
    exact Nat.lt_add_of_pos_right (by decide : 0 < 2)

theorem decoded_length_le (uri : List Piece) : (uri.flatMap (Piece.decoded uriReserved)).length ≤
    (uri.flatMap (Piece.decoded keepsEscape)).length := by
  induction uri with
  | nil => exact Nat.le_refl 0
  | cons piece uri ih =>
    rw [List.flatMap_cons, List.flatMap_cons, List.length_append, List.length_append]
    refine Nat.add_le_add ?_ ih
    by_cases h : piece.EscapesHash
    · exact Nat.le_of_lt (decoded_of_hash h)
    · rw [decoded_of_not_hash h]

theorem decoded_eq_iff (uri : List Piece) : uri.flatMap (Piece.decoded keepsEscape) =
    uri.flatMap (Piece.decoded uriReserved) ↔ ∀ piece ∈ uri, ¬piece.EscapesHash := by
  induction uri with
  | nil => simp
  | cons piece uri ih =>
    rw [List.flatMap_cons, List.flatMap_cons, List.forall_mem_cons]
    by_cases h : piece.EscapesHash
    · refine iff_of_false (fun heq => ?_) (fun hno => hno.1 h)
      have hlen := congrArg List.length heq
      rw [List.length_append, List.length_append] at hlen
      have hpiece := decoded_of_hash h
      have hrest := decoded_length_le uri
      omega
    · rw [decoded_of_not_hash h, List.append_cancel_left_eq, ih]
      exact ⟨fun hrest => ⟨h, hrest⟩, And.right⟩

/-! ## Whole URIs -/

/-- A text survives its coding when it has no `#`, and the triples that the decoder keeps are
those of the delimiters when none stands for `#`. No triple ever becomes a delimiter. -/
theorem whole_uri_coding_iff (str : List Int8) (uri : List Piece) :
    (decodeURI (encodeURI str) = .ok str ↔ ('#' : Int8) ∉ str) ∧
      (decodeURI (uri.flatMap Piece.text) = .ok (uri.flatMap (Piece.decoded uriReserved)) ↔
        ∀ piece ∈ uri, ¬piece.EscapesHash) ∧
      ∀ s t, decodeURI s = .ok t →
        (∃ pieces : List Piece, s = pieces.flatMap Piece.text) ∧ delimiters t = delimiters s := by
  refine ⟨?_, ?_, fun s t h => ⟨pieces_of_ok h, decodeURI_delimiters h⟩⟩
  · obtain ⟨t, ht, -, hiff⟩ := decodeURI_encodeURI_ok str
    rw [ht, Except.ok.injEq, hiff]
  · rw [decodeURI_pieces, Except.ok.injEq, decoded_eq_iff]

/-- `#` is escaped, and not decoded again. -/
theorem decodeURI_encodeURI_hash :
    ¬∀ str, decodeURI (encodeURI str) = .ok str := by
  intro h
  have hash := h (chars "#")
  revert hash
  decide

end Cmall.Uri
