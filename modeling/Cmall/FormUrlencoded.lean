import Cmall.UriCoding
import Mathlib.Data.List.Nodup

/-!
`application/x-www-form-urlencoded`, as a receiver decodes it: the text is cut at every `&`,
empty pieces are skipped, a piece is a name and a value at its first `=`. A `+` is a space,
and a percent sign that two hexadecimal digits do not follow stands for itself.
-/

namespace FormUrlencoded
open Cmall.Uri

def percentDecode : List Int8 → List Int8
  | [] => []
  | c :: str =>
    if c = '%' then
      match str with
      | first :: second :: rest =>
        match hexDigit isdigit first, hexDigit isdigit second with
        | .ok high, .ok low => ((high <<< 4) + low) :: percentDecode rest
        | _, _ => c :: percentDecode (first :: second :: rest)
      | short => c :: short
    else c :: percentDecode str

def plusToSpace (c : Int8) : Int8 := if c = '+' then ' ' else c

def decodeText (str : List Int8) : List Int8 := percentDecode (str.map plusToSpace)

/-- A piece between two `&`. -/
def decodePiece (piece : List Int8) : List Int8 × List Int8 :=
  (decodeText (piece.takeWhile (· ≠ ('=' : Int8))), decodeText ((piece.dropWhile (· ≠ ('=' : Int8))).drop 1))

def decodeForm (body : List Int8) : List (List Int8 × List Int8) :=
  ((body.splitOn ('&' : Int8)).filter (· ≠ [])).map decodePiece

/-- `%` and two digits stand somewhere in it. -/
def HasTriple (str : List Int8) : Prop :=
  ∃ first second, IsHex first ∧ IsHex second ∧ [('%' : Int8), first, second] <:+: str

/-- What may be written as it is. -/
structure Plain (str : List Int8) : Prop where
  ampersand : ('&' : Int8) ∉ str
  plus : ('+' : Int8) ∉ str
  triple : ¬ HasTriple str

/-- The parameters joined as they are. -/
def joined (params : List (List Int8 × List Int8)) : List Int8 :=
  [('&' : Int8)].intercalate (params.map fun p => p.1 ++ ('=' : Int8) :: p.2)

/-! ## Texts that decode to themselves -/

theorem percentDecode_length_le (str : List Int8) :
    (percentDecode str).length ≤ str.length := by
  fun_induction percentDecode str with
  | case1 => exact Nat.le_refl 0
  | case2 first second rest high low hhigh hlow ih =>
    simp only [List.length_cons]
    omega
  | case3 first second rest hno ih => exact Nat.succ_le_succ ih
  | case4 short hshort => exact Nat.le_refl _
  | case5 c str hc ih => exact Nat.succ_le_succ ih

theorem percentDecode_eq_self_of_length {str : List Int8}
    (h : (percentDecode str).length = str.length) : percentDecode str = str := by
  fun_induction percentDecode str with
  | case1 => rfl
  | case2 first second rest low high hsecond hfirst ih =>
    have hlen := percentDecode_length_le rest
    simp only [List.length_cons] at h
    omega
  | case3 first second rest hno ih => rw [ih (Nat.succ.inj h)]
  | case4 short hshort => rfl
  | case5 c str hc ih => rw [ih (Nat.succ.inj h)]

theorem hasTriple_cons (c : Int8) (str : List Int8) : HasTriple (c :: str) ↔
    (∃ first second rest, c = '%' ∧ str = first :: second :: rest ∧ IsHex first ∧ IsHex second) ∨
      HasTriple str := by
  constructor
  · rintro ⟨first, second, hfirst, hsecond, hinside⟩
    rcases List.infix_cons_iff.mp hinside with hhead | hinside
    · obtain ⟨rest, hrest⟩ := hhead
      injection hrest with hc hstr
      exact .inl ⟨first, second, rest, hc.symm, hstr.symm, hfirst, hsecond⟩
    · exact .inr ⟨first, second, hfirst, hsecond, hinside⟩
  · rintro (⟨first, second, rest, rfl, rfl, hfirst, hsecond⟩ | ⟨first, second, hfirst, hsecond, hin⟩)
    · exact ⟨first, second, hfirst, hsecond, List.IsPrefix.isInfix ⟨rest, rfl⟩⟩
    · exact ⟨first, second, hfirst, hsecond, List.infix_cons hin⟩

theorem hexDigit_ok {c d : Int8} (h : hexDigit isdigit c = .ok d) : IsHex c := by
  rw [isHex_iff, h]
  rfl

theorem percentDecode_eq_self_iff (str : List Int8) :
    percentDecode str = str ↔ ¬ HasTriple str := by
  fun_induction percentDecode str with
  | case1 => simp [HasTriple]
  | case2 first second rest low high hsecond hfirst ih =>
    have hlen := percentDecode_length_le rest
    constructor
    · intro heq
      have hlength := congrArg List.length heq
      simp only [List.length_cons] at hlength
      omega
    · intro hno
      refine absurd ((hasTriple_cons _ _).mpr (.inl ?_)) hno
      exact ⟨first, second, rest, rfl, rfl, hexDigit_ok hfirst, hexDigit_ok hsecond⟩
  | case3 first second rest hno ih =>
    rw [hasTriple_cons, not_or, ← ih]
    simp only [List.cons.injEq, true_and, iff_and_self]
    rintro - ⟨first', second', rest', ⟨rfl, rfl, rfl⟩, hfirst, hsecond⟩
    rw [isHex_iff] at hfirst hsecond
    cases h : hexDigit isdigit first with
    | error e => simp [h, Except.isOk, Except.toBool] at hfirst
    | ok high =>
      cases h' : hexDigit isdigit second with
      | error e => simp [h', Except.isOk, Except.toBool] at hsecond
      | ok low => exact hno high low h h'
  | case4 short hshort =>
    simp only [true_iff]
    rintro ⟨first, second, -, -, hinside⟩
    have hlen := hinside.length_le
    cases short with
    | nil => simp at hlen
    | cons first short =>
      cases short with
      | nil => simp at hlen
      | cons second short => exact hshort first second short rfl
  | case5 c str hc ih =>
    rw [hasTriple_cons, or_iff_right (fun ⟨_, _, _, hpercent, _⟩ => hc hpercent), ← ih,
      List.cons_inj_right]

/-- Decoding a text never makes it longer, so what an `&` cuts off does not come back. -/
theorem decodeText_length_le (str : List Int8) : (decodeText str).length ≤ str.length := by
  have hlen := percentDecode_length_le (str.map plusToSpace)
  rwa [List.length_map] at hlen

theorem map_plusToSpace_eq_self_iff (str : List Int8) :
    str.map plusToSpace = str ↔ ('+' : Int8) ∉ str := by
  induction str with
  | nil => simp
  | cons c str ih =>
    rw [List.map_cons, List.cons.injEq, ih, List.mem_cons, not_or, plusToSpace]
    by_cases hc : c = '+'
    · rw [if_pos hc, hc]
      simp
    · rw [if_neg hc]
      exact ⟨fun h => ⟨fun h' => hc h'.symm, h.2⟩, fun h => ⟨rfl, h.2⟩⟩

theorem decodeText_eq_self_iff (str : List Int8) :
    decodeText str = str ↔ ('+' : Int8) ∉ str ∧ ¬ HasTriple str := by
  constructor
  · intro h
    have hlen : (percentDecode (str.map plusToSpace)).length = (str.map plusToSpace).length := by
      rw [List.length_map]
      exact congrArg List.length h
    have hself := percentDecode_eq_self_of_length hlen
    have hmap : str.map plusToSpace = str := hself.symm.trans h
    refine ⟨(map_plusToSpace_eq_self_iff str).mp hmap, ?_⟩
    rw [hmap] at hself
    exact (percentDecode_eq_self_iff str).mp hself
  · rintro ⟨hplus, htriple⟩
    rw [decodeText, (map_plusToSpace_eq_self_iff str).mpr hplus]
    exact (percentDecode_eq_self_iff str).mpr htriple

/-! ## Cutting at a separator -/

section Split

variable {α : Type} [DecidableEq α] {sep : α}

/-- The first piece, and what is left after it. -/
theorem splitOn_eq_cut (str : List α) :
    ∃ more, str.splitOn sep = str.takeWhile (· ≠ sep) :: more := by
  induction str with
  | nil => exact ⟨[], List.splitOn_nil sep⟩
  | cons c str ih =>
    obtain ⟨more, hmore⟩ := ih
    rw [List.splitOn_cons_eq_if_modifyHead, hmore]
    by_cases hc : c = sep
    · exact ⟨str.takeWhile (· ≠ sep) :: more, by simp [hc]⟩
    · exact ⟨more, by simp [hc]⟩

theorem splitOn_append {name : List α} (h : sep ∉ name) (str : List α) :
    (name ++ str).splitOn sep = (str.splitOn sep).modifyHead (name ++ ·) := by
  induction name with
  | nil =>
    rw [List.nil_append]
    cases str.splitOn sep <;> rfl
  | cons c name ih =>
    rw [List.mem_cons, not_or] at h
    have hc : (c == sep) = false := beq_eq_false_iff_ne.mpr (Ne.symm h.1)
    rw [List.cons_append, List.splitOn_cons_eq_if_modifyHead, ih h.2, hc]
    cases str.splitOn sep <;> rfl

theorem splitOn_intercalate {pieces : List (List α)} (h : pieces ≠ []) :
    ([sep].intercalate pieces).splitOn sep = pieces.flatMap (List.splitOn sep) := by
  induction pieces with
  | nil => exact absurd rfl h
  | cons piece pieces ih =>
    cases pieces with
    | nil => simp
    | cons next pieces =>
      rw [List.intercalate_cons_cons, List.append_assoc, List.singleton_append,
        List.splitOn_append_cons_self, ih (List.cons_ne_nil next pieces)]
      rfl

end Split

/-! ## What is received of parameters that are written as they are -/

section Joined

variable {name value : List Int8} {params : List (List Int8 × List Int8)}

/-- The pieces of one parameter. -/
def received (p : List Int8 × List Int8) : List (List Int8 × List Int8) :=
  (((p.1 ++ ('=' : Int8) :: p.2).splitOn ('&' : Int8)).filter (· ≠ [])).map decodePiece

theorem decodeForm_joined (h : params ≠ []) :
    decodeForm (joined params) = params.flatMap received := by
  rw [decodeForm, joined, splitOn_intercalate (List.map_eq_nil_iff.not.mpr h), List.flatMap_map,
    List.filter_flatMap, List.map_flatMap]
  rfl

theorem decodePiece_pair (hname : ('=' : Int8) ∉ name) (value : List Int8) :
    decodePiece (name ++ ('=' : Int8) :: value) = (decodeText name, decodeText value) := by
  have hne : ∀ c ∈ name, (decide (c ≠ ('=' : Int8))) = true := by
    intro c hc
    rw [decide_eq_true_eq]
    rintro rfl
    exact hname hc
  rw [decodePiece, List.takeWhile_append_of_pos hne, List.dropWhile_append_of_pos hne,
    List.takeWhile_cons_of_neg (by simp), List.dropWhile_cons_of_neg (by simp), List.append_nil]
  rfl

/-- The first piece is the parameter, the value cut at its first `&`. -/
theorem received_eq (hplain : Plain name) (hname : ('=' : Int8) ∉ name) (value : List Int8) :
    ∃ more, received (name, value) =
      (name, decodeText (value.takeWhile (· ≠ ('&' : Int8)))) :: more := by
  have hsep : ('&' : Int8) ∉ name ++ [('=' : Int8)] := by
    rw [List.mem_append, not_or]
    exact ⟨hplain.ampersand, by decide⟩
  obtain ⟨more, hmore⟩ := @splitOn_eq_cut _ _ ('&' : Int8) value
  have htext : name ++ ('=' : Int8) :: value = (name ++ [('=' : Int8)]) ++ value := by simp
  have hself := (decodeText_eq_self_iff name).mpr ⟨hplain.plus, hplain.triple⟩
  have hpair := decodePiece_pair hname (value.takeWhile (· ≠ ('&' : Int8)))
  rw [hself] at hpair
  refine ⟨(more.filter (· ≠ [])).map decodePiece, ?_⟩
  rw [received, htext, splitOn_append hsep, hmore, List.modifyHead_cons, List.filter_cons_of_pos
    (by simp), List.map_cons, List.append_assoc, List.singleton_append, hpair]

/-- A value that may be written as it is gives the parameter and nothing else. -/
theorem received_plain (hplain : Plain name) (hname : ('=' : Int8) ∉ name) (hvalue : Plain value) :
    received (name, value) = [(name, value)] := by
  have hsep : ('&' : Int8) ∉ name ++ ('=' : Int8) :: value := by
    rw [List.mem_append, List.mem_cons, not_or, not_or]
    exact ⟨hplain.ampersand, by decide, hvalue.ampersand⟩
  have hpair := decodePiece_pair hname value
  rw [(decodeText_eq_self_iff name).mpr ⟨hplain.plus, hplain.triple⟩,
    (decodeText_eq_self_iff value).mpr ⟨hvalue.plus, hvalue.triple⟩] at hpair
  rw [received, List.splitOn_eq_singleton hsep, List.filter_cons_of_pos (by simp),
    List.filter_nil, List.map_cons, hpair, List.map_nil]

/-- A value that is received as it was written is plain. -/
theorem plain_of_decodeText_cut
    (h : decodeText (value.takeWhile (· ≠ ('&' : Int8))) = value) : Plain value := by
  have hhead : value.takeWhile (· ≠ ('&' : Int8)) <+: value := List.takeWhile_prefix _
  have hlen := decodeText_length_le (value.takeWhile (· ≠ ('&' : Int8)))
  rw [h] at hlen
  have hcut := hhead.eq_of_length_le hlen
  have hamp : ('&' : Int8) ∉ value := by
    intro hmem
    rw [← hcut] at hmem
    simpa using List.mem_takeWhile_imp hmem
  rw [hcut] at h
  obtain ⟨hplus, htriple⟩ := (decodeText_eq_self_iff value).mp h
  exact ⟨hamp, hplus, htriple⟩

/-- The names are plain, without a `=`, and pairwise different. -/
structure PlainNames (params : List (List Int8 × List Int8)) : Prop where
  plain : ∀ p ∈ params, Plain p.1
  assign : ∀ p ∈ params, ('=' : Int8) ∉ p.1
  nodup : (params.map Prod.fst).Nodup

/-- Parameters written as they are come back, in whatever order, exactly when every value is
plain. -/
theorem decodeForm_perm_iff (hne : params ≠ []) (hnames : PlainNames params) :
    (decodeForm (joined params)).Perm params ↔ ∀ p ∈ params, Plain p.2 := by
  rw [decodeForm_joined hne]
  constructor
  · intro hperm p hp
    obtain ⟨more, hmore⟩ := received_eq (hnames.plain p hp) (hnames.assign p hp) p.2
    have hmem : (p.1, decodeText (p.2.takeWhile (· ≠ ('&' : Int8)))) ∈ params := by
      rw [← hperm.mem_iff, List.mem_flatMap]
      exact ⟨p, hp, by rw [hmore]; exact List.mem_cons_self⟩
    have hsame := List.inj_on_of_nodup_map hnames.nodup hmem hp rfl
    exact plain_of_decodeText_cut (congrArg Prod.snd hsame)
  · intro hplain
    have hself : params.flatMap received = params := by
      calc params.flatMap received = params.flatMap fun p => [p] :=
            List.flatMap_congr fun p hp =>
              received_plain (hnames.plain p hp) (hnames.assign p hp) (hplain p hp)
        _ = params := List.flatMap_singleton' params
    rw [hself]


end Joined

end FormUrlencoded
