import Cmall.QsIterator
import Cmall.FormUrlencoded

/-!
What the iterator over a query yields.

Started at a segment that has an `=`, it yields the parameter of the segment and goes on after the
`&`, unless both of the views are empty: this is how it knows the end. Started at a segment that
has none, it takes the first `=` of a later one, and the size of the value wraps around.
-/

namespace Cmall.Uri
open QsIterator

/-! ## Finding a character -/

theorem findFirstOf_none {c : Int8} {str : List Int8} (h : c ∉ str) : findFirstOf str c = none := by
  rw [findFirstOf, List.findIdx?_eq_none_iff]
  exact fun x hx => decide_eq_false (fun heq => h (heq ▸ hx))

theorem findFirstOf_append {c : Int8} {before : List Int8} (h : c ∉ before) (behind : List Int8) :
    findFirstOf (before ++ c :: behind) c = some before.length := by
  have hnone := findFirstOf_none h
  rw [findFirstOf] at hnone
  rw [findFirstOf, List.findIdx?_append, hnone, List.findIdx?_cons]
  simp

/-- The end of a segment is the first `&`, or the end of the text. -/
theorem findFirstOf_tail {segment : List Int8} (h : ('&' : Int8) ∉ segment) {tail : List Int8}
    (htail : tail = [] ∨ ∃ rest, tail = ('&' : Int8) :: rest) :
    (findFirstOf (segment ++ tail) '&').getD (segment ++ tail).length = segment.length := by
  rcases htail with rfl | ⟨rest, rfl⟩
  · rw [List.append_nil, findFirstOf_none h]
    rfl
  · rw [findFirstOf_append h]
    rfl

/-! ## Segments -/

theorem parameter_append {key : List Int8} (h : ('=' : Int8) ∉ key) (value : List Int8) :
    parameter (key ++ ('=' : Int8) :: value) = (key, value) := by
  have hkey : ∀ c ∈ key, decide (c ≠ ('=' : Int8)) = true :=
    fun c hc => decide_eq_true (fun heq => h (heq ▸ hc))
  rw [parameter, List.takeWhile_append_of_pos hkey, List.dropWhile_append_of_pos hkey]
  simp

theorem parameters_cons_mem {segment : List Int8} (h : ('=' : Int8) ∈ segment)
    (segments : List (List Int8)) :
    parameters (segment :: segments) = parameter segment :: parameters segments := by
  have hcontains : segment.contains ('=' : Int8) = true := List.contains_iff_mem.mpr h
  simp only [parameters, List.filter_cons, hcontains, if_true, List.map_cons]

theorem parameters_cons_not_mem {segment : List Int8} (h : ('=' : Int8) ∉ segment)
    (segments : List (List Int8)) : parameters (segment :: segments) = parameters segments := by
  have hcontains : ¬segment.contains ('=' : Int8) = true := mt List.contains_iff_mem.mp h
  simp only [parameters, List.filter_cons, if_neg hcontains]

theorem regular_cons_mem {segment : List Int8} (h : ('=' : Int8) ∈ segment)
    (hne : segment ≠ [('=' : Int8)]) (segments : List (List Int8)) :
    Regular (segment :: segments) ↔ Regular segments := by
  constructor
  · rintro ⟨hordered, hnonempty⟩
    exact ⟨(List.pairwise_cons.mp hordered).2, fun hmem => hnonempty (.tail _ hmem)⟩
  · rintro ⟨hordered, hnonempty⟩
    refine ⟨List.pairwise_cons.mpr ⟨fun _ _ _ => h, hordered⟩, ?_⟩
    rw [List.mem_cons, not_or]
    exact ⟨hne.symm, hnonempty⟩

theorem mem_splitOn {c sep : Int8} (h : c ≠ sep) (str : List Int8) :
    c ∈ str ↔ ∃ segment ∈ str.splitOn sep, c ∈ segment := by
  induction str with
  | nil => simp [List.splitOn_nil]
  | cons x str ih =>
    obtain ⟨more, hmore⟩ := @FormUrlencoded.splitOn_eq_cut _ _ sep str
    rw [List.mem_cons, ih, List.splitOn_cons_eq_if_modifyHead, hmore]
    by_cases hx : x = sep
    · subst hx
      simp [h]
    · simp [hx, or_assoc]

/-- Nothing is lost when no segment has an `=`. -/
theorem parameters_nil {segments : List (List Int8)} (h : ∀ s ∈ segments, ('=' : Int8) ∉ s) :
    parameters segments = [] := by
  rw [parameters, List.map_eq_nil_iff, List.filter_eq_nil_iff]
  exact fun s hs => by rw [List.contains_iff_mem]; exact h s hs

theorem regular_of_none {segments : List (List Int8)} (h : ∀ s ∈ segments, ('=' : Int8) ∉ s) :
    Regular segments := by
  refine ⟨List.pairwise_of_forall_mem_list fun _ _ b hb heq => absurd heq (h b hb), fun hmem => ?_⟩
  exact h _ hmem (List.mem_singleton_self _)

/-! ## Where the iterator starts -/

section Started

variable {q : Query} {k : Nat} {key value tail segment rest : List Int8}

/-- The iterator started at an offset. -/
def started (q : Query) (k : Nat) : QsIterator :=
  makeValue q { qs_ := ⟨q.data + k, q.str.length - k⟩ }

theorem text_rest (q : Query) (k : Nat) : q.text ⟨q.data + k, q.str.length - k⟩ = q.str.drop k := by
  rw [Query.text, Nat.add_sub_cancel_left, ← List.length_drop, List.take_length]

theorem started_none (h : ('=' : Int8) ∉ q.str.drop k) : (started q k).value_ = ({}, {}) := by
  rw [started, makeValue, text_rest, findFirstOf_none h]

/-- A segment with an `=`. -/
theorem started_segment (hrest : q.str.drop k = (key ++ ('=' : Int8) :: value) ++ tail)
    (hkey : ('=' : Int8) ∉ key) (hsegment : ('&' : Int8) ∉ key ++ ('=' : Int8) :: value)
    (htail : tail = [] ∨ ∃ rest, tail = ('&' : Int8) :: rest) :
    started q k = ⟨⟨q.data + k, q.str.length - k⟩,
      (⟨q.data + k, key.length⟩, ⟨q.data + k + key.length + 1, value.length⟩)⟩ := by
  have hlength := congrArg List.length hrest
  simp only [List.length_drop, List.length_append, List.length_cons] at hlength
  have hfits := q.fits
  have hequals := findFirstOf_append hkey (value ++ tail)
  have hend := findFirstOf_tail hsegment htail
  rw [← hrest, List.length_drop, List.length_append, List.length_cons] at hend
  rw [← List.cons_append, ← List.append_assoc, ← hrest] at hequals
  simp only [started, makeValue, text_rest, hequals, hend]
  have hsize : ((((key.length + (value.length + 1) : Nat) : Int) - key.length - 1) % 2 ^ 64).toNat =
      value.length := by omega
  rw [hsize]

/-- A segment without, before the first that has one: the value is larger than the memory. -/
theorem started_wrapped (hrest : q.str.drop k = segment ++ ('&' : Int8) :: rest)
    (hsegment : ('=' : Int8) ∉ segment) (hend : ('&' : Int8) ∉ segment)
    (hcut : rest = key ++ ('=' : Int8) :: value) (hkey : ('=' : Int8) ∉ key) :
    started q k = ⟨⟨q.data + k, q.str.length - k⟩,
      (⟨q.data + k, segment.length + 1 + key.length⟩,
        ⟨q.data + k + (segment.length + 1 + key.length) + 1, 2 ^ 64 - (key.length + 2)⟩)⟩ := by
  have hlength := congrArg List.length hrest
  simp only [hcut, List.length_drop, List.length_append, List.length_cons] at hlength
  have hfits := q.fits
  have hequals : findFirstOf (q.str.drop k) '=' = some (segment.length + 1 + key.length) := by
    have hbefore : ('=' : Int8) ∉ segment ++ ('&' : Int8) :: key := by
      rw [List.mem_append, List.mem_cons, not_or, not_or]
      exact ⟨hsegment, by decide, hkey⟩
    have hfound := findFirstOf_append hbefore value
    rw [List.append_assoc, List.cons_append, ← hcut, ← hrest] at hfound
    rw [hfound, List.length_append, List.length_cons, Nat.add_assoc, Nat.add_comm 1]
  have hfirst := findFirstOf_append hend rest
  rw [← hrest] at hfirst
  simp only [started, makeValue, text_rest, hequals, hfirst, Option.getD_some]
  have hsize : (((segment.length : Int) - (segment.length + 1 + key.length : Nat) - 1) % 2 ^ 64).toNat =
      2 ^ 64 - (key.length + 2) := by omega
  rw [hsize]

/-- The next start, if it is before the end. -/
theorem increment_eq {it : QsIterator} {j : Nat}
    (hqs : it.qs_ = ⟨q.data + k, q.str.length - k⟩) (hk : k ≤ q.str.length)
    (hvalue : (it.value_.2.data + it.value_.2.size + 1) % 2 ^ 64 = q.data + j) :
    increment q it =
      if q.str.length ≤ j then { it with value_ := ({}, {}) } else started q j := by
  have hlast : q.data + k + (q.str.length - k) = q.data + q.str.length := by omega
  simp only [increment, hqs, hvalue, hlast, Nat.add_le_add_iff_left, started,
    Nat.add_sub_add_left]

/-! ## What is yielded -/

theorem same_qsEnd (q : Query) (it : QsIterator) :
    same q it qsEnd = true ↔ it.value_.1.size = 0 ∧ it.value_.2.size = 0 := by
  have hequal (a : Span) : (a.size = ({} : Span).size ∧ q.text a = q.text {}) ↔ a.size = 0 := by
    refine ⟨And.left, fun h => ⟨h, ?_⟩⟩
    rw [Query.text, Query.text, h, List.take_zero, List.take_zero]
  simp only [same, qsEnd, Bool.and_eq_true, decide_eq_true_eq, hequal]

/-- The views are in the query, and they are the parameters of the segments. -/
structure Yields (q : Query) (pairs : List (Span × Span)) (segments : List (List Int8)) : Prop where
  inside : ∀ pair ∈ pairs, q.Inside pair.1 ∧ q.Inside pair.2
  parameters : (pairs.map fun pair => (q.text pair.1, q.text pair.2)) = parameters segments

/-- From the iterator the loop ends, and it is right when the segments are regular. -/
def Ends (q : Query) (it : QsIterator) (segments : List (List Int8)) : Prop :=
  ∃ fuel pairs, iterate q fuel it = some pairs ∧ (Yields q pairs segments ↔ Regular segments)

theorem yields_cons {pair : Span × Span} {pairs : List (Span × Span)}
    {segments : List (List Int8)} (hmem : ('=' : Int8) ∈ segment)
    (hfirst : q.Inside pair.1) (hsecond : q.Inside pair.2)
    (htext : (q.text pair.1, q.text pair.2) = parameter segment) :
    Yields q (pair :: pairs) (segment :: segments) ↔ Yields q pairs segments := by
  have hparameters := parameters_cons_mem hmem segments
  constructor
  · rintro ⟨hinside, hpairs⟩
    rw [List.map_cons, hparameters, htext, List.cons.injEq] at hpairs
    exact ⟨fun p hp => hinside p (.tail _ hp), hpairs.2⟩
  · rintro ⟨hinside, hpairs⟩
    refine ⟨List.forall_mem_cons.mpr ⟨⟨hfirst, hsecond⟩, hinside⟩, ?_⟩
    rw [List.map_cons, hparameters, htext, hpairs]

theorem ends_of_value {it : QsIterator} (h : it.value_ = ({}, {})) {segments : List (List Int8)}
    (hnone : ∀ s ∈ segments, ('=' : Int8) ∉ s) : Ends q it segments := by
  have hend : same q it qsEnd = true := by
    rw [same_qsEnd, h]
    exact ⟨rfl, rfl⟩
  refine ⟨1, [], ?_, iff_of_true ⟨by simp, ?_⟩ (regular_of_none hnone)⟩
  · rw [iterate, if_pos hend]
  · rw [parameters_nil hnone]
    rfl

/-- A step of the loop. -/
theorem iterate_succ {it : QsIterator} (h : same q it qsEnd = false) (fuel : Nat) :
    iterate q (fuel + 1) it = (iterate q fuel (increment q it)).map (it.value_ :: ·) := by
  rw [iterate, h]
  rfl

theorem text_segment (hrest : q.str.drop k = (key ++ ('=' : Int8) :: value) ++ tail) :
    q.text ⟨q.data + k, key.length⟩ = key := by
  rw [Query.text, Nat.add_sub_cancel_left, hrest, List.append_assoc, List.take_left]

theorem text_value (hrest : q.str.drop k = (key ++ ('=' : Int8) :: value) ++ tail) :
    q.text ⟨q.data + k + key.length + 1, value.length⟩ = value := by
  have hoffset : q.data + k + key.length + 1 - q.data = k + (key.length + 1) := by omega
  rw [Query.text, hoffset, ← List.drop_drop, hrest, ← List.drop_drop, List.append_assoc,
    List.drop_left, List.cons_append, List.drop_succ_cons, List.drop_zero, List.take_left]

/-- A segment with an `=` is yielded, unless it is only that. -/
theorem ends_segment (hrest : q.str.drop k = (key ++ ('=' : Int8) :: value) ++ tail)
    (hkey : ('=' : Int8) ∉ key) (hsegment : ('&' : Int8) ∉ key ++ ('=' : Int8) :: value)
    (htail : tail = [] ∨ ∃ rest, tail = ('&' : Int8) :: rest) {segments : List (List Int8)}
    (hnext : Ends q (increment q (started q k)) segments) :
    Ends q (started q k) ((key ++ ('=' : Int8) :: value) :: segments) := by
  have hmem : ('=' : Int8) ∈ key ++ ('=' : Int8) :: value := List.mem_append_right _ (.head _)
  have hparameter := parameter_append hkey value
  have hstarted := started_segment hrest hkey hsegment htail
  have hlength := congrArg List.length hrest
  simp only [List.length_drop, List.length_append, List.length_cons] at hlength
  by_cases hempty : key = [] ∧ value = []
  · obtain ⟨rfl, rfl⟩ := hempty
    have hend : same q (started q k) qsEnd = true := by
      rw [same_qsEnd, hstarted]
      exact ⟨rfl, rfl⟩
    refine ⟨1, [], by rw [iterate, if_pos hend], iff_of_false (fun h => ?_) (fun h => ?_)⟩
    · have hparameters := h.parameters
      rw [parameters_cons_mem hmem] at hparameters
      cases hparameters
    · exact h.nonempty (.head _)
  · obtain ⟨fuel, pairs, hiterate, hiff⟩ := hnext
    have hmore : same q (started q k) qsEnd = false := by
      rw [Bool.eq_false_iff, ne_eq, same_qsEnd, hstarted]
      exact fun h => hempty ⟨List.eq_nil_of_length_eq_zero h.1, List.eq_nil_of_length_eq_zero h.2⟩
    refine ⟨fuel + 1, (started q k).value_ :: pairs, ?_, ?_⟩
    · rw [iterate_succ hmore, hiterate]
      rfl
    · have hne : key ++ ('=' : Int8) :: value ≠ [('=' : Int8)] := by
        intro heq
        have hlen := congrArg List.length heq
        simp only [List.length_append, List.length_cons, List.length_nil] at hlen
        exact hempty ⟨List.eq_nil_of_length_eq_zero (by omega),
          List.eq_nil_of_length_eq_zero (by omega)⟩
      rw [regular_cons_mem hmem hne, ← hiff, hstarted]
      refine yields_cons hmem ?_ ?_ ?_
      · simp only [Query.Inside]
        omega
      · simp only [Query.Inside]
        omega
      · rw [hparameter, text_segment hrest, text_value hrest]

/-- A segment without one is not skipped. -/
theorem ends_wrapped (hrest : q.str.drop k = segment ++ ('&' : Int8) :: rest)
    (hsegment : ('=' : Int8) ∉ segment) (hend : ('&' : Int8) ∉ segment)
    (hmem : ('=' : Int8) ∈ rest) {segments : List (List Int8)}
    (hlater : ∃ later ∈ segments, ('=' : Int8) ∈ later)
    (hnext : Ends q (increment q (started q k)) segments) :
    Ends q (started q k) (segment :: segments) := by
  obtain ⟨key, value, hcut, hkey⟩ := List.eq_append_cons_of_mem hmem
  have hstarted := started_wrapped hrest hsegment hend hcut hkey
  have hmore : same q (started q k) qsEnd = false := by
    rw [Bool.eq_false_iff, ne_eq, same_qsEnd, hstarted]
    simp
  obtain ⟨fuel, pairs, hiterate, -⟩ := hnext
  refine ⟨fuel + 1, (started q k).value_ :: pairs, ?_, iff_of_false (fun h => ?_) (fun h => ?_)⟩
  · rw [iterate_succ hmore, hiterate]
    rfl
  · obtain ⟨-, hlow, hhigh⟩ := h.inside _ (.head _)
    have hfits := q.fits
    have hlength := congrArg List.length hrest
    simp only [hcut, List.length_drop, List.length_append, List.length_cons] at hlength
    simp only [hstarted] at hhigh
    omega
  · obtain ⟨later, hin, hequals⟩ := hlater
    exact hsegment ((List.pairwise_cons.mp h.ordered).1 later hin hequals)

/-! ## The whole query -/

theorem increment_segment (hrest : q.str.drop k = (key ++ ('=' : Int8) :: value) ++ tail)
    (hkey : ('=' : Int8) ∉ key) (hsegment : ('&' : Int8) ∉ key ++ ('=' : Int8) :: value)
    (htail : tail = [] ∨ ∃ rest, tail = ('&' : Int8) :: rest) :
    increment q (started q k) =
      if q.str.length ≤ k + (key ++ ('=' : Int8) :: value).length + 1 then
        { started q k with value_ := ({}, {}) }
      else started q (k + (key ++ ('=' : Int8) :: value).length + 1) := by
  have hstarted := started_segment hrest hkey hsegment htail
  have hlength := congrArg List.length hrest
  simp only [List.length_drop, List.length_append, List.length_cons] at hlength
  have hfits := q.fits
  refine increment_eq (k := k) (by rw [hstarted]) (by omega) ?_
  rw [hstarted, List.length_append, List.length_cons]
  dsimp only
  omega

theorem increment_wrapped (hrest : q.str.drop k = segment ++ ('&' : Int8) :: rest)
    (hsegment : ('=' : Int8) ∉ segment) (hend : ('&' : Int8) ∉ segment)
    (hmem : ('=' : Int8) ∈ rest) :
    increment q (started q k) = started q (k + segment.length + 1) := by
  obtain ⟨key, value, hcut, hkey⟩ := List.eq_append_cons_of_mem hmem
  have hstarted := started_wrapped hrest hsegment hend hcut hkey
  have hlength := congrArg List.length hrest
  simp only [hcut, List.length_drop, List.length_append, List.length_cons] at hlength
  have hfits := q.fits
  rw [increment_eq (k := k) (j := k + segment.length + 1) (by rw [hstarted]) (by omega) ?_,
    if_neg (by omega)]
  rw [hstarted]
  dsimp only
  omega

theorem drop_rest (hrest : q.str.drop k = segment ++ ('&' : Int8) :: rest) :
    q.str.drop (k + segment.length + 1) = rest := by
  rw [Nat.add_assoc, ← List.drop_drop, hrest, ← List.drop_drop, List.drop_left]
  rfl

/-- From every offset, by induction on what is left of the query. -/
theorem ends_started (q : Query) (k : Nat) (hk : k ≤ q.str.length) :
    Ends q (started q k) ((q.str.drop k).splitOn ('&' : Int8)) := by
  induction hleft : q.str.length - k using Nat.strong_induction_on generalizing k with
  | _ left ih =>
    by_cases hequals : ('=' : Int8) ∈ q.str.drop k
    · by_cases hand : ('&' : Int8) ∈ q.str.drop k
      · obtain ⟨segment, rest, hrest, hsegment⟩ := List.eq_append_cons_of_mem hand
        have hlength := congrArg List.length hrest
        simp only [List.length_drop, List.length_append, List.length_cons] at hlength
        have hdrop := drop_rest hrest
        have hnext := ih (q.str.length - (k + segment.length + 1)) (by omega) _ (by omega) rfl
        rw [hdrop] at hnext
        rw [hrest, List.splitOn_append_cons_self_of_not_mem hsegment]
        by_cases hmem : ('=' : Int8) ∈ segment
        · obtain ⟨key, value, hcut, hkey⟩ := List.eq_append_cons_of_mem hmem
          subst hcut
          refine ends_segment hrest hkey hsegment (.inr ⟨rest, rfl⟩) ?_
          rw [increment_segment hrest hkey hsegment (.inr ⟨rest, rfl⟩)]
          split
          next hover =>
            -- the query ends with the `&`
            have hnil : rest = [] := List.eq_nil_of_length_eq_zero (by
              rw [← hdrop, List.length_drop]
              omega)
            exact ends_of_value rfl (by simp [hnil])
          next hinside => exact hnext
        · have hlater : ('=' : Int8) ∈ rest := by
            rw [hrest, List.mem_append, List.mem_cons] at hequals
            exact (hequals.resolve_left hmem).resolve_left (by decide)
          refine ends_wrapped hrest hmem hsegment hlater ((mem_splitOn (by decide) _).mp hlater) ?_
          rw [increment_wrapped hrest hmem hsegment hlater]
          exact hnext
      · obtain ⟨key, value, hcut, hkey⟩ := List.eq_append_cons_of_mem hequals
        rw [List.splitOn_eq_singleton hand]
        have hrest : q.str.drop k = (key ++ ('=' : Int8) :: value) ++ [] := by
          rw [hcut, List.append_nil]
        rw [hcut] at hand ⊢
        refine ends_segment hrest hkey hand (.inl rfl) ?_
        have hlength := congrArg List.length hcut
        rw [List.length_drop] at hlength
        rw [increment_segment hrest hkey hand (.inl rfl), if_pos (by omega)]
        exact ends_of_value rfl (by simp)
    · refine ends_of_value (started_none hequals) fun s hs hmem => hequals ?_
      exact (mem_splitOn (by decide) _).mpr ⟨s, hs, hmem⟩

end Started

/-- What a loop sees does not depend on how many steps it is given. -/
theorem iterate_unique {q : Query} {it : QsIterator} {m n : Nat} {a b : List (Span × Span)}
    (ha : iterate q m it = some a) (hb : iterate q n it = some b) : a = b := by
  induction m generalizing it n a b with
  | zero => cases ha
  | succ m ih =>
    cases n with
    | zero => cases hb
    | succ n =>
      rw [iterate] at ha hb
      split at ha
      next h =>
        rw [if_pos h] at hb
        exact Option.some.inj (ha.symm.trans hb)
      next h =>
        rw [if_neg h] at hb
        rw [Option.map_eq_some_iff] at ha hb
        obtain ⟨_, ha, rfl⟩ := ha
        obtain ⟨_, hb, rfl⟩ := hb
        rw [ih ha hb]

/-- The iteration ends, and it yields the parameters of the query. -/
def IteratesRight (q : Query) : Prop :=
  ∃ fuel pairs, iterate q fuel (qsBegin q) = some pairs ∧
    Yields q pairs (q.str.splitOn ('&' : Int8))

/-- The iteration over a query always ends. It yields the parameters, with views in the query,
when no segment without an `=` comes before one that has it and none is a lone `=`. -/
theorem iterates_right_iff (q : Query) :
    (∃ fuel pairs, iterate q fuel (qsBegin q) = some pairs) ∧
      (IteratesRight q ↔ Regular (q.str.splitOn ('&' : Int8))) := by
  obtain ⟨fuel, pairs, hiterate, hiff⟩ := ends_started q 0 (Nat.zero_le _)
  rw [List.drop_zero] at hiff
  have hbegin : started q 0 = qsBegin q := rfl
  rw [hbegin] at hiterate
  refine ⟨⟨fuel, pairs, hiterate⟩, ?_⟩
  rw [← hiff]
  constructor
  · rintro ⟨fuel', pairs', hiterate', hyields⟩
    rwa [iterate_unique hiterate hiterate']
  · exact fun hyields => ⟨fuel, pairs, hiterate, hyields⟩

/-- The key of the second segment is taken from the start of the first, and the value is outside. -/
theorem iterates_wrong : ¬∀ q, IteratesRight q := by
  intro h
  obtain ⟨fuel, pairs, hiterate, hyields⟩ := h ⟨chars "a&b=1", 4096, by decide⟩
  have hrun : iterate ⟨chars "a&b=1", 4096, by decide⟩ 3 (qsBegin ⟨chars "a&b=1", 4096, by decide⟩) =
      some [(⟨4096, 3⟩, ⟨4100, 2 ^ 64 - 3⟩), (⟨4098, 1⟩, ⟨4100, 1⟩)] := by decide +kernel
  have hpairs := iterate_unique hiterate hrun
  subst hpairs
  have hinside := (hyields.inside _ (.head _)).2
  revert hinside
  simp only [Query.Inside]
  decide

end Cmall.Uri
