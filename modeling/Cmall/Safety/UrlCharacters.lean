import Cmall.UrlGrammar
import Cmall.UrlParser

/-!
The characters of the grammar and the classes of the states.

The classes have every character of a name but `&` and `;`, every one of a path but `;` and `@`,
and every one of a query but `%`.
-/

namespace Cmall.Uri
open Grammar

/-! ## The characters -/

theorem ne_of_not {P : Int8 → Prop} {c d : Int8} (h : P c) (hd : ¬P d) : c ≠ d := by
  rintro rfl
  exact hd h

theorem isHex_alnum {c : Int8} (h : IsHex c) : isalpha c = true ∨ isdigit c = true := by
  have hall : (chars "0123456789abcdefABCDEF").all (fun c => isalpha c || isdigit c) = true := by
    decide
  simpa using List.all_eq_true.mp hall c h

theorem subDelim_cases {c : Int8} (h : subDelim c = true) :
    issubdelims c = true ∨ c = '&' ∨ c = ';' := by
  have hall : (chars "!$&'()*+,;=").all
      (fun c => issubdelims c || (decide (c = '&') || decide (c = ';'))) = true := by
    decide
  have hc := List.all_eq_true.mp hall c (of_decide_eq_true h)
  rwa [Bool.or_eq_true, Bool.or_eq_true, decide_eq_true_iff, decide_eq_true_iff] at hc

theorem isunreserved_of_unreserved {c : Int8} (h : unreserved c = true) :
    isunreserved c = true := by
  rw [unreserved, decide_eq_true_iff] at h
  rw [isunreserved, decide_eq_true_iff]
  rcases h with h | h | h | h | h | h
  · exact .inl h
  · exact .inr (.inl h)
  · exact .inr (.inr (.inl h))
  · exact .inr (.inr (.inr (.inl h)))
  · exact .inr (.inr (.inr (.inr (.inl h))))
  · exact .inr (.inr (.inr (.inr (.inr (.inl h)))))

theorem isunreserved_of_alnum {c : Int8} (h : isalpha c = true ∨ isdigit c = true) :
    isunreserved c = true := by
  rw [isunreserved, decide_eq_true_iff]
  rcases h with h | h
  · exact .inl h
  · exact .inr (.inl h)

/-- The classes of the source have the characters of a name, but for two. -/
theorem occurs_name {c : Int8} (h : Occurs nameChar c) :
    isunreserved c = true ∨ issubdelims c = true ∨ c = '%' ∨ c = '&' ∨ c = ';' := by
  rcases h with h | h | h
  · rw [nameChar, decide_eq_true_iff] at h
    rcases h with h | h
    · exact .inl (isunreserved_of_unreserved h)
    · rcases subDelim_cases h with h | h
      · exact .inr (.inl h)
      · exact .inr (.inr (.inr h))
  · exact .inr (.inr (.inl h))
  · exact .inl (isunreserved_of_alnum (isHex_alnum h))

theorem occurs_password {c : Int8} (h : Occurs passwordChar c) : Occurs nameChar c ∨ c = ':' := by
  rcases h with h | h
  · rw [passwordChar, decide_eq_true_iff] at h
    exact h.imp_left .inl
  · exact .inl (.inr h)

theorem occurs_password_of_name {c : Int8} (h : Occurs nameChar c) : Occurs passwordChar c :=
  h.imp_left fun h => decide_eq_true (.inl h)

theorem occurs_path {c : Int8} (h : Occurs pathChar c) :
    Occurs nameChar c ∨ c = ':' ∨ c = '@' ∨ c = '/' := by
  rcases h with h | h
  · rw [pathChar, pchar, decide_eq_true_iff, decide_eq_true_iff] at h
    rcases h with (h | h | h) | h
    · exact .inl (.inl h)
    · exact .inr (.inl h)
    · exact .inr (.inr (.inl h))
    · exact .inr (.inr (.inr h))
  · exact .inl (.inr h)

theorem occurs_query {c : Int8} (h : Occurs queryChar c) :
    Occurs nameChar c ∨ c = ':' ∨ c = '@' ∨ c = '/' ∨ c = '?' := by
  rcases h with h | h
  · rw [queryChar, pchar, decide_eq_true_iff, decide_eq_true_iff] at h
    rcases h with (h | h | h) | h | h
    · exact .inl (.inl h)
    · exact .inr (.inl h)
    · exact .inr (.inr (.inl h))
    · exact .inr (.inr (.inr (.inl h)))
    · exact .inr (.inr (.inr (.inr h)))
  · exact .inl (.inr h)

theorem occurs_name_ne {c : Int8} (h : Occurs nameChar c) :
    c ≠ '/' ∧ c ≠ '?' ∧ c ≠ '#' ∧ c ≠ ':' ∧ c ≠ '@' ∧ c ≠ '[' ∧ c ≠ ']' :=
  ⟨ne_of_not h (by decide), ne_of_not h (by decide), ne_of_not h (by decide),
    ne_of_not h (by decide), ne_of_not h (by decide), ne_of_not h (by decide),
    ne_of_not h (by decide)⟩

theorem occurs_password_ne {c : Int8} (h : Occurs passwordChar c) :
    c ≠ '/' ∧ c ≠ '?' ∧ c ≠ '#' ∧ c ≠ '@' ∧ c ≠ '[' ∧ c ≠ ']' :=
  ⟨ne_of_not h (by decide), ne_of_not h (by decide), ne_of_not h (by decide),
    ne_of_not h (by decide), ne_of_not h (by decide), ne_of_not h (by decide)⟩

theorem query_ne_hash {c : Int8} (h : Occurs queryChar c) : c ≠ '#' := ne_of_not h (by decide)

theorem path_ne {c : Int8} (h : Occurs pathChar c) : c ≠ '?' ∧ c ≠ '#' :=
  ⟨ne_of_not h (by decide), ne_of_not h (by decide)⟩

theorem isdigit_ne {c : Int8} (h : isdigit c = true) :
    c ≠ '/' ∧ c ≠ '?' ∧ c ≠ '#' ∧ c ≠ ':' ∧ c ≠ '@' ∧ c ≠ '[' ∧ c ≠ ']' := by
  have hname : Occurs nameChar c := by
    refine .inl (decide_eq_true (.inl ?_))
    rw [unreserved, decide_eq_true_iff]
    exact .inr (.inl h)
  exact occurs_name_ne hname

theorem notIpv6_of_isdigit {c : Int8} (h : isdigit c = true) : Parse.notIpv6 c = false := by
  rw [Parse.notIpv6, decide_eq_false_iff_not]
  exact fun hnot => hnot.1 h

theorem address_ne {c : Int8} (h : addressChar c = true) :
    c ≠ '/' ∧ c ≠ '?' ∧ c ≠ '#' ∧ c ≠ '@' ∧ c ≠ '[' ∧ c ≠ ']' := by
  have hpassword : Occurs passwordChar c := by
    rw [addressChar, decide_eq_true_iff] at h
    rcases h with h | rfl | rfl
    · exact .inr (.inr h)
    · exact .inl rfl
    · exact .inl rfl
  exact occurs_password_ne hpassword

theorem address_ok {c : Int8} (h : addressChar c = true) :
    (isunreserved c = true ∨ c = ':') ∧ Parse.notIpv6 c = false := by
  rw [addressChar, decide_eq_true_iff] at h
  rcases h with h | rfl | rfl
  · have hall : (chars "0123456789abcdefABCDEF").all (fun c => !Parse.notIpv6 c) = true := by
      decide
    refine ⟨.inl (isunreserved_of_alnum (isHex_alnum h)), ?_⟩
    simpa using List.all_eq_true.mp hall c h
  · exact ⟨.inr rfl, rfl⟩
  · exact ⟨.inl rfl, rfl⟩

/-! ## What the states read -/

def QueryOk (c : Int8) : Prop := ishsegment c ∨ issubdelims c ∨ c = '/' ∨ c = '?'

def PathOk (c : Int8) : Prop :=
  isunreserved c ∨ issubdelims c ∨ c = '%' ∨ c = '/' ∨ c = '&' ∨ c = ':'

def HostStartOk (c : Int8) : Prop := isunreserved c ∨ issubdelims c ∨ c = '%' ∨ c = '['

def HostOk (c : Int8) : Prop := isunreserved c ∨ issubdelims c ∨ c = '%' ∨ c = ':' ∨ c = ' '

def ProbeOk (c : Int8) : Prop :=
  isunreserved c ∨ issubdelims c ∨ c = '%' ∨ c = ' ' ∨ c = '[' ∨ c = ']'

instance (c : Int8) : Decidable (QueryOk c) :=
  inferInstanceAs (Decidable (ishsegment c = true ∨ issubdelims c = true ∨ c = '/' ∨ c = '?'))

instance (c : Int8) : Decidable (PathOk c) :=
  inferInstanceAs (Decidable (isunreserved c = true ∨ issubdelims c = true ∨ c = '%' ∨
    c = '/' ∨ c = '&' ∨ c = ':'))

theorem queryOk_iff {c : Int8} (h : Occurs queryChar c) : QueryOk c ↔ c ≠ '%' := by
  constructor
  · exact fun hok => ne_of_not hok (by decide)
  · intro hne
    rcases occurs_query h with h | rfl | rfl | rfl | rfl
    · rcases occurs_name h with h | h | h | rfl | rfl
      · refine .inl (decide_eq_true (.inl ?_))
        exact decide_eq_true (.inl h)
      · exact .inr (.inl h)
      · exact absurd h hne
      · exact .inl rfl
      · exact .inl rfl
    · exact .inl rfl
    · exact .inl rfl
    · exact .inr (.inr (.inl rfl))
    · exact .inr (.inr (.inr rfl))

theorem pathOk_iff {c : Int8} (h : Occurs pathChar c) : PathOk c ↔ c ≠ ';' ∧ c ≠ '@' := by
  constructor
  · exact fun hok => ⟨ne_of_not hok (by decide), ne_of_not hok (by decide)⟩
  · rintro ⟨hsemi, hat⟩
    rcases occurs_path h with h | rfl | h | rfl
    · rcases occurs_name h with h | h | h | h | h
      · exact .inl h
      · exact .inr (.inl h)
      · exact .inr (.inr (.inl h))
      · exact .inr (.inr (.inr (.inr (.inl h))))
      · exact absurd h hsemi
    · exact .inr (.inr (.inr (.inr (.inr rfl))))
    · exact absurd h hat
    · exact .inr (.inr (.inr (.inl rfl)))

/-- The classes for a name differ in what no name has. -/
theorem nameOk_iff {P : Int8 → Prop} {c : Int8} (h : Occurs nameChar c) (hand : ¬P '&')
    (hsemi : ¬P ';') (hok : isunreserved c = true ∨ issubdelims c = true ∨ c = '%' → P c) :
    P c ↔ c ≠ '&' ∧ c ≠ ';' := by
  constructor
  · exact fun hc => ⟨ne_of_not hc hand, ne_of_not hc hsemi⟩
  · rintro ⟨hneAnd, hneSemi⟩
    rcases occurs_name h with h | h | h | h | h
    · exact hok (.inl h)
    · exact hok (.inr (.inl h))
    · exact hok (.inr (.inr h))
    · exact absurd h hneAnd
    · exact absurd h hneSemi

theorem hostStartOk_iff {c : Int8} (h : Occurs nameChar c) :
    HostStartOk c ↔ c ≠ '&' ∧ c ≠ ';' :=
  nameOk_iff h (by unfold HostStartOk; decide) (by unfold HostStartOk; decide)
    (Or.imp_right (Or.imp_right .inl))

theorem hostOk_iff {c : Int8} (h : Occurs nameChar c) : HostOk c ↔ c ≠ '&' ∧ c ≠ ';' :=
  nameOk_iff h (by unfold HostOk; decide) (by unfold HostOk; decide)
    (Or.imp_right (Or.imp_right .inl))

theorem probeOk_iff {c : Int8} (h : Occurs nameChar c) : ProbeOk c ↔ c ≠ '&' ∧ c ≠ ';' :=
  nameOk_iff h (by unfold ProbeOk; decide) (by unfold ProbeOk; decide)
    (Or.imp_right (Or.imp_right .inl))

end Cmall.Uri
