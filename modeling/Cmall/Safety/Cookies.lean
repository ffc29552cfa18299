import Cmall.HeaderHelper
import Mathlib.Data.List.TakeDrop

/-!
Cookies.

A value in the grammar has at least one character. The pairs up to the first one with an
empty value are read, those after it are not looked at.
-/

namespace Cmall.Httpd
open Spirit Cmall.Http

/-- A character of a token. -/
def isTokenChar (c : Char) : Bool :=
  '!' ≤ c ∧ c ≤ '~' ∧ c ∉ ['(', ')', '<', '>', '@', ',', ';', ':', '\\', '"', '/', '[', ']', '?',
    '=', '{', '}']

/-- `cookie-octet`. -/
def isCookieOctet (c : Char) : Bool :=
  '!' ≤ c ∧ c ≤ '~' ∧ c ∉ ['"', ',', ';', '\\']

structure CookiePair where
  name : String
  value : String
  name_ne : name.toList ≠ []
  name_chars : ∀ c ∈ name.toList, isTokenChar c = true
  value_chars : ∀ c ∈ value.toList, isCookieOctet c = true

/-- `name=value`. -/
def CookiePair.text (p : CookiePair) : List Char := p.name.toList ++ '=' :: p.value.toList

/-- The pairs as a client writes them. -/
def cookieText (pairs : List CookiePair) : List Char :=
  "; ".toList.intercalate (pairs.map CookiePair.text)

/-- The value of the first pair with a name. -/
def firstValue (pairs : List CookiePair) (name : String) : Option String :=
  (pairs.find? fun p => p.name = name).map CookiePair.value

/-- The pairs before the first one with an empty value. -/
def beforeEmpty (pairs : List CookiePair) : List CookiePair := pairs.takeWhile fun p => p.value ≠ ""

/-! ## The text -/

/-- A pair that is not the first one. -/
def CookiePair.nextText (p : CookiePair) : List Char := ';' :: ' ' :: p.text

theorem cookieText_cons (p : CookiePair) (pairs : List CookiePair) :
    cookieText (p :: pairs) = p.text ++ pairs.flatMap CookiePair.nextText := by
  induction pairs generalizing p with
  | nil => simp [cookieText]
  | cons q pairs ih =>
    have hnext := ih q
    simp only [cookieText, List.map_cons] at hnext ⊢
    rw [List.intercalate_cons_cons, hnext]
    simp [CookiePair.nextText]

theorem CookiePair.nextText_head (p : CookiePair) : p.nextText.head? = some ';' := rfl

section Chars

variable {c : Char}

theorem isTokenChar_key (h : isTokenChar c = true) :
    (c ≠ '=' ∧ c ≠ ';' ∧ c ≠ ' ' ∧ c ≠ ':') ∧ isSpace c = false := by
  simp only [isTokenChar, decide_eq_true_eq, List.mem_cons, not_or] at h
  obtain ⟨hlow, -, hnot⟩ := h
  refine ⟨⟨by tauto, by tauto, ?_, by tauto⟩, ?_⟩
  · rintro rfl
    exact absurd hlow (by decide)
  · simp only [isSpace, decide_eq_false_iff_not]
    rintro (rfl | rfl | rfl | rfl | rfl | rfl) <;> exact absurd hlow (by decide)

theorem isCookieOctet_value (h : isCookieOctet c = true) : c ≠ ';' ∧ c ≠ '\n' ∧ c ≠ ' ' := by
  simp only [isCookieOctet, decide_eq_true_eq, List.mem_cons, not_or] at h
  obtain ⟨hlow, -, hnot⟩ := h
  refine ⟨by tauto, ?_, ?_⟩ <;> (rintro rfl; exact absurd hlow (by decide))

end Chars

/-! ## Reading a pair -/

section Pair

variable {p : CookiePair} {rest : List Char}

/-- The end of the line or the next pair. -/
def AtSemicolon (rest : List Char) : Prop := ∀ c ∈ rest.head?, c = ';'

theorem cookieKey_text (p : CookiePair) (rest : List Char) :
    cookieKey (p.text ++ rest) = some (p.name.toList, '=' :: (p.value.toList ++ rest)) := by
  have hchars : ∀ c ∈ p.name.toList,
      (decide (c ≠ '=' ∧ c ≠ ';' ∧ c ≠ ' ' ∧ c ≠ ':')) = true := fun c hc => by
    simpa using (isTokenChar_key (p.name_chars c hc)).1
  rw [CookiePair.text, List.append_assoc]
  exact plus_append p.name_ne hchars (by decide)

theorem cookieItem_text (hvalue : p.value ≠ "") (hrest : AtSemicolon rest) :
    cookieItem (p.text ++ rest) = some ((p.name, p.value), rest) := by
  have hne : p.value.toList ≠ [] := fun h => hvalue (String.toList_inj.mp (h.trans rfl))
  have hread : cookieValue (p.value.toList ++ rest) = some (p.value.toList, rest) :=
    plus_append_of_head hne (fun c hc => by simpa using isCookieOctet_value (p.value_chars c hc))
      fun c hc => by simp [hrest c hc]
  simp [cookieItem, cookieKey_text, hread, String.ofList_toList]

theorem cookieItem_empty (hvalue : p.value = "") (hrest : AtSemicolon rest) :
    cookieItem (p.text ++ rest) = none := by
  have hread : cookieValue rest = none := plus_eq_none fun c hc => by simp [hrest c hc]
  simp [cookieItem, cookieKey_text, hvalue, hread]

theorem nextCookie_text (p : CookiePair) (rest : List Char) :
    nextCookie (p.nextText ++ rest) = cookieItem (p.text ++ rest) := by
  have hspace : ∀ c ∈ (p.text ++ rest).head?, isSpace c = false := by
    intro c hc
    cases hname : p.name.toList with
    | nil => exact absurd hname p.name_ne
    | cons d name =>
      have hd := p.name_chars d (by rw [hname]; exact List.mem_cons_self ..)
      simp only [CookiePair.text, hname, List.cons_append, List.head?_cons, Option.mem_some] at hc
      exact hc ▸ (isTokenChar_key hd).2
  have hdrop : (p.text ++ rest).dropWhile isSpace = p.text ++ rest := by
    cases htext : p.text ++ rest with
    | nil => rfl
    | cons c text => exact List.dropWhile_cons_of_neg (by simp [hspace c (by rw [htext]; rfl)])
  have hblank : isSpace ' ' = true := by decide
  simp [nextCookie, CookiePair.nextText, hblank, hdrop]

end Pair

theorem atSemicolon_flatMap (pairs : List CookiePair) :
    AtSemicolon (pairs.flatMap CookiePair.nextText) := by
  cases pairs with
  | nil => simp [AtSemicolon]
  | cons p pairs => simp [AtSemicolon, CookiePair.nextText]

/-! ## Reading a line -/

/-- What follows the pairs that are read is not another item. -/
theorem nextCookie_dropWhile (pairs : List CookiePair) :
    nextCookie ((pairs.dropWhile fun p => p.value ≠ "").flatMap CookiePair.nextText) = none := by
  cases hdrop : pairs.dropWhile fun p => p.value ≠ "" with
  | nil => rfl
  | cons p rest =>
    have hvalue : p.value = "" := by
      have h := List.head?_dropWhile_not (fun p : CookiePair => decide (p.value ≠ "")) pairs
      rw [hdrop] at h
      simpa using h
    rw [List.flatMap_cons, nextCookie_text]
    exact cookieItem_empty hvalue (atSemicolon_flatMap rest)

/-- The name and the value of a pair. -/
def CookiePair.item (p : CookiePair) : String × String := (p.name, p.value)

theorem kleene_nextCookie (pairs : List CookiePair) :
    (kleene nextCookie (pairs.flatMap CookiePair.nextText)).1 =
      (beforeEmpty pairs).map CookiePair.item := by
  let enc : String × String → List Char := fun kv => ';' :: ' ' :: (kv.1.toList ++ '=' :: kv.2.toList)
  let rest := (pairs.dropWhile fun p => p.value ≠ "").flatMap CookiePair.nextText
  have hsplit : pairs.flatMap CookiePair.nextText =
      ((beforeEmpty pairs).map CookiePair.item).flatMap enc ++ rest := by
    rw [List.flatMap_map, show (fun p => enc (CookiePair.item p)) = CookiePair.nextText from rfl,
      ← List.flatMap_append, beforeEmpty, List.takeWhile_append_dropWhile]
  have hread : ∀ kv ∈ (beforeEmpty pairs).map CookiePair.item, ∀ rest, AtSemicolon rest →
      nextCookie (enc kv ++ rest) = some (kv, rest) := by
    intro kv hkv rest hrest
    obtain ⟨p, hp, rfl⟩ := List.mem_map.mp hkv
    have hvalue : p.value ≠ "" := by simpa using List.mem_takeWhile_imp hp
    exact (nextCookie_text p rest).trans (cookieItem_text hvalue hrest)
  rw [hsplit, kleene_flatMap_append AtSemicolon (fun kv _ => List.cons_ne_nil _ _) hread
    (fun kv _ rest c hc => (Option.mem_some.mp hc).symm) (atSemicolon_flatMap _)
    (nextCookie_dropWhile pairs)]

/-- The line is read up to the first pair with an empty value. -/
theorem cookieLine_text (pairs : List CookiePair) : (cookieLine (cookieText pairs)).getD [] =
    (beforeEmpty pairs).map CookiePair.item := by
  cases pairs with
  | nil => rfl
  | cons p pairs =>
    rw [cookieText_cons]
    by_cases hvalue : p.value = ""
    · simp [cookieLine, cookieItem_empty hvalue (atSemicolon_flatMap pairs), beforeEmpty, hvalue]
    · simp [cookieLine, cookieItem_text hvalue (atSemicolon_flatMap pairs), kleene_nextCookie,
        beforeEmpty, hvalue, CookiePair.item]

theorem parseCookie_text (pairs : List CookiePair) :
    parseCookie (cookieText pairs) = firstValue (beforeEmpty pairs) := by
  have hparse : ∀ line, parseCookie line =
      ((cookieLine line).getD []).foldl (fun env kv => ScriptEnv.insert env kv.1 kv.2)
        fun _ => none := by
    intro line
    unfold parseCookie
    cases cookieLine line <;> rfl
  funext name
  rw [hparse, cookieLine_text, foldl_insert_apply, firstValue, Option.none_or, List.find?_map]
  simp only [Option.map_map]
  rfl

/-! ## The map -/

/-- The first pairs of a part of the list are those of the list when no name is missing. -/
theorem firstValue_prefix_iff {read pairs : List CookiePair} (h : read <+: pairs) :
    firstValue read = firstValue pairs ↔ ∀ p ∈ pairs, ∃ q ∈ read, q.name = p.name := by
  obtain ⟨rest, rfl⟩ := h
  constructor
  · intro heq p hp
    by_contra hnot
    have hread : firstValue read p.name = none := by
      simp only [firstValue, Option.map_eq_none_iff, List.find?_eq_none, decide_eq_true_eq]
      exact fun q hq hname => hnot ⟨q, hq, hname⟩
    rw [heq] at hread
    simp only [firstValue, Option.map_eq_none_iff, List.find?_eq_none, decide_eq_true_eq] at hread
    exact hread p hp rfl
  · intro hnames
    funext name
    unfold firstValue
    rw [List.find?_append]
    cases hread : read.find? fun p => p.name = name with
    | some q => rfl
    | none =>
      have hrest : rest.find? (fun p => p.name = name) = none := by
        simp only [List.find?_eq_none, decide_eq_true_eq] at hread ⊢
        intro p hp hname
        obtain ⟨q, hq, hqname⟩ := hnames p (List.mem_append_right _ hp)
        exact hread q hq (hqname.trans hname)
      rw [hrest]
      rfl

/-- Each name is sent to the value of its first pair exactly when it has a pair before the
first empty value. -/
theorem cookies_are_read_iff (pairs : List CookiePair) :
    parseCookie (cookieText pairs) = firstValue pairs ↔
      ∀ p ∈ pairs, ∃ q ∈ beforeEmpty pairs, q.name = p.name := by
  rw [parseCookie_text]
  exact firstValue_prefix_iff (List.takeWhile_prefix _)

def themeCookie : CookiePair :=
  ⟨"theme", "", by decide, by simp [isTokenChar], by simp⟩

def sessionCookie : CookiePair :=
  ⟨"Session", "abc", by decide, by simp [isTokenChar], by simp [isCookieOctet]⟩

/-- A session is not found behind a cookie without a value. -/
theorem session_behind_empty_cookie :
    cookieText [themeCookie, sessionCookie] = "theme=; Session=abc".toList ∧
      firstValue [themeCookie, sessionCookie] "Session" = some "abc" ∧
      parseCookie (cookieText [themeCookie, sessionCookie]) "Session" = none ∧
      parseCookie (cookieText [themeCookie, sessionCookie]) ≠
        firstValue [themeCookie, sessionCookie] := by
  have hfirst : firstValue [themeCookie, sessionCookie] "Session" = some "abc" := by decide
  have hparse : parseCookie (cookieText [themeCookie, sessionCookie]) "Session" = none := by decide
  refine ⟨by decide, hfirst, hparse, fun heq => ?_⟩
  rw [heq, hfirst] at hparse
  cases hparse

end Cmall.Httpd
