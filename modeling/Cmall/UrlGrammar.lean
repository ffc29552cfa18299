import Cmall.UriCoding

/-!
URLs by the grammar of RFC 3986: the components and the text they make up.

    scheme "://" [ user [ ":" password ] "@" ] host [ ":" port ] path [ "?" query ] [ "#" fragment ]
-/

namespace Cmall.Uri.Grammar

/-! ## Characters -/

def unreserved (c : Int8) : Bool :=
  isalpha c ∨ isdigit c ∨ c = '-' ∨ c = '.' ∨ c = '_' ∨ c = '~'

def subDelim (c : Int8) : Bool := c ∈ chars "!$&'()*+,;="

def schemeChar (c : Int8) : Bool := isalpha c ∨ isdigit c ∨ c = '+' ∨ c = '-' ∨ c = '.'

/-- Of a user and of a host name. -/
def nameChar (c : Int8) : Bool := unreserved c ∨ subDelim c

def passwordChar (c : Int8) : Bool := nameChar c ∨ c = ':'

/-- Of an IPv6 address. -/
def addressChar (c : Int8) : Bool := IsHex c ∨ c = ':' ∨ c = '.'

def pchar (c : Int8) : Bool := nameChar c ∨ c = ':' ∨ c = '@'

def pathChar (c : Int8) : Bool := pchar c ∨ c = '/'

/-- Of a query and of a fragment. -/
def queryChar (c : Int8) : Bool := pchar c ∨ c = '/' ∨ c = '?'

/-- A text of such characters and of percent-encoded ones. -/
inductive Encoded (ok : Int8 → Bool) : List Int8 → Prop
  | nil : Encoded ok []
  | char {c : Int8} {text : List Int8} (hc : ok c = true) (htext : Encoded ok text) :
      Encoded ok (c :: text)
  | percent {first second : Int8} {text : List Int8} (hfirst : IsHex first)
      (hsecond : IsHex second) (htext : Encoded ok text) :
      Encoded ok (('%' : Int8) :: first :: second :: text)

/-! ## Components -/

inductive Host where
  | regName (name : List Int8)
  | ipv6 (address : List Int8)

def Host.Valid : Host → Prop
  | .regName name => name ≠ [] ∧ Encoded nameChar name
  | .ipv6 address => address ≠ [] ∧ ∀ c ∈ address, addressChar c = true

def Host.text : Host → List Int8
  | .regName name => name
  | .ipv6 address => ('[' : Int8) :: address ++ [(']' : Int8)]

/-- The host without brackets. -/
def Host.bare : Host → List Int8
  | .regName name => name
  | .ipv6 address => address

structure Userinfo where
  user : List Int8
  password : Option (List Int8)
  userValid : Encoded nameChar user
  passwordValid : ∀ text, password = some text → Encoded passwordChar text

/-- A component that may be missing, behind the character that introduces it. -/
def introduced (c : Int8) : Option (List Int8) → List Int8
  | none => []
  | some text => c :: text

def Userinfo.text (info : Userinfo) : List Int8 :=
  info.user ++ introduced ':' info.password ++ [('@' : Int8)]

structure Components where
  scheme : List Int8
  userinfo : Option Userinfo
  host : Host
  port : Option (List Int8)
  path : List Int8
  query : Option (List Int8)
  fragment : Option (List Int8)
  schemeValid : ∃ first rest, scheme = first :: rest ∧ isalpha first = true ∧
    ∀ c ∈ rest, schemeChar c = true
  hostValid : host.Valid
  portValid : ∀ digits, port = some digits → digits ≠ [] ∧ ∀ c ∈ digits, isdigit c = true
  pathValid : Encoded pathChar path ∧ (path = [] ∨ ∃ rest, path = ('/' : Int8) :: rest)
  queryValid : ∀ text, query = some text → Encoded queryChar text
  fragmentValid : ∀ text, fragment = some text → Encoded queryChar text

namespace Components

/-- The path, the query and the fragment. -/
def rest (url : Components) : List Int8 :=
  url.path ++ (introduced '?' url.query ++ introduced '#' url.fragment)

/-- From the host on. -/
def authority (url : Components) : List Int8 :=
  url.host.text ++ (introduced ':' url.port ++ url.rest)

/-- What follows the two slashes. -/
def behind (url : Components) : List Int8 :=
  (url.userinfo.map Userinfo.text).getD [] ++ url.authority

def text (url : Components) : List Int8 := url.scheme ++ (chars "://" ++ url.behind)

def username (url : Components) : List Int8 := (url.userinfo.map Userinfo.user).getD []

def password (url : Components) : List Int8 :=
  (url.userinfo.bind Userinfo.password).getD []

end Components

/-! ## Encoded texts -/

variable {ok : Int8 → Bool} {text : List Int8}

theorem isHex_ne_percent {c : Int8} (h : IsHex c) : c ≠ '%' := by
  rintro rfl
  revert h
  decide

/-- An encoded text does not end with `%`. -/
theorem Encoded.getLast?_ne (h : Encoded ok text) (hok : ok '%' = false) :
    text.getLast? ≠ some ('%' : Int8) := by
  induction h with
  | nil => simp
  | @char c text hc htext ih =>
    cases text with
    | nil =>
      rintro hlast
      rw [List.getLast?_singleton, Option.some.injEq] at hlast
      rw [hlast, hok] at hc
      cases hc
    | cons d text => rwa [List.getLast?_cons_cons]
  | @percent first second text hfirst hsecond htext ih =>
    rw [List.getLast?_cons_cons, List.getLast?_cons_cons]
    cases text with
    | nil => simpa using isHex_ne_percent hsecond
    | cons d text => rwa [List.getLast?_cons_cons]

/-- What may stand in an encoded text. -/
def Occurs (ok : Int8 → Bool) (c : Int8) : Prop := ok c = true ∨ c = '%' ∨ IsHex c

instance (ok : Int8 → Bool) (c : Int8) : Decidable (Occurs ok c) :=
  inferInstanceAs (Decidable (ok c = true ∨ c = '%' ∨ IsHex c))

theorem Encoded.mem (h : Encoded ok text) : ∀ c ∈ text, Occurs ok c := by
  induction h with
  | nil => simp
  | @char c text hc htext ih =>
    intro d hd
    rcases List.mem_cons.mp hd with rfl | hd
    · exact .inl hc
    · exact ih d hd
  | @percent first second text hfirst hsecond htext ih =>
    intro d hd
    rcases List.mem_cons.mp hd with rfl | hd
    · exact .inr (.inl rfl)
    rcases List.mem_cons.mp hd with rfl | hd
    · exact .inr (.inr hfirst)
    rcases List.mem_cons.mp hd with rfl | hd
    · exact .inr (.inr hsecond)
    · exact ih d hd

end Cmall.Uri.Grammar
