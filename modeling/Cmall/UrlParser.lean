import Cmall.UriCoding

/-!
`uri::parse`: the automaton of `url_parser.hpp`.

A pointer into the URL is the text from there to the end of the URL, so two pointers are equal
when these texts are. Each state of the loop is a function of what the loop keeps and of `b`;
a result `none` is the return of false.
-/

namespace Cmall

/-- `string_view`: a pointer and a size. -/
structure View where
  data : List Int8 := []
  size : Nat := 0
  inside : size ≤ data.length := by decide
  deriving DecidableEq, Repr

namespace View

def text (v : View) : List Int8 := v.data.take v.size

def empty (v : View) : Bool := v.size = 0

/-- The view from one pointer up to another. -/
def between (start stop : List Int8) : View :=
  ⟨start, start.length - stop.length, Nat.sub_le _ _⟩

@[simp] theorem text_default : ({} : View).text = [] := rfl

@[simp] theorem text_between (chunk rest : List Int8) :
    (between (chunk ++ rest) rest).text = chunk := by
  simp [text, between]

theorem empty_iff (v : View) : v.empty = true ↔ v.text = [] := by
  have hlen : v.text.length = v.size := List.length_take_of_le v.inside
  rw [empty, decide_eq_true_iff, ← hlen, List.length_eq_zero_iff]

theorem text_eq_nil_iff {chunk rest : List Int8} :
    (between (chunk ++ rest) rest).empty = true ↔ chunk = [] := by
  rw [empty_iff, text_between]

end View

/-- The class `uri`. -/
structure Uri where
  scheme_ : View := {}
  username_ : View := {}
  password_ : View := {}
  host_ : View := {}
  port_ : View := {}
  path_ : View := {}
  query_ : View := {}
  fragment_ : View := {}
  deriving DecidableEq, Repr

namespace Uri

/-! ## The character classes -/

def isunreserved (c : Int8) : Bool :=
  isalpha c ∨ isdigit c ∨ c = '-' ∨ c = '.' ∨ c = '_' ∨ c = '~' ∨ c ≤ 0x20 ∨ 0x7f ≤ c

def isuchar (c : Int8) : Bool := isunreserved c ∨ c = ';' ∨ c = '?' ∨ c = '&' ∨ c = '='

def ishsegment (c : Int8) : Bool :=
  isuchar c ∨ c = ';' ∨ c = ':' ∨ c = '@' ∨ c = '&' ∨ c = '='

def issubdelims (c : Int8) : Bool :=
  c = '!' ∨ c = '$' ∨ c = '\'' ∨ c = '(' ∨ c = ')' ∨ c = '*' ∨ c = '+' ∨ c = ',' ∨ c = '='

def tolower (c : Int8) : Int8 := if 'A' ≤ c ∧ c ≤ 'Z' then c + 0x20 else c

/-- `iequals` of Beast. -/
def iequals (a b : List Int8) : Bool := a.map tolower = b.map tolower

/-! ## The states -/

namespace Parse

open View

def fragment (uri : Uri) (partStart : List Int8) : List Int8 → Option Uri
  | [] => none
  | c :: b =>
    if b = [] then some { uri with fragment_ := between partStart b }
    else if ishsegment c ∨ issubdelims c ∨ c = '/' ∨ c = '?' then fragment uri partStart b
    else none

/-- What a `#` does in the states before, after their view is set. -/
def toFragment (uri : Uri) (b : List Int8) : Option Uri :=
  if b = [] then some uri else fragment uri b b

def query (uri : Uri) (partStart : List Int8) : List Int8 → Option Uri
  | [] => none
  | c :: b =>
    if c = '#' then toFragment { uri with query_ := between partStart (c :: b) } b
    else if b = [] then some { uri with query_ := between partStart b }
    else if ishsegment c ∨ issubdelims c ∨ c = '/' ∨ c = '?' then query uri partStart b
    else none

/-- The same for a `?`. -/
def toQuery (uri : Uri) (b : List Int8) : Option Uri :=
  if b = [] then some uri else query uri b b

def path (uri : Uri) (partStart : List Int8) : List Int8 → Option Uri
  | [] => none
  | c :: b =>
    if c = '?' then toQuery { uri with path_ := between partStart (c :: b) } b
    else if c = '#' then toFragment { uri with path_ := between partStart (c :: b) } b
    else if b = [] then some { uri with path_ := between partStart b }
    else if isunreserved c ∨ issubdelims c ∨ c = '%' ∨ c = '/' ∨ c = '&' ∨ c = ':' then
      path uri partStart b
    else none

def port (uri : Uri) (partStart : List Int8) : List Int8 → Option Uri
  | [] => none
  | c :: b =>
    if c = '/' then
      -- `--b`: the state `path` reads the slash again
      path { uri with port_ := between partStart (c :: b) } (c :: b) (c :: b)
    else if c = '?' then toQuery { uri with port_ := between partStart (c :: b) } b
    else if c = '#' then toFragment { uri with port_ := between partStart (c :: b) } b
    else if b = [] then some { uri with port_ := between partStart b }
    else if isdigit c then port uri partStart b
    else none

def portStart (uri : Uri) (partStart : List Int8) : List Int8 → Option Uri
  | [] => none
  | c :: b => if isdigit c then port uri partStart b else none

/-- Behind the bracket that ends an IPv6 host. -/
def afterBracket (uri : Uri) : List Int8 → Option Uri
  | [] => some uri
  | c :: b =>
    if c = ':' then portStart uri b b
    else if c = '/' then path uri (c :: b) (c :: b)
    else if c = '?' then query uri b b
    else if c = '#' then fragment uri b b
    else none

def host (uri : Uri) (isIpv6 : Bool) (partStart : List Int8) : List Int8 → Option Uri
  | [] => none
  | c :: b =>
    if b = [] then
      if isIpv6 ∧ c = '/' then none
      else if c = '/' ∨ c = ']' then some { uri with host_ := between partStart (c :: b) }
      else some { uri with host_ := between partStart b }
    else if isIpv6 ∧ c = ']' then
      afterBracket { uri with host_ := between partStart (c :: b) } b
    else if isIpv6 ∧ c = '/' then none
    else if ¬isIpv6 ∧ c = ':' then
      portStart { uri with host_ := between partStart (c :: b) } b b
    else if c = '/' then
      path { uri with host_ := between partStart (c :: b) } (c :: b) (c :: b)
    else if isunreserved c ∨ issubdelims c ∨ c = '%' ∨ c = ':' ∨ c = ' ' then
      host uri isIpv6 partStart b
    else if c = '?' then toQuery { uri with host_ := between partStart (c :: b) } b
    else if c = '#' then toFragment { uri with host_ := between partStart (c :: b) } b
    else none

def hostStart (uri : Uri) (partStart : List Int8) : List Int8 → Option Uri
  | [] => none
  | c :: b =>
    if isunreserved c ∨ issubdelims c ∨ c = '%' ∨ c = '[' then
      if c = '[' then host uri true b b else host uri false partStart b
    else none

/-- The variables of the state that tells a user from a host. -/
structure Probe where
  partStart : List Int8
  v6Start : Option (List Int8) := none
  v6End : Option (List Int8) := none
  isIpv6 : Bool := false
  probe : View := {}

/-- At a bracket; `b` is the pointer behind it. -/
def Probe.bracket (p : Probe) (c : Int8) (b : List Int8) : Probe :=
  if c = '[' then
    if p.v6Start.isSome then { p with isIpv6 := false }
    else { p with isIpv6 := true, v6Start := some b }
  else if c = ']' then
    if p.isIpv6 ∧ p.v6End.isNone then
      { p with v6End := some (c :: b), probe := if p.probe.empty then p.probe else {} }
    else { p with isIpv6 := false }
  else p

/-- At an `@`. -/
def Probe.userinfo (p : Probe) (uri : Uri) (stop : List Int8) : Uri :=
  if p.probe.empty then { uri with username_ := between p.partStart stop }
  else
    let pwd := p.probe.data.drop (p.probe.size + 1)
    { uri with password_ := between pwd stop, username_ := p.probe }

/-- At the end of the host and the port. -/
def Probe.hostPort (p : Probe) (uri : Uri) (stop : List Int8) : Option Uri :=
  let port := p.probe.data.drop (p.probe.size + 1)
  if p.isIpv6 then
    match p.v6Start, p.v6End with
    | some v6Start, some v6End =>
      if v6Start = v6End then none
      else if p.probe.empty then some { uri with host_ := between v6Start v6End }
      else some { uri with host_ := between v6Start v6End, port_ := between port stop }
    | _, _ => none
  else if p.v6Start.isSome ∨ p.v6End.isSome then none
  else if p.probe.empty then some { uri with host_ := between p.partStart stop }
  else some { uri with port_ := between port stop, host_ := p.probe }

/-- A character that ends the guess of an IPv6 host. -/
def notIpv6 (c : Int8) : Bool :=
  ¬isdigit c ∧ c ≠ 'a' ∧ c ≠ 'A' ∧ c ≠ 'b' ∧ c ≠ 'B' ∧ c ≠ 'c' ∧ c ≠ 'C' ∧ c ≠ 'd' ∧ c ≠ 'D' ∧
    c ≠ 'e' ∧ c ≠ 'E' ∧ c ≠ 'f' ∧ c ≠ 'F' ∧ c ≠ ':' ∧ c ≠ ']' ∧ c ≠ '[' ∧ c ≠ '.'

def probeUserinfoHostname (uri : Uri) (p : Probe) : List Int8 → Option Uri
  | [] => none
  | c :: b =>
    let p := p.bracket c b
    if c = '@' then hostStart (p.userinfo uri (c :: b)) b b
    else if c = ':' then
      probeUserinfoHostname uri
        (if p.probe.empty then { p with probe := between p.partStart (c :: b) } else p) b
    else if c = '/' then
      match p.hostPort uri (c :: b) with
      | none => none
      | some uri => path uri (c :: b) (c :: b)
    else if c = '?' then
      match p.hostPort uri (c :: b) with
      | none => none
      | some uri => toQuery uri b
    else if c = '#' then
      match p.hostPort uri (c :: b) with
      | none => none
      | some uri => toFragment uri b
    else if b = [] then p.hostPort uri b
    else if isunreserved c ∨ issubdelims c ∨ c = '%' ∨ c = ' ' ∨ c = '[' ∨ c = ']' then
      probeUserinfoHostname uri { p with isIpv6 := p.isIpv6 && !notIpv6 c } b
    else none

def slash (uri : Uri) : List Int8 → Option Uri
  | [] => none
  | c :: b => if c = '/' then probeUserinfoHostname uri { partStart := b } b else none

def urn (uri : Uri) (partStart : List Int8) : List Int8 → Option Uri
  | [] => none
  | c :: b =>
    if b = [] then some { uri with path_ := between partStart b }
    else if c = '?' then query { uri with path_ := between partStart (c :: b) } b b
    else urn uri partStart b

/-- A `file` URL may have three slashes. -/
def skipSlash (uri : Uri) (b : List Int8) : List Int8 :=
  if iequals uri.scheme_.text (chars "file") then
    match b with
    | first :: second :: rest =>
      if first = '/' ∧ second = '/' then second :: rest else b
    | _ => b
  else b

def slashStart (uri : Uri) : List Int8 → Option Uri
  | [] => none
  | c :: b =>
    if c = '/' then slash uri (skipSlash uri b)
    else urn uri (c :: b) (c :: b)

def scheme (uri : Uri) (partStart : List Int8) : List Int8 → Option Uri
  | [] => none
  | c :: b =>
    if isalpha c ∨ isdigit c ∨ c = '+' ∨ c = '-' ∨ c = '.' then scheme uri partStart b
    else if c = ':' then slashStart { uri with scheme_ := between partStart (c :: b) } b
    else none

def schemeStart (uri : Uri) (partStart : List Int8) : List Int8 → Option Uri
  | [] => none
  | c :: b => if isalpha c then scheme uri partStart b else none

end Parse

def parse (uri : Uri) (url : List Int8) : Option Uri := Parse.schemeStart uri url url

/-- The constructors. -/
def make (url : List Int8) : Except Exn Uri :=
  match parse {} url with
  | some uri => .ok uri
  | none => .error (.std "URI malformed")

/-! ## The accessors -/

def knownport (uri : Uri) : List Int8 :=
  let is (name : String) : Bool := iequals uri.scheme_.text (chars name)
  if is "ftp" then chars "21"
  else if is "ssh" then chars "22"
  else if is "telnet" then chars "23"
  else if is "gopher" then chars "70"
  else if is "http" || is "ws" then chars "80"
  else if is "nntp" then chars "119"
  else if is "ldap" then chars "389"
  else if is "https" || is "wss" then chars "443"
  else if is "rtsp" then chars "554"
  else if is "socks" || is "socks4" || is "socks5" then chars "1080"
  else if is "sip" then chars "5060"
  else if is "sips" then chars "5061"
  else if is "xmpp" then chars "5222"
  else chars "0"

def port (uri : Uri) : List Int8 := if uri.port_.empty then knownport uri else uri.port_.text

def pathQuery (uri : Uri) : List Int8 :=
  if uri.query_.empty then uri.path_.text
  else uri.path_.text ++ chars "?" ++ uri.query_.text

end Uri

end Cmall
