import Cmall.UrlParser

/-!
`uri::parse` step by step: the loop of `url_parser.hpp` with its pointers as offsets into the URL,
and its lengths as differences of them, whatever their sign.

A `Step` takes the variables as they are after `c = *b++`.
-/

namespace Cmall.Uri.Cursor

/-! ## The variables -/

/-- `string_view(p, n)`. -/
structure Range where
  data : Int := 0
  size : Int := 0
  deriving DecidableEq, Repr

/-- The components of an `uri`. -/
structure Parts where
  scheme_ : Range := {}
  username_ : Range := {}
  password_ : Range := {}
  host_ : Range := {}
  port_ : Range := {}
  path_ : Range := {}
  query_ : Range := {}
  fragment_ : Range := {}
  deriving DecidableEq, Repr

inductive State where
  | schemeStart
  | scheme
  | slashStart
  | slash
  | urn
  | probeUserinfoHostname
  | hostStart
  | host
  | portStart
  | port
  | path
  | query
  | fragment
  deriving DecidableEq, Repr

structure Vars where
  state : State := .schemeStart
  b : Int := 0
  partStart : Int := 0
  v6Start : Option Int := none
  v6End : Option Int := none
  isIpv6 : Bool := false
  probe : Range := {}
  uri : Parts
  deriving DecidableEq, Repr

/-- A pass of the loop goes on, returns, or reads what is not the URL. -/
inductive Outcome where
  | next (v : Vars)
  | returned (result : Bool) (uri : Parts)
  | outside
  deriving DecidableEq, Repr

/-- `*p`. -/
def deref (url : List Int8) (p : Int) (k : Int8 → Outcome) : Outcome :=
  if 0 ≤ p then
    match url[p.toNat]? with
    | some c => k c
    | none => .outside
  else .outside

/-- The characters of a view. -/
def view (url : List Int8) (range : Range) (k : List Int8 → Outcome) : Outcome :=
  if 0 ≤ range.data ∧ 0 ≤ range.size ∧ range.data + range.size ≤ url.length then
    k ((url.drop range.data.toNat).take range.size.toNat)
  else .outside

namespace Vars

/-- `string_view(part_start, b - part_start - 1)`. -/
def before (v : Vars) : Range := ⟨v.partStart, v.b - v.partStart - 1⟩

/-- `string_view(part_start, b - part_start)`. -/
def through (v : Vars) : Range := ⟨v.partStart, v.b - v.partStart⟩

/-- Behind the character that ends the probe. -/
def behindProbe (v : Vars) : Int := v.probe.data + v.probe.size + 1

/-- `part_start = --b`. -/
def rewind (v : Vars) (state : State) : Outcome :=
  .next { v with b := v.b - 1, partStart := v.b - 1, state := state }

/-- `part_start = b`, but at the end the URL is done. -/
def enter (e : Int) (v : Vars) (state : State) : Outcome :=
  if v.b = e then .returned true v.uri else .next { v with partStart := v.b, state := state }

end Vars

/-! ## The states -/

namespace Step

variable (url : List Int8) (e : Int)

def schemeStart (v : Vars) (c : Int8) : Outcome :=
  if isalpha c then .next { v with state := .scheme } else .returned false v.uri

def scheme (v : Vars) (c : Int8) : Outcome :=
  if isalpha c ∨ isdigit c ∨ c = '+' ∨ c = '-' ∨ c = '.' then .next v
  else if c = ':' then
    .next { v with uri := { v.uri with scheme_ := v.before }, state := .slashStart }
  else .returned false v.uri

def slashStart (v : Vars) (c : Int8) : Outcome :=
  if c = '/' then
    view url v.uri.scheme_ fun scheme =>
      if iequals scheme (chars "file") ∧ v.b + 1 < e then
        deref url v.b fun first =>
          if first = '/' then
            deref url (v.b + 1) fun second =>
              if second = '/' then .next { v with b := v.b + 1, state := .slash }
              else .next { v with state := .slash }
          else .next { v with state := .slash }
      else .next { v with state := .slash }
  else v.rewind .urn

def urn (v : Vars) (c : Int8) : Outcome :=
  if v.b = e then .returned true { v.uri with path_ := v.through }
  else if c = '?' then
    .next { v with uri := { v.uri with path_ := v.before }, partStart := v.b, state := .query }
  else .next v

def slash (v : Vars) (c : Int8) : Outcome :=
  if c = '/' then .next { v with state := .probeUserinfoHostname, partStart := v.b }
  else .returned false v.uri

/-- The tests for `[` and `]`. -/
def bracket (v : Vars) (c : Int8) : Vars :=
  if c = '[' then
    if v.v6Start.isSome then { v with isIpv6 := false }
    else { v with isIpv6 := true, v6Start := some v.b }
  else if c = ']' then
    if v.isIpv6 ∧ v.v6End.isNone then
      { v with v6End := some (v.b - 1), probe := if v.probe.size ≠ 0 then {} else v.probe }
    else { v with isIpv6 := false }
  else v

/-- The test for `@`. -/
def userinfo (v : Vars) : Parts :=
  if v.probe.size ≠ 0 then
    { v.uri with password_ := ⟨v.behindProbe, v.b - v.behindProbe - 1⟩, username_ := v.probe }
  else { v.uri with username_ := v.before }

/-- The host and the port, up to a pointer. -/
def hostPort (v : Vars) (stop : Int) : Option Parts :=
  if v.isIpv6 then
    match v.v6Start, v.v6End with
    | some v6Start, some v6End =>
      if v6Start = v6End then none
      else
        let uri := { v.uri with host_ := ⟨v6Start, v6End - v6Start⟩ }
        if v.probe.size ≠ 0 then
          some { uri with port_ := ⟨v.behindProbe, stop - v.behindProbe⟩ }
        else some uri
    | _, _ => none
  else if v.v6Start.isSome ∨ v.v6End.isSome then none
  else if v.probe.size ≠ 0 then
    some { v.uri with port_ := ⟨v.behindProbe, stop - v.behindProbe⟩, host_ := v.probe }
  else some { v.uri with host_ := ⟨v.partStart, stop - v.partStart⟩ }

def probeUserinfoHostname (v : Vars) (c : Int8) : Outcome :=
  let v := bracket v c
  if c = '@' then
    .next { v with uri := userinfo v, isIpv6 := false, partStart := v.b, state := .hostStart }
  else if c = ':' then .next { v with probe := if v.probe.size = 0 then v.before else v.probe }
  else if c = '/' ∨ c = '?' ∨ c = '#' then
    match hostPort v (v.b - 1) with
    | none => .returned false v.uri
    | some uri =>
      if c = '/' then { v with uri := uri }.rewind .path
      else if c = '?' then { v with uri := uri }.enter e .query
      else { v with uri := uri }.enter e .fragment
  else if v.b = e then
    match hostPort v v.b with
    | none => .returned false v.uri
    | some uri => .returned true uri
  else
    let v := { v with isIpv6 := v.isIpv6 && !Parse.notIpv6 c }
    if isunreserved c ∨ issubdelims c ∨ c = '%' ∨ c = ' ' ∨ c = '[' ∨ c = ']' then .next v
    else .returned false v.uri

def hostStart (v : Vars) (c : Int8) : Outcome :=
  if isunreserved c ∨ issubdelims c ∨ c = '%' ∨ c = '[' then
    if c = '[' then .next { v with isIpv6 := true, partStart := v.b, state := .host }
    else .next { v with state := .host }
  else .returned false v.uri

/-- Behind the `]` of a host. -/
def afterBracket (v : Vars) : Outcome :=
  if v.b = e then .returned true v.uri
  else
    deref url v.b fun c =>
      if c = ':' then .next { v with b := v.b + 1, partStart := v.b + 1, state := .portStart }
      else if c = '/' then .next { v with partStart := v.b, state := .path }
      else if c = '?' then .next { v with b := v.b + 1, partStart := v.b + 1, state := .query }
      else if c = '#' then .next { v with b := v.b + 1, partStart := v.b + 1, state := .fragment }
      else .returned false v.uri

def host (v : Vars) (c : Int8) : Outcome :=
  if v.b = e then
    if v.isIpv6 ∧ c = '/' then .returned false v.uri
    else if c = '/' ∨ c = ']' then .returned true { v.uri with host_ := v.before }
    else .returned true { v.uri with host_ := v.through }
  else if v.isIpv6 ∧ c = ']' then
    afterBracket url e { v with uri := { v.uri with host_ := v.before } }
  else if v.isIpv6 ∧ c = '/' then .returned false v.uri
  else if ¬v.isIpv6 ∧ c = ':' then
    .next { v with uri := { v.uri with host_ := v.before }, partStart := v.b, state := .portStart }
  else if c = '/' then { v with uri := { v.uri with host_ := v.before } }.rewind .path
  else if isunreserved c ∨ issubdelims c ∨ c = '%' ∨ c = ':' ∨ c = ' ' then .next v
  else if c = '?' then { v with uri := { v.uri with host_ := v.before } }.enter e .query
  else if c = '#' then { v with uri := { v.uri with host_ := v.before } }.enter e .fragment
  else .returned false v.uri

def portStart (v : Vars) (c : Int8) : Outcome :=
  if isdigit c then .next { v with state := .port } else .returned false v.uri

def port (v : Vars) (c : Int8) : Outcome :=
  if c = '/' then { v with uri := { v.uri with port_ := v.before } }.rewind .path
  else if c = '?' then { v with uri := { v.uri with port_ := v.before } }.enter e .query
  else if c = '#' then { v with uri := { v.uri with port_ := v.before } }.enter e .fragment
  else if v.b = e then .returned true { v.uri with port_ := v.through }
  else if isdigit c then .next v
  else .returned false v.uri

def path (v : Vars) (c : Int8) : Outcome :=
  if c = '?' then { v with uri := { v.uri with path_ := v.before } }.enter e .query
  else if c = '#' then { v with uri := { v.uri with path_ := v.before } }.enter e .fragment
  else if v.b = e then .returned true { v.uri with path_ := v.through }
  else if isunreserved c ∨ issubdelims c ∨ c = '%' ∨ c = '/' ∨ c = '&' ∨ c = ':' then .next v
  else .returned false v.uri

def query (v : Vars) (c : Int8) : Outcome :=
  if c = '#' then { v with uri := { v.uri with query_ := v.before } }.enter e .fragment
  else if v.b = e then .returned true { v.uri with query_ := v.through }
  else if ishsegment c ∨ issubdelims c ∨ c = '/' ∨ c = '?' then .next v
  else .returned false v.uri

def fragment (v : Vars) (c : Int8) : Outcome :=
  if v.b = e then .returned true { v.uri with fragment_ := v.through }
  else if ishsegment c ∨ issubdelims c ∨ c = '/' ∨ c = '?' then .next v
  else .returned false v.uri

end Step

/-! ## The loop -/

/-- The `switch`. -/
def dispatch (url : List Int8) (v : Vars) (c : Int8) : Outcome :=
  let e : Int := url.length
  match v.state with
  | .schemeStart => Step.schemeStart v c
  | .scheme => Step.scheme v c
  | .slashStart => Step.slashStart url e v c
  | .slash => Step.slash v c
  | .urn => Step.urn e v c
  | .probeUserinfoHostname => Step.probeUserinfoHostname e v c
  | .hostStart => Step.hostStart v c
  | .host => Step.host url e v c
  | .portStart => Step.portStart v c
  | .port => Step.port e v c
  | .path => Step.path e v c
  | .query => Step.query e v c
  | .fragment => Step.fragment e v c

/-- A pass of `while (b != e)`. -/
def pass (url : List Int8) (v : Vars) : Outcome :=
  if v.b = url.length then .returned false v.uri
  else deref url v.b fun c => dispatch url { v with b := v.b + 1 } c

/-- So many passes, unless the loop is left before. -/
def run (url : List Int8) : Nat → Vars → Outcome
  | 0, v => .next v
  | n + 1, v =>
    match pass url v with
    | .next w => run url n w
    | .returned result uri => .returned result uri
    | .outside => .outside

/-- The loop begins with whatever the object holds. -/
def start (uri : Parts) : Vars := { uri }

end Cmall.Uri.Cursor
