import Cmall.Selection

/-!
The listen addresses of the configuration: `parse_endpoint_string` and `make_listen_endpoint` of
`httpd/detail/parser.hpp`. Texts are byte strings, one character a byte.

An iterator is the text from there on. At the end of a string stands its NUL, which is not a
character of it; `pastEnd` says that it was read.
-/

namespace Cmall.Httpd
open GoodsOptionsParser (trimCopy)

/-! ## Endpoints -/

/-- `boost::asio::ip::address`. -/
inductive Address where
  | v4 (bits : BitVec 32)
  | v6 (bits : BitVec 128) (scopeId : BitVec 32)
  deriving DecidableEq, Repr

def Address.isV6 : Address → Bool
  | v4 _ => false
  | v6 _ _ => true

/-- `tcp::endpoint`. -/
structure Endpoint where
  address : Address := .v4 0
  port : Nat := 0
  deriving DecidableEq, Repr

/-- The error codes that are assigned. -/
inductive ErrorCode where
  | badAddress
  | invalidArgument
  deriving DecidableEq, Repr

/-! ## Parsing -/

structure EndpointString where
  ok : Bool
  host : List Char := []
  port : List Char := []
  ipv6only : Bool := false
  pastEnd : Bool
  deriving DecidableEq, Repr

/-- The dereferenced iterator. -/
def deref (it : List Char) : Char := it.headD '\x00'

def isPortDigit (c : Char) : Bool := '0' ≤ c ∧ c ≤ '9'

/-- The texts that set `ipv6only`. -/
def isIpv6only (rest : List Char) : Bool := rest = "ipv6only".toList ∨ rest = "-ipv6only".toList

/-- From behind the host. -/
def parsePort (host it : List Char) (pastEnd : Bool) : EndpointString :=
  let pastEnd := pastEnd || it.isEmpty
  if deref it ≠ ':' then { ok := false, host, pastEnd }
  else
    let port := (it.drop 1).takeWhile isPortDigit
    let rest := (it.drop 1).dropWhile isPortDigit
    { ok := true, host, port, ipv6only := isIpv6only rest, pastEnd }

def parseEndpointString (str : List Char) : EndpointString :=
  let addressString := trimCopy str
  let pastEnd := addressString.isEmpty
  if deref addressString = '[' then
    let tmpIt := addressString.dropWhile (· ≠ ']')
    if tmpIt = [] then { ok := false, pastEnd }
    else parsePort ((addressString.drop 1).takeWhile (· ≠ ']')) (tmpIt.drop 1) pastEnd
  else
    let tmpIt := addressString.dropWhile (· ≠ ':')
    if tmpIt = [] then { ok := false, pastEnd }
    else parsePort (addressString.takeWhile (· ≠ ':')) tmpIt pastEnd

/-- `std::atoi` of digits: `strtol` stops at the largest `long`, which is then cut to 32 bits. -/
def atoi (digits : List Char) : Nat := min (Nat.ofDigitChars 10 digits 0) (2 ^ 63 - 1) % 2 ^ 32

/-- What is returned, and what the arguments are afterwards. -/
structure Listening where
  endp : Endpoint
  ec : Option ErrorCode
  ipv6only : Bool
  pastEnd : Bool
  deriving DecidableEq, Repr

/-- `fromString` is `address::from_string`: the address, or the default one with an error. -/
def makeListenEndpoint (fromString : List Char → Option Address) (address : List Char)
    (endp : Endpoint) : Listening :=
  let parsed := parseEndpointString address
  let ipv6only := parsed.ipv6only
  let pastEnd := parsed.pastEnd
  if ¬parsed.ok then { endp, ec := some .badAddress, ipv6only, pastEnd }
  else if parsed.host = [] ∨ parsed.port = [] then
    { endp, ec := some .badAddress, ipv6only, pastEnd }
  else
    let port := atoi parsed.port % 2 ^ 16
    match fromString parsed.host with
    | some address => { endp := { address, port }, ec := none, ipv6only, pastEnd }
    | none =>
      { endp := { address := .v4 0, port }, ec := some .invalidArgument, ipv6only, pastEnd }

/-! ## Listen addresses -/

/-- A listen address with whatever follows the port. -/
structure ListenAddress where
  bracketed : Bool
  host : List Char
  port : List Char
  rest : List Char
  unbracketed : bracketed = false → ':' ∉ host ∧ host.head? ≠ some '['
  closed : bracketed = true → ']' ∉ host
  digits : ∀ c ∈ port, isPortDigit c = true
  stops : ∀ c ∈ rest.head?, isPortDigit c = false

namespace ListenAddress

def text (a : ListenAddress) : List Char :=
  (if a.bracketed then '[' :: (a.host ++ [']']) else a.host) ++ ':' :: (a.port ++ a.rest)

def number (a : ListenAddress) : Nat := Nat.ofDigitChars 10 a.port 0

/-- What may be given: a port in range, one of the suffixes, brackets for IPv6 and only for it. -/
structure Valid (a : ListenAddress) (address : Address) : Prop where
  port : a.port ≠ []
  range : a.number ≤ 65535
  suffix : a.rest = [] ∨ isIpv6only a.rest = true
  version : address.isV6 = a.bracketed

end ListenAddress

end Cmall.Httpd
