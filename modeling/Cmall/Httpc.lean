import Cmall.UrlParser

/-!
The HTTP client: `httpc.hpp`, with the fields of a Beast message.
-/

namespace Cmall.Httpc
open Uri (chars iequals)

inductive Verb where
  | get
  | post
  | patch
  deriving DecidableEq, Repr

/-- `request_options_t`. -/
structure RequestOptions where
  verb : Verb
  url : List Int8
  headers : List (List Int8 × List Int8) := []
  body : Option (List Int8) := none
  deriving DecidableEq, Repr

/-! ## The fields -/

abbrev Fields := List (List Int8 × List Int8)

/-- Optional white space. -/
def isOws (c : Int8) : Bool := c = ' ' ∨ c = '\t'

/-- `detail::trim` -/
def trim (value : List Int8) : List Int8 :=
  ((value.dropWhile isOws).reverse.dropWhile isOws).reverse

def erase (name : List Int8) (fields : Fields) : Fields :=
  fields.filter fun field => !iequals name field.1

/-- `basic_fields::set`: the fields of the name are erased, and the new one comes last. -/
def set (name value : List Int8) (fields : Fields) : Except Exn Fields :=
  if name.length + 2 ≥ 65535 then .error (.std "field name too large")
  else if value.length + 2 ≥ 65535 then .error (.std "field value too large")
  else .ok (erase name fields ++ [(name, trim value)])

/-- `fields[name]` -/
def get? (name : List Int8) (fields : Fields) : Option (List Int8) :=
  (fields.find? fun field => iequals name field.1).map (·.2)

/-- `set_content_length_impl` -/
def setContentLength (length : Option Nat) (fields : Fields) : Except Exn Fields :=
  match length with
  | none => .ok (erase (chars "Content-Length") fields)
  | some n => set (chars "Content-Length") (chars (toString n)) fields

/-- `set_chunked_impl(false)`; `filter` takes `chunked` out of a list of codings. -/
def setNotChunked (filter : List Int8 → List Int8) (fields : Fields) : Except Exn Fields :=
  match get? (chars "Transfer-Encoding") fields with
  | none => .ok fields
  | some codings =>
    if filter codings = [] then .ok (erase (chars "Transfer-Encoding") fields)
    else set (chars "Transfer-Encoding") (filter codings) fields

/-- `prepare_payload` for a body whose size is known. -/
def preparePayload (filter : List Int8 → List Int8) (verb : Verb) (body : List Int8)
    (fields : Fields) : Except Exn Fields :=
  if 0 < body.length ∨ verb = .post then
    setContentLength (some body.length) fields >>= setNotChunked filter
  else setNotChunked filter fields >>= setContentLength none

/-! ## The request -/

/-- What the client relies on: the resolver, the TLS library, the connection with its
handshake and write, and `filter_token_list_last`. -/
structure Network where
  asyncResolve : List Int8 → List Int8 → Bool
  setTlsextHostName : List Int8 → Bool
  connects : Bool
  filterChunked : List Int8 → List Int8 := id
  /-- `HAS_ZLIB` -/
  hasZlib : Bool := true

/-- What is sent, and the server name of the TLS session it is sent in. -/
structure Sent where
  tlsHostName : Option (List Int8)
  verb : Verb
  target : List Int8
  fields : Fields
  body : List Int8
  deriving DecidableEq, Repr

/-- A `const char*` is read up to its NUL. -/
def cString (data : List Int8) : List Int8 := data.takeWhile fun c => c ≠ 0

def acceptEncoding (net : Network) (fields : Fields) : Except Exn Fields :=
  if net.hasZlib then set (chars "Accept-Encoding") (chars "gzip, deflate") fields
  else .ok fields

def requestFields (net : Network) (option : RequestOptions) (url : Uri) : Except Exn Fields := do
  let fields ← set (chars "Host") url.host_.text []
  let fields ← set (chars "User-Agent") (chars "curl/7.82.0") fields
  let fields ← acceptEncoding net fields
  option.headers.foldlM (fun fields header => set header.1 header.2 fields) fields

def payloadFields (net : Network) (option : RequestOptions) (fields : Fields) :
    Except Exn Fields :=
  match option.body with
  | none => .ok fields
  | some body => preparePayload net.filterChunked option.verb body fields

def isSecure (url : Uri) : Bool := url.scheme_.text = chars "https"

def target (url : Uri) : List Int8 := if url.pathQuery = [] then chars "/" else url.pathQuery

/-- `do_request` up to the write of the request; `none` when it gives up before. -/
def doRequest (net : Network) (option : RequestOptions) : Except Exn (Option Sent) := do
  let url ← Uri.make option.url
  if ¬net.asyncResolve url.host_.text url.port then return none
  if isSecure url ∧ ¬net.setTlsextHostName (cString url.host_.data) then return none
  if ¬net.connects then return none
  let fields ← requestFields net option url
  let fields ← payloadFields net option fields
  return some {
    tlsHostName := if isSecure url then some (cString url.host_.data) else none
    verb := option.verb
    target := target url
    fields := fields
    body := option.body.getD [] }

end Cmall.Httpc
