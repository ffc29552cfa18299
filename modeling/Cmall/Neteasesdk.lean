import Cmall.Httpc
import Cmall.Json

/-!
The one-click login of `neteasesdk.cpp`.

The digest of `md5sum`, the nonce and the time are given to the model. A nonce is what
`std::sample` can take from the table, whose order it keeps.
-/

namespace Cmall.Neteasesdk
open Uri

/-- A `std::map` as the list that it is iterated over. -/
abbrev Params := List (List Int8 × List Int8)

/-- The order of `std::string`, byte by byte without the sign. -/
def before (a b : List Int8) : Bool := a.map Int8.toUInt8 < b.map Int8.toUInt8

/-- `std::map::insert`: a key that is there keeps its value. -/
def insert (k v : List Int8) : Params → Params
  | [] => [(k, v)]
  | p :: params =>
    if before k p.1 then (k, v) :: p :: params
    else if before p.1 k then p :: insert k v params
    else p :: params

def chartable : List Int8 :=
  chars "0123456789ABCDEFGHIJKLMNOPQRSTUVWXYZabcdefghijklmnopqrstuvwxyz"

/-- `gen_nonce()`. -/
structure Nonce where
  text : List Int8
  sampled : text.Sublist chartable
  length_eq : text.length = 32

structure Neteasesdk where
  secretId : List Int8
  secretKey : List Int8
  businessId : List Int8

/-- `to_hexstring`, filled up with zeros. -/
def toHexstring (data : List UInt8) (digits : Nat) : List Int8 :=
  let tmp := data.flatMap toHex
  List.replicate (digits - tmp.length) ('0' : Int8) ++ tmp

def md5sum (md5 : List Int8 → Vector UInt8 16) (input : List Int8) : List Int8 :=
  toHexstring (md5 input).toList 32

def genSig (sdk : Neteasesdk) (md5 : List Int8 → Vector UInt8 16) (params : Params) : List Int8 :=
  md5sum md5 (params.flatMap (fun p => p.1 ++ p.2) ++ sdk.secretKey)

/-- The parameters that are signed. -/
def unsigned (sdk : Neteasesdk) (nonce : Nonce) (ms : UInt64) (token accessToken : List Int8) :
    Params :=
  let params := insert (chars "secretId") sdk.secretId []
  let params := insert (chars "businessId") sdk.businessId params
  let params := insert (chars "version") (chars "v1") params
  let params := insert (chars "nonce") nonce.text params
  let params := insert (chars "token") token params
  let params := insert (chars "accessToken") accessToken params
  insert (chars "timestamp") (chars (Nat.repr ms.toNat)) params

/-- They and their signature. -/
def signed (sdk : Neteasesdk) (md5 : List Int8 → Vector UInt8 16) (nonce : Nonce) (ms : UInt64)
    (token accessToken : List Int8) : Params :=
  let params := unsigned sdk nonce ms token accessToken
  insert (chars "signature") (genSig sdk md5 params) params

/-- The loop that assembles the body. -/
def bodyOf (params : Params) : List Int8 :=
  params.foldl (fun body p =>
    (if body ≠ [] then body ++ chars "&" else body) ++ (p.1 ++ chars "=" ++ p.2)) []

/-- The request of `get_user_phone`. -/
def checkRequest (sdk : Neteasesdk) (md5 : List Int8 → Vector UInt8 16) (nonce : Nonce)
    (ms : UInt64) (token accessToken : List Int8) : Httpc.RequestOptions where
  verb := .post
  url := chars "https://ye.dun.163yun.com/v1/oneclick/check"
  headers := [(chars "Content-Type", chars "application/x-www-form-urlencoded")]
  body := some (bodyOf (signed sdk md5 nonce ms token accessToken))

/-- What `get_user_phone` makes of the answer; `none` is a body that is no JSON. -/
def phoneOf (answer : Option Json) : Except Exn String :=
  match answer with
  | none => .ok ""
  | some jv => do
    match Json.get (← Json.asObject jv) "code" .null with
    | .int64 code =>
      if code ≠ 200 then return ""
      match Json.get (← Json.asObject jv) "data" .null with
      | .object data => return Json.getString data "phone"
      | _ => return ""
    | _ => return ""

end Cmall.Neteasesdk
