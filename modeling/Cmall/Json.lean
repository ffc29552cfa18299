import Mathlib.Logic.Basic

/-!
Errors and request parameters: `error_code.hpp`, the exception kinds a handler
can end with, and the parameter access layer of `js_util.hpp` over JSON values.
-/

namespace Cmall

/-- `cmall::error::errc_t`, in the order of the header (`value` starts at 1). -/
inductive Errc where
  | internalServerError | invalidJson | invalidParams | unknownMethod | notImplemented
  | sessionNeeded | apitokenInvalid | invalidVerifyCode | loginRequired
  | merchantUserRequired | adminUserRequired | recipientIdOutOfRange | duplicateOperation
  | alreadyExist | alreadyAMerchant | orderNotFound | merchantVanished | goodsNotFound
  | cartGoodsNotFound | alreadyInCart | shouldBeSameMerchant | noPaymentScriptSupplyed
  | noPaycheckScriptSpplyed | merchantHasNoPaymentsSupported | userNotFound | userBanned
  | notInSudoMode | cannotSudo | kvStoreKeyNotFound | objectTooLarge | merchcantGitError
  | merchcantGitrepoNotfound | combileOrderNotSupported
  | merchantDoesNotSupportMicroappWxpay | wxpayServerError
  | nofityMessageSignatureInvalid | nofityMessageDecodeFailed | goodOptionNeeded
  | goodOptionInvalid
  deriving DecidableEq, Repr

/-- How a handler can end other than by returning. -/
inductive Exn where
  /-- `boost::system::system_error` with a code of the service. -/
  | system (e : Errc)
  /-- Any other `std::exception`; the text is its `what()`. -/
  | std (what : String)
  /-- A value that is thrown and is no `std::exception`. -/
  | other (text : String)
  /-- An exception left a `noexcept` function. -/
  | terminate
  /-- Undefined behaviour: an empty optional or a null pointer was dereferenced. -/
  | undefined (what : String)
  deriving DecidableEq, Repr

/-- `boost::json::value`; a double is kept as its text. -/
inductive Json where
  | null
  | bool (b : Bool)
  | int64 (i : Int)
  | uint64 (n : Nat)
  | double (text : String)
  | string (s : String)
  | array (l : List Json)
  | object (kvs : List (String × Json))

/-- `boost::json::object`, as the key-value pairs in order. -/
abbrev JsonObject := List (String × Json)

namespace Json

def at? (kvs : JsonObject) (key : String) : Option Json :=
  (kvs.find? fun kv => kv.1 = key).map Prod.snd

def asInt64 : Json → Except Exn Int
  | int64 i => .ok i
  | _ => .error (.std "not an int64")

def asString : Json → Except Exn String
  | string s => .ok s
  | _ => .error (.std "not a string")

def asArray : Json → Except Exn (List Json)
  | array l => .ok l
  | _ => .error (.std "not an array")

def asObject : Json → Except Exn JsonObject
  | object kvs => .ok kvs
  | _ => .error (.std "not an object")

/-- `obj[key]` on a mutable object: an absent key reads as null. -/
def sub (kvs : JsonObject) (key : String) : Json := (at? kvs key).getD null

/-- `obj.at(key)`. -/
def atKey (kvs : JsonObject) (key : String) : Except Exn Json :=
  match at? kvs key with
  | some v => .ok v
  | none => .error (.std "out of range")

/-- `json_accessor::get`. -/
def get (kvs : JsonObject) (key : String) (default : Json) : Json := (at? kvs key).getD default

/-- `json_accessor::get_string`: empty unless the key holds a string. -/
def getString (kvs : JsonObject) (key : String) : String :=
  match at? kvs key with
  | some (string s) => s
  | _ => ""

/-- `json_accessor::get_array` is `noexcept`. -/
def getArray (kvs : JsonObject) (key : String) : Except Exn (List Json) :=
  match at? kvs key with
  | some (array l) => .ok l
  | some _ => .error .terminate
  | none => .ok []

/-- `jsutil::json_as_string`: the default unless the value is a string. -/
def jsonAsString (v : Json) (default : String := "") : String :=
  match v with
  | string s => s
  | _ => default

end Json

end Cmall
