import Cmall.OrderPayment

/-!
WeChat payment notifications: `wxpay_service.cpp` from the signature and the encrypted
resource to the message, and the branch of the HTTP server for `/api/wx/pay.action`.

OpenSSL, the JSON parser and the parser of times are not modelled: `Libraries` holds what
they answer.
-/

namespace Cmall
open Coroutine

abbrev Bytes := List UInt8

/-! ## Base64 -/

/-- The value of a character, `-1` in the table being `none`. -/
def base64Value (c : Char) : Option Nat :=
  if 'A' ≤ c ∧ c ≤ 'Z' then some (c.toNat - 'A'.toNat)
  else if 'a' ≤ c ∧ c ≤ 'z' then some (c.toNat - 'a'.toNat + 26)
  else if '0' ≤ c ∧ c ≤ '9' then some (c.toNat - '0'.toNat + 52)
  else if c = '+' then some 62
  else if c = '/' then some 63
  else none

/-- The three bytes of four values. -/
def base64Group (a b c d : Nat) : Bytes :=
  [.ofNat (a * 4 + b / 16), .ofNat (b % 16 * 16 + c / 4), .ofNat (c % 4 * 64 + d)]

/-- The loop of `base64::decode` and what it does with an incomplete group. -/
def base64Bytes : List Nat → Bytes
  | a :: b :: c :: d :: rest => base64Group a b c d ++ base64Bytes rest
  | [a, b, c] => (base64Group a b c 0).take 2
  | [a, b] => (base64Group a b 0 0).take 1
  | _ => []

/-- `base64_decode`: up to the first character that is not in the alphabet. -/
def base64Decode (text : String) : Bytes :=
  base64Bytes ((text.toList.map base64Value).takeWhile Option.isSome).reduceOption

/-! ## OpenSSL -/

/-- What `aes_gcm_decrypt` sets the context up with. -/
structure GcmInput where
  key : String
  iv : String
  tag : Bytes
  aad : String
  ciphertext : Bytes
  deriving DecidableEq, Repr

structure Libraries where
  /-- `EVP_DigestVerify`: 1 for success, 0 or a negative value otherwise. -/
  digestVerify : String → String → Bytes → Int
  decryptInit : GcmInput → Int
  /-- `EVP_DecryptUpdate` for the associated data. -/
  decryptAad : GcmInput → Int
  decryptUpdate : GcmInput → Int × String
  /-- `EVP_DecryptFinal_ex`: positive for success. -/
  decryptFinal : GcmInput → Int × String
  /-- `boost::json::parse`; `none` when it throws. -/
  parse : String → Option Json
  /-- The conversion of a text to `boost::posix_time::ptime`; `none` when it throws. -/
  ptime : String → Option PTime
  /-- The integer a double is equal to, if there is one. -/
  exactLong : String → Option Int

variable (lib : Libraries)

def Libraries.parseJson (text : String) : Except Exn Json :=
  match lib.parse text with
  | some jv => .ok jv
  | none => .error (.std "syntax error")

/-- The `int` that is returned becomes a `bool`. -/
def rsaSignVerify (cert text : String) (signature : Bytes) : Bool :=
  lib.digestVerify cert text signature ≠ 0

def authTagLengthByte : Nat := 16

/-- The parts of `ciphertext_with_aead`; `substr` throws when the tag does not fit in. -/
def gcmInput (ciphertextWithAead : Bytes) (key iv aad : String) : Except Exn GcmInput :=
  if ciphertextWithAead.length < authTagLengthByte then .error (.std "out_of_range")
  else
    let n := ciphertextWithAead.length - authTagLengthByte
    .ok ⟨key, iv, ciphertextWithAead.drop n, aad, ciphertextWithAead.take n⟩

/-- What has been written to the buffer. -/
def Libraries.plaintext (x : GcmInput) : String := (lib.decryptUpdate x).2 ++ (lib.decryptFinal x).2

def aesGcmDecrypt (ciphertextWithAead : Bytes) (key iv aad : String) : Except Exn String := do
  let x ← gcmInput ciphertextWithAead key iv aad
  if lib.decryptInit x = 0 then .error (.system .internalServerError)
  else if lib.decryptAad x = 0 then .error (.system .internalServerError)
  else if (lib.decryptUpdate x).1 = 0 then .error (.system .internalServerError)
  else if 0 < (lib.decryptFinal x).1 then .ok (lib.plaintext x)
  else .ok ""

/-! ## The messages -/

structure WxEncryptData where
  originalType : String := ""
  algorithm : String := ""
  ciphertext : String := ""
  associatedData : String := ""
  nonce : String := ""
  deriving DecidableEq, Repr

/-- `value_to<std::string>` of a member that need not be there. -/
def optionalString (obj : JsonObject) (key : String) : Except Exn String :=
  match Json.at? obj key with
  | some v => v.asString
  | none => .ok ""

def WxEncryptData.ofJson : Json → Except Exn WxEncryptData
  | .object obj => do
    match Json.at? obj "ciphertext", Json.at? obj "nonce" with
    | some ciphertext, some nonce =>
      let originalType ← optionalString obj "original_type"
      let algorithm ← optionalString obj "algorithm"
      let associatedData ← optionalString obj "associated_data"
      let ciphertext ← ciphertext.asString
      let nonce ← nonce.asString
      return { originalType, algorithm, ciphertext, associatedData, nonce }
    | _, _ => return {}
  | _ => .ok {}

structure NotifyObject where
  eventType : String
  createTime : PTime
  resource : WxEncryptData
  deriving DecidableEq, Repr

/-- `value_to<boost::posix_time::ptime>`. -/
def ptimeOfJson (v : Json) : Except Exn PTime := do
  match lib.ptime (← v.asString) with
  | some t => return t
  | none => .error (.std "not a time")

def NotifyObject.ofJson : Json → Except Exn (Option NotifyObject)
  | .object obj =>
    match Json.at? obj "resource" with
    | some (.object resource) => do
      let eventType ← (← Json.atKey obj "event_type").asString
      let createTime ← ptimeOfJson lib (← Json.atKey obj "create_time")
      let resource ← WxEncryptData.ofJson (.object resource)
      return some { eventType, createTime, resource }
    | _ => .ok none
  | _ => .ok none

/-- `magic_enum::enum_cast<pay_status>`. -/
def PayStatus.ofString : String → Option PayStatus
  | "SUCCESS" => some .success
  | "REFUND" => some .refund
  | "NOTPAY" => some .notpay
  | "CLOSED" => some .closed
  | "REVOKED" => some .revoked
  | "USERPAYING" => some .userpaying
  | "PAYERROR" => some .payerror
  | "QUERY_FAILED" => some .queryFailed
  | _ => none

/-- `value_to<long>`. -/
def longOfJson : Json → Except Exn Int
  | .int64 i => .ok i
  | .uint64 n => if n < 2 ^ 63 then .ok n else .error (.std "not exact")
  | .double text =>
    match lib.exactLong text with
    | some i => .ok i
    | none => .error (.std "not exact")
  | _ => .error (.std "not a number")

/-- `notify_message{}`: the first status is `SUCCESS`, and the time is not a time. -/
def NotifyMessage.empty : NotifyMessage := ⟨"", .success, 0, 0, 0⟩

def NotifyMessage.ofJson : Json → Except Exn NotifyMessage
  | .object obj => do
    match Json.at? obj "out_trade_no", Json.at? obj "transaction_id" with
    | some outTradeNo, some _ =>
      let outTradeNo ← outTradeNo.asString
      let tradeState ← (← Json.atKey obj "trade_state").asString
      let successTime ← ptimeOfJson lib (← Json.atKey obj "success_time")
      let amount ← (← Json.atKey obj "amount").asObject
      let total ← longOfJson lib (← Json.atKey amount "total")
      let payerTotal ← longOfJson lib (← Json.atKey amount "payer_total")
      return {
        outTradeNo
        tradeState := (PayStatus.ofString tradeState).getD .queryFailed
        orderAmount := total / 100
        payedAmount := payerTotal / 100
        successTime }
    | _, _ => return NotifyMessage.empty
  | _ => .ok NotifyMessage.empty

/-! ## The notification -/

/-- What a service verifies and decrypts with. -/
structure WxpayService where
  wechatpaySignatureKey : String
  apiv3Key : String
  deriving DecidableEq, Repr

/-- The request: its body and the three headers. -/
structure PayNotification where
  body : String
  timestamp : String
  nonce : String
  signature : String
  deriving DecidableEq, Repr

def PayNotification.toVerify (http : PayNotification) : String :=
  http.timestamp ++ "\n" ++ http.nonce ++ "\n" ++ http.body ++ "\n"

def WxpayService.verifySig (svc : WxpayService) (http : PayNotification) : Bool :=
  rsaSignVerify lib svc.wechatpaySignatureKey http.toVerify (base64Decode http.signature)

def WxpayService.decodeWxEncryptData (svc : WxpayService) (data : WxEncryptData) :
    Except Exn String :=
  aesGcmDecrypt lib (base64Decode data.ciphertext) svc.apiv3Key data.nonce data.associatedData

/-- The resource of the body. The optional is used without a check. -/
def PayNotification.resource (http : PayNotification) : Except Exn WxEncryptData := do
  match ← NotifyObject.ofJson lib (← lib.parseJson http.body) with
  | some obj => return obj.resource
  | none => .error (.undefined "notify_obj")

def WxpayService.decodeNotifyMessage (svc : WxpayService) (http : PayNotification) :
    Except Exn NotifyMessage := do
  if svc.verifySig lib http = false then .error (.system .nofityMessageSignatureInvalid)
  else
    let data ← http.resource lib
    let text ← svc.decodeWxEncryptData lib data
    if text = "" then .error (.system .nofityMessageDecodeFailed)
    else NotifyMessage.ofJson lib (← lib.parseJson text)

/-- It is derived from `std::exception`. -/
def Exn.isStd : Exn → Bool
  | .system _ | .std _ => true
  | _ => false

/-- The loop of `/api/wx/pay.action` over the configured services; the status that is
answered. -/
def wxPayAction (ctx : Ctx) (http : PayNotification) : List WxpayService → M Nat
  | [] => return 500
  | svc :: rest =>
    match svc.decodeNotifyMessage lib http with
    | .error e => if e.isStd then wxPayAction ctx http rest else Co.throw e
    | .ok notifyMsg => do
      match ← handleOrderWxCallback ctx notifyMsg with
      | .bool true => return 200
      | _ => wxPayAction ctx http rest

end Cmall
