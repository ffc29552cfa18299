import Cmall.DecimalText
import Cmall.PaymentService
import Cmall.Service

/-!
Numbers as text: `numeric_to_string` and the traits of `cpp_numeric` in `traits-pgsql.hpp`,
`to_string` of `misc.hpp`, and where amounts are written: `conversion.cpp` and the arguments of
`get_payurl` in `handle_jsonrpc_order_api.cpp`.
-/

namespace Cmall

/-! ## The stream -/

namespace Ostream

/-- `numeric_limits<cpp_dec_float_100>::digits`. -/
def digits : Nat := 100

/-- The number of units of the last place, rounded to the nearest, ties to even. -/
def units (x : CppNumeric) : Nat :=
  let scaled := x * 10 ^ digits
  let low := scaled.num.natAbs / scaled.den
  let remainder := scaled.num.natAbs % scaled.den
  if scaled.den < 2 * remainder ∨ (scaled.den = 2 * remainder ∧ low % 2 = 1) then low + 1 else low

/-- What a stream prints with `std::fixed` and `std::setprecision(digits)`. -/
def fixed (x : CppNumeric) : List Char :=
  DecimalText.pointed (x < 0) (Nat.toDigits 10 (units x / 10 ^ digits))
    ((Nat.toDigits 10 (units x % 10 ^ digits)).leftpad digits '0')

/-- No digit is left behind the last place. -/
def FewDigits (x : CppNumeric) : Prop := (x * 10 ^ digits).den = 1

instance (x : CppNumeric) : Decidable (FewDigits x) := inferInstanceAs (Decidable (_ = _))

end Ostream

/-! ## Both functions -/

open Ostream

namespace TraitsPgsql

/-- What `Misc.toString` does as well. -/
def numericToString (number : CppNumeric) : String :=
  let result := String.ofList (fixed number)
  if '.' ∈ result.toList then
    let result := trimRightIf ['0'] result
    if result.toList.getLast? = some '.' then String.ofList result.toList.dropLast else result
  else result

/-- `details::buffer` with the size and the null flag of an image. -/
structure Image where
  b : List Char := []
  n : Nat := 0
  isNull : Bool := false
  deriving DecidableEq, Repr

/-- `set_image`: what the buffer held before stays behind the new bytes. -/
def setImage (b : List Char) (v : CppNumeric) : Image :=
  let s := (numericToString v).toList
  { b := s ++ b.drop s.length, n := s.length, isNull := false }

/-- `set_value`, with the constructor of `cpp_numeric` that takes a text, which may throw. -/
def setValue (numeric : String → Option CppNumeric) (v : CppNumeric) (image : Image) :
    Option CppNumeric :=
  if image.isNull then some v else numeric (String.ofList (image.b.take image.n))

end TraitsPgsql

namespace Misc

def toString (bvalue : CppNumeric) : String :=
  let result := String.ofList (fixed bvalue)
  if '.' ∈ result.toList then
    let result := trimRightIf ['0'] result
    if result.toList.getLast? = some '.' then String.ofList result.toList.dropLast else result
  else result

end Misc

/-! ## Where amounts go -/

/-- `tag_invoke` of `cpp_numeric`. -/
def Conversion.valueFrom (u : CppNumeric) : Json := .string (Misc.toString u)

/-- The amounts in the JSON of a `cmall_order`. -/
def Conversion.orderAmounts (o : CmallOrder) : JsonObject :=
  [("price", .string (Misc.toString o.price)), ("kuaidifei", .string (Misc.toString o.kuaidifei)),
    ("pay_amount", .string (Misc.toString o.payAmount))]

/-- The call of `get_payurl` for `order_get_pay_url`. -/
def payurlParams (payScriptContent orderid paymentmethod : String) (orderToPay : CmallOrder) :
    Payment.Params where
  scriptContent := payScriptContent
  orderid := orderid
  nthTry := 0
  orderAmount := Misc.toString (orderToPay.price + orderToPay.kuaidifei)
  paymentmethod := paymentmethod

end Cmall
