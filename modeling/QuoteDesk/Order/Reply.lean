import QuoteDesk.Json.Record
import QuoteDesk.Order.Basic
/-!
The maker's reply to a request for a firm order.

Every field of the order must be there and denote a value of its kind: an address is a text of forty
digits, a number is a text of digits in base 10 or 16 or a JSON integer, the signature is a text of
byte pairs. The fields are checked in a fixed order and the first fault is reported.
-/
namespace QuoteDesk

inductive FieldFault where
  | malformedReply
  | badNumber (text : String) (cause : Word.ReadError)
  | notUnsigned (n : Json.Number)
  | notNumber (value : Json)
  | tooLate (expiry : Word)
  | notAddress (value : Json)
  | badAddress (text : String) (cause : Address.ReadError)
  | notHex (value : Json)
  | badHex (cause : Hex.ReadError)

def FieldFault.message : FieldFault → String
  | .malformedReply => "malformed response"
  | .badNumber text cause => text ++ ": " ++ cause.message
  | .notUnsigned n => String.ofList (Json.writeNumber n) ++ " is not an unsigned integer"
  | .notNumber value => "unexpected " ++ value.write
  | .tooLate expiry => expiry.print ++ " overflows u64"
  | .notAddress value => "expected address string, got " ++ value.write
  | .badAddress text cause => text ++ ": " ++ cause.message
  | .notHex value => "expected hex string, got " ++ value.write
  | .badHex cause => cause.message

inductive ReplyError where
  | missing (field : String)
  | invalid (field : String) (fault : FieldFault)

def ReplyError.message : ReplyError → String
  | .missing field => "Firm quote is missing " ++ field
  | .invalid field fault => "Firm quote has invalid " ++ field ++ ": " ++ fault.message

namespace FirmOrder

def fieldNames : List String :=
  ["nonceAndMeta", "expiry", "makerAsset", "takerAsset", "maker", "taker", "makerAmount",
   "takerAmount", "signature"]

/-- A field that is there: null and blank texts count as absent. -/
def present (field : String) (fields : List (String × Json)) : Except ReplyError Json :=
  match Json.field? field fields with
  | none => .error (.missing field)
  | some .null => .error (.missing field)
  | some (.string s) => if (Text.trim s).isEmpty then .error (.missing field) else .ok (.string s)
  | some v => .ok v

def numberOf : Json → Except FieldFault Word
  | .string s => (Word.read (Text.trim s)).mapError (.badNumber (Text.trim s))
  | .number (.integer n) =>
    match decide (0 ≤ n), Word.ofNat? n.toNat with
    | true, some w => .ok w
    | _, _ => .error (.notUnsigned (.integer n))
  | .number n => .error (.notUnsigned n)
  | v => .error (.notNumber v)

def expiryOf (v : Json) : Except FieldFault UInt64 := do
  let w ← numberOf v
  if w.val < UInt64.size then return UInt64.ofNat w.val else throw (.tooLate w)

def addressOf : Json → Except FieldFault Address
  | .string s => (Address.read (Text.trim s)).mapError (.badAddress s)
  | v => .error (.notAddress v)

def dropMarks : List Char → List Char
  | '0' :: 'x' :: cs => dropMarks cs
  | cs => cs

def signatureOf : Json → Except FieldFault Bytes
  | .string s => (Hex.read (dropMarks (Text.byteChars (Text.trim s)))).mapError .badHex
  | v => .error (.notHex v)

def readField {α : Type} (field : String) (read : Json → Except FieldFault α)
    (fields : List (String × Json)) : Except ReplyError α := do
  (read (← present field fields)).mapError (.invalid field)

def ofFields (fields : List (String × Json)) : Except ReplyError FirmOrder := do
  let maker ← readField "maker" addressOf fields
  let taker ← readField "taker" addressOf fields
  let makerAsset ← readField "makerAsset" addressOf fields
  let takerAsset ← readField "takerAsset" addressOf fields
  let makerAmount ← readField "makerAmount" numberOf fields
  let takerAmount ← readField "takerAmount" numberOf fields
  let signature ← readField "signature" signatureOf fields
  if signature.isEmpty then throw (.missing "signature")
  let nonceAndMeta ← readField "nonceAndMeta" numberOf fields
  let expiry ← readField "expiry" expiryOf fields
  return ⟨nonceAndMeta, expiry, makerAsset, takerAsset, maker, taker, makerAmount, takerAmount,
    signature⟩

def ofReply (body : Json) : Except ReplyError FirmOrder :=
  match body.record? [("order", .listed)] with
  | none => .error (.invalid "order" .malformedReply)
  | some reply =>
    match Json.field? "order" reply with
    | none => .error (.missing "order")
    | some .null => .error (.missing "order")
    | some order =>
      match order.record? (fieldNames.map (·, .listed)) with
      | none => .error (.invalid "order" .malformedReply)
      | some fields => ofFields fields

end FirmOrder
end QuoteDesk
