import QuoteDesk.Bytes
import QuoteDesk.Text.Quoted
/-!
Bytes as pairs of digits in base 16. Reading accepts either letter case, writing uses lower case.
-/
namespace QuoteDesk.Hex

inductive ReadError where
  | oddLength
  | badCharacter (c : Char) (position : Nat)
  deriving DecidableEq

def ReadError.message : ReadError → String
  | .oddLength => "Odd number of digits"
  | .badCharacter c position =>
    "Invalid character " ++ Text.quotedChar c ++ " at position " ++ Text.decimal position

def firstBad? : Nat → List Char → Option (Char × Nat)
  | _, [] => none
  | i, c :: cs => if Text.isHexDigit c then firstBad? (i + 1) cs else some (c, i)

theorem firstBad?_eq_none {cs : List Char} (h : ∀ c ∈ cs, Text.isHexDigit c = true) (i : Nat) :
    firstBad? i cs = none := by
  induction cs generalizing i with
  | nil => rfl
  | cons c cs ih =>
    rw [firstBad?, if_pos (h c List.mem_cons_self)]
    exact ih (fun d hd => h d (List.mem_cons_of_mem c hd)) (i + 1)

/-- The bytes of digit pairs; a digit left over at the end is dropped. -/
def pairs : List Nat → Bytes
  | a :: b :: rest => UInt8.ofNat (16 * a + b) :: pairs rest
  | _ => []

def read (cs : List Char) : Except ReadError Bytes :=
  if cs.length % 2 ≠ 0 then .error .oddLength
  else match firstBad? 0 cs with
    | some (c, i) => .error (.badCharacter c i)
    | none => .ok (pairs (cs.filterMap Text.hexDigit?))

def digits (bs : Bytes) : List Char :=
  bs.flatMap fun b => Text.hexDigits 2 b.toNat

def print (bs : Bytes) : String := "0x" ++ String.ofList (digits bs)

end QuoteDesk.Hex
