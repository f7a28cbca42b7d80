import QuoteDesk.Json.Value
import QuoteDesk.Text.Blank
import QuoteDesk.Text.Digits
/-!
Requests to the maker and what becomes of them.

A request names an address on the web and carries headers; one that posts has a body. It ends with a
JSON value or with an error: the maker was not reached, or it answered with a status that is no
success.
-/
namespace QuoteDesk

/-- The address of a resource of the maker. Slashes at the end of its base address do not count. -/
def endpoint (base resource : String) : String :=
  Text.dropTrailing '/' base ++ "/api/rfq/" ++ resource

structure Request where
  url : String
  headers : List (String × String)
  body : Option Json

namespace Request

def fetch (url : String) : Request := ⟨url, [], none⟩

def post (url : String) (body : Json) : Request := ⟨url, [], some body⟩

def method (r : Request) : String := if r.body.isSome then "POST" else "GET"

def withHeader (r : Request) (name value : String) : Request :=
  { r with headers := r.headers ++ [(name, value)] }

def apiKeyHeader : String := "api_key"

def withApiKey (r : Request) (key : String) : Request :=
  if key.isEmpty then r else r.withHeader apiKeyHeader key

def header? (r : Request) (name : String) : Option String :=
  (r.headers.find? fun h => Text.lower h.1 == Text.lower name).map (·.2)

end Request

inductive MakerError where
  | unreached (reason : String)
  | status (code : Nat) (body : String)
  deriving DecidableEq

def MakerError.message : MakerError → String
  | .unreached reason => "HTTP client error: " ++ reason
  | .status code body => "HTTP " ++ Text.decimal code ++ ": " ++ body

/-- The maker as the desk meets it: what it answers at each address, how long it takes, and which
requests it has answered. -/
structure Maker where
  replies : List (String × Except MakerError Json)
  delays : List (String × Nat)
  answered : List Request

namespace Maker

def empty : Maker := ⟨[], [], []⟩

instance : Inhabited Maker := ⟨empty⟩

def lookup {α : Type} (url : String) : List (String × α) → Option α
  | [] => none
  | e :: es => if e.1 = url then some e.2 else lookup url es

/-- What an address answers. Nobody listens at an address that was never set up. -/
def replyAt (m : Maker) (url : String) : Except MakerError Json :=
  (lookup url m.replies).getD (.error (.unreached "connection refused"))

def delayAt (m : Maker) (url : String) : Nat := (lookup url m.delays).getD 0

def setReply (m : Maker) (url : String) (reply : Except MakerError Json) : Maker :=
  { m with replies := (url, reply) :: m.replies }

def setUnreached (m : Maker) (url : String) : Maker :=
  m.setReply url (.error (.unreached "connection refused"))

def setDelay (m : Maker) (url : String) (delay : Nat) : Maker :=
  { m with delays := (url, delay) :: m.delays }

def answer (m : Maker) (r : Request) : Except MakerError Json × Maker :=
  (m.replyAt r.url, { m with answered := r :: m.answered })

def log (m : Maker) : List Request := m.answered.reverse

def requestCount (m : Maker) (url : String) : Nat := (m.answered.filter (·.url = url)).length

theorem log_answer (m : Maker) (r : Request) : (m.answer r).2.log = m.log ++ [r] := by
  simp [answer, log]

end Maker
end QuoteDesk
