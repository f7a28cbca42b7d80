import QuoteDesk.Book.Basic
import QuoteDesk.Feed.Basic
import QuoteDesk.Text.Digits
/-!
Counters of what the desk has done, and their text form.

The text lists the families in the order of their names, each with a help line and a type line before
its values. A family whose values carry labels shows only labels that have occurred.
-/
namespace QuoteDesk

structure CycleCounts where
  ok : Nat
  requestError : Nat
  validationError : Nat
  deriving DecidableEq

namespace CycleCounts

def zero : CycleCounts := ⟨0, 0, 0⟩

def get (c : CycleCounts) : CycleOutcome → Nat
  | .ok => c.ok
  | .requestError => c.requestError
  | .validationError => c.validationError

def bump (c : CycleCounts) : CycleOutcome → CycleCounts
  | .ok => { c with ok := c.ok + 1 }
  | .requestError => { c with requestError := c.requestError + 1 }
  | .validationError => { c with validationError := c.validationError + 1 }

def total (c : CycleCounts) : Nat := c.ok + c.requestError + c.validationError

@[simp] theorem get_bump (c : CycleCounts) (o p : CycleOutcome) :
    (c.bump o).get p = c.get p + if o = p then 1 else 0 := by
  cases o <;> cases p <;> rfl

@[simp] theorem total_bump (c : CycleCounts) (o : CycleOutcome) :
    (c.bump o).total = c.total + 1 := by
  cases o <;> simp [bump, total] <;> omega

end CycleCounts

inductive QuoteOutcome where
  | ok
  | requestError
  | invalid
  deriving DecidableEq

structure Metrics where
  cycles : PerFeed CycleCounts
  replies : PerFeed Nat
  bidsWritten : Nat
  asksWritten : Nat
  tokenCount : Option Nat
  pairCount : Option Nat
  quotesOk : Nat
  quotesRequestError : Nat
  quotesInvalid : Nat
  blacklistRejections : Nat
  signatureMismatches : Nat
  deriving DecidableEq

namespace Metrics

def zero : Metrics := ⟨.all .zero, .all 0, 0, 0, none, none, 0, 0, 0, 0, 0⟩

instance : Inhabited Metrics := ⟨zero⟩

def countCycle (m : Metrics) (feed : Feed) (outcome : CycleOutcome) : Metrics :=
  { m with cycles := m.cycles.modify (·.bump outcome) feed }

def countReply (m : Metrics) (feed : Feed) : Metrics :=
  { m with replies := m.replies.modify (· + 1) feed }

def countBook (m : Metrics) : BookSide → Metrics
  | .bids => { m with bidsWritten := m.bidsWritten + 1 }
  | .asks => { m with asksWritten := m.asksWritten + 1 }

def setTokenCount (m : Metrics) (n : Nat) : Metrics := { m with tokenCount := some n }

def setPairCount (m : Metrics) (n : Nat) : Metrics := { m with pairCount := some n }

def countQuote (m : Metrics) : QuoteOutcome → Metrics
  | .ok => { m with quotesOk := m.quotesOk + 1 }
  | .requestError => { m with quotesRequestError := m.quotesRequestError + 1 }
  | .invalid => { m with quotesInvalid := m.quotesInvalid + 1 }

def countRejection (m : Metrics) : Metrics :=
  { m with blacklistRejections := m.blacklistRejections + 1 }

def countMismatch (m : Metrics) : Metrics :=
  { m with signatureMismatches := m.signatureMismatches + 1 }

structure Sample where
  labels : List (String × String)
  value : Nat

inductive FamilyKind where
  | counter
  | gauge
  | histogram

def FamilyKind.name : FamilyKind → String
  | .counter => "counter"
  | .gauge => "gauge"
  | .histogram => "histogram"

structure Family where
  name : String
  help : String
  kind : FamilyKind
  samples : List Sample

def counted (labels : List (String × String)) (n : Nat) : Option Sample :=
  if n = 0 then none else some ⟨labels, n⟩

def feedsByName : List Feed := [.blacklist, .pairs, .prices, .tokens]

def cycleSamples (m : Metrics) : List Sample :=
  feedsByName.flatMap fun feed =>
    [CycleOutcome.ok, .requestError, .validationError].filterMap fun outcome =>
      counted [("fetcher", feed.name), ("outcome", outcome.name)] ((m.cycles.get feed).get outcome)

def families (m : Metrics) : List Family :=
  [⟨"dexalot_blacklist_rejections_total", "Total requests rejected by the blacklist guard",
      .counter, [⟨[], m.blacklistRejections⟩]⟩,
   ⟨"dexalot_book_writes_total", "Total order-book sides written to the cache", .counter,
      [counted [("side", "asks")] m.asksWritten,
       counted [("side", "bids")] m.bidsWritten].filterMap id⟩,
   ⟨"dexalot_directory_size", "Entries in the in-memory token and pair directories", .gauge,
      [m.pairCount.map (⟨[("directory", "pairs")], ·⟩),
       m.tokenCount.map (⟨[("directory", "tokens")], ·⟩)].filterMap id⟩,
   ⟨"dexalot_fetch_cycles_total", "Total polling cycles by fetcher and outcome", .counter,
      m.cycleSamples⟩,
   ⟨"dexalot_fetch_latency_ms", "Polling request latency in milliseconds", .histogram,
      feedsByName.filterMap fun feed => counted [("fetcher", feed.name)] (m.replies.get feed)⟩,
   ⟨"dexalot_firm_quotes_total", "Total firm-quote negotiations by outcome", .counter,
      [counted [("outcome", "invalid")] m.quotesInvalid,
       counted [("outcome", "ok")] m.quotesOk,
       counted [("outcome", "request_error")] m.quotesRequestError].filterMap id⟩,
   ⟨"dexalot_signature_mismatch_total",
      "Total firm orders rejected by local signature verification", .counter,
      [⟨[], m.signatureMismatches⟩]⟩]

def labelText (labels : List (String × String)) : String :=
  if labels.isEmpty then ""
  else "\x7b" ++ ",".intercalate (labels.map fun l => l.1 ++ "=\"" ++ l.2 ++ "\"") ++ "\x7d"

/-- The name that the values of a family stand under: of a histogram only the count is shown. -/
def Family.valueName (f : Family) : String :=
  match f.kind with
  | .histogram => f.name ++ "_count"
  | _ => f.name

def Family.lines (f : Family) : List String :=
  if f.samples.isEmpty then []
  else
    ["# HELP " ++ f.name ++ " " ++ f.help, "# TYPE " ++ f.name ++ " " ++ f.kind.name] ++
      f.samples.map fun s => f.valueName ++ labelText s.labels ++ " " ++ Text.decimal s.value

def lines (m : Metrics) : List String := m.families.flatMap Family.lines

end Metrics
end QuoteDesk
