import QuoteDesk.Feed.Runner
import QuoteDesk.Listing
import QuoteDesk.Maker
import QuoteDesk.Metrics
/-!
The deny feed by itself, its payloads recorded instead of used.

Handling a payload takes a time before it is recorded. The most handlers that ever ran at once is kept
beside the records.
-/
namespace QuoteDesk

structure Recorder where
  maker : Maker
  metrics : Metrics
  records : List (List String)
  active : Nat
  peak : Nat

namespace Recorder

def initial : Recorder := ⟨.empty, .zero, [], 0, 0⟩

inductive Action where
  | enter
  | record (addresses : List String)

def receive (url : String) (feed : Feed) (w : Recorder) : CycleOutcome × List Action × Recorder :=
  let (reply, maker) := w.maker.answer (.fetch url)
  let w := { w with maker, metrics := w.metrics.countReply feed }
  match reply with
  | .error _ => (.requestError, [], w)
  | .ok body =>
    match Listing.blacklist body with
    | .error _ => (.validationError, [], w)
    | .ok addresses => (.ok, [.enter, .record addresses], w)

def perform (a : Action) (_now : Nat) (w : Recorder) : Recorder :=
  match a with
  | .enter => { w with active := w.active + 1, peak := max w.peak (w.active + 1) }
  | .record addresses =>
    { w with active := w.active - 1, records := w.records ++ [addresses] }

/-- A feed of one address on the web, with its interval and the time that handling takes. -/
def behaviour (url : String) (interval handling : Nat) : Behaviour Recorder Action where
  interval _ := interval
  delay _ w := w.maker.delayAt url
  receive := receive url
  pause
    | .enter => 0
    | .record _ => handling
  perform := perform
  restarts _ := none
  settle feed outcome w := { w with metrics := w.metrics.countCycle feed outcome }

end Recorder
end QuoteDesk
