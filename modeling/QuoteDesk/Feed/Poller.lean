/-!
Pollers: what can be started and stopped, and the restart around an update.

Prices can only be kept for pairs that are listed. So the poller of prices is stopped before the pairs
are replaced and started afterwards.
-/
namespace QuoteDesk

structure Poller (σ : Type) where
  isPolling : σ → Bool
  start : σ → σ
  stop : σ → σ

namespace Poller

variable {σ : Type}

def stopIfPolling (p : Poller σ) (s : σ) : σ := if p.isPolling s then p.stop s else s

theorem stopIfPolling_preserves (p : Poller σ) (P : σ → Prop) {s : σ} (hs : P s)
    (hstop : P (p.stop s)) : P (p.stopIfPolling s) := by
  unfold stopIfPolling
  split
  · exact hstop
  · exact hs

/-- Stops a poller that polls, applies an update and starts the poller. -/
def update (p : Poller σ) (apply : σ → σ) (s : σ) : σ := p.start (apply (p.stopIfPolling s))

end Poller

inductive PollerEvent where
  | start
  | stop
  | replace
  deriving DecidableEq

def PollerEvent.name : PollerEvent → String
  | .start => "start"
  | .stop => "stop"
  | .replace => "replace"

/-- A poller that only notes what is done to it. -/
structure PollerLog where
  polling : Bool
  events : List PollerEvent
  deriving DecidableEq

namespace PollerLog

def empty : PollerLog := ⟨false, []⟩

def note (l : PollerLog) (e : PollerEvent) : PollerLog := { l with events := l.events ++ [e] }

/-- Starting is noted only when it changes something, stopping always. -/
def poller : Poller PollerLog where
  isPolling l := l.polling
  start l := if l.polling then l else (PollerLog.mk true l.events).note .start
  stop l := (PollerLog.mk false l.events).note .stop

def update (l : PollerLog) : PollerLog := poller.update (·.note .replace) l

end PollerLog
end QuoteDesk
