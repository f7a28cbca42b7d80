import QuoteDesk.Feed.Basic
import QuoteDesk.Feed.Poller
/-!
Polling as a machine of tasks that move one step at a time.

A task runs cycles of one feed: a loop runs them for ever, a call runs one. A cycle waits for its turn
in the line of its feed, asks, receives what came back, performs the actions that follow from it, and
hands the turn on. A loop then rests for the interval of its feed. It looks whether it has been
cancelled as soon as its cycle is over, when no rest that takes time can be over yet, and for as long as
it rests; before that its cycle goes on. Where a loop finds that its rest is over and that it is
cancelled, either may win: `advance` lets it leave, `beginAgain` lets it go round once more. Every step
of every task can be followed by a step of any other task. Times are in milliseconds.
-/
namespace QuoteDesk

/-- What the feeds do: `W` is the state they work on, `A` what can be done to it. A loop rests for
`interval` between two cycles, and a request that is sent now takes `delay`. To `receive` a reply gives
the outcome of the cycle and what is to be done; `pause` passes before an action, around which the
polling of the feed that it `restarts` is stopped and started; `settle` is the end of a cycle. -/
structure Behaviour (W A : Type) where
  interval : Feed → Nat
  delay : Feed → W → Nat
  receive : Feed → W → CycleOutcome × List A × W
  pause : A → Nat
  perform : A → Nat → W → W
  restarts : A → Option Feed
  settle : Feed → CycleOutcome → W → W

abbrev TaskId := Nat

/-- Where a task stands: about to join the line of its feed, in the line, between request and reply,
between reply and end of the cycle, between two cycles of a loop, or past the only cycle of a call. What
comes next comes at `due`. -/
inductive Phase (A : Type) where
  | queued
  | waiting
  | asking (due : Nat)
  | acting (outcome : CycleOutcome) (due : Nat) (todo : List A)
  | resting (due : Nat)
  | ended (outcome : CycleOutcome)

structure Task (A : Type) where
  id : TaskId
  feed : Feed
  isLoop : Bool
  cancelled : Bool
  phase : Phase A

/-- The first task in the `line` of a feed has the turn; the loop that has not been stopped is
`live`. -/
structure Machine (W A : Type) where
  now : Nat
  world : W
  tasks : List (Task A)
  line : PerFeed (List TaskId)
  live : PerFeed (Option TaskId)
  fresh : TaskId

namespace Machine

variable {W A : Type}

def initial (world : W) : Machine W A := ⟨0, world, [], .all [], .all none, 0⟩

def task? (m : Machine W A) (id : TaskId) : Option (Task A) := m.tasks.find? (·.id == id)

def modifyTask (m : Machine W A) (id : TaskId) (f : Task A → Task A) : Machine W A :=
  { m with tasks := m.tasks.map fun t => if t.id = id then f t else t }

def setPhase (m : Machine W A) (id : TaskId) (phase : Phase A) : Machine W A :=
  m.modifyTask id ({ · with phase })

def removeTask (m : Machine W A) (id : TaskId) : Machine W A :=
  { m with tasks := m.tasks.filter (·.id ≠ id) }

def spawn (m : Machine W A) (feed : Feed) (isLoop : Bool) : Machine W A :=
  { m with
    tasks := m.tasks ++ [⟨m.fresh, feed, isLoop, false, .queued⟩]
    fresh := m.fresh + 1 }

def isPolling (m : Machine W A) (feed : Feed) : Bool := (m.live.get feed).isSome

def start (m : Machine W A) (feed : Feed) : Machine W A :=
  if m.isPolling feed then m
  else { m.spawn feed true with live := m.live.set (some m.fresh) feed }

def stop (m : Machine W A) (feed : Feed) : Machine W A :=
  match m.live.get feed with
  | none => m
  | some id => { m.modifyTask id ({ · with cancelled := true }) with live := m.live.set none feed }

def poller (feed : Feed) : Poller (Machine W A) where
  isPolling m := m.isPolling feed
  start m := m.start feed
  stop m := m.stop feed

def joinLine (m : Machine W A) (feed : Feed) (id : TaskId) : Machine W A :=
  { m with line := m.line.modify (· ++ [id]) feed }

def leaveLine (m : Machine W A) (feed : Feed) (id : TaskId) : Machine W A :=
  { m with line := m.line.modify (·.erase id) feed }

def hasTurn (m : Machine W A) (t : Task A) : Bool := (m.line.get t.feed).head? == some t.id

def nextDue (b : Behaviour W A) (now : Nat) : List A → Nat
  | [] => now
  | a :: _ => now + b.pause a

def performAction (b : Behaviour W A) (m : Machine W A) (a : A) : Machine W A :=
  let apply (m : Machine W A) : Machine W A := { m with world := b.perform a m.now m.world }
  match b.restarts a with
  | none => apply m
  | some feed => (poller feed).update apply m

def endCycle (b : Behaviour W A) (m : Machine W A) (t : Task A) (outcome : CycleOutcome) :
    Machine W A :=
  { m.leaveLine t.feed t.id with world := b.settle t.feed outcome m.world }

/-- Ends a cycle. A loop that is cancelled by then leaves; if its rest would be over at once, it rests
first, and either may win. -/
def finish (b : Behaviour W A) (m : Machine W A) (t : Task A) (outcome : CycleOutcome) :
    Machine W A :=
  let m := m.endCycle b t outcome
  if t.isLoop = false then m.setPhase t.id (.ended outcome)
  else if t.cancelled = true ∧ b.interval t.feed ≠ 0 then m.removeTask t.id
  else m.setPhase t.id (.resting (m.now + b.interval t.feed))

def canMove (m : Machine W A) (t : Task A) : Bool :=
  match t.phase with
  | .queued => true
  | .waiting => m.hasTurn t
  | .asking due => due ≤ m.now
  | .acting _ _ [] => true
  | .acting _ due (_ :: _) => due ≤ m.now
  | .resting due => t.cancelled || due ≤ m.now
  | .ended _ => false

def stepTask (b : Behaviour W A) (m : Machine W A) (t : Task A) : Machine W A :=
  match t.phase with
  | .queued => (m.joinLine t.feed t.id).setPhase t.id .waiting
  | .waiting => m.setPhase t.id (.asking (m.now + b.delay t.feed m.world))
  | .asking _ =>
    let (outcome, todo, world) := b.receive t.feed m.world
    { m with world }.setPhase t.id (.acting outcome (nextDue b m.now todo) todo)
  | .acting outcome _ [] => m.finish b t outcome
  | .acting outcome _ (a :: todo) =>
    (m.performAction b a).setPhase t.id (.acting outcome (nextDue b m.now todo) todo)
  | .resting _ => if t.cancelled then m.removeTask t.id else m.setPhase t.id .queued
  | .ended _ => m

def advance (b : Behaviour W A) (m : Machine W A) (id : TaskId) : Machine W A :=
  match m.task? id with
  | none => m
  | some t => if m.canMove t then m.stepTask b t else m

def isRested (m : Machine W A) (t : Task A) : Bool :=
  match t.phase with
  | .resting due => due ≤ m.now
  | _ => false

/-- The other way out of a rest that is over: the loop goes round, cancelled or not. -/
def beginAgain (m : Machine W A) (id : TaskId) : Machine W A :=
  match m.task? id with
  | none => m
  | some t => if m.isRested t then m.setPhase id .queued else m

def elapse (m : Machine W A) (ms : Nat) : Machine W A := { m with now := m.now + ms }

def mapWorld (m : Machine W A) (f : W → W) : Machine W A := { m with world := f m.world }

def dueOf (t : Task A) : Option Nat :=
  match t.phase with
  | .asking due => some due
  | .acting _ due (_ :: _) => some due
  | .resting due => some due
  | _ => none

end Machine
end QuoteDesk
