import QuoteDesk.Feed.Machine
/-!
Running the machine in one fixed order.

Tasks move only while somebody waits. Those that can move do so in the order in which they became able
to, each for as long as it can. When none can move, time goes on to the next instant at which one can.
Who waits comes first at the end of the wait. A loop that is cancelled when its rest is over leaves.
-/
namespace QuoteDesk

structure Runner (W A : Type) where
  machine : Machine W A
  ready : List TaskId

namespace Runner

variable {W A : Type}

def initial (world : W) : Runner W A := ⟨.initial world, []⟩

def mapMachine (r : Runner W A) (f : Machine W A → Machine W A) : Runner W A :=
  { r with machine := f r.machine }

def mapWorld (r : Runner W A) (f : W → W) : Runner W A := r.mapMachine (·.mapWorld f)

def world (r : Runner W A) : W := r.machine.world

/-- Notes the tasks that have become able to move. A caller moves by itself. -/
def wake (caller : Option TaskId) (r : Runner W A) : Runner W A :=
  let woken := r.machine.tasks.filter fun t =>
    r.machine.canMove t && !r.ready.contains t.id && caller != some t.id
  { r with ready := r.ready ++ woken.map (·.id) }

def canMove (r : Runner W A) (id : TaskId) : Bool :=
  match r.machine.task? id with
  | none => false
  | some t => r.machine.canMove t

def patience : Nat := 1000000000

def drain (b : Behaviour W A) (caller : Option TaskId) : Nat → Runner W A → Runner W A
  | 0, r => r
  | steps + 1, r =>
    match r.ready with
    | [] => r
    | id :: rest =>
      if r.canMove id then drain b caller steps (wake caller (r.mapMachine (·.advance b id)))
      else drain b caller steps { r with ready := rest }

def nextInstant? (r : Runner W A) : Option Nat :=
  (r.machine.tasks.filterMap Machine.dueOf).min?

/-- Lets time pass until an instant; one that has passed already is now. -/
def goTo (r : Runner W A) (instant : Nat) : Runner W A :=
  r.mapMachine fun m => m.elapse (instant - m.now)

/-- Waits until an instant. Tasks that become able to move right then do so in the next wait. -/
def sleepUntil (b : Behaviour W A) (target : Nat) : Nat → Runner W A → Runner W A
  | 0, r => r
  | steps + 1, r =>
    let r := drain b none patience (wake none r)
    match r.nextInstant? with
    | some instant =>
      if instant < target then sleepUntil b target steps (wake none (r.goTo instant))
      else wake none (r.goTo target)
    | none => r.goTo target

/-- Waits for a time; a wait of no time lets nobody move. -/
def sleep (b : Behaviour W A) (r : Runner W A) (ms : Nat) : Runner W A :=
  if ms = 0 then r else sleepUntil b (r.machine.now + ms) patience r

def runCaller (b : Behaviour W A) (caller : TaskId) : Nat → Runner W A → Runner W A
  | 0, r => r
  | steps + 1, r =>
    if r.canMove caller then
      runCaller b caller steps (wake (some caller) (r.mapMachine (·.advance b caller)))
    else r

def outcome? (r : Runner W A) (id : TaskId) : Option CycleOutcome :=
  match r.machine.task? id with
  | some ⟨_, _, _, _, .ended outcome⟩ => some outcome
  | _ => none

def awaitCaller (b : Behaviour W A) (caller : TaskId) :
    Nat → Runner W A → Option CycleOutcome × Runner W A
  | 0, r => (none, r)
  | steps + 1, r =>
    let r := runCaller b caller patience r
    match r.outcome? caller with
    | some outcome => (some outcome, r.mapMachine (·.removeTask caller))
    | none =>
      let r := drain b (some caller) patience (wake (some caller) r)
      if r.canMove caller then awaitCaller b caller steps r
      else match r.nextInstant? with
        | some instant => awaitCaller b caller steps (wake (some caller) (r.goTo instant))
        | none => (none, r)

def call (b : Behaviour W A) (r : Runner W A) (feed : Feed) : Option CycleOutcome × Runner W A :=
  awaitCaller b r.machine.fresh patience (r.mapMachine (·.spawn feed false))

end Runner
end QuoteDesk
