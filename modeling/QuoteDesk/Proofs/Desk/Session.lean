import QuoteDesk.Desk.Basic
import QuoteDesk.Proofs.Feed.Wait
/-!
Sessions of a desk, every order of events allowed: the steps of the feeds and the passing of time,
starts, stops and calls for cycles, new replies of the maker, quotes, and preparations whose requests
take as long as they like while everything else goes on. What a desk does when somebody waits for it
is one of these orders.
-/
namespace QuoteDesk

/-- A desk that polls every feed, each after a millisecond. -/
def Settings.brisk : Settings where
  scope := ⟨"desk", 1⟩
  apiUrl := "maker"
  apiKey := ""
  gasCost := 0
  contract := .ofNat 0
  isReplica := false
  tokensInterval := 1
  pairsInterval := 1
  pricesInterval := 1
  bookLifetime := 1
  blacklistInterval := some 1

def FeedAction.feed : FeedAction → Feed
  | .replaceTokens _ => .tokens
  | .replacePairs _ => .pairs
  | .publish _ _ _ _ => .prices
  | .deny _ => .blacklist

theorem exists_of_map_eq_ok {ε α β : Type} {f : α → β} {x : Except ε α} {y : β}
    (h : x.map f = .ok y) : ∃ a, f a = y := by
  cases x with
  | error e => cases h
  | ok a => exact ⟨a, Except.ok.inj h⟩

theorem FeedAction.feed_of_mem_ofPrices {w : State} {t : Table TwoSided} {a : FeedAction}
    (h : a ∈ ofPrices w t) : a.feed = .prices := by
  obtain ⟨e, -, he⟩ := List.mem_flatMap.mp h
  split at he
  · obtain ⟨side, -, hside⟩ := List.mem_filterMap.mp he
    split at hside
    · cases hside
    · cases hside
      rfl
  · cases he

theorem FeedAction.feed_of_mem_ofBody {w : State} {body : Json} {feed : Feed}
    {todo : List FeedAction} (h : ofBody w body feed = .ok todo) {a : FeedAction} (ha : a ∈ todo) :
    a.feed = feed := by
  cases feed with
  | tokens =>
    obtain ⟨t, rfl⟩ := exists_of_map_eq_ok h
    rw [List.mem_singleton.mp ha, FeedAction.feed]
  | pairs =>
    obtain ⟨t, rfl⟩ := exists_of_map_eq_ok h
    rw [List.mem_singleton.mp ha, FeedAction.feed]
  | prices =>
    obtain ⟨t, rfl⟩ := exists_of_map_eq_ok h
    exact feed_of_mem_ofPrices ha
  | blacklist =>
    obtain ⟨addresses, rfl⟩ := exists_of_map_eq_ok h
    obtain ⟨x, -, rfl⟩ := List.mem_map.mp ha
    rfl

theorem State.feed_of_mem_receive {settings : Settings} {feed : Feed} {w : State} {a : FeedAction}
    (h : a ∈ (receive settings feed w).2.1) : a.feed = feed := by
  simp only [receive] at h
  split at h
  · cases h
  · split at h
    · cases h
    · next hbody => exact FeedAction.feed_of_mem_ofBody hbody h

structure Session where
  machine : Machine State FeedAction
  pending : List Pending

namespace Session

inductive Event where
  | move (v : Machine.Move)
  | start
  | stop
  | call (feed : Feed)
  | collect (id : TaskId)
  | upstream (replies : List (String × Except MakerError Json)) (delays : List (String × Nat))
  | quote (src dest : String) (amounts : List Units) (side : SwapSide)
      (limit : Option (List String))
  | look (pair : String) (side : BookSide)
  | inquire (address : String)
  | request (swap : Swap)
  | reply (n : Nat) (clock : UInt64)

def Event.asks : Event → Bool
  | .start | .call _ => true
  | _ => false

def initial (verifier : Verifier) : Session := ⟨.initial (.initial verifier), []⟩

def desk (settings : Settings) (s : Session) : Desk := ⟨settings, ⟨s.machine, []⟩⟩

def withMachine (s : Session) (m : Machine State FeedAction) : Session := { s with machine := m }

def withState (s : Session) (w : State) : Session := s.withMachine (s.machine.mapWorld fun _ => w)

def step (settings : Settings) (s : Session) : Event → Session
  | .move v => s.withMachine (s.machine.move settings.behaviour v)
  | .start => s.withMachine (s.desk settings).start.runner.machine
  | .stop => s.withMachine (s.desk settings).stop.runner.machine
  | .call feed => s.withMachine (s.machine.spawn feed false)
  | .collect id => s.withMachine (s.machine.collect id)
  | .upstream replies delays =>
    s.withMachine (s.machine.mapWorld fun w => { w with maker := { w.maker with replies, delays } })
  | .quote src dest amounts side limit =>
    s.withMachine ((s.desk settings).prices src dest amounts side limit).2.runner.machine
  | .look pair side => s.withMachine ((s.desk settings).orderBook pair side).2.runner.machine
  | .inquire address => s.withMachine ((s.desk settings).isDenied address).2.runner.machine
  | .request swap =>
    match swap.start settings s.machine.world s.machine.now with
    | (.error _, w) => s.withState w
    | (.ok p, w) => { s.withState w with pending := s.pending ++ [p] }
  | .reply n clock =>
    match s.pending[n]? with
    | none => s
    | some p =>
      { s.withState (p.complete settings s.machine.world s.machine.now clock).2 with
        pending := s.pending.eraseIdx n }

def run (settings : Settings) (s : Session) (es : List Event) : Session :=
  es.foldl (step settings) s

variable {settings : Settings} {s : Session}

@[simp] theorem run_nil (settings : Settings) (s : Session) : s.run settings [] = s := rfl

@[simp] theorem run_cons (settings : Settings) (s : Session) (e : Event) (es : List Event) :
    s.run settings (e :: es) = (s.step settings e).run settings es := rfl

@[simp] theorem run_append (settings : Settings) (s : Session) (es fs : List Event) :
    s.run settings (es ++ fs) = (s.run settings es).run settings fs := List.foldl_append

theorem run_moves (settings : Settings) (s : Session) (vs : List Machine.Move) :
    s.run settings (vs.map .move) =
      s.withMachine (s.machine.run settings.behaviour (vs.map .move)) := by
  induction vs generalizing s with
  | nil => rfl
  | cons v vs ih => exact ih (s.withMachine (s.machine.move settings.behaviour v))

theorem step_request_error {swap : Swap} {e : PrepareError} {w : State}
    (h : swap.start settings s.machine.world s.machine.now = (.error e, w)) :
    s.step settings (.request swap) = s.withState w := by
  simp only [step, h]

theorem step_request_ok {swap : Swap} {p : Pending} {w : State}
    (h : swap.start settings s.machine.world s.machine.now = (.ok p, w)) :
    s.step settings (.request swap) = { s.withState w with pending := s.pending ++ [p] } := by
  simp only [step, h]

theorem foldl_start (b : Behaviour State FeedAction) (m : Machine State FeedAction)
    (feeds : List Feed) : feeds.foldl Machine.start m = m.run b (feeds.map .start) := by
  induction feeds generalizing m with
  | nil => rfl
  | cons f feeds ih => exact ih (m.start f)

theorem foldl_stop (b : Behaviour State FeedAction) (m : Machine State FeedAction)
    (feeds : List Feed) : feeds.foldl Machine.stop m = m.run b (feeds.map .stop) := by
  induction feeds generalizing m with
  | nil => rfl
  | cons f feeds ih => exact ih (m.stop f)

/-- A change of the machine asks for cycles and moves tasks only where the event of the session does. -/
structure Event.Allows (e : Event) (x : Machine.Event State) : Prop where
  asks : e.asks = false → x.asks = false
  moves : ∀ id, x = .move (.advance id) → e = .move (.advance id)

theorem exists_step_run (settings : Settings) (s : Session) (e : Event) :
    ∃ es, (s.step settings e).machine = s.machine.run settings.behaviour es ∧
      ∀ x ∈ es, e.Allows x := by
  have of_one : ∀ x : Machine.Event State, e.Allows x →
      ∃ es, s.machine.step settings.behaviour x = s.machine.run settings.behaviour es ∧
        ∀ x ∈ es, e.Allows x :=
    fun x hx => ⟨[x], rfl, fun y hy => List.mem_singleton.mp hy ▸ hx⟩
  have of_state : ∀ w, ∃ es,
      (s.withState w).machine = s.machine.run settings.behaviour es ∧ ∀ x ∈ es, e.Allows x :=
    fun w => of_one (.work fun _ => w) ⟨fun _ => rfl, nofun⟩
  have of_same : ∃ es, s.machine = s.machine.run settings.behaviour es ∧ ∀ x ∈ es, e.Allows x :=
    ⟨[], rfl, nofun⟩
  cases e with
  | move v => exact of_one (.move v) ⟨fun _ => rfl, fun id hx => by cases hx; rfl⟩
  | start =>
    change ∃ es, (s.desk settings).start.runner.machine = _ ∧ _
    unfold Desk.start
    split
    · exact of_same
    · refine ⟨_, foldl_start _ _ _, fun x hx => ?_⟩
      obtain ⟨feed, -, rfl⟩ := List.mem_map.mp hx
      exact ⟨nofun, nofun⟩
  | stop =>
    refine ⟨_, foldl_stop _ _ _, fun x hx => ?_⟩
    obtain ⟨feed, -, rfl⟩ := List.mem_map.mp hx
    exact ⟨fun _ => rfl, nofun⟩
  | call feed => exact of_one (.call feed) ⟨nofun, nofun⟩
  | collect id => exact of_one (.collect id) ⟨fun _ => rfl, nofun⟩
  | upstream replies delays =>
    exact of_state { s.machine.world with maker := { s.machine.world.maker with replies, delays } }
  | quote src dest amounts side limit =>
    exact of_state ((s.desk settings).prices src dest amounts side limit).2.state
  | look pair side =>
    change ∃ es, ((s.desk settings).orderBook pair side).2.runner.machine = _ ∧ _
    unfold Desk.orderBook
    split
    · exact of_same
    · exact of_state _
  | inquire address => exact of_state ((s.desk settings).isDenied address).2.state
  | request swap =>
    simp only [step]
    split <;> exact of_state _
  | reply n clock =>
    simp only [step]
    split
    · exact of_same
    · exact of_state _

theorem consistent_step (h : Machine.Consistent settings.behaviour s.machine) (e : Event) :
    Machine.Consistent settings.behaviour (s.step settings e).machine := by
  obtain ⟨es, hes, -⟩ := exists_step_run settings s e
  rw [hes]
  exact h.run es

theorem consistent_run (h : Machine.Consistent settings.behaviour s.machine) (es : List Event) :
    Machine.Consistent settings.behaviour (s.run settings es).machine := by
  induction es generalizing s with
  | nil => exact h
  | cons e es ih => exact ih (consistent_step h e)

theorem consistent_initial (settings : Settings) (verifier : Verifier) (es : List Event) :
    Machine.Consistent settings.behaviour ((initial verifier).run settings es).machine :=
  consistent_run (.initial _) es

end Session

namespace Desk

inductive Operation where
  | start
  | stop
  | sleep (ms : Nat)
  | refresh
  | upstream (replies : List (String × Except MakerError Json)) (delays : List (String × Nat))
  | prices (src dest : String) (amounts : List Units) (side : SwapSide)
      (limit : Option (List String))
  | orderBook (pair : String) (side : BookSide)
  | isDenied (address : String)
  | prepare (swap : Swap) (clock : UInt64)

def after (d : Desk) : Operation → Desk
  | .start => d.start
  | .stop => d.stop
  | .sleep ms => d.sleep ms
  | .refresh => d.refresh.2
  | .upstream replies delays =>
    d.mapState fun w => { w with maker := { w.maker with replies, delays } }
  | .prices src dest amounts side limit => (d.prices src dest amounts side limit).2
  | .orderBook pair side => (d.orderBook pair side).2
  | .isDenied address => (d.isDenied address).2
  | .prepare swap clock => (d.prepare swap clock).2

def session (d : Desk) : Session := ⟨d.runner.machine, []⟩

def Leads (d d' : Desk) : Prop :=
  d'.settings = d.settings ∧ ∃ es, d.session.run d.settings es = d'.session

variable {d d' d'' : Desk}

theorem Leads.refl (d : Desk) : d.Leads d := ⟨rfl, [], rfl⟩

theorem Leads.trans (h : d.Leads d') (h' : d'.Leads d'') : d.Leads d'' := by
  obtain ⟨hset, es, hes⟩ := h
  obtain ⟨hset', es', hes'⟩ := h'
  refine ⟨hset'.trans hset, es ++ es', ?_⟩
  rw [Session.run_append, hes, ← hset, hes']

theorem leads_moves {runner : Runner State FeedAction}
    (h : Machine.Moves d.settings.behaviour d.runner.machine runner.machine) :
    d.Leads { d with runner } := by
  obtain ⟨vs, hvs⟩ := h
  refine ⟨rfl, vs.map .move, ?_⟩
  rw [Session.run_moves]
  exact congrArg (Session.mk · []) hvs

theorem leads_sleep (d : Desk) (ms : Nat) : d.Leads (d.sleep ms) :=
  leads_moves (Runner.sleep_moves d.settings.behaviour d.runner ms)

theorem leads_call (d : Desk) (feed : Feed) :
    d.Leads { d with runner := (d.runner.call d.settings.behaviour feed).2 } := by
  obtain ⟨vs, last, hlast, hrun⟩ := Runner.call_run d.settings.behaviour d.runner feed
  have hcalled : (d.session.run d.settings (.call feed :: vs.map .move)).machine =
      d.runner.machine.run d.settings.behaviour (.call feed :: vs.map .move) := by
    rw [Session.run_cons, Session.run_moves]
    rfl
  have hpending : (d.session.run d.settings (.call feed :: vs.map .move)).pending = [] := by
    rw [Session.run_cons, Session.run_moves]
    rfl
  generalize hs : d.session.run d.settings (.call feed :: vs.map .move) = s at hcalled hpending
  rcases hlast with rfl | rfl
  · rw [List.append_nil] at hrun
    exact ⟨rfl, .call feed :: vs.map .move, by rw [hs, session, hrun, ← hcalled, ← hpending]⟩
  · refine ⟨rfl, .call feed :: vs.map .move ++ [.collect d.runner.machine.fresh], ?_⟩
    rw [Session.run_append, hs, session, hrun, Machine.run_append, ← hcalled, ← hpending]
    rfl

theorem leads_cycleAll (d : Desk) (feeds : List Feed) : d.Leads (d.cycleAll feeds).2 := by
  induction feeds generalizing d with
  | nil => exact .refl d
  | cons feed rest ih =>
    exact (leads_call d feed).trans (ih { d with
      runner := (d.runner.call d.settings.behaviour feed).2 })

theorem leads_prepare (d : Desk) (swap : Swap) (clock : UInt64) :
    d.Leads (d.prepare swap clock).2 := by
  unfold Desk.prepare
  cases hstart : swap.start d.settings d.state d.now with
  | mk answer w =>
    cases answer with
    | error e => exact ⟨rfl, [.request swap], Session.step_request_error hstart⟩
    | ok p =>
      have hrequest := Session.step_request_ok (s := d.session) hstart
      obtain ⟨vs, hvs⟩ := Runner.sleep_moves d.settings.behaviour (d.withState w).runner
        (w.maker.delayAt d.settings.firmUrl)
      refine ⟨rfl, .request swap :: vs.map .move ++ [.reply 0 clock], ?_⟩
      rw [List.cons_append, Session.run_cons, hrequest, Session.run_append, Session.run_moves]
      change Session.step d.settings ⟨(d.withState w).runner.machine.run d.settings.behaviour
        (vs.map .move), [p]⟩ (.reply 0 clock) = _
      rw [hvs]
      rfl

theorem leads_start (d : Desk) : d.Leads d.start := by
  have hstep : d.session.step d.settings .start = (d.session.desk d.settings).start.session := rfl
  refine ⟨?_, [.start], hstep.trans ?_⟩
  · unfold Desk.start
    split <;> rfl
  · have hreplica : (d.session.desk d.settings).settings.isReplica = d.settings.isReplica := rfl
    cases h : d.settings.isReplica with
    | true => simp only [Desk.start, hreplica, h]; rfl
    | false => simp only [Desk.start, hreplica, h]; rfl

theorem leads_orderBook (d : Desk) (pair : String) (side : BookSide) :
    d.Leads (d.orderBook pair side).2 := by
  have hstep : d.session.step d.settings (.look pair side) =
      ((d.session.desk d.settings).orderBook pair side).2.session := rfl
  have hlegs : (d.session.desk d.settings).legsOf pair = d.legsOf pair := rfl
  refine ⟨?_, [.look pair side], hstep.trans ?_⟩
  · unfold Desk.orderBook
    split <;> rfl
  · cases hd : d.legsOf pair with
    | error e => simp only [Desk.orderBook, hlegs, hd]; rfl
    | ok legs => simp only [Desk.orderBook, hlegs, hd]; rfl

/-- Whatever a desk is asked to do, one thing after the other, is a session. -/
theorem leads_after (d : Desk) (ops : List Operation) : d.Leads (ops.foldl after d) := by
  induction ops generalizing d with
  | nil => exact .refl d
  | cons op ops ih =>
    refine Leads.trans ?_ (ih (d.after op))
    cases op with
    | start => exact leads_start d
    | stop => exact ⟨rfl, [.stop], rfl⟩
    | sleep ms => exact leads_sleep d ms
    | refresh => exact leads_cycleAll d _
    | upstream replies delays => exact ⟨rfl, [.upstream replies delays], rfl⟩
    | prices src dest amounts side limit =>
      exact ⟨rfl, [.quote src dest amounts side limit], rfl⟩
    | orderBook pair side => exact leads_orderBook d pair side
    | isDenied address => exact ⟨rfl, [.inquire address], rfl⟩
    | prepare swap clock => exact leads_prepare d swap clock

end Desk
end QuoteDesk
