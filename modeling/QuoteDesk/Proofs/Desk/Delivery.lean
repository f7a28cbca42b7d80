import QuoteDesk.Proofs.Cache.Latest
import QuoteDesk.Proofs.Desk.Cached
import QuoteDesk.Proofs.Feed.Prompt
/-!
Which book a look-up finds. Every accepted payload of prices is a delivery, with the directories as they
were when it came. A look-up answers the side that the latest delivery to have that side for the two
addresses brought, until its time is over: neither empty sides nor names without known tokens nor
failed cycles nor anything that is no delivery counts.
-/
namespace QuoteDesk

structure Delivery where
  time : Nat
  tokens : TokenDirectory
  pairs : PairDirectory
  listing : Table TwoSided

namespace Delivery

/-- Whether a name is listed as a pair of two known tokens at exactly these addresses. -/
def names (d : Delivery) (base quote name : String) : Bool :=
  match d.pairs.named? name with
  | none => false
  | some p =>
    match d.tokens.ofSymbol? p.base, d.tokens.ofSymbol? p.quote with
    | some x, some y => x.address == base && y.address == quote
    | _, _ => false

/-- The side that is delivered for two addresses, never an empty one; of several names that stand for
them the last in order counts. -/
def book? (d : Delivery) (base quote : String) (side : BookSide) : Option Book :=
  ((d.listing.entries.filter fun e => d.names base quote e.1 && !(e.2.side side).isEmpty).map
    (·.2.side side)).getLast?

def timedBook? (d : Delivery) (base quote : String) (side : BookSide) : Option (Nat × Book) :=
  (d.book? base quote side).map (d.time, ·)

/-- The side that was delivered last for two addresses, and when. -/
def latest? (ds : List Delivery) (base quote : String) (side : BookSide) : Option (Nat × Book) :=
  (ds.filterMap (·.timedBook? base quote side)).getLast?

theorem latest?_append (ds ds' : List Delivery) (base quote : String) (side : BookSide) :
    latest? (ds ++ ds') base quote side =
      (latest? ds' base quote side).or (latest? ds base quote side) := by
  rw [latest?, List.filterMap_append, List.getLast?_append]
  rfl

theorem latest?_toList (d : Option Delivery) (base quote : String) (side : BookSide) :
    latest? d.toList base quote side = d.bind (·.timedBook? base quote side) := by
  cases d with
  | none => rfl
  | some d =>
    simp only [latest?, Option.toList_some, List.filterMap_cons, List.filterMap_nil,
      Option.bind_some]
    cases d.timedBook? base quote side <;> rfl

theorem names_eq (d : Delivery) (base quote name : String) : d.names base quote name =
    (((d.pairs.named? name).bind d.tokens.legs?).map fun legs =>
      legs.1.address == base && legs.2.address == quote).getD false := by
  unfold names
  cases d.pairs.named? name with
  | none => rfl
  | some p =>
    simp only [Option.bind_some, TokenDirectory.legs?]
    cases d.tokens.ofSymbol? p.base with
    | none => rfl
    | some x => cases d.tokens.ofSymbol? p.quote <;> rfl

end Delivery

theorem flatMap_ite {α β : Type} (p : α → Bool) (f : α → β) (xs : List α) :
    (xs.flatMap fun x => if p x = true then [f x] else []) = (xs.filter p).map f := by
  induction xs with
  | nil => rfl
  | cons x xs ih =>
    rw [List.flatMap_cons, ih, List.filter_cons]
    split <;> rfl

theorem getLast?_filterMap_cons {α β : Type} (f : α → Option β) (x : α) (xs : List α) :
    ((x :: xs).filterMap f).getLast? = ((xs.filterMap f).getLast?).or (f x) := by
  rw [List.filterMap_cons]
  cases f x with
  | none => exact Option.or_none.symm
  | some y =>
    rw [List.getLast?_cons]
    cases (xs.filterMap f).getLast? <;> rfl

namespace FeedAction

def written? (base quote : String) (side : BookSide) : FeedAction → Option Book
  | .publish base' quote' side' b =>
    if base' = base ∧ quote' = quote ∧ side' = side then some b else none
  | _ => none

variable {base quote : String} {side : BookSide}

theorem written?_eq_some_iff {a : FeedAction} {b : Book} :
    a.written? base quote side = some b ↔ a = .publish base quote side b := by
  cases a with
  | publish x y side' b' => simp [written?, and_assoc]
  | _ => simp [written?]

theorem written?_publishSides (x y : Token) (b : TwoSided) :
    (publishSides x y b).filterMap (written? base quote side) =
      if (x.address == base && y.address == quote && !(b.side side).isEmpty) = true
      then [b.side side] else [] := by
  have hside : ∀ side', (if (b.side side').isEmpty then none
      else some (FeedAction.publish x.address y.address side' (b.side side'))).bind
        (written? base quote side) =
      if side' = side ∧ (x.address == base && y.address == quote && !(b.side side).isEmpty) = true
      then some (b.side side) else none := by
    intro side'
    by_cases hs : side' = side
    · subst hs
      cases (b.side side').isEmpty <;> simp [written?]
    · cases (b.side side').isEmpty <;> simp [written?, hs]
  rw [publishSides, List.filterMap_filterMap]
  simp only [List.filterMap_cons, List.filterMap_nil, hside]
  generalize (x.address == base && y.address == quote && !(b.side side).isEmpty) = hit
  cases side <;> cases hit <;> simp

theorem ofPrices_eq (w : State) (t : Table TwoSided) : ofPrices w t =
    t.entries.flatMap fun e => (((w.pairs.named? e.1).bind w.tokens.legs?).map fun legs =>
      publishSides legs.1 legs.2 e.2).getD [] := by
  unfold ofPrices
  congr 1
  funext e
  cases (w.pairs.named? e.1).bind w.tokens.legs? <;> rfl

theorem filterMap_written?_ofPrices (w : State) (t : Table TwoSided) (now : Nat) :
    ((ofPrices w t).filterMap (written? base quote side)).getLast? =
      (Delivery.mk now w.tokens w.pairs t).book? base quote side := by
  have hentry : ∀ e : String × TwoSided,
      ((((w.pairs.named? e.1).bind w.tokens.legs?).map fun legs =>
        publishSides legs.1 legs.2 e.2).getD []).filterMap (written? base quote side) =
      if ((Delivery.mk now w.tokens w.pairs t).names base quote e.1 &&
        !(e.2.side side).isEmpty) = true then [e.2.side side] else [] := by
    intro e
    rw [Delivery.names_eq]
    cases (w.pairs.named? e.1).bind w.tokens.legs? with
    | none => rfl
    | some legs => exact written?_publishSides legs.1 legs.2 e.2
  rw [ofPrices_eq, List.filterMap_flatMap]
  simp only [hentry, flatMap_ite]
  rfl

end FeedAction

namespace State

variable {settings : Settings} {w : State} {base quote : String} {side : BookSide} {now : Nat}
  {latest : Option (Nat × Book)}

def delivers? (settings : Settings) (w : State) (base quote : String) (side : BookSide)
    (now : Nat) : Feed → Option Book
  | .prices => (settings.priced? w).bind fun t =>
    (Delivery.mk now w.tokens w.pairs t).book? base quote side
  | _ => none

theorem getLast?_written? (settings : Settings) (feed : Feed) (w : State) (now : Nat) :
    (((receive settings feed w).2.1).filterMap (FeedAction.written? base quote side)).getLast? =
      delivers? settings w base quote side now feed := by
  by_cases hfeed : feed = .prices
  · subst hfeed
    rw [receive_prices]
    cases ht : settings.priced? w with
    | none => simp [delivers?, ht]
    | some t =>
      simp only [Option.map_some, Option.getD_some, delivers?, ht, Option.bind_some]
      exact FeedAction.filterMap_written?_ofPrices w t now
  · have hnone : ((receive settings feed w).2.1).filterMap
        (FeedAction.written? base quote side) = [] := by
      refine List.filterMap_eq_nil_iff.mpr fun a ha => ?_
      have hown := feed_of_mem_receive ha
      cases a with
      | publish base' quote' side' b => exact absurd hown.symm hfeed
      | _ => rfl
    rw [hnone]
    cases feed with
    | prices => exact absurd rfl hfeed
    | _ => rfl

theorem reflects_perform (hbase : Address.IsCanonical base) (hquote : Address.IsCanonical quote)
    (h : w.cache.Reflects (settings.scope.bookKey base quote side) settings.bookLifetime now latest)
    {a : FeedAction} (ha : ∀ x y side' b, a = .publish x y side' b →
      Address.IsCanonical x ∧ Address.IsCanonical y) :
    (a.perform settings now w).cache.Reflects (settings.scope.bookKey base quote side)
      settings.bookLifetime now (((a.written? base quote side).map (now, ·)).or latest) := by
  have hkey := settings.scope.bookKey_ne_blacklistKey base quote side
  cases a with
  | replaceTokens d => exact h
  | replacePairs d => exact h
  | deny address => exact h.visit hkey (.deny address)
  | publish x y side' b =>
    obtain ⟨hx, hy⟩ := ha x y side' b rfl
    have hsame : settings.scope.bookKey x y side' = settings.scope.bookKey base quote side ↔
        x = base ∧ y = quote ∧ side' = side := settings.scope.bookKey_inj hx hbase hy hquote
    simp only [FeedAction.written?]
    by_cases hlegs : x = base ∧ y = quote ∧ side' = side
    · rw [if_pos hlegs]
      refine .inl ?_
      change ((w.cache.slots.insert _ _).find? _) = _
      rw [Table.find?_insert, if_pos (hsame.mpr hlegs)]
    · rw [if_neg hlegs]
      refine h.of_find?_eq ?_
      exact Cache.find?_put now settings.bookLifetime b.write fun heq => hlegs (hsame.mp heq)

theorem reflects_foldl (hbase : Address.IsCanonical base) (hquote : Address.IsCanonical quote)
    {todo : List FeedAction} (htodo : ∀ x y side' b, .publish x y side' b ∈ todo →
      Address.IsCanonical x ∧ Address.IsCanonical y)
    (h : w.cache.Reflects (settings.scope.bookKey base quote side) settings.bookLifetime now
      latest) :
    (todo.foldl (fun w a => a.perform settings now w) w).cache.Reflects
      (settings.scope.bookKey base quote side) settings.bookLifetime now
      (((todo.filterMap (FeedAction.written? base quote side)).getLast?.map (now, ·)).or latest) := by
  -- on the actions: each of them writes over what those before it have left
  induction todo generalizing w latest with
  | nil => exact h
  | cons a todo ih =>
    have hfirst := reflects_perform hbase hquote h (a := a) fun x y side' b hab =>
      htodo x y side' b (hab ▸ List.mem_cons_self)
    have hrest := ih (fun x y side' b hmem => htodo x y side' b (List.mem_cons_of_mem a hmem)) hfirst
    rw [List.foldl_cons, getLast?_filterMap_cons, Option.map_or, Option.or_assoc]
    exact hrest

theorem canonical_foldl {feed : Feed} {w' : State} (h : w.tokens.IsCanonical)
    {todo : List FeedAction} (htodo : ∀ a ∈ todo, a ∈ (receive settings feed w').2.1) :
    (todo.foldl (fun w a => a.perform settings now w) w).tokens.IsCanonical := by
  induction todo generalizing w with
  | nil => exact h
  | cons a todo ih =>
    exact ih (canonical_perform h (htodo a List.mem_cons_self) now)
      fun x hx => htodo x (List.mem_cons_of_mem a hx)

theorem canonical_cycle (h : w.tokens.IsCanonical) (feed : Feed) (now : Nat) :
    (settings.behaviour.cycle feed now w).tokens.IsCanonical := by
  have hw : (receive settings feed w).2.2.tokens.IsCanonical :=
    (receive_keeps settings feed w).1.symm ▸ h
  exact canonical_foldl hw fun a ha => ha

/-- A cycle brings what it delivers and leaves the rest of the key alone. -/
theorem reflects_cycle (hbase : Address.IsCanonical base) (hquote : Address.IsCanonical quote)
    (hw : w.tokens.IsCanonical)
    (h : w.cache.Reflects (settings.scope.bookKey base quote side) settings.bookLifetime now latest)
    (feed : Feed) :
    (settings.behaviour.cycle feed now w).cache.Reflects (settings.scope.bookKey base quote side)
      settings.bookLifetime now
      (((delivers? settings w base quote side now feed).map (now, ·)).or latest) := by
  have hreceived : (receive settings feed w).2.2.cache.Reflects
      (settings.scope.bookKey base quote side) settings.bookLifetime now latest :=
    (receive_keeps settings feed w).2.2.symm ▸ h
  have hlegs : ∀ x y side' b, .publish x y side' b ∈ (receive settings feed w).2.1 →
      Address.IsCanonical x ∧ Address.IsCanonical y :=
    fun x y side' b hmem => canonical_of_publish hw hmem
  have hall := reflects_foldl hbase hquote hlegs hreceived
  rw [getLast?_written? settings feed w now] at hall
  exact hall

end State

namespace Session

open Machine

variable {settings : Settings} {s : Session} {base quote : String} {side : BookSide}
  {latest : Option (Nat × Book)}

/-- An event, each cycle handled promptly. -/
def promptStep (settings : Settings) (s : Session) : Event → Session
  | .move (.advance id) => s.withMachine (s.machine.react settings.behaviour id)
  | e => s.step settings e

/-- A session whose cycles are handled promptly: nothing comes between the reply of a cycle and its
end, while requests take their time and cycles, requests and the clock go on in any order. -/
def promptRun (settings : Settings) (s : Session) (es : List Event) : Session :=
  es.foldl (promptStep settings) s

@[simp] theorem promptRun_nil (settings : Settings) (s : Session) :
    s.promptRun settings [] = s := rfl

@[simp] theorem promptRun_cons (settings : Settings) (s : Session) (e : Event) (es : List Event) :
    s.promptRun settings (e :: es) = (s.promptStep settings e).promptRun settings es := rfl

theorem promptRun_append (settings : Settings) (s : Session) (es fs : List Event) :
    s.promptRun settings (es ++ fs) = (s.promptRun settings es).promptRun settings fs :=
  List.foldl_append

theorem promptStep_other {e : Event} (he : ∀ id, e ≠ .move (.advance id)) :
    s.promptStep settings e = s.step settings e := by
  unfold promptStep
  split
  · next id => exact absurd rfl (he id)
  · rfl

theorem exists_run_promptStep (settings : Settings) (s : Session) (e : Event) :
    ∃ es, s.promptStep settings e = s.run settings es := by
  by_cases he : ∃ id, e = .move (.advance id)
  · obtain ⟨id, rfl⟩ := he
    obtain ⟨n, hn⟩ := exists_run_react settings.behaviour s.machine id
    refine ⟨(List.replicate n (.advance id)).map .move, ?_⟩
    rw [run_moves, List.map_replicate, ← hn]
    rfl
  · exact ⟨[e], promptStep_other fun id hid => he ⟨id, hid⟩⟩

theorem exists_run_promptRun (settings : Settings) (s : Session) (es : List Event) :
    ∃ es', s.promptRun settings es = s.run settings es' := by
  induction es generalizing s with
  | nil => exact ⟨[], rfl⟩
  | cons e es ih =>
    obtain ⟨first, hfirst⟩ := exists_run_promptStep settings s e
    obtain ⟨rest, hrest⟩ := ih (s.promptStep settings e)
    exact ⟨first ++ rest, by rw [promptRun_cons, hrest, hfirst, run_append]⟩

def delivered? (settings : Settings) (s : Session) : Event → Option Delivery
  | .move (.advance id) =>
    if s.machine.receives? id = some .prices then
      (settings.priced? s.machine.world).map
        (⟨s.machine.now, s.machine.world.tokens, s.machine.world.pairs, ·⟩)
    else none
  | _ => none

theorem delivered?_eq_some_iff {id : TaskId} {d : Delivery} :
    s.delivered? settings (.move (.advance id)) = some d ↔
      s.machine.receives? id = some .prices ∧ ∃ t, settings.priced? s.machine.world = some t ∧
        d = ⟨s.machine.now, s.machine.world.tokens, s.machine.world.pairs, t⟩ := by
  simp only [delivered?, Option.ite_none_right_eq_some, Option.map_eq_some_iff, eq_comm (b := d)]

def deliveries (settings : Settings) (s : Session) : List Event → List Delivery
  | [] => []
  | e :: es => (s.delivered? settings e).toList ++ (s.promptStep settings e).deliveries settings es

/-- No cycle is under way, tokens have their addresses in normal form, and the key of a side holds
what the latest book has left. -/
structure Follows (settings : Settings) (base quote : String) (side : BookSide) (s : Session)
    (latest : Option (Nat × Book)) : Prop where
  idle : ∀ k, s.machine.todo k = []
  canonical : s.machine.world.tokens.IsCanonical
  slot : s.machine.world.cache.Reflects (settings.scope.bookKey base quote side)
    settings.bookLifetime s.machine.now latest

theorem follows_initial (settings : Settings) (verifier : Verifier) (base quote : String)
    (side : BookSide) : Follows settings base quote side (initial verifier) none :=
  ⟨fun _ => rfl, TokenDirectory.isCanonical_empty, rfl⟩

theorem Follows.aside (h : Follows settings base quote side s latest) {s' : Session}
    (ha : Aside settings s s') : Follows settings base quote side s' latest where
  idle k := (ha.todo k).trans (h.idle k)
  canonical := ha.world.tokens.symm ▸ h.canonical
  slot := (h.slot.visit (settings.scope.bookKey_ne_blacklistKey base quote side)
    ha.world.cache).later ha.now

theorem Follows.received (h : Follows settings base quote side s latest)
    (hbase : Address.IsCanonical base) (hquote : Address.IsCanonical quote) {id : TaskId}
    {feed : Feed} (hr : s.machine.receives? id = some feed) :
    Follows settings base quote side (s.promptStep settings (.move (.advance id)))
      (((State.delivers? settings s.machine.world base quote side s.machine.now feed).map
        (s.machine.now, ·)).or latest) := by
  have hcycled := cycled_react (b := settings.behaviour) (fun _ => rfl) hr
  change Follows settings base quote side
    (s.withMachine (s.machine.react settings.behaviour id)) _
  refine ⟨fun k => ?_, ?_, ?_⟩
  · by_cases hk : k = id
    · exact hk ▸ hcycled.idle
    · exact (hcycled.others k hk).trans (h.idle k)
  · change (s.machine.react settings.behaviour id).world.tokens.IsCanonical
    rw [hcycled.world]
    exact State.canonical_cycle h.canonical feed _
  · change (s.machine.react settings.behaviour id).world.cache.Reflects _ _
      (s.machine.react settings.behaviour id).now _
    rw [hcycled.world, now_react]
    exact State.reflects_cycle hbase hquote h.canonical h.slot feed

theorem Follows.silent (h : Follows settings base quote side s latest) {id : TaskId}
    (hr : s.machine.receives? id = none) :
    Follows settings base quote side (s.promptStep settings (.move (.advance id))) latest := by
  have hreact : s.machine.react settings.behaviour id = s.machine.advance settings.behaviour id := by
    simp only [react, hr]
  obtain ⟨hothers, heffect⟩ := advance_effect settings.behaviour s.machine id
  have hnow := now_advance settings.behaviour s.machine id
  change Follows settings base quote side
    (s.withMachine (s.machine.react settings.behaviour id)) latest
  rw [hreact]
  generalize s.machine.advance settings.behaviour id = m' at hothers heffect hnow
  have of_world : m'.todo id = s.machine.todo id →
      m'.world.tokens = s.machine.world.tokens → m'.world.cache = s.machine.world.cache →
      Follows settings base quote side (s.withMachine m') latest := by
    intro htodo htokens hcache
    refine ⟨fun k => ?_, htokens.symm ▸ h.canonical, ?_⟩
    · by_cases hk : k = id
      · exact hk ▸ htodo.trans (h.idle id)
      · exact (hothers k hk).trans (h.idle k)
    · have hslot : m'.world.cache.slots.find? (settings.scope.bookKey base quote side) =
          s.machine.world.cache.slots.find? (settings.scope.bookKey base quote side) := by rw [hcache]
      exact (h.slot.of_find?_eq hslot).later hnow.ge
  cases heffect with
  | still _ htodo hworld => exact of_world htodo (hworld ▸ rfl) (hworld ▸ rfl)
  | settled _ htodo hworld => exact of_world htodo (hworld ▸ rfl) (hworld ▸ rfl)
  | received hsome => cases hr.symm.trans hsome
  | performed _ htodo => cases (h.idle id).symm.trans htodo

theorem delivered?_of_receives {id : TaskId} {feed : Feed}
    (hr : s.machine.receives? id = some feed) :
    (s.delivered? settings (.move (.advance id))).bind (·.timedBook? base quote side) =
      (State.delivers? settings s.machine.world base quote side s.machine.now feed).map
        (s.machine.now, ·) := by
  by_cases hfeed : feed = .prices
  · subst hfeed
    simp only [delivered?, hr, if_true, State.delivers?]
    cases settings.priced? s.machine.world <;> rfl
  · have hnone : s.delivered? settings (.move (.advance id)) = none := by
      simp [delivered?, hr, hfeed]
    rw [hnone]
    cases feed with
    | prices => exact absurd rfl hfeed
    | _ => rfl

theorem Follows.step (h : Follows settings base quote side s latest)
    (hbase : Address.IsCanonical base) (hquote : Address.IsCanonical quote) (e : Event) :
    Follows settings base quote side (s.promptStep settings e)
      (((s.delivered? settings e).bind (·.timedBook? base quote side)).or latest) := by
  by_cases he : ∃ id, e = .move (.advance id)
  · obtain ⟨id, rfl⟩ := he
    cases hr : s.machine.receives? id with
    | none =>
      have hnone : s.delivered? settings (.move (.advance id)) = none := by simp [delivered?, hr]
      rw [hnone]
      exact h.silent hr
    | some feed =>
      rw [delivered?_of_receives hr]
      exact h.received hbase hquote hr
  · have hother : ∀ id, e ≠ .move (.advance id) := fun id hid => he ⟨id, hid⟩
    have hnone : s.delivered? settings e = none := by
      unfold delivered?
      split
      · next id => exact absurd rfl (hother id)
      · rfl
    rw [hnone, promptStep_other hother]
    exact h.aside (aside_step settings s e hother)

theorem Follows.run (h : Follows settings base quote side s latest)
    (hbase : Address.IsCanonical base) (hquote : Address.IsCanonical quote) (es : List Event) :
    Follows settings base quote side (s.promptRun settings es)
      ((Delivery.latest? (s.deliveries settings es) base quote side).or latest) := by
  induction es generalizing s latest with
  | nil => exact h
  | cons e es ih =>
    have hrest := ih (h.step hbase hquote e)
    rw [← Option.or_assoc] at hrest
    rw [promptRun_cons, deliveries, Delivery.latest?_append, Delivery.latest?_toList]
    exact hrest

def bookAt (settings : Settings) (s : Session) (base quote : String) (side : BookSide) :
    Except BookError Book :=
  (s.machine.world.cache.readBook s.machine.now settings.scope base quote side).1

theorem Follows.bookAt_eq (h : Follows settings base quote side s latest) :
    s.bookAt settings base quote side =
      .ok (Cache.shown settings.bookLifetime s.machine.now latest) :=
  h.slot.readBook

theorem Follows.bookAt_step (h : Follows settings base quote side s latest)
    (hbase : Address.IsCanonical base) (hquote : Address.IsCanonical quote) {id : TaskId}
    (hnone : ∀ d, s.delivered? settings (.move (.advance id)) = some d →
      d.book? base quote side = none) (ms : Nat) :
    (s.promptRun settings [.move (.advance id), .move (.elapse ms)]).bookAt settings base quote
        side =
      (s.promptRun settings [.move (.elapse ms)]).bookAt settings base quote side := by
  have hsame : (s.delivered? settings (.move (.advance id))).bind
      (·.timedBook? base quote side) = none := by
    cases hd : s.delivered? settings (.move (.advance id)) with
    | none => rfl
    | some d => simp [Delivery.timedBook?, hnone d hd]
  have hstep := h.step hbase hquote (.move (.advance id))
  rw [hsame, Option.none_or] at hstep
  have hlater := hstep.step hbase hquote (.move (.elapse ms))
  have hlater' := h.step hbase hquote (.move (.elapse ms))
  have hnow : ((s.promptStep settings (.move (.advance id))).promptStep settings
      (.move (.elapse ms))).machine.now =
        (s.promptStep settings (.move (.elapse ms))).machine.now :=
    congrArg (· + ms) (now_react settings.behaviour s.machine id)
  simp only [promptRun_cons, promptRun_nil]
  rw [hlater.bookAt_eq, hlater'.bookAt_eq, hnow]
  rfl

/-- A look at a book answers the side that the latest delivery to have it brought, for as long as books
are kept, and the empty book otherwise. A step of a cycle that does not deliver the side, for it is
empty or its pair or a token is not known or the request or the payload fails, changes no answer now
or later. -/
theorem bookAt_eq_latest (settings : Settings) (verifier : Verifier) (es : List Event)
    {base quote : String} (hbase : Address.IsCanonical base) (hquote : Address.IsCanonical quote)
    (side : BookSide) :
    ((initial verifier).promptRun settings es).bookAt settings base quote side =
      .ok (Cache.shown settings.bookLifetime
        ((initial verifier).promptRun settings es).machine.now
        (Delivery.latest? ((initial verifier).deliveries settings es) base quote side)) ∧
    ∀ id ms,
      (∀ d, ((initial verifier).promptRun settings es).delivered? settings (.move (.advance id)) =
        some d → d.book? base quote side = none) →
      ((initial verifier).promptRun settings
        (es ++ [.move (.advance id), .move (.elapse ms)])).bookAt settings base quote side =
      ((initial verifier).promptRun settings (es ++ [.move (.elapse ms)])).bookAt settings
        base quote side := by
  have hrun := (follows_initial settings verifier base quote side).run hbase hquote es
  rw [Option.or_none] at hrun
  refine ⟨hrun.bookAt_eq, fun id ms hnone => ?_⟩
  rw [promptRun_append, promptRun_append]
  exact hrun.bookAt_step hbase hquote hnone ms

/-- The maker withdraws its bid, and a cycle of the prices is called for. -/
def withdrawal : List Event :=
  .upstream [((Settings.brisk.feedRequest .prices).url, .ok (.object [("prices",
      .object [("A/B", .object [("bids", .array []), ("asks", .array [])])])]))] [] ::
    .call .prices :: List.replicate 3 (.move (.advance 3))

/-- A bid stays for its millisecond, though the maker has withdrawn it. -/
theorem bookAt_eq_latest_withdrawal :
    ((initial (.fixed true [])).promptRun .brisk (opening ++ withdrawal)).bookAt .brisk
        baseAddress quoteAddress .bids =
      .ok [⟨⟨15, 1, by decide, by decide⟩, ⟨2, 0, by decide, by decide⟩⟩] ∧
    ((initial (.fixed true [])).promptRun .brisk
        (opening ++ withdrawal ++ [.move (.elapse 1)])).bookAt .brisk baseAddress quoteAddress
        .bids = .ok [] := by
  have hbase : Address.IsCanonical baseAddress := ⟨by decide +kernel, by decide +kernel⟩
  have hquote : Address.IsCanonical quoteAddress := ⟨by decide +kernel, by decide +kernel⟩
  have hlatest : ∀ es, es = opening ++ withdrawal ∨
        es = opening ++ withdrawal ++ [.move (.elapse 1)] →
      Delivery.latest? ((initial (.fixed true [])).deliveries .brisk es) baseAddress quoteAddress
        .bids = some (0, [⟨⟨15, 1, by decide, by decide⟩, ⟨2, 0, by decide, by decide⟩⟩]) := by
    rintro es (rfl | rfl) <;> decide +kernel
  constructor
  · rw [(bookAt_eq_latest .brisk (.fixed true []) _ hbase hquote .bids).1, hlatest _ (.inl rfl)]
    decide +kernel
  · rw [(bookAt_eq_latest .brisk (.fixed true []) _ hbase hquote .bids).1, hlatest _ (.inr rfl)]
    decide +kernel

end Session
end QuoteDesk
