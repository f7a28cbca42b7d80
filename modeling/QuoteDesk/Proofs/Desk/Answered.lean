import QuoteDesk.Proofs.Desk.Handled
import QuoteDesk.Proofs.Listing.Keyed
/-!
What a delivery of prices is good for. Once its cycle is over, and for as long as books are kept, a
look by name and a quote by addresses both find the side that was delivered, provided that tokens and
pairs stand under keys of their own.
-/
namespace QuoteDesk

/-- What an amount of one token is worth on a book, counted in the other token: nothing where the amount
does not convert, else the output of the book. -/
def Book.Prices (b : Book) (side : BookSide) (fixed free : Token) (amount price : Units) : Prop :=
  match amount.toTokens? fixed.decimals with
  | some tokens => b.output tokens side free.decimals = .ok price
  | none => price = .zero

theorem forall₂_of_mapM_ok {α β ε : Type} {f : α → Except ε β} {xs : List α} {ys : List β}
    (h : xs.mapM f = .ok ys) : List.Forall₂ (fun x y => f x = .ok y) xs ys := by
  induction xs generalizing ys with
  | nil =>
    obtain rfl : [] = ys := Except.ok.inj h
    exact .nil
  | cons x xs ih =>
    rw [List.mapM_cons] at h
    cases hx : f x with
    | error e =>
      rw [hx] at h
      cases h
    | ok y =>
      cases hxs : xs.mapM f with
      | error e =>
        rw [hx, hxs] at h
        cases h
      | ok rest =>
        rw [hx, hxs] at h
        obtain rfl : y :: rest = ys := Except.ok.inj h
        exact .cons hx (ih hxs)

namespace Market

theorem prices_of_priceOf {b : Book} {side : BookSide} {fixed free : Token} {amount price : Units}
    (h : priceOf b side fixed.decimals free.decimals amount = .ok price) :
    b.Prices side fixed free amount price := by
  unfold priceOf at h
  unfold Book.Prices
  cases htokens : amount.toTokens? fixed.decimals with
  | some tokens =>
    rw [htokens] at h
    exact h
  | none =>
    rw [htokens] at h
    exact (Except.ok.inj h).symm

theorem exists_quoteOn (m : Market) (r : Route) (side : SwapSide) {b : Book} (hb : b.IsSound)
    (amounts : List Units) : ∃ q, m.quoteOn r side b amounts = .ok q ∧
      List.Forall₂ (b.Prices (side.bookSide r.srcIsBase) (r.fixedAndFree side).1
        (r.fixedAndFree side).2) amounts q.prices := by
  obtain ⟨q, hq⟩ := m.quoteOn_ok r side hb.isStocked amounts
  refine ⟨q, hq, ?_⟩
  unfold quoteOn at hq
  cases hprices : amounts.mapM (priceOf b (side.bookSide r.srcIsBase)
      (r.fixedAndFree side).1.decimals (r.fixedAndFree side).2.decimals) with
  | error e =>
    simp only [hprices] at hq
    cases hq
  | ok prices =>
    simp only [hprices] at hq
    obtain rfl := Except.ok.inj hq
    exact (forall₂_of_mapM_ok hprices).imp fun _ _ => prices_of_priceOf

theorem exists_prices {m : Market} {cache : Cache} {now : Nat} {src dest : String} {r : Route}
    {side : SwapSide} {b : Book} (hr : m.route? src dest = some r)
    (hread : (cache.readBook now m.scope r.base.address r.quote.address
      (side.bookSide r.srcIsBase)).1 = .ok b) (hne : b ≠ []) (hb : b.IsSound)
    (amounts : List Units) :
    ∃ q, (m.prices cache now src dest amounts side none).1 = .ok (some q) ∧
      List.Forall₂ (b.Prices (side.bookSide r.srcIsBase) (r.fixedAndFree side).1
        (r.fixedAndFree side).2) amounts q.prices := by
  obtain ⟨q, hq, hprices⟩ := m.exists_quoteOn r side hb amounts
  refine ⟨q, ?_, hprices⟩
  have hpasses : r.passes m.scope.dexKey none = true := rfl
  simp only [prices, hr, hpasses, if_true, hread]
  cases b with
  | nil => exact absurd rfl hne
  | cons level rest => simp only [hq]

end Market

namespace Desk

variable {d : Desk} {name : String} {p : Pair} {base quote : Token} {side : BookSide} {b : Book}

theorem orderBook_eq (hname : Pair.splitName? name = some (p.base, p.quote))
    (hlegs : d.state.tokens.legs? p = some (base, quote))
    (hread : (d.state.cache.readBook d.now d.settings.scope base.address quote.address side).1 =
      .ok b) : (d.orderBook name side).1 = .ok b := by
  obtain ⟨hbase, hquote⟩ := TokenDirectory.legs?_eq_some_iff.mp hlegs
  have hlegsOf : d.legsOf name = .ok (base, quote) := by
    simp only [legsOf, hname, hbase, hquote]
  simp only [orderBook, hlegsOf, hread]
  rfl

theorem exists_prices (hkeyed : WellKeyed d.state.tokens d.state.pairs)
    (hlegs : d.state.tokens.legs? p = some (base, quote))
    (hread : (d.state.cache.readBook d.now d.settings.scope base.address quote.address side).1 =
      .ok b) (hne : b ≠ []) (hb : b.IsSound) {src dest : String} {r : Route} {swap : SwapSide}
    (hr : d.market.route? src dest = some r) (hpair : r.pair = p)
    (hswap : swap.bookSide r.srcIsBase = side) (amounts : List Units) :
    ∃ q, (d.prices src dest amounts swap none).1 = .ok (some q) ∧
      List.Forall₂ (b.Prices side (r.fixedAndFree swap).1 (r.fixedAndFree swap).2) amounts
        q.prices := by
  subst hpair hswap
  have hmarket : WellKeyed d.market.tokens d.market.pairs := hkeyed
  have hroute : d.state.tokens.legs? r.pair = some (r.base, r.quote) := hmarket.legs?_of_route? hr
  obtain ⟨rfl, rfl⟩ := Prod.mk.inj (Option.some.inj (hlegs.symm.trans hroute))
  exact Market.exists_prices hr hread hne hb amounts

end Desk

theorem getLast?_eq_some_of_forall {α : Type} {xs : List α} {x : α} (hmem : x ∈ xs)
    (h : ∀ y ∈ xs, y = x) : xs.getLast? = some x := by
  have hne : xs ≠ [] := List.ne_nil_of_mem hmem
  rw [List.getLast?_eq_some_getLast hne, h _ (List.getLast_mem hne)]

theorem Delivery.book?_of_wellKeyed {d : Delivery} (hkeyed : WellKeyed d.tokens d.pairs)
    {name : String} {offer : TwoSided} {p : Pair} {base quote : Token} {side : BookSide}
    (hoffer : d.listing.find? name = some offer) (hp : d.pairs.named? name = some p)
    (hlegs : d.tokens.legs? p = some (base, quote)) (hside : offer.side side ≠ []) :
    d.book? base.address quote.address side = some (offer.side side) := by
  refine getLast?_eq_some_of_forall ?_ fun b hb => ?_
  · refine List.mem_map.mpr ⟨(name, offer), ?_, rfl⟩
    refine List.mem_filter.mpr ⟨Table.find?_eq_some_iff.mp hoffer, ?_⟩
    have hnames : d.names base.address quote.address name = true := by
      simp [names_eq, hp, hlegs]
    simpa [hnames] using hside
  · obtain ⟨e, he, rfl⟩ := List.mem_map.mp hb
    obtain ⟨hmem, hnames⟩ := List.mem_filter.mp he
    rw [Bool.and_eq_true_iff, names_eq] at hnames
    obtain ⟨hnames, -⟩ := hnames
    cases hlegs' : (d.pairs.named? e.1).bind d.tokens.legs? with
    | none => simp [hlegs'] at hnames
    | some legs =>
      simp only [hlegs', Option.map_some, Option.getD_some, Bool.and_eq_true_iff, beq_iff_eq]
        at hnames
      obtain ⟨p', hp', hlegs'⟩ := Option.bind_eq_some_iff.mp hlegs'
      obtain rfl : e.1 = name := hkeyed.name_inj hp' hp hlegs' hlegs hnames.1 hnames.2
      obtain rfl : e.2 = offer :=
        Option.some.inj ((Table.find?_eq_some_iff.mpr hmem).symm.trans hoffer)
      rfl

namespace Session

open Machine

variable {settings : Settings} {s : Session} {base quote : String} {side : BookSide} {id : TaskId}
  {tokens : TokenDirectory} {pairs : PairDirectory} {b : Book} {receipt : Nat}

/-- A side that has been delivered is on its way to its key or there already, and nobody else has
anything to do. -/
structure Lands (settings : Settings) (base quote : String) (side : BookSide) (id : TaskId)
    (tokens : TokenDirectory) (pairs : PairDirectory) (b : Book) (receipt : Nat) (s : Session) :
    Prop where
  tokens_eq : s.machine.world.tokens = tokens
  pairs_eq : s.machine.world.pairs = pairs
  others : ∀ k, k ≠ id → s.machine.todo k = []
  work : ∀ a ∈ s.machine.todo id, ∃ x y side' b', a = .publish x y side' b' ∧
    Address.IsCanonical x ∧ Address.IsCanonical y
  receipt_le : receipt ≤ s.machine.now
  slot : ((s.machine.todo id).filterMap (FeedAction.written? base quote side)).getLast? = some b ∨
    (s.machine.todo id).filterMap (FeedAction.written? base quote side) = [] ∧
      ∃ t, receipt ≤ t ∧ s.machine.world.cache.Reflects (settings.scope.bookKey base quote side)
        settings.bookLifetime s.machine.now (some (t, b))

theorem Lands.of_world (h : s.Lands settings base quote side id tokens pairs b receipt)
    {s' : Session} (htodo : ∀ k, s'.machine.todo k = s.machine.todo k)
    (hnow : s.machine.now ≤ s'.machine.now)
    (hworld : State.Aside settings.scope s.machine.now s.machine.world s'.machine.world) :
    s'.Lands settings base quote side id tokens pairs b receipt where
  tokens_eq := hworld.tokens.trans h.tokens_eq
  pairs_eq := hworld.pairs.trans h.pairs_eq
  others k hk := (htodo k).trans (h.others k hk)
  work := htodo id ▸ h.work
  receipt_le := Nat.le_trans h.receipt_le hnow
  slot := by
    have hkey := settings.scope.bookKey_ne_blacklistKey base quote side
    rw [htodo id]
    refine h.slot.imp_right fun ⟨hnone, t, ht, hslot⟩ => ⟨hnone, t, ht, ?_⟩
    exact (hslot.visit hkey hworld.cache).later hnow

theorem Lands.performed (h : s.Lands settings base quote side id tokens pairs b receipt)
    (hbase : Address.IsCanonical base) (hquote : Address.IsCanonical quote)
    {m : Machine State FeedAction} {a : FeedAction} (htodo : s.machine.todo id = a :: m.todo id)
    (hothers : ∀ k, k ≠ id → m.todo k = s.machine.todo k) (hnow : m.now = s.machine.now)
    (hworld : m.world = a.perform settings s.machine.now s.machine.world) :
    (s.withMachine m).Lands settings base quote side id tokens pairs b receipt := by
  have hwork := h.work
  have hslot := h.slot
  rw [htodo] at hwork hslot
  obtain ⟨x, y, side', b', rfl, hx, hy⟩ := hwork a List.mem_cons_self
  have hslot' : ((m.todo id).filterMap (FeedAction.written? base quote side)).getLast? = some b ∨
      (m.todo id).filterMap (FeedAction.written? base quote side) = [] ∧
        ∃ t, receipt ≤ t ∧ m.world.cache.Reflects (settings.scope.bookKey base quote side)
          settings.bookLifetime m.now (some (t, b)) := by
    rw [hworld, hnow]
    rcases hslot with hlast | ⟨hnone, t, ht, hreflects⟩
    · rw [getLast?_filterMap_cons] at hlast
      cases hrest : ((m.todo id).filterMap (FeedAction.written? base quote side)).getLast? with
      | some last =>
        rw [hrest, Option.some_or] at hlast
        exact .inl hlast
      | none =>
        rw [hrest, Option.none_or] at hlast
        obtain ⟨rfl, rfl, rfl, rfl⟩ :=
          FeedAction.publish.inj (FeedAction.written?_eq_some_iff.mp hlast)
        refine .inr ⟨List.getLast?_eq_none_iff.mp hrest, s.machine.now, h.receipt_le, .inl ?_⟩
        change ((s.machine.world.cache.slots.insert _ _).find? _) = _
        rw [Table.find?_insert, if_pos rfl]
    · rw [List.filterMap_eq_nil_iff] at hnone
      refine .inr ⟨List.filterMap_eq_nil_iff.mpr fun a ha => hnone a (List.mem_cons_of_mem _ ha),
        t, ht, ?_⟩
      have hperform := State.reflects_perform hbase hquote hreflects
        (a := .publish x y side' b') fun x' y' side'' b'' heq => by
          obtain ⟨rfl, rfl, -, -⟩ := FeedAction.publish.inj heq
          exact ⟨hx, hy⟩
      rwa [hnone _ List.mem_cons_self] at hperform
  refine ⟨?_, ?_, fun k hk => (hothers k hk).trans (h.others k hk),
    fun a ha => hwork a (List.mem_cons_of_mem _ ha), hnow.symm ▸ h.receipt_le, hslot'⟩
  · exact (congrArg State.tokens hworld).trans h.tokens_eq
  · exact (congrArg State.pairs hworld).trans h.pairs_eq

/-- No step but a new reply keeps a delivered side from its key. -/
theorem Lands.step (h : s.Lands settings base quote side id tokens pairs b receipt)
    (hbase : Address.IsCanonical base) (hquote : Address.IsCanonical quote) {e : Event}
    (hquiet : s.taker? e = none) :
    (s.step settings e).Lands settings base quote side id tokens pairs b receipt := by
  by_cases he : ∃ k, e = .move (.advance k)
  · obtain ⟨k, rfl⟩ := he
    obtain ⟨hothers, heffect⟩ := advance_effect settings.behaviour s.machine k
    have hnow := now_advance settings.behaviour s.machine k
    change (s.withMachine (s.machine.advance settings.behaviour k)).Lands settings base quote side
      id tokens pairs b receipt
    generalize s.machine.advance settings.behaviour k = m at hothers heffect hnow
    have htodo_of : m.todo k = s.machine.todo k → ∀ j, m.todo j = s.machine.todo j := by
      intro hk j
      by_cases hj : j = k
      · exact hj ▸ hk
      · exact hothers j hj
    cases heffect with
    | still _ htodo hworld =>
      exact h.of_world (htodo_of htodo) hnow.ge (hworld ▸ .refl _ _ _)
    | settled _ htodo hworld =>
      refine h.of_world (htodo_of htodo) hnow.ge ?_
      change State.Aside settings.scope s.machine.now s.machine.world m.world
      rw [hworld]
      exact ⟨rfl, rfl, .alone⟩
    | received hr => simp [taker?, hr] at hquiet
    | performed _ htodo hworld =>
      have hk : k = id := by
        by_contra hne
        rw [h.others k hne] at htodo
        cases htodo
      subst hk
      exact h.performed hbase hquote htodo hothers hnow hworld
  · have haside := aside_step settings s e fun k hk => he ⟨k, hk⟩
    exact h.of_world haside.todo haside.now haside.world

theorem Lands.run (h : s.Lands settings base quote side id tokens pairs b receipt)
    (hbase : Address.IsCanonical base) (hquote : Address.IsCanonical quote) {es : List Event}
    (hquiet : s.takers settings es = []) :
    (s.run settings es).Lands settings base quote side id tokens pairs b receipt := by
  induction es generalizing s with
  | nil => exact h
  | cons e es ih =>
    obtain ⟨hfirst, hrest⟩ := List.append_eq_nil_iff.mp hquiet
    exact ih (h.step hbase hquote (Option.toList_eq_nil_iff.mp hfirst)) hrest

theorem lands_of_delivered? {d : Delivery} (hd : s.delivered? settings (.move (.advance id)) = some d)
    (hcanonical : d.tokens.IsCanonical) (hidle : ∀ k, s.machine.todo k = [])
    (hbook : d.book? base quote side = some b) :
    (s.step settings (.move (.advance id))).Lands settings base quote side id d.tokens d.pairs b
      d.time := by
  obtain ⟨hr, t, ht, rfl⟩ := delivered?_eq_some_iff.mp hd
  obtain ⟨hothers, heffect⟩ := advance_effect settings.behaviour s.machine id
  have hnow := now_advance settings.behaviour s.machine id
  change (s.withMachine (s.machine.advance settings.behaviour id)).Lands settings base quote side
    id _ _ b s.machine.now
  generalize s.machine.advance settings.behaviour id = m at hothers heffect hnow
  cases heffect with
  | still hnone => cases hnone.symm.trans hr
  | settled hnone => cases hnone.symm.trans hr
  | performed hnone => cases hnone.symm.trans hr
  | @received feed hr' _ htodo hworld =>
    obtain rfl : Feed.prices = feed := Option.some.inj (hr.symm.trans hr')
    obtain ⟨htokens, hpairs, -⟩ := State.receive_keeps settings .prices s.machine.world
    have hlast : ((m.todo id).filterMap (FeedAction.written? base quote side)).getLast? =
        some b := by
      rw [htodo]
      refine (State.getLast?_written? settings .prices s.machine.world s.machine.now).trans ?_
      simp only [State.delivers?, ht, Option.bind_some, hbook]
    have hwork : ∀ a ∈ m.todo id, ∃ x y side' b', a = .publish x y side' b' ∧
        Address.IsCanonical x ∧ Address.IsCanonical y := by
      intro a ha
      have hmem : a ∈ (State.receive settings .prices s.machine.world).2.1 := htodo ▸ ha
      have hfeed := State.feed_of_mem_receive hmem
      cases a with
      | publish x y side' b' =>
        exact ⟨x, y, side', b', rfl, State.canonical_of_publish hcanonical hmem⟩
      | _ => cases hfeed
    exact ⟨(congrArg State.tokens hworld).trans htokens,
      (congrArg State.pairs hworld).trans hpairs,
      fun k hk => (hothers k hk).trans (hidle k), hwork, hnow.ge, .inl hlast⟩

/-- After a cycle that has delivered a side, and for as long as books are kept, the key of the side
reads as that side. -/
theorem Lands.readBook (h : s.Lands settings base quote side id tokens pairs b receipt)
    (hdone : s.machine.todo id = []) (hsoon : s.machine.now < receipt + settings.bookLifetime) :
    (s.machine.world.cache.readBook s.machine.now settings.scope base quote side).1 = .ok b := by
  have hslot := h.slot
  rw [hdone] at hslot
  rcases hslot with hlast | ⟨-, t, ht, hreflects⟩
  · cases hlast
  · rw [hreflects.readBook, Cache.shown, if_pos (by omega)]

/-- Where tokens and pairs stand under keys of their own, the sides of a delivery are there from the end
of its cycle on until books expire, whatever else goes on but further replies: a look at a listed pair
by its name answers the side that came under that name, and a swap that is routed over the pair and onto
this side is quoted on that very book. -/
theorem delivered_side_answers {d : Delivery} {later : List Event}
    (hd : s.delivered? settings (.move (.advance id)) = some d)
    (hkeyed : WellKeyed d.tokens d.pairs) (hidle : ∀ k, s.machine.todo k = [])
    (hquiet : (s.step settings (.move (.advance id))).takers settings later = [])
    (hdone : (s.run settings (.move (.advance id) :: later)).machine.todo id = [])
    (hsoon : (s.run settings (.move (.advance id) :: later)).machine.now <
      d.time + settings.bookLifetime)
    {name : String} {offer : TwoSided} {p : Pair} {base quote : Token} {side : BookSide}
    (hoffer : d.listing.find? name = some offer) (hp : d.pairs.named? name = some p)
    (hlegs : d.tokens.legs? p = some (base, quote)) (hside : offer.side side ≠ []) :
    let desk := (s.run settings (.move (.advance id) :: later)).desk settings
    (desk.orderBook name side).1 = .ok (offer.side side) ∧
      ∀ src dest amounts swap r, desk.market.route? src dest = some r → r.pair = p →
        SwapSide.bookSide swap r.srcIsBase = side →
        ∃ q, (desk.prices src dest amounts swap none).1 = .ok (some q) ∧
          List.Forall₂ ((offer.side side).Prices side (r.fixedAndFree swap).1
            (r.fixedAndFree swap).2) amounts q.prices := by
  have hbook := Delivery.book?_of_wellKeyed hkeyed hoffer hp hlegs hside
  obtain ⟨hfirst, hsecond⟩ := TokenDirectory.legs?_eq_some_iff.mp hlegs
  have hlands := (lands_of_delivered? hd hkeyed.canonical hidle hbook).run
    (hkeyed.canonical _ _ hfirst) (hkeyed.canonical _ _ hsecond) hquiet
  rw [run_cons] at hdone hsoon ⊢
  generalize (s.step settings (.move (.advance id))).run settings later = after
    at hlands hdone hsoon ⊢
  have hread := hlands.readBook hdone hsoon
  have hsound : (offer.side side).IsSound := by
    obtain ⟨-, t, ht, rfl⟩ := delivered?_eq_some_iff.mp hd
    exact State.priced?_sound (e := (name, offer)) ht (Table.find?_eq_some_iff.mp hoffer) side
  have hname := hkeyed.splitName?_of_named? hp hlegs
  rw [← hlands.tokens_eq] at hlegs hkeyed
  rw [← hlands.pairs_eq] at hkeyed
  refine ⟨Desk.orderBook_eq (d := after.desk settings) hname hlegs hread, ?_⟩
  intro src dest amounts swap r hr hpair hswap
  exact Desk.exists_prices (d := after.desk settings) hkeyed hlegs hread hside hsound hr hpair hswap
    amounts

theorem todo_eq_nil_of_all (h : s.machine.tasks.all (·.phase.todo.isEmpty) = true) (k : TaskId) :
    s.machine.todo k = [] := by
  cases ht : s.machine.task? k with
  | none => exact todo_of_none ht
  | some t =>
    rw [todo_of_task? ht]
    exact List.isEmpty_iff.mp (List.all_eq_true.mp h t (List.mem_of_find?_eq_some ht))

def firstBid : Book := [⟨⟨15, 1, by decide, by decide⟩, ⟨2, 0, by decide, Nat.zero_le _⟩⟩]

def beforePrices : Session := (initial (.fixed true [])).run .brisk (opening.take 15)

theorem exists_firstDelivery : ∃ d : Delivery,
    beforePrices.delivered? .brisk (.move (.advance 2)) = some d ∧
      d.tokens.tokens.entries = [("A", ⟨baseAddress, "A", "A", "", 6, ""⟩),
        ("B", ⟨quoteAddress, "B", "B", "", 6, ""⟩)] ∧
      d.pairs.pairs.entries = [("A/B", ⟨"A", "B", .zero⟩)] ∧
      d.listing.entries = [("A/B", ⟨firstBid, []⟩)] := by
  have hseen : (beforePrices.delivered? .brisk (.move (.advance 2))).map (fun d =>
      (d.tokens.tokens.entries, d.pairs.pairs.entries, d.listing.entries)) =
        some ([("A", ⟨baseAddress, "A", "A", "", 6, ""⟩), ("B", ⟨quoteAddress, "B", "B", "", 6, ""⟩)],
          [("A/B", ⟨"A", "B", .zero⟩)], [("A/B", ⟨firstBid, []⟩)]) := by decide +kernel
  obtain ⟨d, hd, heq⟩ := Option.map_eq_some_iff.mp hseen
  obtain ⟨htokens, hrest⟩ := Prod.mk.inj heq
  obtain ⟨hpairs, hlisting⟩ := Prod.mk.inj hrest
  exact ⟨d, hd, htokens, hpairs, hlisting⟩

theorem wellKeyed_firstDelivery {tokens : TokenDirectory} {pairs : PairDirectory}
    (htokens : tokens.tokens.entries = [("A", ⟨baseAddress, "A", "A", "", 6, ""⟩),
      ("B", ⟨quoteAddress, "B", "B", "", 6, ""⟩)])
    (hpairs : pairs.pairs.entries = [("A/B", ⟨"A", "B", .zero⟩)]) : WellKeyed tokens pairs := by
  obtain ⟨ts, hts, htsentries⟩ := Listing.exists_ok_of_entries
    (Listing.tokens (.object [("tokens",
      .object [listedToken "A" baseAddress, listedToken "B" quoteAddress])]))
    [("A", ⟨"A", "A", "", baseAddress, 6, ""⟩), ("B", ⟨"B", "B", "", quoteAddress, 6, ""⟩)]
    (by decide +kernel)
  obtain ⟨ps, hps, hpsentries⟩ := Listing.exists_ok_of_entries
    (Listing.pairs (.object [("pairs",
      .object [("A/B", .object [("base", .string "A"), ("quote", .string "B")])])]))
    [("A/B", ⟨"A", "B", .zero⟩)] (by decide +kernel)
  refine ⟨⟨_, ts, hts, TokenDirectory.eq_of_entries ?_⟩, ⟨_, ps, hps, ?_⟩, ?_, ?_, ?_, ?_⟩
  · change _ = ts.entries.map fun e => (e.1, e.2.toToken)
    rw [htokens, htsentries]
    decide +kernel
  · have heq : pairs.pairs = ps := Table.eq_of_entries (hpairs.trans hpsentries.symm)
    rw [← heq]
  · rw [htokens]
    decide
  · rw [htokens]
    decide
  · unfold TokenDirectory.HasOwnAddresses
    rw [htokens]
    decide
  · rw [hpairs]
    decide

/-- The first bid of a desk, looked at by name and quoted by addresses as soon as its cycle is over. -/
theorem delivered_side_answers_opening :
    let desk := (beforePrices.run .brisk (List.replicate 3 (.move (.advance 2)))).desk .brisk
    (desk.orderBook "A/B" .bids).1 = .ok firstBid ∧
    ∃ r q, desk.market.route? baseAddress quoteAddress = some r ∧
      (desk.prices baseAddress quoteAddress [⟨1000000, by decide⟩] .sell none).1 = .ok (some q) ∧
      List.Forall₂ (firstBid.Prices .bids r.src r.dest) [⟨1000000, by decide⟩] q.prices := by
  obtain ⟨d, hd, htokens, hpairs, hlisting⟩ := exists_firstDelivery
  have hidle : ∀ k, beforePrices.machine.todo k = [] := todo_eq_nil_of_all (by decide +kernel)
  have hquiet : (beforePrices.step .brisk (.move (.advance 2))).takers .brisk
      (List.replicate 2 (.move (.advance 2))) = [] := by decide +kernel
  have hdone : (beforePrices.run .brisk (List.replicate 3 (.move (.advance 2)))).machine.todo 2 =
      [] := todo_eq_nil_of_all (by decide +kernel) 2
  have hsoon : (beforePrices.run .brisk (List.replicate 3 (.move (.advance 2)))).machine.now <
      d.time + Settings.brisk.bookLifetime :=
    Nat.lt_add_left d.time (by decide +kernel)
  have hoffer : d.listing.find? "A/B" = some ⟨firstBid, []⟩ :=
    Table.find?_eq_some_iff.mpr (hlisting ▸ List.mem_singleton.mpr rfl)
  have hp : d.pairs.named? "A/B" = some ⟨"A", "B", .zero⟩ :=
    Table.find?_eq_some_iff.mpr (hpairs ▸ List.mem_singleton.mpr rfl)
  have hlegs : d.tokens.legs? ⟨"A", "B", .zero⟩ = some (⟨baseAddress, "A", "A", "", 6, ""⟩,
      ⟨quoteAddress, "B", "B", "", 6, ""⟩) :=
    TokenDirectory.legs?_eq_some_iff.mpr ⟨Table.find?_eq_some_iff.mpr (by simp [htokens]),
      Table.find?_eq_some_iff.mpr (by simp [htokens])⟩
  have hside : (TwoSided.mk firstBid []).side .bids ≠ [] := by decide
  obtain ⟨hlook, hquote⟩ := delivered_side_answers hd (wellKeyed_firstDelivery htokens hpairs) hidle
    hquiet hdone hsoon hoffer hp hlegs hside
  have hroute : (((beforePrices.run .brisk (List.replicate 3 (.move (.advance 2)))).desk
      .brisk).market.route? baseAddress quoteAddress).map
        (fun r => (r.pair, SwapSide.sell.bookSide r.srcIsBase)) =
      some (⟨"A", "B", .zero⟩, .bids) := by decide +kernel
  obtain ⟨r, hr, hfound⟩ := Option.map_eq_some_iff.mp hroute
  obtain ⟨hpair, hswap⟩ := Prod.mk.inj hfound
  obtain ⟨q, hq⟩ := hquote baseAddress quoteAddress [⟨1000000, by decide⟩] .sell r hr hpair hswap
  exact ⟨hlook, r, q, hr, hq⟩

end Session
end QuoteDesk
