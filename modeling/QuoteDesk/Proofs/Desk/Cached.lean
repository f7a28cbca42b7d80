import QuoteDesk.Proofs.Desk.Aside
import QuoteDesk.Proofs.Desk.Received
/-!
What sessions keep in the cache. Books come into it from accepted listings only and addresses in
normal form only, whatever the order of events; so what is kept can always be read, and no request
fails for the sake of the cache.
-/
namespace QuoteDesk

namespace State

variable {settings : Settings} {w w' : State}

theorem wellKept_perform (h : w.cache.WellKept settings.scope) {a : FeedAction} {feed : Feed}
    (ha : a ∈ (receive settings feed w').2.1) (now : Nat) :
    (a.perform settings now w).cache.WellKept settings.scope := by
  cases a with
  | replaceTokens d => exact h
  | replacePairs d => exact h
  | publish base quote side b =>
    obtain ⟨hne, hsound⟩ := sound_of_publish ha
    exact h.writeBook hne hsound now settings.bookLifetime base quote side
  | deny address =>
    have hdeny : w.cache.Visit settings.scope now _ := .deny address
    exact h.visit hdeny

end State

namespace Session

open Machine

variable {settings : Settings} {s : Session}

theorem received_of_mem_todo {b : Behaviour State FeedAction} {m : Machine State FeedAction}
    (hm : Consistent b m) {id : TaskId} {a : FeedAction} (ha : a ∈ m.todo id) :
    ∃ feed w, a ∈ (b.receive feed w).2.1 := by
  cases ht : m.task? id with
  | none =>
    rw [todo_of_none ht] at ha
    cases ha
  | some t =>
    rw [todo_of_task? ht] at ha
    cases hp : t.phase with
    | acting outcome due todo =>
      rw [hp] at ha
      obtain ⟨w, hw⟩ := hm.todo_received id t outcome due todo ht hp a ha
      exact ⟨t.feed, w, hw⟩
    | _ =>
      rw [hp] at ha
      cases ha

/-- Neither what cycles do with what they have received nor anything beside them takes a state out of a
set of states. Counters, replies of the maker and the verifier have no part in it. -/
structure Maintains (settings : Settings) (P : State → Prop) : Prop where
  aside : ∀ {now w w'}, State.Aside settings.scope now w w' → P w → P w'
  perform : ∀ {feed w' a}, a ∈ (State.receive settings feed w').2.1 →
    ∀ now w, P w → P (a.perform settings now w)

variable {P : State → Prop}

theorem Maintains.step (hP : Maintains settings P) (hm : Consistent settings.behaviour s.machine)
    (h : P s.machine.world) (e : Event) : P (s.step settings e).machine.world := by
  by_cases he : ∃ id, e = .move (.advance id)
  · obtain ⟨id, rfl⟩ := he
    change P (s.machine.advance settings.behaviour id).world
    cases (advance_effect settings.behaviour s.machine id).2 with
    | still _ _ hworld => exact hworld ▸ h
    | @settled _ _ feed outcome hworld =>
      have haside : State.Aside settings.scope s.machine.now s.machine.world
          (settings.behaviour.settle feed outcome s.machine.world) := ⟨rfl, rfl, .alone⟩
      rw [hworld]
      exact hP.aside haside h
    | @received feed _ _ _ hworld =>
      obtain ⟨htokens, hpairs, hcache⟩ := State.receive_keeps settings feed s.machine.world
      have haside : State.Aside settings.scope s.machine.now s.machine.world
          (State.receive settings feed s.machine.world).2.2 :=
        ⟨htokens, hpairs, hcache ▸ .alone⟩
      rw [hworld]
      exact hP.aside haside h
    | performed _ htodo hworld =>
      obtain ⟨feed, w, ha⟩ := received_of_mem_todo hm (htodo ▸ List.mem_cons_self)
      rw [hworld]
      exact hP.perform ha s.machine.now s.machine.world h
  · exact hP.aside (aside_step settings s e fun id hid => he ⟨id, hid⟩).world h

theorem Maintains.run (hP : Maintains settings P) (hm : Consistent settings.behaviour s.machine)
    (h : P s.machine.world) (es : List Event) : P (s.run settings es).machine.world := by
  induction es generalizing s with
  | nil => exact h
  | cons e es ih => exact ih (consistent_step hm e) (hP.step hm h e)

theorem maintains_wellKept (settings : Settings) :
    Maintains settings fun w => w.cache.WellKept settings.scope where
  aside haside h := h.visit haside.cache
  perform ha now _ h := State.wellKept_perform h ha now

theorem wellKept_initial (settings : Settings) (verifier : Verifier) (es : List Event) :
    ((initial verifier).run settings es).machine.world.cache.WellKept settings.scope :=
  (maintains_wellKept settings).run (.initial _) (Cache.wellKept_empty _) es

theorem prices_ok (h : s.machine.world.cache.WellKept settings.scope) (src dest : String)
    (amounts : List Units) (side : SwapSide) (limit : Option (List String)) :
    ∃ answer, ((s.desk settings).prices src dest amounts side limit).1 = .ok answer := by
  change ∃ answer, ((s.desk settings).market.prices s.machine.world.cache s.machine.now src dest
    amounts side limit).1 = .ok answer
  unfold Market.prices
  split
  · exact ⟨none, rfl⟩
  · next r _ =>
    split
    · obtain ⟨b, hread, hsound⟩ := h.readBook_ok s.machine.now r.base.address r.quote.address
        (side.bookSide r.srcIsBase)
      obtain ⟨q, hq⟩ := (s.desk settings).market.quoteOn_ok r side hsound.isStocked amounts
      have hscope : (s.desk settings).market.scope = settings.scope := rfl
      simp only [hscope, hread]
      cases b with
      | nil => exact ⟨none, rfl⟩
      | cons level rest =>
        simp only [hq]
        exact ⟨some q, rfl⟩
    · exact ⟨none, rfl⟩

theorem orderBook_ne_book (h : s.machine.world.cache.WellKept settings.scope) (pair : String)
    (side : BookSide) (e : BookError) :
    ((s.desk settings).orderBook pair side).1 ≠ .error (.book e) := by
  unfold Desk.orderBook
  split
  · next cause hlegs =>
    intro heq
    obtain rfl : cause = .book e := Except.error.inj heq
    unfold Desk.legsOf at hlegs
    split at hlegs
    · cases hlegs
    · split at hlegs <;> cases hlegs
  · next base quote _ =>
    obtain ⟨b, hread, -⟩ := h.readBook_ok s.machine.now base.address quote.address side
    have hread' : ((s.desk settings).state.cache.readBook (s.desk settings).now
        (s.desk settings).settings.scope base.address quote.address side).1 = .ok b := hread
    simp only [hread']
    nofun

def Reachable (settings : Settings) (s : Session) : Prop :=
  ∃ verifier es, (initial verifier).run settings es = s

/-- In every state of an application each live book is there to be read, not empty, its prices above
zero and its quantities not below it; the deny set has no end and holds addresses in normal form. So
pricing never fails, no look at a book fails for the cache or the text, and users can always be
checked and denied. -/
theorem cache_sound_of_reachable (h : Reachable settings s) :
    (∀ base quote side slot,
      s.machine.world.cache.slots.find? (settings.scope.bookKey base quote side) = some slot →
      slot.isLive s.machine.now = true →
      ∃ text b, slot.content = .text text ∧ Book.read text = some b ∧ b ≠ [] ∧
        ∀ l ∈ b, 0 < l.price.value ∧ 0 ≤ l.quantity.value) ∧
    (∀ slot, s.machine.world.cache.slots.find? settings.scope.blacklistKey = some slot →
      ∃ set, slot = ⟨.members set, none⟩ ∧ ∀ e ∈ set.entries, Text.normalize e.1 = e.1) ∧
    (∀ src dest amounts side limit, ∃ answer,
      ((s.desk settings).prices src dest amounts side limit).1 = .ok answer) ∧
    (∀ pair side e, ((s.desk settings).orderBook pair side).1 ≠ .error (.book e)) ∧
    ∀ address, (∃ verdict, ((s.desk settings).isDenied address).1 = .ok verdict) ∧
      (s.machine.world.deny s.machine.now settings.scope address).1 = .ok () := by
  obtain ⟨verifier, es, rfl⟩ := h
  have hkept := wellKept_initial settings verifier es
  generalize (initial verifier).run settings es = s at hkept
  refine ⟨fun base quote side slot hslot _ => ?_, hkept.denied, prices_ok hkept,
    orderBook_ne_book hkept, fun address => ⟨?_, ?_⟩⟩
  · obtain ⟨b, expiry, rfl, hne, hsound⟩ :=
      hkept.book _ slot (settings.scope.bookKey_ne_blacklistKey base quote side) hslot
    refine ⟨b.write, b, rfl, Book.read_write b, hne, fun l hl => ?_⟩
    obtain ⟨hprice, hquantity⟩ := Level.isSound_iff.mp (hsound l hl)
    exact ⟨Decimal.value_pos_iff.mpr hprice, Decimal.value_nonneg_iff.mpr hquantity⟩
  · obtain ⟨verdict, hread, -⟩ := isDenied_of_keeps hkept.keepsSet address
    exact ⟨verdict, hread⟩
  · obtain ⟨w', hdeny, -⟩ := State.deny_of_keeps hkept.keepsSet s.machine.now address
    rw [hdeny]

def baseAddress : String := "0x1111111111111111111111111111111111111111"

def quoteAddress : String := "0x2222222222222222222222222222222222222222"

def smallSale : Swap where
  src := baseAddress
  dest := quoteAddress
  srcAmount := ⟨5, by decide⟩
  destAmount := ⟨7, by decide⟩
  side := .sell
  user := "0xABC"
  slippage := .zero

def listedToken (symbol address : String) : String × Json :=
  (symbol, .object [("symbol", .string symbol), ("name", .string symbol),
    ("address", .string address), ("decimals", .number (.integer 6))])

/-- The maker publishes two tokens, their pair, and a bid but no ask for it. -/
def publication : Event :=
  .upstream [
    ((Settings.brisk.feedRequest .tokens).url, .ok (.object [("tokens",
      .object [listedToken "A" baseAddress, listedToken "B" quoteAddress])])),
    ((Settings.brisk.feedRequest .pairs).url, .ok (.object [("pairs",
      .object [("A/B", .object [("base", .string "A"), ("quote", .string "B")])])])),
    ((Settings.brisk.feedRequest .prices).url, .ok (.object [("prices",
      .object [("A/B", .object [("bids", .array [.array [.string "1.5", .string "2"]]),
        ("asks", .array [])])])]))] []

def opening : List Event :=
  publication :: .call .tokens :: List.replicate 5 (.move (.advance 0)) ++
    .call .pairs :: List.replicate 5 (.move (.advance 1)) ++ List.replicate 5 (.move (.advance 2))

/-- The bid that a desk has just read from the maker. -/
theorem cache_sound_of_reachable_opening :
    Reachable .brisk ((initial (.fixed true [])).run .brisk opening) ∧
    ∃ slot text b, ((initial (.fixed true [])).run .brisk opening).machine.world.cache.slots.find?
        (Settings.brisk.scope.bookKey baseAddress quoteAddress .bids) = some slot ∧
      slot.content = .text text ∧ Book.read text = some b ∧ b ≠ [] ∧
      ∀ l ∈ b, 0 < l.price.value ∧ 0 ≤ l.quantity.value := by
  have hreachable : Reachable .brisk ((initial (.fixed true [])).run .brisk opening) :=
    ⟨_, _, rfl⟩
  have hlive : (((initial (.fixed true [])).run .brisk opening).machine.world.cache.slots.find?
      (Settings.brisk.scope.bookKey baseAddress quoteAddress .bids)).map
        (·.isLive ((initial (.fixed true [])).run .brisk opening).machine.now) = some true := by
    decide +kernel
  obtain ⟨slot, hslot, hslotlive⟩ := Option.map_eq_some_iff.mp hlive
  obtain ⟨text, b, hread⟩ := (cache_sound_of_reachable hreachable).1 _ _ _ slot hslot hslotlive
  exact ⟨hreachable, slot, text, b, hslot, hread⟩

end Session
end QuoteDesk
