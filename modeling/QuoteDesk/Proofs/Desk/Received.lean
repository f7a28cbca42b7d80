import QuoteDesk.Proofs.Desk.Session
import QuoteDesk.Proofs.Listing.Accepted
/-!
What the reply of a feed asks for. Books are published only from an accepted listing of prices, under
the addresses of tokens known at that moment; tokens are replaced only by accepted ones.
-/
namespace QuoteDesk

def Settings.priced? (settings : Settings) (w : State) : Option (Table TwoSided) :=
  match w.maker.replyAt (settings.feedRequest .prices).url with
  | .error _ => none
  | .ok body => (Listing.prices body).toOption

theorem FeedAction.mem_publishSides {base quote : Token} {b : TwoSided} {a : FeedAction} :
    a ∈ publishSides base quote b ↔
      ∃ side, b.side side ≠ [] ∧ a = .publish base.address quote.address side (b.side side) := by
  simp only [publishSides, List.mem_filterMap]
  constructor
  · rintro ⟨side, -, h⟩
    split at h
    · cases h
    · next hne => exact ⟨side, by simpa using hne, (Option.some.inj h).symm⟩
  · rintro ⟨side, hne, rfl⟩
    refine ⟨side, by cases side <;> simp, ?_⟩
    rw [if_neg (by simpa using hne)]

namespace State

variable {settings : Settings} {feed : Feed} {w w' : State}

theorem receive_prices (settings : Settings) (w : State) :
    (receive settings .prices w).2.1 = ((settings.priced? w).map (FeedAction.ofPrices w)).getD [] := by
  simp only [receive, ask, Maker.answer, Settings.priced?]
  cases w.maker.replyAt (settings.feedRequest .prices).url with
  | error e => rfl
  | ok body =>
    simp only [FeedAction.ofBody]
    cases Listing.prices body <;> rfl

/-- Taking a reply changes neither the directories nor the cache. -/
theorem receive_keeps (settings : Settings) (feed : Feed) (w : State) :
    (receive settings feed w).2.2.tokens = w.tokens ∧
      (receive settings feed w).2.2.pairs = w.pairs ∧
      (receive settings feed w).2.2.cache = w.cache := by
  simp only [receive]
  split
  · exact ⟨rfl, rfl, rfl⟩
  · split <;> exact ⟨rfl, rfl, rfl⟩

theorem priced?_sound {t : Table TwoSided} (h : settings.priced? w = some t)
    {e : String × TwoSided} (he : e ∈ t.entries) (side : BookSide) : (e.2.side side).IsSound := by
  unfold Settings.priced? at h
  split at h
  · cases h
  · next body _ =>
    cases hbody : Listing.prices body with
    | error cause =>
      rw [hbody] at h
      cases h
    | ok listing =>
      rw [hbody] at h
      cases h
      exact Listing.prices_sound hbody he side

theorem exists_of_publish {base quote : String} {side : BookSide} {b : Book}
    (h : .publish base quote side b ∈ (receive settings feed w).2.1) :
    ∃ t e, settings.priced? w = some t ∧ e ∈ t.entries ∧ b = e.2.side side ∧ b ≠ [] ∧
      ∃ p x y, w.pairs.named? e.1 = some p ∧ w.tokens.ofSymbol? p.base = some x ∧
        w.tokens.ofSymbol? p.quote = some y ∧ base = x.address ∧ quote = y.address := by
  obtain rfl : Feed.prices = feed := feed_of_mem_receive h
  rw [receive_prices] at h
  cases ht : settings.priced? w with
  | none =>
    rw [ht] at h
    cases h
  | some t =>
    rw [ht] at h
    obtain ⟨e, he, hpublish⟩ := List.mem_flatMap.mp h
    split at hpublish
    · next x y hlegs =>
      obtain ⟨p, hp, hlegs⟩ := Option.bind_eq_some_iff.mp hlegs
      obtain ⟨hx, hy⟩ := TokenDirectory.legs?_eq_some_iff.mp hlegs
      obtain ⟨side', hne, heq⟩ := FeedAction.mem_publishSides.mp hpublish
      obtain ⟨rfl, rfl, rfl, rfl⟩ := FeedAction.publish.inj heq
      exact ⟨t, e, rfl, he, rfl, hne, p, x, y, hp, hx, hy, rfl, rfl⟩
    · cases hpublish

theorem sound_of_publish {base quote : String} {side : BookSide} {b : Book}
    (h : .publish base quote side b ∈ (receive settings feed w).2.1) : b ≠ [] ∧ b.IsSound := by
  obtain ⟨t, e, ht, he, rfl, hne, -⟩ := exists_of_publish h
  exact ⟨hne, priced?_sound ht he side⟩

theorem canonical_of_publish (hw : w.tokens.IsCanonical) {base quote : String} {side : BookSide}
    {b : Book} (h : .publish base quote side b ∈ (receive settings feed w).2.1) :
    Address.IsCanonical base ∧ Address.IsCanonical quote := by
  obtain ⟨-, -, -, -, -, -, p, x, y, -, hx, hy, rfl, rfl⟩ := exists_of_publish h
  exact ⟨hw _ x hx, hw _ y hy⟩

theorem exists_of_replaceTokens {d : TokenDirectory}
    (h : .replaceTokens d ∈ (receive settings feed w).2.1) :
    ∃ body t, Listing.tokens body = .ok t ∧ d = .ofTable (t.mapValues TokenEntry.toToken) := by
  obtain rfl : Feed.tokens = feed := feed_of_mem_receive h
  simp only [receive] at h
  split at h
  · cases h
  · next body _ =>
    split at h
    · cases h
    · next todo htodo =>
      simp only [FeedAction.ofBody] at htodo
      cases hbody : Listing.tokens body with
      | error cause =>
        rw [hbody] at htodo
        cases htodo
      | ok listing =>
        rw [hbody] at htodo
        cases htodo
        exact ⟨body, listing, hbody, FeedAction.replaceTokens.inj (List.mem_singleton.mp h)⟩

theorem canonical_of_replaceTokens {d : TokenDirectory}
    (h : .replaceTokens d ∈ (receive settings feed w).2.1) : d.IsCanonical := by
  obtain ⟨body, t, hbody, rfl⟩ := exists_of_replaceTokens h
  exact TokenDirectory.isCanonical_ofTable hbody

theorem canonical_perform (h : w.tokens.IsCanonical) {a : FeedAction}
    (ha : a ∈ (receive settings feed w').2.1) (now : Nat) :
    (a.perform settings now w).tokens.IsCanonical := by
  cases a with
  | replaceTokens d => exact canonical_of_replaceTokens ha
  | replacePairs d => exact h
  | publish base quote side b => exact h
  | deny address => exact h

end State
end QuoteDesk
