import QuoteDesk.Desk.Feeds
import QuoteDesk.Proofs.Book.Walk
/-!
When a payload is accepted. It has to decode as the listing of its feed, and every entry, level and
address in it has to be sound: one bad part refuses all of it.
-/
namespace QuoteDesk

def TokenEntry.IsSound (e : TokenEntry) : Prop := isListedAddress e.address = true ∧ e.symbol ≠ ""

def Pair.IsSound (p : Pair) : Prop := p.base ≠ "" ∧ p.quote ≠ "" ∧ 0 ≤ p.liquidity.value

def TwoSided.IsSound (b : TwoSided) : Prop :=
  ∀ side, ∀ l ∈ b.side side, 0 < l.price.value ∧ 0 ≤ l.quantity.value

theorem TokenEntry.fault?_eq_none_iff {key : String} {e : TokenEntry} :
    e.fault? key = none ↔ e.IsSound := by
  unfold fault? IsSound
  cases isListedAddress e.address <;> simp

theorem Pair.fault?_eq_none_iff {name : String} {p : Pair} : p.fault? name = none ↔ p.IsSound := by
  have hliquidity : 0 ≤ p.liquidity.value ↔ p.liquidity.isNegative = false := by
    simp [Decimal.value_nonneg_iff, Decimal.isNegative]
  have hlegs : (p.base.isEmpty || p.quote.isEmpty) = true ↔ ¬ (p.base ≠ "" ∧ p.quote ≠ "") := by
    simp [String.isEmpty_iff, or_iff_not_imp_left]
  rw [IsSound, ← and_assoc, hliquidity]
  unfold fault?
  split
  · next hmissing => simp [hlegs.mp hmissing]
  · next hthere =>
    rw [hlegs, not_not] at hthere
    cases p.liquidity.isNegative <;> simp [hthere]

theorem TwoSided.fault?_eq_none_iff {name : String} {b : TwoSided} :
    b.fault? name = none ↔ b.IsSound := by
  have hlevel : ∀ l : Level, l.isSound = true ↔ 0 < l.price.value ∧ 0 ≤ l.quantity.value := by
    intro l
    rw [Level.isSound_iff, Decimal.value_pos_iff, Decimal.value_nonneg_iff]
  simp only [fault?, Option.map_eq_none_iff, List.find?_eq_none, List.mem_append,
    Bool.not_eq_true', Bool.not_eq_false, hlevel]
  constructor
  · intro h side l hl
    cases side with
    | bids => exact h l (.inl hl)
    | asks => exact h l (.inr hl)
  · rintro h l (hl | hl)
    · exact h .bids l hl
    · exact h .asks l hl

namespace Listing

/-- The payload decodes as the listing of a feed, and no part of it is bad. -/
def IsValid (body : Json) : Feed → Prop
  | .tokens => ∃ t, (content? "tokens" body).bind (entries? TokenEntry.ofJson?) = some t ∧
    ∀ e ∈ t.entries, e.2.IsSound
  | .pairs => ∃ t, (content? "pairs" body).bind (entries? Pair.ofJson?) = some t ∧
    ∀ e ∈ t.entries, e.2.IsSound
  | .prices => ∃ t, (content? "prices" body).bind (entries? TwoSided.ofJson?) = some t ∧
    ∀ e ∈ t.entries, e.2.IsSound
  | .blacklist => ∃ addresses,
    ((content? "blacklist" body).bind fun v => v.items?.bind (·.mapM Json.string?)) =
      some addresses ∧ ∀ a ∈ addresses, isListedAddress a = true

variable {body : Json}

theorem exists_keyed_iff {α : Type} {feed : Feed} {read : Json → Option α}
    {fault? : String → α → Option ListingFault} {P : α → Prop}
    (hfault : ∀ {name x}, fault? name x = none ↔ P x) :
    (∃ t, keyed feed read fault? body = .ok t) ↔
      ∃ t, (content? feed.name body).bind (entries? read) = some t ∧ ∀ e ∈ t.entries, P e.2 := by
  have hall : ∀ t : Table α,
      (t.entries.findSome? fun e => fault? e.1 e.2) = none ↔ ∀ e ∈ t.entries, P e.2 := by
    intro t
    simp only [List.findSome?_eq_none_iff, hfault]
  unfold keyed
  cases (content? feed.name body).bind (entries? read) with
  | none => simp
  | some t =>
    simp only [Option.some.injEq, exists_eq_left', ← hall]
    cases t.entries.findSome? fun e => fault? e.1 e.2 with
    | none => simp
    | some fault => simp

theorem exists_blacklist_iff :
    (∃ addresses, blacklist body = .ok addresses) ↔ IsValid body .blacklist := by
  have hall : ∀ addresses : List String,
      (addresses.find? fun a => !isListedAddress a) = none ↔
        ∀ a ∈ addresses, isListedAddress a = true := by
    intro addresses
    simp
  have hname : Feed.blacklist.name = "blacklist" := rfl
  unfold blacklist IsValid
  rw [hname]
  cases (content? "blacklist" body).bind fun v => v.items?.bind (·.mapM Json.string?) with
  | none => simp
  | some addresses =>
    simp only [Option.some.injEq, exists_eq_left', ← hall]
    cases addresses.find? fun a => !isListedAddress a with
    | none => simp
    | some a => simp

end Listing

theorem exists_map_eq_ok_iff {ε α β : Type} {f : α → β} {x : Except ε α} :
    (∃ b, x.map f = .ok b) ↔ ∃ a, x = .ok a := by
  cases x with
  | error e => exact ⟨nofun, nofun⟩
  | ok a => exact ⟨fun _ => ⟨a, rfl⟩, fun _ => ⟨f a, rfl⟩⟩

/-- A feed acts on the valid payloads and on no others. -/
theorem FeedAction.exists_ofBody_iff (w : State) (body : Json) (feed : Feed) :
    (∃ todo, ofBody w body feed = .ok todo) ↔ Listing.IsValid body feed := by
  cases feed with
  | tokens =>
    exact exists_map_eq_ok_iff.trans
      (Listing.exists_keyed_iff (P := TokenEntry.IsSound) TokenEntry.fault?_eq_none_iff)
  | pairs =>
    exact exists_map_eq_ok_iff.trans
      (Listing.exists_keyed_iff (P := Pair.IsSound) Pair.fault?_eq_none_iff)
  | prices =>
    exact exists_map_eq_ok_iff.trans
      (Listing.exists_keyed_iff (P := TwoSided.IsSound) TwoSided.fault?_eq_none_iff)
  | blacklist => exact exists_map_eq_ok_iff.trans Listing.exists_blacklist_iff

end QuoteDesk
