import QuoteDesk.Proofs.Cache.Books
import QuoteDesk.Directory
/-!
What an accepted listing is known to hold. Its entries have passed the check of their feed, so the
levels of its books may be published, the addresses of its tokens have a normal form and no pair lacks a
symbol.
-/
namespace QuoteDesk

namespace Listing

theorem exists_ok_of_entries {ε α : Type} (x : Except ε (Table α)) (es : List (String × α))
    (h : x.toOption.map (·.entries) = some es) : ∃ t, x = .ok t ∧ t.entries = es := by
  cases x with
  | error e => cases h
  | ok t => exact ⟨t, rfl, Option.some.inj h⟩

theorem fault?_of_keyed {α : Type} {feed : Feed} {read : Json → Option α}
    {fault? : String → α → Option ListingFault} {j : Json} {t : Table α}
    (h : keyed feed read fault? j = .ok t) {e : String × α} (he : e ∈ t.entries) :
    fault? e.1 e.2 = none := by
  unfold keyed at h
  split at h
  · cases h
  · split at h
    · cases h
    · next hnone =>
      cases h
      exact List.findSome?_eq_none_iff.mp hnone e he

theorem prices_sound {j : Json} {t : Table TwoSided} (h : prices j = .ok t)
    {e : String × TwoSided} (he : e ∈ t.entries) (side : BookSide) : (e.2.side side).IsSound := by
  have hlevels : ∀ l ∈ e.2.bids ++ e.2.asks, l.isSound = true := by
    have hfault := Option.map_eq_none_iff.mp (fault?_of_keyed h he)
    intro l hl
    simpa using List.find?_eq_none.mp hfault l hl
  intro l hl
  cases side with
  | bids => exact hlevels l (List.mem_append_left _ hl)
  | asks => exact hlevels l (List.mem_append_right _ hl)

theorem tokens_canonical {j : Json} {t : Table TokenEntry} (h : tokens j = .ok t)
    {e : String × TokenEntry} (he : e ∈ t.entries) : Address.IsCanonical e.2.toToken.address := by
  have hfault := fault?_of_keyed h he
  have hlisted : isListedAddress e.2.address = true := by
    unfold TokenEntry.fault? at hfault
    split at hfault
    · cases hfault
    · next hbad => simpa using hbad
  exact Address.isCanonical_normalize hlisted

theorem pairs_legs {j : Json} {t : Table Pair} (h : pairs j = .ok t) {name : String} {p : Pair}
    (hp : t.find? name = some p) : p.base ≠ "" ∧ p.quote ≠ "" := by
  have hfault : p.fault? name = none :=
    fault?_of_keyed (e := (name, p)) h (Table.find?_eq_some_iff.mp hp)
  unfold Pair.fault? at hfault
  split at hfault
  · cases hfault
  · next hlegs =>
    rw [Bool.not_eq_true, Bool.or_eq_false_iff] at hlegs
    exact ⟨fun heq => by simp [heq] at hlegs, fun heq => by simp [heq] at hlegs⟩

end Listing

theorem TokenDirectory.legs?_eq_some_iff {d : TokenDirectory} {p : Pair} {base quote : Token} :
    d.legs? p = some (base, quote) ↔
      d.ofSymbol? p.base = some base ∧ d.ofSymbol? p.quote = some quote := by
  simp [legs?, Option.bind_eq_some_iff]

def TokenDirectory.IsCanonical (d : TokenDirectory) : Prop :=
  ∀ symbol t, d.ofSymbol? symbol = some t → Address.IsCanonical t.address

theorem TokenDirectory.isCanonical_empty : TokenDirectory.empty.IsCanonical := nofun

theorem TokenDirectory.isCanonical_ofTable {j : Json} {t : Table TokenEntry}
    (h : Listing.tokens j = .ok t) :
    (TokenDirectory.ofTable (t.mapValues TokenEntry.toToken)).IsCanonical := by
  intro symbol token htoken
  unfold TokenDirectory.ofSymbol? TokenDirectory.ofTable at htoken
  rw [Table.find?_mapValues] at htoken
  obtain ⟨entry, hentry, rfl⟩ := Option.map_eq_some_iff.mp htoken
  exact Listing.tokens_canonical (e := (symbol, entry)) h (Table.find?_eq_some_iff.mp hentry)

end QuoteDesk
