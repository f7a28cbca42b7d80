import QuoteDesk.Pricing
import QuoteDesk.Proofs.Listing.Accepted
import QuoteDesk.Proofs.Listing.Index
import QuoteDesk.Proofs.Listing.Names
/-!
Directories whose keys are those of their entries. A token is then the same by symbol and by address,
and a pair the same by its name, by the parts of its name, by the symbols of its tokens and by their
addresses.
-/
namespace QuoteDesk

theorem Table.eq_of_entries {α : Type} {t t' : Table α} (h : t.entries = t'.entries) : t = t' := by
  cases t
  cases t'
  obtain rfl := h
  rfl

theorem TokenDirectory.eq_of_entries {d d' : TokenDirectory}
    (h : d.tokens.entries = d'.tokens.entries) : d = d' := by
  obtain ⟨tokens, addresses, hd⟩ := d
  obtain ⟨tokens', addresses', hd'⟩ := d'
  obtain rfl : tokens = tokens' := Table.eq_of_entries h
  obtain rfl := hd.trans hd'.symm
  rfl

/-- Directories that accepted listings have left, every token under its symbol, every pair under its
name, no slash in a symbol and no address twice. -/
structure WellKeyed (tokens : TokenDirectory) (pairs : PairDirectory) : Prop where
  tokens_accepted : ∃ j t, Listing.tokens j = .ok t ∧
    tokens = .ofTable (t.mapValues TokenEntry.toToken)
  pairs_accepted : ∃ j t, Listing.pairs j = .ok t ∧ pairs = ⟨t⟩
  symbol : ∀ e ∈ tokens.tokens.entries, e.1 = e.2.symbol
  plain : ∀ e ∈ tokens.tokens.entries, '/' ∉ e.2.symbol.toList
  address : TokenDirectory.HasOwnAddresses tokens.tokens
  name : ∀ e ∈ pairs.pairs.entries, e.1 = e.2.name

namespace WellKeyed

variable {tokens : TokenDirectory} {pairs : PairDirectory} {t base quote base' quote' : Token}
  {p p' : Pair} {key name name' : String}

theorem canonical (h : WellKeyed tokens pairs) : tokens.IsCanonical := by
  obtain ⟨j, t, hj, rfl⟩ := h.tokens_accepted
  exact TokenDirectory.isCanonical_ofTable hj

theorem symbol_of_ofSymbol? (h : WellKeyed tokens pairs) (ht : tokens.ofSymbol? key = some t) :
    key = t.symbol ∧ '/' ∉ key.toList := by
  have hmem := Table.find?_eq_some_iff.mp ht
  have hkey : key = t.symbol := h.symbol (key, t) hmem
  exact ⟨hkey, hkey ▸ h.plain (key, t) hmem⟩

theorem ofSymbol?_of_ofAddress? (h : WellKeyed tokens pairs) {address : String}
    (ht : tokens.ofAddress? address = some t) : tokens.ofSymbol? t.symbol = some t := by
  obtain ⟨-, key, hkey⟩ := TokenDirectory.exists_of_ofAddress? ht
  exact (h.symbol_of_ofSymbol? hkey).1 ▸ hkey

theorem symbol_inj (h : WellKeyed tokens pairs) {symbol symbol' : String} {t' : Token}
    (ht : tokens.ofSymbol? symbol = some t) (ht' : tokens.ofSymbol? symbol' = some t')
    (haddress : t.address = t'.address) : symbol = symbol' :=
  congrArg Prod.fst (h.address (symbol, t) (Table.find?_eq_some_iff.mp ht) (symbol', t')
    (Table.find?_eq_some_iff.mp ht') haddress)

theorem name_of_named? (h : WellKeyed tokens pairs) (hp : pairs.named? name = some p) :
    name = p.name :=
  h.name (name, p) (Table.find?_eq_some_iff.mp hp)

theorem splitName?_of_named? (h : WellKeyed tokens pairs) (hp : pairs.named? name = some p)
    (hlegs : tokens.legs? p = some (base, quote)) :
    Pair.splitName? name = some (p.base, p.quote) := by
  obtain ⟨hbase, -⟩ := TokenDirectory.legs?_eq_some_iff.mp hlegs
  obtain ⟨j, listed, hj, hpairs⟩ := h.pairs_accepted
  obtain ⟨hne, hne'⟩ := Listing.pairs_legs hj (hpairs ▸ hp)
  rw [h.name_of_named? hp]
  exact Pair.splitName?_nameOf (h.symbol_of_ofSymbol? hbase).2 hne hne'

theorem name_inj (h : WellKeyed tokens pairs) (hp : pairs.named? name = some p)
    (hp' : pairs.named? name' = some p') (hlegs : tokens.legs? p = some (base, quote))
    (hlegs' : tokens.legs? p' = some (base', quote')) (hbase : base.address = base'.address)
    (hquote : quote.address = quote'.address) : name = name' := by
  obtain ⟨hfirst, hsecond⟩ := TokenDirectory.legs?_eq_some_iff.mp hlegs
  obtain ⟨hfirst', hsecond'⟩ := TokenDirectory.legs?_eq_some_iff.mp hlegs'
  rw [h.name_of_named? hp, h.name_of_named? hp', Pair.name, Pair.name,
    h.symbol_inj hfirst hfirst' hbase, h.symbol_inj hsecond hsecond' hquote]

theorem legs?_of_route? {m : Market} (h : WellKeyed m.tokens m.pairs) {src dest : String} {r : Route}
    (hr : m.route? src dest = some r) : m.tokens.legs? r.pair = some (r.base, r.quote) := by
  obtain ⟨x, y, p, srcIsBase⟩ := r
  obtain ⟨hx, hy, hfind⟩ := Market.route?_eq_some_iff.mp hr
  have hx' := h.ofSymbol?_of_ofAddress? hx
  have hy' := h.ofSymbol?_of_ofAddress? hy
  have legs_of_nameOf : ∀ {base quote : Token}, m.tokens.ofSymbol? base.symbol = some base →
      m.tokens.ofSymbol? quote.symbol = some quote →
      m.pairs.named? (Pair.nameOf base.symbol quote.symbol) = some p →
      m.tokens.ofSymbol? p.base = some base ∧ m.tokens.ofSymbol? p.quote = some quote := by
    intro base quote hbase hquote hp
    obtain ⟨heq, heq'⟩ := Pair.eq_of_nameOf_eq (h.symbol_of_ofSymbol? hbase).2
      (h.symbol_of_ofSymbol? hquote).2 (h.name_of_named? hp)
    exact ⟨heq ▸ hbase, heq' ▸ hquote⟩
  cases srcIsBase with
  | true =>
    exact TokenDirectory.legs?_eq_some_iff.mpr
      (legs_of_nameOf hx' hy' (PairDirectory.named?_of_find?_true hfind))
  | false =>
    exact TokenDirectory.legs?_eq_some_iff.mpr
      (legs_of_nameOf hy' hx' (PairDirectory.named?_of_find?_false hfind))

end WellKeyed
end QuoteDesk
