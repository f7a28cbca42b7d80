import QuoteDesk.Proofs.Listing.Accepted
import QuoteDesk.Proofs.Listing.Index
import QuoteDesk.Proofs.Listing.Valid
import QuoteDesk.Proofs.Text.Digits
/-!
Addresses of tokens. A listing takes an address with blanks around it and in either letter case, the
directory keeps its normal form, a look-up takes any spelling, and an order is checked against the
account that the address reads as. Main statements: what is kept of a listed address is the mark and
forty digits without capital letters, and such a text can be read.
-/
namespace QuoteDesk

namespace Address

def IsPlain (s : String) : Prop :=
  ∃ ds, s.toList = '0' :: 'x' :: ds ∧ ds.length = 40 ∧
    ∀ c ∈ ds, '0' ≤ c ∧ c ≤ '9' ∨ 'a' ≤ c ∧ c ≤ 'f'

variable {s : String}

theorem IsCanonical.isPlain (h : IsCanonical s) : IsPlain s := by
  obtain ⟨mark, ds, hmark, hs, hlen, hall⟩ := isHexText_iff.mp h.hex
  have hlower := Text.lower_eq_of_normal h.normal
  rw [hs] at hlower
  obtain rfl : mark = 'x' := by
    rcases hmark with rfl | rfl
    · rfl
    · exact absurd (List.cons.inj (List.cons.inj hlower).2).1 (by decide)
  refine ⟨ds, hs, hlen, fun c hc => ?_⟩
  have hdigits : ds.map Char.toLower = ds := (List.cons.inj (List.cons.inj hlower).2).2
  have hsame : c.toLower = c := List.map_inj_left.mp (hdigits.trans (List.map_id ds).symm) c hc
  have hnat := congrArg Char.toNat hsame
  rw [Text.toNat_toLower] at hnat
  have hrange := (Text.isHexDigit_iff c).mp (hall c hc)
  change 48 ≤ c.toNat ∧ c.toNat ≤ 57 ∨ 97 ≤ c.toNat ∧ c.toNat ≤ 102
  split at hnat <;> omega

theorem exists_read (h : isHexText s = true) : ∃ a, read s = .ok a := by
  obtain ⟨mark, ds, hmark, hs, hlen, hall⟩ := isHexText_iff.mp h
  have hascii : ∀ c ∈ s.toList, c.toNat < 128 := by
    intro c hc
    rw [hs] at hc
    rcases List.mem_cons.mp hc with rfl | hc
    · decide
    · rcases List.mem_cons.mp hc with rfl | hc
      · rcases hmark with rfl | rfl <;> decide
      · exact Text.toNat_lt_of_isHexDigit (hall c hc)
  have hunmarked : unmarked (Text.byteChars s) = ds := by
    rw [Text.byteChars_of_ascii hascii, hs]
    rcases hmark with rfl | rfl <;> rfl
  refine ⟨ofNat (Text.ofDigits 16 (ds.filterMap Text.hexDigit?)), ?_⟩
  unfold read readChars
  simp only [hunmarked, hlen, Hex.firstBad?_eq_none hall]
  rfl

end Address

/-- What every listed token has: an address without capital letters that names an account, and a
symbol. -/
structure Token.IsListed (t : Token) : Prop where
  canonical : Address.IsCanonical t.address
  symbol : t.symbol ≠ ""

theorem Token.IsListed.exists_read {t : Token} (h : t.IsListed) : ∃ a, Address.read t.address = .ok a :=
  Address.exists_read h.canonical.hex

theorem TokenEntry.IsSound.isListed {e : TokenEntry} (h : e.IsSound) : e.toToken.IsListed :=
  ⟨Address.isCanonical_normalize h.1, h.2⟩

namespace TokenDirectory

def IsListed (d : TokenDirectory) : Prop := ∀ symbol t, d.ofSymbol? symbol = some t → t.IsListed

variable {d : TokenDirectory} {t : Token}

theorem isListed_empty : empty.IsListed := nofun

theorem isListed_ofTable {j : Json} {t : Table TokenEntry} (h : Listing.tokens j = .ok t) :
    (ofTable (t.mapValues TokenEntry.toToken)).IsListed := by
  intro symbol token htoken
  unfold ofSymbol? ofTable at htoken
  rw [Table.find?_mapValues] at htoken
  obtain ⟨entry, hentry, rfl⟩ := Option.map_eq_some_iff.mp htoken
  have hfault := Listing.fault?_of_keyed (e := (symbol, entry)) h (Table.find?_eq_some_iff.mp hentry)
  exact (TokenEntry.fault?_eq_none_iff.mp hfault).isListed

theorem IsListed.ofAddress? (h : d.IsListed) {address : String}
    (ht : d.ofAddress? address = some t) : t.IsListed := by
  obtain ⟨-, symbol, hsymbol⟩ := exists_of_ofAddress? ht
  exact h symbol t hsymbol

/-- However the index by address has come about, it holds listed tokens under their addresses. -/
theorem IsListed.addressIndex (h : d.IsListed) {order : List (String × Token)}
    (hperm : order.Perm d.tokens.entries) {address : String}
    (ht : (addressIndex order).find? address = some t) : t.IsListed ∧ t.address = address := by
  obtain ⟨haddress, symbol, hsymbol⟩ := exists_of_find?_addressIndex hperm ht
  exact ⟨h symbol t hsymbol, haddress⟩

theorem ofAddress?_respelled (d : TokenDirectory) {a b address : String}
    (ha : Text.Respells a address) (hb : Text.Respells b address) :
    d.ofAddress? a = d.ofAddress? b := by
  rw [ofAddress?, ofAddress?, ha.normalize_eq, hb.normalize_eq]

end TokenDirectory
end QuoteDesk
