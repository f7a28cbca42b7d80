import QuoteDesk.Proofs.Desk.Received
import QuoteDesk.Proofs.Feed.Prompt
import QuoteDesk.Proofs.Listing.Index
import QuoteDesk.Proofs.Listing.Names
/-!
The directories that a cycle installs. A listing is accepted entry by entry, and its keys are not held
against what stands under them. Main statements: pairs and their names keep in step, and symbols and
addresses lead to the same tokens, exactly if the keys of the listing are the names and symbols of its
entries, symbols have no slash and addresses are all different.
-/
namespace QuoteDesk

namespace State

variable {settings : Settings} {w : State} {now : Nat} {body : Json}

theorem tokens_cycle {t : Table TokenEntry}
    (hreply : w.maker.replyAt (settings.feedRequest .tokens).url = .ok body)
    (hbody : Listing.tokens body = .ok t) :
    (settings.behaviour.cycle .tokens now w).tokens =
      .ofTable (t.mapValues TokenEntry.toToken) := by
  simp only [Behaviour.cycle, Settings.behaviour, receive, ask, Maker.answer, hreply,
    FeedAction.ofBody, hbody]
  rfl

theorem pairs_cycle {t : Table Pair}
    (hreply : w.maker.replyAt (settings.feedRequest .pairs).url = .ok body)
    (hbody : Listing.pairs body = .ok t) :
    (settings.behaviour.cycle .pairs now w).pairs = ⟨t⟩ := by
  simp only [Behaviour.cycle, Settings.behaviour, receive, ask, Maker.answer, hreply,
    FeedAction.ofBody, hbody]
  rfl

/-- A cycle of the pairs installs a directory whose names and look-ups keep in step with its pairs
exactly if each pair is listed under its own name and no symbol of a pair has a slash. -/
theorem isFaithful_cycle_iff {t : Table Pair}
    (hreply : w.maker.replyAt (settings.feedRequest .pairs).url = .ok body)
    (hbody : Listing.pairs body = .ok t) :
    (settings.behaviour.cycle .pairs now w).pairs.IsFaithful ↔
      ∀ e ∈ t.entries, e.1 = e.2.name ∧ '/' ∉ e.2.base.toList ∧ '/' ∉ e.2.quote.toList := by
  rw [pairs_cycle hreply hbody, PairDirectory.isFaithful_iff fun name p => Listing.pairs_legs hbody]
  constructor
  · intro h e he
    exact h e.1 e.2 (Table.find?_eq_some_iff.mpr he)
  · intro h name p hp
    exact h (name, p) (Table.find?_eq_some_iff.mp hp)

def publishing (settings : Settings) (feed : Feed) (body : Json) : State :=
  { initial (.fixed true []) with
    maker := Maker.empty.setReply (settings.feedRequest feed).url (.ok body) }

theorem replyAt_publishing (settings : Settings) (feed : Feed) (body : Json) :
    (publishing settings feed body).maker.replyAt (settings.feedRequest feed).url = .ok body := by
  simp [publishing, Maker.setReply, Maker.replyAt, Maker.lookup]

def pairListing (name base quote : String) : Json :=
  .object [("pairs", .object [(name, .object [("base", .string base), ("quote", .string quote)])])]

theorem isFaithful_cycle_iff_own_name :
    (publishing .brisk .pairs (pairListing "A/B" "A" "B")).maker.replyAt
        (Settings.brisk.feedRequest .pairs).url = .ok (pairListing "A/B" "A" "B") ∧
      ∃ t, Listing.pairs (pairListing "A/B" "A" "B") = .ok t ∧
        (Settings.brisk.behaviour.cycle .pairs 0
          (publishing .brisk .pairs (pairListing "A/B" "A" "B"))).pairs.IsFaithful := by
  have hreply := replyAt_publishing .brisk .pairs (pairListing "A/B" "A" "B")
  obtain ⟨t, ht, hentries⟩ := Listing.exists_ok_of_entries
    (Listing.pairs (pairListing "A/B" "A" "B")) [("A/B", ⟨"A", "B", .zero⟩)]
    (by decide +kernel)
  refine ⟨hreply, t, ht, (isFaithful_cycle_iff hreply ht).mpr ?_⟩
  rw [hentries]
  decide +kernel

/-- A pair of C and D that is listed as A/B is found for A and B, with A for its base. -/
theorem not_isFaithful_misnamed :
    ¬ ∀ (settings : Settings) (w : State) (now : Nat) (body : Json) (t : Table Pair),
      w.maker.replyAt (settings.feedRequest .pairs).url = .ok body → Listing.pairs body = .ok t →
      (settings.behaviour.cycle .pairs now w).pairs.IsFaithful := by
  intro h
  obtain ⟨t, ht, -⟩ := Listing.exists_ok_of_entries
    (Listing.pairs (pairListing "A/B" "C" "D")) [("A/B", ⟨"C", "D", .zero⟩)]
    (by decide +kernel)
  have hfaithful := h .brisk (publishing .brisk .pairs (pairListing "A/B" "C" "D")) 0 _ t
    (replyAt_publishing .brisk .pairs _) ht
  have hfound : (Settings.brisk.behaviour.cycle .pairs 0
      (publishing .brisk .pairs (pairListing "A/B" "C" "D"))).pairs.find? "A" "B" =
        some (⟨"C", "D", .zero⟩, true) := by decide +kernel
  exact absurd (hfaithful.forward "A" "B" _ hfound).1 (by decide)

theorem normal_of_listed {t : Table TokenEntry} {key : String} {token : Token}
    (h : (t.mapValues TokenEntry.toToken).find? key = some token) :
    Text.normalize token.address = token.address := by
  rw [Table.find?_mapValues] at h
  obtain ⟨e, -, rfl⟩ := Option.map_eq_some_iff.mp h
  exact Text.normalize_normalize e.address

theorem hasOwnAddresses_mapValues_iff {t : Table TokenEntry} :
    TokenDirectory.HasOwnAddresses (t.mapValues TokenEntry.toToken) ↔
      ∀ e ∈ t.entries, ∀ e' ∈ t.entries,
        Text.normalize e.2.address = Text.normalize e'.2.address → e = e' := by
  constructor
  · intro h e he e' he' haddress
    have hsame := h _ (List.mem_map_of_mem he) _ (List.mem_map_of_mem he') haddress
    have hkey : e.1 = e'.1 := (Prod.mk.inj hsame).1
    have hfind := Table.find?_eq_some_iff.mpr he
    rw [hkey, Table.find?_eq_some_iff.mpr he'] at hfind
    exact Prod.ext hkey (Option.some.inj hfind).symm
  · intro h x hx x' hx' haddress
    obtain ⟨e, he, rfl⟩ := List.mem_map.mp hx
    obtain ⟨e', he', rfl⟩ := List.mem_map.mp hx'
    rw [h e he e' he' haddress]

/-- A cycle of the tokens installs two indexes that agree, in whatever order the tokens come into the
second one, exactly if each token is listed under its symbol and no two of them share an address. -/
theorem agrees_cycle_iff {t : Table TokenEntry}
    (hreply : w.maker.replyAt (settings.feedRequest .tokens).url = .ok body)
    (hbody : Listing.tokens body = .ok t) :
    let d := (settings.behaviour.cycle .tokens now w).tokens
    d.addresses = TokenDirectory.addressIndex d.tokens.entries ∧
      ∀ order, order.Perm d.tokens.entries →
        (TokenDirectory.Agrees d.tokens (TokenDirectory.addressIndex order) ↔
          (∀ e ∈ t.entries, e.2.symbol = e.1) ∧
          ∀ e ∈ t.entries, ∀ e' ∈ t.entries,
            Text.normalize e.2.address = Text.normalize e'.2.address → e = e') := by
  intro d
  refine ⟨d.addresses_eq, fun order hperm => ?_⟩
  have hd : d.tokens = t.mapValues TokenEntry.toToken :=
    congrArg TokenDirectory.tokens (tokens_cycle hreply hbody)
  rw [hd] at hperm ⊢
  rw [TokenDirectory.agrees_addressIndex_iff hperm fun key token => normal_of_listed,
    hasOwnAddresses_mapValues_iff]
  refine and_congr_left fun _ => ⟨fun h e he => ?_, fun h key token htoken => ?_⟩
  · exact h e.1 e.2.toToken (Table.find?_eq_some_iff.mpr (List.mem_map_of_mem he))
  · rw [Table.find?_mapValues] at htoken
    obtain ⟨e, he, rfl⟩ := Option.map_eq_some_iff.mp htoken
    exact h (key, e) (Table.find?_eq_some_iff.mp he)

def tokenListing (tokens : List (String × String × String)) : Json :=
  .object [("tokens", .object (tokens.map fun (key, symbol, address) =>
    (key, .object [("symbol", .string symbol), ("name", .string symbol),
      ("address", .string address), ("decimals", .number (.integer 6))])))]

def oneAddress : String := "0x1111111111111111111111111111111111111111"

def otherAddress : String := "0xAAAAAAAAAAAAAAAAAAAAAAAAAAAAAAAAAAAAAAAA"

/-- Two tokens under their symbols, taken into the index by address in the reverse order. -/
theorem agrees_cycle_iff_reversed :
    let body := tokenListing [("A", "A", oneAddress), ("B", "B", otherAddress)]
    let d := (Settings.brisk.behaviour.cycle .tokens 0 (publishing .brisk .tokens body)).tokens
    (publishing .brisk .tokens body).maker.replyAt (Settings.brisk.feedRequest .tokens).url =
        .ok body ∧
      (∃ t, Listing.tokens body = .ok t) ∧ d.tokens.entries.reverse.Perm d.tokens.entries ∧
      TokenDirectory.Agrees d.tokens
        (TokenDirectory.addressIndex d.tokens.entries.reverse) := by
  intro body d
  have hreply := replyAt_publishing .brisk .tokens body
  obtain ⟨t, ht, hentries⟩ := Listing.exists_ok_of_entries (Listing.tokens body)
    [("A", ⟨"A", "A", "", oneAddress, 6, ""⟩), ("B", ⟨"B", "B", "", otherAddress, 6, ""⟩)]
    (by decide +kernel)
  refine ⟨hreply, ⟨t, ht⟩, List.reverse_perm _, ?_⟩
  refine ((agrees_cycle_iff hreply ht).2 _ (List.reverse_perm _)).mpr ?_
  rw [hentries]
  decide +kernel

/-- A token that is listed under another symbol than its own is not found under its symbol. -/
theorem not_agrees_misnamed :
    ¬ ∀ (settings : Settings) (w : State) (now : Nat) (body : Json) (t : Table TokenEntry),
      w.maker.replyAt (settings.feedRequest .tokens).url = .ok body → Listing.tokens body = .ok t →
      let d := (settings.behaviour.cycle .tokens now w).tokens
      TokenDirectory.Agrees d.tokens d.addresses := by
  intro h
  let body := tokenListing [("A", "B", oneAddress)]
  obtain ⟨t, ht, -⟩ := Listing.exists_ok_of_entries (Listing.tokens body)
    [("A", ⟨"B", "B", "", oneAddress, 6, ""⟩)] (by decide +kernel)
  have hagrees := h .brisk (publishing .brisk .tokens body) 0 body t
    (replyAt_publishing .brisk .tokens body) ht
  have hfound : (Settings.brisk.behaviour.cycle .tokens 0
      (publishing .brisk .tokens body)).tokens.tokens.find? "A" =
        some ⟨oneAddress, "B", "B", "", 6, ""⟩ := by decide +kernel
  exact absurd (hagrees.symbol "A" _ hfound) (by decide)

end State
end QuoteDesk
