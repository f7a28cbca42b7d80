import QuoteDesk.Proofs.Cache.Books
import QuoteDesk.Proofs.Pricing.Direction
/-!
Filters of pool names. A filter is trimmed and lowered before it is compared with the names of the pools
of a swap, while a name is lowered only, so a desk key that begins with a blank makes names that nothing
matches. Main statement: the names that a desk gives out, in any spelling, let their swap pass exactly if
the key of the desk does not begin with a blank; a filter that matches neither name never does.
-/
namespace QuoteDesk

section

variable (dexKey src dest : String)

theorem toList_poolName : (poolName dexKey src dest).toList =
    Text.lowerChars ((dexKey.toList ++ '_' :: src.toList) ++ '_' :: dest.toList) := by
  have hmark : "_".toList = ['_'] := rfl
  simp only [poolName, Text.toList_lower, String.toList_append, hmark, List.append_assoc,
    List.cons_append, List.nil_append]

theorem opensBlank_poolName : Text.opensBlank (poolName dexKey src dest) = Text.opensBlank dexKey := by
  rw [Text.opensBlank, Text.opensBlank, toList_poolName]
  cases dexKey.toList with
  | nil => rfl
  | cons c cs => exact Text.isBlank_toLower c

theorem getLast?_poolName (hdest : Text.normalize dest = dest) :
    (poolName dexKey src dest).toList.getLast?.any Text.isBlank = false := by
  have hlast : dest.toList.getLast?.any Text.isBlank = false := by
    rw [← hdest, Text.toList_normalize, ← Text.trimChars_lowerChars]
    exact Text.getLast?_trimChars _
  have hmark : Text.lowerChars ('_' :: dest.toList) = '_' :: dest.toList :=
    congrArg ('_' :: ·) (Text.lower_eq_of_normal hdest)
  rw [toList_poolName, Text.lowerChars_append, hmark,
    List.getLast?_append_of_ne_nil _ (List.cons_ne_nil _ _)]
  cases hchars : dest.toList with
  | nil => rfl
  | cons c cs => rwa [List.getLast?_cons_cons, ← hchars]

theorem normalize_poolName (hkey : Text.opensBlank dexKey = false)
    (hdest : Text.normalize dest = dest) :
    Text.normalize (poolName dexKey src dest) = poolName dexKey src dest := by
  apply String.toList_inj.mp
  have hfirst := opensBlank_poolName dexKey src dest
  rw [hkey] at hfirst
  rw [Text.toList_normalize, Text.trimChars_eq_self hfirst (getLast?_poolName dexKey src dest hdest),
    toList_poolName, Text.lowerChars_lowerChars]

theorem normalize_ne_poolName (hkey : Text.opensBlank dexKey = true) (s : String) :
    Text.normalize s ≠ poolName dexKey src dest := by
  intro h
  have hfirst := opensBlank_poolName dexKey src dest
  rw [← h, Text.opensBlank_normalize, hkey] at hfirst
  cases hfirst

end

namespace Market

variable {m : Market} {src dest : String} {r : Route}

theorem passes_some_iff (r : Route) (dexKey : String) (limit : List String) :
    r.passes dexKey (some limit) = true ↔ ∃ p ∈ limit,
      Text.normalize p = poolName dexKey r.src.address r.dest.address ∨
        Text.normalize p = poolName dexKey r.dest.address r.src.address := by
  simp only [Route.passes, List.any_eq_true, Bool.or_eq_true, beq_iff_eq]

theorem normal_of_ofAddress? {d : TokenDirectory} {address : String} {t : Token}
    (h : d.ofAddress? address = some t) : Text.normalize t.address = t.address := by
  obtain ⟨haddress, -⟩ := TokenDirectory.exists_of_ofAddress? h
  rw [haddress, Text.normalize_normalize]

theorem poolNames_of_route (hr : m.route? src dest = some r) :
    m.poolNames src dest = [poolName m.scope.dexKey r.src.address r.dest.address] := by
  simp only [poolNames, hr]

theorem poolNames_reverse (hr : m.route? src dest = some r) :
    m.poolNames dest src = [poolName m.scope.dexKey r.dest.address r.src.address] := by
  obtain ⟨hsrc, hdest, hfind⟩ := route?_eq_some_iff.mp hr
  have hback : (m.pairs.find? r.dest.symbol r.src.symbol).isSome = true := by
    rw [PairDirectory.isSome_find?_comm, hfind]
    rfl
  obtain ⟨⟨p, srcIsBase⟩, hfound⟩ := Option.isSome_iff_exists.mp hback
  exact poolNames_of_route (r := ⟨r.dest, r.src, p, srcIsBase⟩)
    (route?_eq_some_iff.mpr ⟨hdest, hsrc, hfound⟩)

theorem passes_of_respelled (hr : m.route? src dest = some r)
    (hkey : Text.opensBlank m.scope.dexKey = false) {limit : List String}
    (hlimit : List.Forall₂ Text.Respells limit (m.poolNames src dest) ∨
      List.Forall₂ Text.Respells limit (m.poolNames dest src)) :
    r.passes m.scope.dexKey (some limit) = true := by
  obtain ⟨hsrc, hdest, -⟩ := route?_eq_some_iff.mp hr
  rw [poolNames_of_route hr, poolNames_reverse hr] at hlimit
  rw [passes_some_iff]
  rcases hlimit with hlimit | hlimit
  · obtain ⟨p, _, hp, -, rfl⟩ := List.forall₂_cons_right_iff.mp hlimit
    refine ⟨p, List.mem_cons_self, .inl ?_⟩
    rw [hp.normalize_eq, normalize_poolName _ _ _ hkey (normal_of_ofAddress? hdest)]
  · obtain ⟨p, _, hp, -, rfl⟩ := List.forall₂_cons_right_iff.mp hlimit
    refine ⟨p, List.mem_cons_self, .inr ?_⟩
    rw [hp.normalize_eq, normalize_poolName _ _ _ hkey (normal_of_ofAddress? hsrc)]

variable {cache : Cache} {now : Nat} {amounts : List Units} {side : SwapSide} {limit : List String}

theorem prices_of_not_passes
    (h : ∀ r, m.route? src dest = some r → r.passes m.scope.dexKey (some limit) = false) :
    m.prices cache now src dest amounts side (some limit) = (.ok none, cache) := by
  unfold prices
  cases hr : m.route? src dest with
  | none => rfl
  | some r => simp only [h r hr, Bool.false_eq_true, if_false]

/-- With a blank in front of the key there is no filter at all that anything passes. -/
theorem prices_of_opensBlank (hkey : Text.opensBlank m.scope.dexKey = true) :
    m.prices cache now src dest amounts side (some limit) = (.ok none, cache) := by
  refine prices_of_not_passes fun r _ => Bool.eq_false_iff.mpr fun hpasses => ?_
  obtain ⟨p, -, hp | hp⟩ := (passes_some_iff _ _ _).mp hpasses
  · exact normalize_ne_poolName _ _ _ hkey p hp
  · exact normalize_ne_poolName _ _ _ hkey p hp

theorem prices_of_passes
    (h : ∀ r, m.route? src dest = some r → r.passes m.scope.dexKey (some limit) = true) :
    m.prices cache now src dest amounts side (some limit) =
      m.prices cache now src dest amounts side none := by
  unfold prices
  cases hr : m.route? src dest with
  | none => rfl
  | some r =>
    have hnone : r.passes m.scope.dexKey none = true := rfl
    simp only [h r hr, hnone]

end Market

/-- The names of the pools of a swap, of either direction and in any spelling, make a filter that does not
count, and a filter that matches none of them leaves no price: in every market and from every cache. -/
def Scope.HonoursPoolNames (s : Scope) : Prop :=
  ∀ (m : Market), m.scope = s → ∀ (cache : Cache) (now : Nat) (src dest : String)
    (amounts : List Units) (side : SwapSide) (limit : List String),
    ((List.Forall₂ Text.Respells limit (m.poolNames src dest) ∨
        List.Forall₂ Text.Respells limit (m.poolNames dest src)) →
      m.prices cache now src dest amounts side (some limit) =
        m.prices cache now src dest amounts side none) ∧
    ((∀ p ∈ limit, Text.normalize p ∉ m.poolNames src dest ∧
        Text.normalize p ∉ m.poolNames dest src) →
      m.prices cache now src dest amounts side (some limit) = (.ok none, cache))

namespace Scope

open Market

theorem route?_small (s : Scope) :
    (small s).route? firstToken.address secondToken.address = some smallRoute := by
  have hfirst : smallTokens.ofAddress? firstToken.address = some firstToken := by decide +kernel
  have hsecond : smallTokens.ofAddress? secondToken.address = some secondToken := by decide +kernel
  have hfind : smallPairs.find? "A" "B" = some (⟨"A", "B", .zero⟩, true) := by decide +kernel
  exact route?_eq_some_iff.mpr ⟨hfirst, hsecond, hfind⟩

theorem exists_prices_small (s : Scope) : ∃ q, ((small s).prices (stocked s) 0 firstToken.address
    secondToken.address [] .sell none).1 = .ok (some q) := by
  have hread : ((stocked s).readBook 0 (small s).scope smallRoute.base.address
      smallRoute.quote.address (SwapSide.sell.bookSide smallRoute.srcIsBase)).1 = .ok firstBid :=
    Cache.empty.readBook_after_write s firstToken.address secondToken.address .bids 0 0 1000 firstBid
  have hpasses : smallRoute.passes (small s).scope.dexKey none = true := rfl
  simp only [prices, s.route?_small, hpasses, if_true, hread]
  exact ⟨_, rfl⟩

/-- The names that a desk gives out are honoured exactly if its key does not begin with a blank. -/
theorem honoursPoolNames_iff (s : Scope) :
    s.HonoursPoolNames ↔ Text.opensBlank s.dexKey = false := by
  constructor
  · intro h
    by_contra hkey
    rw [Bool.not_eq_false] at hkey
    obtain ⟨q, hquote⟩ := s.exists_prices_small
    obtain ⟨hnames, -⟩ := h (small s) rfl (stocked s) 0 firstToken.address secondToken.address []
      .sell ((small s).poolNames firstToken.address secondToken.address)
    have hsame := hnames (.inl (List.forall₂_same.mpr fun p _ => .refl p))
    rw [prices_of_opensBlank (m := small s) hkey] at hsame
    rw [← hsame] at hquote
    cases hquote
  · rintro hkey m rfl cache now src dest amounts side limit
    refine ⟨fun hlimit => prices_of_passes fun r hr => passes_of_respelled hr hkey hlimit,
      fun hlimit => prices_of_not_passes fun r hr => ?_⟩
    rw [poolNames_of_route hr, poolNames_reverse hr] at hlimit
    refine Bool.eq_false_iff.mpr fun hpasses => ?_
    obtain ⟨p, hp, hname | hname⟩ := (passes_some_iff _ _ _).mp hpasses
    · exact (hlimit p hp).1 (List.mem_singleton.mpr hname)
    · exact (hlimit p hp).2 (List.mem_singleton.mpr hname)

/-- One blank in front of the key, and there is no price for the very name that was given out. -/
theorem not_honoursPoolNames_indented : ¬ (⟨" dexalot", 43114⟩ : Scope).HonoursPoolNames := by
  intro h
  obtain ⟨hnames, -⟩ := h (small ⟨" dexalot", 43114⟩) rfl (stocked ⟨" dexalot", 43114⟩) 0
    firstToken.address secondToken.address [⟨1000000, by decide⟩] .sell
    ((small ⟨" dexalot", 43114⟩).poolNames firstToken.address secondToken.address)
  have hsame := hnames (.inl (List.forall₂_same.mpr fun p _ => .refl p))
  rw [prices_of_opensBlank (m := small ⟨" dexalot", 43114⟩) (by decide)] at hsame
  have hquoted : ((small ⟨" dexalot", 43114⟩).prices (stocked ⟨" dexalot", 43114⟩) 0
      firstToken.address secondToken.address [⟨1000000, by decide⟩] .sell none).1 ≠ .ok none := by
    decide +kernel
  exact hquoted (congrArg Prod.fst hsame).symm

end Scope
end QuoteDesk
