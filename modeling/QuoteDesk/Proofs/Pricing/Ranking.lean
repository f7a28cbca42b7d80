import Mathlib.Data.List.Nodup
import QuoteDesk.Proofs.Decimal.Value
import QuoteDesk.Proofs.Pricing.Direction
/-!
The pools of a token by liquidity. A sort keeps the order of what ties, and directories are kept in the order
of their names, so of equally liquid pairs the one with the smaller name comes first. That leaves one order
of the pairs of a symbol. Main statement: the pools are the first ones of that order, up to the limit.
-/
namespace QuoteDesk

section

variable {α : Type} {le : α → α → Bool} {l : List α}

/-- Elements that all tie keep their order in a sort. -/
theorem filter_mergeSort_of_ties (htrans : ∀ a b c, le a b = true → le b c = true → le a c = true)
    (htotal : ∀ a b, (le a b || le b a) = true) {p : α → Bool}
    (hties : ∀ a b, p a = true → p b = true → le a b = true) :
    (l.mergeSort le).filter p = l.filter p := by
  have hsorted : (l.filter p).Pairwise fun a b => le a b = true :=
    List.pairwise_of_forall_mem_list fun a ha b hb =>
      hties a b (List.mem_filter.mp ha).2 (List.mem_filter.mp hb).2
  have hkept : ((l.filter p).filter p).Sublist ((l.mergeSort le).filter p) :=
    (List.sublist_mergeSort htrans htotal hsorted List.filter_sublist).filter p
  simp only [List.filter_filter, Bool.and_self] at hkept
  exact (hkept.eq_of_length ((List.mergeSort_perm l le).filter p).length_eq.symm).symm

theorem pairwise_mergeSort_of_pairwise
    (htrans : ∀ a b c, le a b = true → le b c = true → le a c = true)
    (htotal : ∀ a b, (le a b || le b a) = true) {r : α → α → Prop} (h : l.Pairwise r) :
    (l.mergeSort le).Pairwise fun a b => le a b = true ∧ (le b a = true → r a b) := by
  have hrefl : ∀ a, le a a = true := fun a => by
    have hor := htotal a a
    rwa [Bool.or_self] at hor
  rw [List.pairwise_iff_forall_sublist]
  intro a b hpair
  have hle := List.pairwise_iff_forall_sublist.mp (List.pairwise_mergeSort htrans htotal l) hpair
  refine ⟨hle, fun hback => ?_⟩
  let ties : α → Bool := fun c => le a c && le c a
  have hties : ∀ c d, ties c = true → ties d = true → le c d = true := by
    intro c d hc hd
    exact htrans c a d (Bool.and_eq_true_iff.mp hc).2 (Bool.and_eq_true_iff.mp hd).1
  have hkept : ([a, b].filter ties).Sublist ((l.mergeSort le).filter ties) := hpair.filter ties
  rw [filter_mergeSort_of_ties htrans htotal hties, List.filter_cons_of_pos (by simp [ties, hrefl]),
    List.filter_cons_of_pos (by simp [ties, hle, hback]), List.filter_nil] at hkept
  exact List.pairwise_iff_forall_sublist.mp h (hkept.trans List.filter_sublist)

end

/-- A listed pair comes before another one with less liquidity, and before one with as much by name. -/
def Outranks (e f : String × Pair) : Prop :=
  f.2.liquidity.value < e.2.liquidity.value ∨
    e.2.liquidity.value = f.2.liquidity.value ∧ e.1 < f.1

namespace Outranks

variable {e f : String × Pair}

instance : Decidable (Outranks e f) := inferInstanceAs (Decidable (_ ∨ _ ∧ _))

theorem asymm (h : Outranks e f) : ¬ Outranks f e := by
  rintro (hless | ⟨heq, hname⟩)
  · rcases h with hmore | ⟨heq, -⟩
    · exact lt_asymm hless hmore
    · exact hless.ne heq
  · rcases h with hmore | ⟨-, hname'⟩
    · exact hmore.ne heq
    · exact String.lt_asymm hname hname'

instance : Std.Irrefl Outranks := ⟨fun _ h => h.asymm h⟩

theorem liquidity_le (h : Outranks e f) : f.2.liquidity.value ≤ e.2.liquidity.value := by
  rcases h with hmore | ⟨heq, -⟩
  · exact hmore.le
  · exact heq.ge

end Outranks

namespace Market

variable {m : Market} {symbol address : String} {ranking other : List (String × Pair)} {t : Token}

/-- All listed pairs of a symbol, each after those that outrank it. -/
structure IsRanking (m : Market) (symbol : String) (ranking : List (String × Pair)) : Prop where
  mem_iff : ∀ name p, (name, p) ∈ ranking ↔
    m.pairs.named? name = some p ∧ (p.base = symbol ∨ p.quote = symbol)
  ordered : ranking.Pairwise Outranks

theorem IsRanking.unique (h : m.IsRanking symbol ranking) (hother : m.IsRanking symbol other) :
    other = ranking := by
  have hperm : other.Perm ranking :=
    (List.perm_ext_iff_of_nodup hother.ordered.nodup h.ordered.nodup).mpr fun e =>
      (hother.mem_iff e.1 e.2).trans (h.mem_iff e.1 e.2).symm
  exact List.Perm.eq_of_pairwise (fun _ _ _ _ hef hfe => absurd hfe hef.asymm) hother.ordered
    h.ordered hperm

def pairsOf (m : Market) (symbol : String) : List (String × Pair) :=
  m.pairs.pairs.entries.filter fun e => e.2.involves symbol

theorem isRanking_of_perm (h : ranking.Perm (m.pairsOf symbol)) (hordered : ranking.Pairwise Outranks) :
    m.IsRanking symbol ranking where
  mem_iff name p := by
    rw [h.mem_iff, pairsOf, List.mem_filter, ← Table.find?_eq_some_iff, Pair.involves, Bool.or_eq_true,
      beq_iff_eq, beq_iff_eq]
    exact Iff.rfl
  ordered := hordered

def ranked (m : Market) (symbol : String) : List (String × Pair) :=
  (m.pairsOf symbol).mergeSort fun e f => Decimal.le f.2.liquidity e.2.liquidity

theorem isRanking_ranked (m : Market) (symbol : String) :
    m.IsRanking symbol (m.ranked symbol) := by
  refine isRanking_of_perm (List.mergeSort_perm _ _) ?_
  have htrans : ∀ d e f : String × Pair, Decimal.le e.2.liquidity d.2.liquidity = true →
      Decimal.le f.2.liquidity e.2.liquidity = true →
      Decimal.le f.2.liquidity d.2.liquidity = true := by
    intro d e f hde hef
    exact Decimal.le_iff.mpr ((Decimal.le_iff.mp hef).trans (Decimal.le_iff.mp hde))
  have htotal : ∀ e f : String × Pair, (Decimal.le f.2.liquidity e.2.liquidity ||
      Decimal.le e.2.liquidity f.2.liquidity) = true := by
    intro e f
    rw [Bool.or_eq_true, Decimal.le_iff, Decimal.le_iff]
    exact le_total _ _
  have hnames : (m.pairsOf symbol).Pairwise (·.1 < ·.1) := m.pairs.pairs.sorted.filter _
  refine (pairwise_mergeSort_of_pairwise htrans htotal hnames).imp ?_
  rintro e f ⟨hle, hties⟩
  rcases (Decimal.le_iff.mp hle).lt_or_eq with hless | heq
  · exact .inl hless
  · exact .inr ⟨heq.symm, hties (Decimal.le_iff.mpr heq.ge)⟩

theorem topPools_eq (h : m.tokens.ofAddress? address = some t) (limit : Nat) :
    m.topPools address limit =
      ((m.ranked t.symbol).take limit).map fun e => m.poolOf e.1 e.2 := by
  have hsorted := List.map_mergeSort (l := m.pairsOf t.symbol)
    (r := fun e f => Decimal.le f.2.liquidity e.2.liquidity)
    (s := fun a b => Decimal.le b.liquidity a.liquidity) (f := fun e => m.poolOf e.1 e.2)
    fun _ _ _ _ => rfl
  simp only [topPools, h]
  rw [List.map_take, ranked, hsorted]
  rfl

/-- The pools of a known token are those of its listed pairs in the only order by falling liquidity and then
by name, as many as the limit allows. So none comes twice, none that is left out has more liquidity than one
that is not, and a smaller limit cuts the answer to a larger one off. -/
theorem topPools_ranked (h : m.tokens.ofAddress? address = some t) :
    ∃ ranking, m.IsRanking t.symbol ranking ∧
      (∀ other, m.IsRanking t.symbol other → other = ranking) ∧
      (∀ limit, m.topPools address limit = (ranking.take limit).map fun e => m.poolOf e.1 e.2) ∧
      (∀ limit, (m.topPools address limit).length = min limit ranking.length) ∧
      (∀ limit, ((m.topPools address limit).map Pool.pair).Nodup) ∧
      (∀ limit, ∀ e ∈ ranking, e.1 ∉ (m.topPools address limit).map Pool.pair →
        ∀ p ∈ m.topPools address limit, e.2.liquidity.value ≤ p.liquidity.value) ∧
      ∀ limit limit', limit ≤ limit' → m.topPools address limit <+: m.topPools address limit' := by
  have hranking := m.isRanking_ranked t.symbol
  refine ⟨m.ranked t.symbol, hranking, fun _ => hranking.unique, topPools_eq h, ?length, ?once,
    ?omitted, ?cut⟩
  case length =>
    intro limit
    rw [topPools_eq h, List.length_map, List.length_take]
  case once =>
    intro limit
    have hnames : ((m.ranked t.symbol).map (·.1)).Nodup :=
      ((List.mergeSort_perm _ _).map _).nodup_iff.mpr
        (m.pairs.pairs.nodup_keys.sublist (List.filter_sublist.map _))
    rw [topPools_eq h, List.map_map]
    exact hnames.sublist ((List.take_sublist limit _).map _)
  case omitted =>
    intro limit e he hout p hp
    rw [topPools_eq h] at hout hp
    obtain ⟨f, hf, rfl⟩ := List.mem_map.mp hp
    have hdropped : e ∈ (m.ranked t.symbol).drop limit := by
      rw [← List.take_append_drop limit (m.ranked t.symbol), List.mem_append] at he
      refine he.resolve_left fun htaken => hout ?_
      rw [List.map_map]
      exact List.mem_map.mpr ⟨e, htaken, rfl⟩
    exact (hranking.ordered.rel_of_mem_take_of_mem_drop hf hdropped).liquidity_le
  case cut =>
    intro limit limit' hle
    rw [topPools_eq h, topPools_eq h]
    exact (List.take_prefix_take_left hle).map _

/-- Two of three pools: ten and 10.0 are as much, so the name decides which of them is left out. -/
theorem topPools_ranked_tie :
    let ten : Decimal := ⟨10, 0, by decide, by decide⟩
    let ten' : Decimal := ⟨100, 1, by decide, by decide⟩
    let twenty : Decimal := ⟨20, 0, by decide, by decide⟩
    let m : Market := ⟨⟨"desk", 1⟩, 0, smallTokens,
      ⟨.ofList [("C/A", ⟨"C", "A", ten⟩), ("D/A", ⟨"D", "A", twenty⟩), ("A/B", ⟨"A", "B", ten'⟩),
        ("B/C", ⟨"B", "C", twenty⟩)]⟩⟩
    m.tokens.ofAddress? firstToken.address = some firstToken ∧
      m.IsRanking "A" [("D/A", ⟨"D", "A", twenty⟩), ("A/B", ⟨"A", "B", ten'⟩), ("C/A", ⟨"C", "A", ten⟩)] ∧
      m.topPools firstToken.address 2 =
        [m.poolOf "D/A" ⟨"D", "A", twenty⟩, m.poolOf "A/B" ⟨"A", "B", ten'⟩] := by
  intro ten ten' twenty m
  have hknown : m.tokens.ofAddress? firstToken.address = some firstToken := by decide +kernel
  have hranking : m.IsRanking "A"
      [("D/A", ⟨"D", "A", twenty⟩), ("A/B", ⟨"A", "B", ten'⟩), ("C/A", ⟨"C", "A", ten⟩)] :=
    isRanking_of_perm (by decide +kernel) (by decide +kernel)
  obtain ⟨ranking, -, hunique, htop, -⟩ := topPools_ranked hknown
  obtain rfl := hunique _ hranking
  exact ⟨hknown, hranking, htop 2⟩

end Market
end QuoteDesk
