import QuoteDesk.Order.Slippage
import QuoteDesk.Proofs.Decimal.Value
import Mathlib.Algebra.Order.Floor.Semifield
import Mathlib.Data.Rat.Floor
/-!
The bound on slippage beside the product that it stands for. The product of an amount and a factor
always fits, and its fraction is cut off. Who buys is bound by the product itself, as amounts are
whole. Who sells is bound by the cut product: the maker may pay less than the product, though by less
than one smallest unit.
-/
namespace QuoteDesk

def Units.scaledBy (u : Units) (factor : Decimal) : ℚ := u.val * factor.value

variable {factor : Decimal}

theorem Units.scaledBy_eq (h : 0 ≤ factor.value) (u : Units) :
    u.scaledBy factor = (u.val * factor.coefficient.natAbs : Nat) / (factor.unit : ℚ) := by
  rw [scaledBy, Decimal.value_eq_natAbs_div h, Nat.cast_mul, mul_div_assoc]

theorem Units.scaledBy_nonneg (h : 0 ≤ factor.value) (u : Units) : 0 ≤ u.scaledBy factor :=
  mul_nonneg (Nat.cast_nonneg _) h

/-- An amount has 128 bits and a coefficient 96, so that their product has room in a word. -/
theorem Units.mul_natAbs_lt (u : Units) (factor : Decimal) :
    u.val * factor.coefficient.natAbs < Word.size := by
  refine lt_of_lt_of_le (Nat.mul_lt_mul'' u.val_lt factor.coefficient_lt) ?_
  decide

theorem scaleAmount_eq_floor (h : 0 ≤ factor.value) (amount : Units) :
    scaleAmount amount factor = .ok ⌊amount.scaledBy factor⌋₊ := by
  have hsign : ¬ factor.isNegative = true := by
    rw [Decimal.isNegative_iff, not_lt]
    exact h
  rw [scaleAmount, if_neg hsign, Word.ofNat?, dif_pos (amount.mul_natAbs_lt factor),
    Units.scaledBy_eq h, Nat.floor_div_eq_div]

theorem scaleAmount_of_neg (h : factor.value < 0) (amount : Units) :
    scaleAmount amount factor = .error (.negativeFactor factor) := by
  rw [scaleAmount, if_pos (Decimal.isNegative_iff.mpr h)]

/-- Scaling fails exactly for a negative factor, and the fault names the factor: no product overflows.
Otherwise it gives the whole part of the exact product. -/
theorem scaleAmount_exact (amount : Units) (factor : Decimal) :
    (∀ fault, scaleAmount amount factor = .error fault ↔
      factor.value < 0 ∧ fault = .negativeFactor factor) ∧
    (∀ a f, scaleAmount amount factor ≠ .error (.overflow a f)) ∧
    (∀ n, scaleAmount amount factor = .ok n ↔
      0 ≤ factor.value ∧ (n : Int) = ⌊amount.val * factor.value⌋) := by
  rcases lt_or_ge factor.value 0 with hneg | hnonneg
  · rw [scaleAmount_of_neg hneg]
    refine ⟨fun fault => ?_, nofun, fun n => ⟨nofun, fun hn => absurd hn.1 (not_le.mpr hneg)⟩⟩
    constructor
    · rintro ⟨⟩
      exact ⟨hneg, rfl⟩
    · rintro ⟨-, rfl⟩
      rfl
  · have hfloor : (⌊amount.scaledBy factor⌋₊ : Int) = ⌊amount.val * factor.value⌋ :=
      Int.natCast_floor_eq_floor (amount.scaledBy_nonneg hnonneg)
    rw [scaleAmount_eq_floor hnonneg, ← hfloor]
    refine ⟨fun fault => ⟨nofun, fun hneg => absurd hneg.1 (not_lt.mpr hnonneg)⟩, nofun, fun n => ?_⟩
    constructor
    · rintro ⟨⟩
      exact ⟨hnonneg, rfl⟩
    · rintro ⟨-, hn⟩
      rw [Int.ofNat_inj.mp hn]

theorem refuse_eq_ok_iff {ε : Type} {p : Prop} [Decidable p] {e : ε} :
    (if p then .error e else .ok ()) = (.ok () : Except ε Unit) ↔ ¬ p := by
  rw [ite_eq_right_iff]
  exact ⟨fun h hp => (nomatch h hp), fun h hp => absurd hp h⟩

namespace FirmOrder

variable {o : FirmOrder} {src dest : Units}

theorem checkSlippage_buy_iff (h : 0 ≤ factor.value) :
    o.checkSlippage .buy src dest factor = .ok () ↔
      o.takerAmount.val ≤ ⌊src.scaledBy factor⌋₊ := by
  simp only [checkSlippage, scaleAmount_eq_floor h]
  exact refuse_eq_ok_iff.trans not_lt

theorem checkSlippage_sell_iff (h : 0 ≤ factor.value) :
    o.checkSlippage .sell src dest factor = .ok () ↔
      ⌊dest.scaledBy factor⌋₊ ≤ o.makerAmount.val := by
  simp only [checkSlippage, scaleAmount_eq_floor h]
  exact refuse_eq_ok_iff.trans not_lt

/-- An order passes a buyer's check exactly if the taker gives at most the product. It passes a
seller's exactly if what the maker pays is less than one below the product. That is the product itself
as a bound unless the maker pays the whole part of a product that has a fraction. -/
theorem checkSlippage_eq_ok_iff (h : 0 ≤ factor.value) (o : FirmOrder) (src dest : Units) :
    (o.checkSlippage .buy src dest factor = .ok () ↔
      (o.takerAmount.val : ℚ) ≤ src.scaledBy factor) ∧
    (o.checkSlippage .sell src dest factor = .ok () ↔
      dest.scaledBy factor < o.makerAmount.val + 1) ∧
    ((o.checkSlippage .sell src dest factor = .ok () ↔
        dest.scaledBy factor ≤ o.makerAmount.val) ↔
      (o.makerAmount.val = ⌊dest.scaledBy factor⌋₊ →
        (o.makerAmount.val : ℚ) = dest.scaledBy factor)) := by
  have hnonneg := dest.scaledBy_nonneg h
  have hfloor := Nat.floor_le hnonneg
  rw [checkSlippage_buy_iff h, checkSlippage_sell_iff h, Nat.le_floor_iff (src.scaledBy_nonneg h)]
  refine ⟨Iff.rfl, ?below, ?product⟩
  case below =>
    rw [← Nat.lt_succ_iff, Nat.floor_lt hnonneg, Nat.cast_succ]
  case product =>
    constructor
    · intro hiff hpaid
      exact le_antisymm (hpaid ▸ hfloor) (hiff.mp hpaid.ge)
    · intro hwhole
      refine ⟨fun hle => ?_, fun hle => Nat.cast_le.mp (hfloor.trans hle)⟩
      rcases hle.eq_or_lt with heq | hlt
      · exact (hwhole heq.symm).ge
      · exact ((Nat.floor_lt hnonneg).mp hlt).le

def ofAmounts (makerAmount takerAmount : Word) : FirmOrder :=
  ⟨.zero, 0, .ofNat 1, .ofNat 2, .ofNat 3, .ofNat 4, makerAmount, takerAmount, []⟩

/-- Of 72 000 000 at 0.99 the bound is a whole amount: who sells gets it, who buys gives no more. -/
theorem checkSlippage_eq_ok_iff_whole :
    let factor : Decimal := ⟨99, 2, by decide, by decide⟩
    let shown : Units := ⟨72000000, by decide⟩
    let o := ofAmounts ⟨71280000, by decide⟩ ⟨71280001, by decide⟩
    0 ≤ factor.value ∧ o.checkSlippage .sell shown shown factor = .ok () ∧
      o.checkSlippage .buy shown shown factor ≠ .ok () := by
  intro factor shown o
  have hfactor : 0 ≤ factor.value := Decimal.value_nonneg_iff.mpr (by decide)
  have hbound : shown.scaledBy factor = 71280000 := by decide +kernel
  obtain ⟨hbuy, -, hsell⟩ := checkSlippage_eq_ok_iff hfactor o shown shown
  refine ⟨hfactor, (hsell.mpr fun _ => hbound.symm).mpr hbound.le, fun hpasses => ?_⟩
  exact absurd (hbuy.mp hpasses) (by rw [hbound]; decide +kernel)

/-- Three were shown at a factor of one half, and the maker may pay one. -/
theorem not_checkSlippage_eq_ok_iff : ¬ ∀ (o : FirmOrder) (src dest : Units) (factor : Decimal),
    0 ≤ factor.value →
    (o.checkSlippage .sell src dest factor = .ok () ↔
      dest.scaledBy factor ≤ o.makerAmount.val) ∧
    (o.checkSlippage .buy src dest factor = .ok () ↔
      (o.takerAmount.val : ℚ) ≤ src.scaledBy factor) := by
  intro hproduct
  let half : Decimal := ⟨5, 1, by decide, by decide⟩
  let shown : Units := ⟨3, by decide⟩
  let o := ofAmounts ⟨1, by decide⟩ ⟨1, by decide⟩
  have hhalf : 0 ≤ half.value := Decimal.value_nonneg_iff.mpr (by decide)
  have hpasses : o.checkSlippage .sell shown shown half = .ok () := by decide
  have hpaid := (hproduct o shown shown half hhalf).1.mp hpasses
  exact absurd hpaid (by decide +kernel)

end FirmOrder
end QuoteDesk
