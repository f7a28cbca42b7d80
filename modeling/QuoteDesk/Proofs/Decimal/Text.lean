import QuoteDesk.Decimal.Text
import QuoteDesk.Proofs.Text.Blank
/-!
A printed decimal reads back as the same data, whatever its coefficient, scale and sign: every digit
that is printed fits, so reading never rounds. Printed are digits, a point and a minus sign only.
-/
namespace QuoteDesk

namespace Decimal

theorem le_ofDigitChars (ds : List Char) (n : Nat) : n ≤ Nat.ofDigitChars 10 ds n := by
  rw [Nat.ofDigitChars_eq_ofDigitChars_zero]
  have hone : 1 ≤ 10 ^ ds.length := Nat.one_le_pow _ _ (by decide)
  have hmul : 1 * n ≤ 10 ^ ds.length * n := Nat.mul_le_mul_right n hone
  omega

namespace Numeral

theorem push_whole_digit {n : Numeral} {c : Char} (hc : c.isDigit = true) (hfull : n.full = false)
    (hpoint : n.point = false) (hnext : 10 * n.magnitude + (c.toNat - '0'.toNat) < bound) :
    push n c = .ok { n with
      magnitude := 10 * n.magnitude + (c.toNat - '0'.toNat), started := true } := by
  simp only [push, hc, if_true, pushDigit, hfull, hpoint, Bool.false_eq_true, if_false]
  rw [if_pos hnext]

theorem push_fraction_digit {n : Numeral} {c : Char} (hc : c.isDigit = true)
    (hfull : n.full = false) (hpoint : n.point = true) (hscale : n.scale < maxScale)
    (hnext : 10 * n.magnitude + (c.toNat - '0'.toNat) < bound) :
    push n c = .ok { n with
      magnitude := 10 * n.magnitude + (c.toNat - '0'.toNat), scale := n.scale + 1,
      started := true } := by
  simp only [push, hc, if_true, pushDigit, hfull, hpoint, Bool.false_eq_true, if_false]
  rw [if_pos ⟨hscale, hnext⟩]

theorem foldlM_push_digits {n : Numeral} {ds : List Char} (hds : ∀ c ∈ ds, c.isDigit = true)
    (hfull : n.full = false) (hbound : Nat.ofDigitChars 10 ds n.magnitude < bound)
    (hscale : n.point = true → n.scale + ds.length ≤ maxScale) :
    ds.foldlM push n = .ok { n with
      magnitude := Nat.ofDigitChars 10 ds n.magnitude
      scale := if n.point then n.scale + ds.length else n.scale
      started := n.started || !ds.isEmpty } := by
  induction ds generalizing n with
  | nil =>
    simp
    rfl
  | cons c ds ih =>
    have hc : c.isDigit = true := hds c List.mem_cons_self
    have hrest : ∀ x ∈ ds, x.isDigit = true := fun x hx => hds x (List.mem_cons_of_mem c hx)
    rw [Nat.ofDigitChars_cons] at hbound ⊢
    have hnext : 10 * n.magnitude + (c.toNat - '0'.toNat) < bound :=
      Nat.lt_of_le_of_lt (le_ofDigitChars ds _) hbound
    rw [List.foldlM_cons]
    cases hpoint : n.point with
    | false =>
      rw [push_whole_digit hc hfull hpoint hnext]
      refine (ih (n := { n with
        magnitude := 10 * n.magnitude + (c.toNat - '0'.toNat), started := true })
        hrest hfull hbound (by simp [hpoint])).trans ?_
      simp [hpoint]
    | true =>
      have hplaces : n.scale + (ds.length + 1) ≤ maxScale := hscale hpoint
      have hlater : n.scale + 1 + ds.length ≤ maxScale := by omega
      have hplace : n.scale < maxScale := by omega
      rw [push_fraction_digit hc hfull hpoint hplace hnext]
      refine (ih (n := { n with
        magnitude := 10 * n.magnitude + (c.toNat - '0'.toNat), scale := n.scale + 1,
        started := true }) hrest hfull hbound fun _ => hlater).trans ?_
      have hlength : n.scale + 1 + ds.length = n.scale + (c :: ds).length := by
        rw [List.length_cons]
        omega
      simp [hpoint, hlength]

/-- A whole part, and a fraction after a point if there is one, where all digits fit. -/
theorem read_parts {whole fraction : List Char} (hwhole : ∀ c ∈ whole, c.isDigit = true)
    (hfraction : ∀ c ∈ fraction, c.isDigit = true) (hne : whole ≠ [])
    (hbound : Nat.ofDigitChars 10 (whole ++ fraction) 0 < bound)
    (hscale : fraction.length ≤ maxScale) :
    read (whole ++ if fraction = [] then [] else '.' :: fraction) =
      .ok ⟨Nat.ofDigitChars 10 (whole ++ fraction) 0, fraction.length, !fraction.isEmpty, true,
        false⟩ := by
  have hsum : Nat.ofDigitChars 10 (whole ++ fraction) 0 =
      Nat.ofDigitChars 10 fraction (Nat.ofDigitChars 10 whole 0) := Nat.ofDigitChars_append 0
  rw [hsum] at hbound ⊢
  have hfits : Nat.ofDigitChars 10 whole 0 < bound :=
    Nat.lt_of_le_of_lt (le_ofDigitChars fraction _) hbound
  have hfirst : whole.foldlM push start =
      .ok ⟨Nat.ofDigitChars 10 whole 0, 0, false, true, false⟩ := by
    rw [foldlM_push_digits hwhole rfl hfits (by nofun)]
    simp [start, hne]
  by_cases hempty : fraction = []
  · subst hempty
    rw [if_pos rfl, List.append_nil, read, hfirst]
    rfl
  · have hpoint : push ⟨Nat.ofDigitChars 10 whole 0, 0, false, true, false⟩ '.' =
        .ok ⟨Nat.ofDigitChars 10 whole 0, 0, true, true, false⟩ := rfl
    have hsecond : fraction.foldlM push ⟨Nat.ofDigitChars 10 whole 0, 0, true, true, false⟩ =
        .ok ⟨Nat.ofDigitChars 10 fraction (Nat.ofDigitChars 10 whole 0), fraction.length, true, true,
          false⟩ := by
      rw [foldlM_push_digits hfraction rfl hbound (by simpa using hscale)]
      simp
    have hrest : ('.' :: fraction).foldlM push ⟨Nat.ofDigitChars 10 whole 0, 0, false, true, false⟩ =
        .ok ⟨Nat.ofDigitChars 10 fraction (Nat.ofDigitChars 10 whole 0), fraction.length, true, true,
          false⟩ := by
      rw [List.foldlM_cons, hpoint]
      exact hsecond
    have hfold : (whole ++ '.' :: fraction).foldlM push start =
        .ok ⟨Nat.ofDigitChars 10 fraction (Nat.ofDigitChars 10 whole 0), fraction.length, true, true,
          false⟩ := by
      rw [List.foldlM_append, hfirst]
      exact hrest
    have hsome : (!fraction.isEmpty) = true := by simp [hempty]
    rw [if_neg hempty, read, hfold, hsome]
    rfl

end Numeral

def paddedDigits (d : Decimal) : List Char :=
  List.replicate (d.scale + 1 - (Nat.toDigits 10 d.coefficient.natAbs).length) '0' ++
    Nat.toDigits 10 d.coefficient.natAbs

def wholeDigits (d : Decimal) : List Char :=
  d.paddedDigits.take (d.paddedDigits.length - d.scale)

def fractionDigits (d : Decimal) : List Char :=
  d.paddedDigits.drop (d.paddedDigits.length - d.scale)

variable (d : Decimal)

theorem scale_lt_length_paddedDigits : d.scale < d.paddedDigits.length := by
  rw [paddedDigits, List.length_append, List.length_replicate]
  omega

theorem length_fractionDigits : d.fractionDigits.length = d.scale := by
  have := d.scale_lt_length_paddedDigits
  rw [fractionDigits, List.length_drop]
  omega

theorem wholeDigits_ne_nil : d.wholeDigits ≠ [] := by
  have := d.scale_lt_length_paddedDigits
  apply List.ne_nil_of_length_pos
  rw [wholeDigits, List.length_take]
  omega

theorem wholeDigits_append_fractionDigits : d.wholeDigits ++ d.fractionDigits = d.paddedDigits :=
  List.take_append_drop _ _

theorem ofDigitChars_paddedDigits :
    Nat.ofDigitChars 10 d.paddedDigits 0 = d.coefficient.natAbs := by
  rw [paddedDigits, Nat.ofDigitChars_append, Nat.ofDigitChars_replicate_zero, Nat.mul_zero,
    Nat.ofDigitChars_ten_toDigits]

theorem isDigit_of_mem_paddedDigits {c : Char} (h : c ∈ d.paddedDigits) : c.isDigit = true := by
  rcases List.mem_append.mp h with hzero | hdigit
  · rw [List.eq_of_mem_replicate hzero]
    rfl
  · exact Nat.isDigit_of_mem_toDigits (by decide) (by decide) hdigit

theorem fractionDigits_eq_nil_iff : d.fractionDigits = [] ↔ d.scale = 0 := by
  rw [← List.length_eq_zero_iff, length_fractionDigits]

theorem printChars_eq : d.printChars = (if d.isNegative then ['-'] else []) ++ (d.wholeDigits ++
    if d.fractionDigits = [] then [] else '.' :: d.fractionDigits) := by
  simp only [fractionDigits_eq_nil_iff]
  unfold printChars wholeDigits fractionDigits paddedDigits
  rw [List.append_assoc]

theorem mem_printChars {c : Char} (h : c ∈ d.printChars) : c.isDigit = true ∨ c = '-' ∨ c = '.' := by
  rw [printChars_eq] at h
  rcases List.mem_append.mp h with hsign | h
  · split at hsign
    · exact .inr (.inl (List.mem_singleton.mp hsign))
    · cases hsign
  · rcases List.mem_append.mp h with hwhole | h
    · exact .inl (d.isDigit_of_mem_paddedDigits (List.mem_of_mem_take hwhole))
    · split at h
      · cases h
      · rcases List.mem_cons.mp h with hpoint | hfraction
        · exact .inr (.inr hpoint)
        · exact .inl (d.isDigit_of_mem_paddedDigits (List.mem_of_mem_drop hfraction))

theorem readPlainChars_of_digit {c : Char} {cs : List Char} (h : c.isDigit = true) :
    readPlainChars (c :: cs) = Numeral.read (c :: cs) >>= ofNumeral false := by
  unfold readPlainChars
  split
  · next heq => cases heq
  · next heq =>
    cases heq
    cases h
  · next heq =>
    cases heq
    cases h
  · rfl

theorem readPlainChars_printChars : readPlainChars d.printChars = .ok d := by
  have hdigits : Numeral.read (d.wholeDigits ++
      if d.fractionDigits = [] then [] else '.' :: d.fractionDigits) =
      .ok ⟨d.coefficient.natAbs, d.scale, !d.fractionDigits.isEmpty, true, false⟩ := by
    have hwhole : ∀ c ∈ d.wholeDigits, c.isDigit = true :=
      fun c hc => d.isDigit_of_mem_paddedDigits (List.mem_of_mem_take hc)
    have hfraction : ∀ c ∈ d.fractionDigits, c.isDigit = true :=
      fun c hc => d.isDigit_of_mem_paddedDigits (List.mem_of_mem_drop hc)
    have hbound : Nat.ofDigitChars 10 (d.wholeDigits ++ d.fractionDigits) 0 < bound := by
      rw [wholeDigits_append_fractionDigits, ofDigitChars_paddedDigits]
      exact d.coefficient_lt
    have hscale : d.fractionDigits.length ≤ maxScale := by
      rw [length_fractionDigits]
      exact d.scale_le
    have hread := Numeral.read_parts hwhole hfraction d.wholeDigits_ne_nil hbound hscale
    rw [wholeDigits_append_fractionDigits, ofDigitChars_paddedDigits, length_fractionDigits] at hread
    exact hread
  have hparts := ofParts?_self d
  rw [printChars_eq]
  cases hneg : d.isNegative with
  | true =>
    have hlt : d.coefficient < 0 := by simpa [isNegative] using hneg
    have habs : -(d.coefficient.natAbs : Int) = d.coefficient := by omega
    rw [if_pos rfl, List.singleton_append]
    change Numeral.read _ >>= ofNumeral true = _
    rw [hdigits]
    change ofNumeral true _ = _
    simp only [ofNumeral, if_true, habs, hparts]
  | false =>
    have hge : ¬ d.coefficient < 0 := by simpa [isNegative] using hneg
    have habs : (d.coefficient.natAbs : Int) = d.coefficient := by omega
    have hread : readPlainChars (d.wholeDigits ++
        if d.fractionDigits = [] then [] else '.' :: d.fractionDigits) =
        Numeral.read (d.wholeDigits ++
          if d.fractionDigits = [] then [] else '.' :: d.fractionDigits) >>= ofNumeral false := by
      have hall : ∀ c ∈ d.wholeDigits, c.isDigit = true :=
        fun c hc => d.isDigit_of_mem_paddedDigits (List.mem_of_mem_take hc)
      cases hwhole : d.wholeDigits with
      | nil => exact absurd hwhole d.wholeDigits_ne_nil
      | cons c cs => exact readPlainChars_of_digit (hall c (by simp [hwhole]))
    rw [if_neg (by simp), List.nil_append, hread, hdigits]
    change ofNumeral false _ = _
    simp [ofNumeral, habs, hparts]

theorem not_isExponentMark {c : Char} (h : c.isDigit = true ∨ c = '-' ∨ c = '.') :
    isExponentMark c = false := by
  rcases h with hdigit | rfl | rfl
  · cases hmark : isExponentMark c with
    | false => rfl
    | true =>
      have hc : c = 'e' ∨ c = 'E' := by simpa [isExponentMark] using hmark
      rcases hc with rfl | rfl <;> cases hdigit
  · rfl
  · rfl

/-- A printed decimal reads back with its scale. -/
theorem read_print : read d.print = .ok d := by
  have hblank : ∀ c ∈ d.printChars, Text.isBlank c = false := by
    intro c hc
    rcases d.mem_printChars hc with hdigit | rfl | rfl
    · exact Text.isBlank_of_isDigit hdigit
    · rfl
    · rfl
  have hmark : d.printChars.any isExponentMark = false := by
    rw [List.any_eq_false]
    intro c hc
    simp [not_isExponentMark (d.mem_printChars hc)]
  have hchars : d.print.toList = d.printChars := String.toList_ofList
  rw [read, hchars, Text.trimChars_of_no_blank hblank, readChars, hmark]
  exact d.readPlainChars_printChars

end Decimal
end QuoteDesk
