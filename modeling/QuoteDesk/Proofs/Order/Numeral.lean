import QuoteDesk.Proofs.Order.Fields
import QuoteDesk.Proofs.Text.Digits
import Mathlib.Tactic.Ring
/-!
Numbers in a reply. A text is read as the number that its digits denote, in base 16 after a mark and in
base 10 otherwise. Main statement: an accepted order has the number that stands in the reply, except
that a text without any digit is read as zero.
-/
namespace QuoteDesk

namespace Text

def IsNumeral (base : Nat) (cs : List Char) : Prop :=
  ∀ c ∈ cs, c = '_' ∨ (digit? base c).isSome = true

def digitsOf (base : Nat) (cs : List Char) : List Nat := cs.filterMap (digit? base)

/-- The base of a number text, and what stands after its mark if it has one. -/
def unmark : List Char → Nat × List Char
  | '0' :: 'x' :: cs => (16, cs)
  | '0' :: 'X' :: cs => (16, cs)
  | cs => (10, cs)

section

variable {base : Nat} {c : Char} {cs : List Char} {ds : List Nat}

theorem digit?_underscore (base : Nat) : digit? base '_' = none := rfl

theorem digitsOf_underscore (base : Nat) (cs : List Char) :
    digitsOf base ('_' :: cs) = digitsOf base cs := List.filterMap_cons_none (digit?_underscore base)

theorem digitsOf_cons {d : Nat} (hd : digit? base c = some d) (cs : List Char) :
    digitsOf base (c :: cs) = d :: digitsOf base cs := List.filterMap_cons_some hd

theorem isNumeral_cons : IsNumeral base (c :: cs) ↔
    (c = '_' ∨ (digit? base c).isSome = true) ∧ IsNumeral base cs := List.forall_mem_cons

theorem le_foldl_digits (hbase : 0 < base) (ds : List Nat) (n : Nat) :
    n ≤ ds.foldl (fun n d => base * n + d) n := by
  induction ds generalizing n with
  | nil => exact Nat.le_refl n
  | cons d ds ih =>
    calc n ≤ base * n := Nat.le_mul_of_pos_left n hbase
      _ ≤ base * n + d := Nat.le_add_right _ d
      _ ≤ _ := ih (base * n + d)

theorem Spells.isNumeral (h : Spells base cs ds) : IsNumeral base cs := by
  intro c hc
  obtain ⟨d, -, hd⟩ := h.exists_digit hc
  exact .inr (Option.isSome_iff_exists.mpr ⟨d, hd⟩)

theorem ascii_of_isNumeral (h : IsNumeral base cs) : ∀ c ∈ cs, c.toNat < 128 := by
  intro c hc
  rcases h c hc with rfl | hd
  · decide
  · obtain ⟨d, hd⟩ := Option.isSome_iff_exists.mp hd
    exact toNat_lt_of_isHexDigit (isHexDigit_of_digit? hd)

theorem unmark_of_unmarked (hsmall : ∀ rest, cs = '0' :: 'x' :: rest → False)
    (hlarge : ∀ rest, cs = '0' :: 'X' :: rest → False) : unmark cs = (10, cs) := by
  unfold unmark
  split
  · exact absurd rfl (hsmall _)
  · exact absurd rfl (hlarge _)
  · rfl

theorem ascii_of_unmark (h : ∀ c ∈ (unmark cs).2, c.toNat < 128) : ∀ c ∈ cs, c.toNat < 128 := by
  have marked : ∀ x : Char, x.toNat < 128 → ∀ rest : List Char, (∀ c ∈ rest, c.toNat < 128) →
      ∀ c ∈ '0' :: x :: rest, c.toNat < 128 := by
    intro x hx rest hrest
    exact List.forall_mem_cons.mpr ⟨by decide, List.forall_mem_cons.mpr ⟨hx, hrest⟩⟩
  unfold unmark at h
  split at h
  · exact marked 'x' (by decide) _ h
  · exact marked 'X' (by decide) _ h
  · exact h

end

/-- A text denotes a number: it has nothing but digits and underscores after its mark, and these are the
digits of the number. Without any digit it denotes zero. -/
def Denotes (cs : List Char) (n : Nat) : Prop :=
  IsNumeral (unmark cs).1 (unmark cs).2 ∧
    ofDigits (unmark cs).1 (digitsOf (unmark cs).1 (unmark cs).2) = n

def IsDigitless (cs : List Char) : Prop := digitsOf (unmark cs).1 (unmark cs).2 = []

theorem Denotes.eq_zero {cs : List Char} {n : Nat} (h : Denotes cs n) (hcs : IsDigitless cs) :
    n = 0 := by
  rw [← h.2, hcs]
  rfl

end Text

namespace Word

open Text

variable {w : Word} {cs : List Char}

theorem pushDecimal_eq_ok_iff {n m : Nat} {c : Char} : pushDecimal n c = .ok m ↔
    (c = '_' ∧ n = m) ∨ ∃ d, digit? 10 c = some d ∧ 10 * n + d < size ∧ 10 * n + d = m := by
  unfold pushDecimal
  by_cases hc : c = '_'
  · subst hc
    simp [digit?_underscore]
  · cases digit? 10 c with
    | none => simp [hc]
    | some d => by_cases hfits : 10 * n + d < size <;> simp [hc, hfits]

theorem foldlM_pushDecimal {n m : Nat} (hn : n < size) : cs.foldlM pushDecimal n = .ok m ↔
    IsNumeral 10 cs ∧ (digitsOf 10 cs).foldl (fun n d => 10 * n + d) n = m ∧ m < size := by
  induction cs generalizing n with
  | nil =>
    constructor
    · intro h
      obtain rfl : n = m := Except.ok.inj h
      exact ⟨nofun, rfl, hn⟩
    · rintro ⟨-, rfl, -⟩
      rfl
  | cons c cs ih =>
    rw [List.foldlM_cons, bind_eq_ok_iff]
    constructor
    · rintro ⟨k, hpush, hrest⟩
      rcases pushDecimal_eq_ok_iff.mp hpush with ⟨rfl, rfl⟩ | ⟨d, hd, hfits, rfl⟩
      · obtain ⟨hcs, hvalue⟩ := (ih hn).mp hrest
        exact ⟨isNumeral_cons.mpr ⟨.inl rfl, hcs⟩, digitsOf_underscore 10 cs ▸ hvalue⟩
      · obtain ⟨hcs, hvalue⟩ := (ih hfits).mp hrest
        exact ⟨isNumeral_cons.mpr ⟨.inr (by simp [hd]), hcs⟩, digitsOf_cons hd cs ▸ hvalue⟩
    · rintro ⟨hnumeral, hvalue, hlt⟩
      obtain ⟨rfl | hdigit, hcs⟩ := isNumeral_cons.mp hnumeral
      · rw [digitsOf_underscore] at hvalue
        exact ⟨n, pushDecimal_eq_ok_iff.mpr (.inl ⟨rfl, rfl⟩), (ih hn).mpr ⟨hcs, hvalue, hlt⟩⟩
      · obtain ⟨d, hd⟩ := Option.isSome_iff_exists.mp hdigit
        rw [digitsOf_cons hd, List.foldl_cons] at hvalue
        -- The digits still to come only make the number larger.
        have hgrow := le_foldl_digits (by decide : 0 < 10) (digitsOf 10 cs) (10 * n + d)
        have hfits : 10 * n + d < size := by omega
        exact ⟨10 * n + d, pushDecimal_eq_ok_iff.mpr (.inr ⟨d, hd, hfits, rfl⟩),
          (ih hfits).mpr ⟨hcs, hvalue, hlt⟩⟩

def Places.add (p : Places) (d : Nat) : Places := ⟨p.sum + d * 16 ^ p.place, p.place + 1⟩

theorem pushHex_eq_ok_iff {p q : Places} {c : Char} : pushHex p c = .ok q ↔
    (c = '_' ∧ p = q) ∨ ∃ d, digit? 16 c = some d ∧ (p.add d).sum < size ∧ p.add d = q := by
  by_cases hc : c = '_'
  · subst hc
    simp [pushHex, digit?_underscore]
  · cases hd : digit? 16 c with
    | none => simp [pushHex, hc, hd]
    | some d =>
      have hpush : pushHex p c =
          if (p.add d).sum < size then .ok (p.add d) else .error .tooLarge := by
        simp only [pushHex, hc, hd, if_false]
        rfl
      rw [hpush]
      by_cases hfits : (p.add d).sum < size <;> simp [hc, hfits]

theorem Places.sum_add (p : Places) (d : Nat) (ds : List Nat) :
    (p.add d).sum + 16 ^ (p.add d).place * ofDigits 16 ds.reverse =
      p.sum + 16 ^ p.place * ofDigits 16 (d :: ds).reverse := by
  rw [List.reverse_cons, ofDigits_append_singleton, add]
  ring

/-- Base 16 is read from the right: the digits that come later count more. -/
theorem foldlM_pushHex {p q : Places} (hp : p.sum < size) : cs.foldlM pushHex p = .ok q ↔
    IsNumeral 16 cs ∧ q.sum = p.sum + 16 ^ p.place * ofDigits 16 (digitsOf 16 cs).reverse ∧
      q.place = p.place + (digitsOf 16 cs).length ∧ q.sum < size := by
  induction cs generalizing p with
  | nil =>
    constructor
    · intro h
      obtain rfl : p = q := Except.ok.inj h
      exact ⟨fun _ hc => absurd hc List.not_mem_nil, rfl, rfl, hp⟩
    · rintro ⟨-, hsum, hplace, -⟩
      have hq : q = p := by
        cases p
        cases q
        simp_all [digitsOf, ofDigits]
      rw [hq]
      rfl
  | cons c cs ih =>
    rw [List.foldlM_cons, bind_eq_ok_iff]
    constructor
    · rintro ⟨k, hpush, hrest⟩
      rcases pushHex_eq_ok_iff.mp hpush with ⟨rfl, rfl⟩ | ⟨d, hd, hfits, rfl⟩
      · obtain ⟨hcs, hvalue⟩ := (ih hp).mp hrest
        exact ⟨isNumeral_cons.mpr ⟨.inl rfl, hcs⟩, digitsOf_underscore 16 cs ▸ hvalue⟩
      · obtain ⟨hcs, hsum, hplace, hlt⟩ := (ih hfits).mp hrest
        rw [digitsOf_cons hd, ← p.sum_add, List.length_cons]
        refine ⟨isNumeral_cons.mpr ⟨.inr (by simp [hd]), hcs⟩, hsum, hplace.trans ?_, hlt⟩
        simp only [Places.add]
        omega
    · rintro ⟨hnumeral, hsum, hplace, hlt⟩
      obtain ⟨rfl | hdigit, hcs⟩ := isNumeral_cons.mp hnumeral
      · rw [digitsOf_underscore] at hsum hplace
        exact ⟨p, pushHex_eq_ok_iff.mpr (.inl ⟨rfl, rfl⟩), (ih hp).mpr ⟨hcs, hsum, hplace, hlt⟩⟩
      · obtain ⟨d, hd⟩ := Option.isSome_iff_exists.mp hdigit
        rw [digitsOf_cons hd, ← p.sum_add] at hsum
        rw [digitsOf_cons hd, List.length_cons] at hplace
        have hfits : (p.add d).sum < size := by omega
        refine ⟨p.add d, pushHex_eq_ok_iff.mpr (.inr ⟨d, hd, hfits, rfl⟩), (ih hfits).mpr
          ⟨hcs, hsum, hplace.trans ?_, hlt⟩⟩
        simp only [Places.add]
        omega

theorem ofNat?_eq_some_iff {n : Nat} : ofNat? n = some w ↔ n = w.val := by
  unfold ofNat?
  split
  · cases w
    simp
  · next hlarge =>
    simp only [reduceCtorEq, false_iff]
    rintro rfl
    exact hlarge w.val_lt

theorem ofChecked_eq_ok_iff {n : Nat} : ofChecked n = .ok w ↔ n = w.val := by
  rw [← ofNat?_eq_some_iff, ofChecked]
  cases ofNat? n with
  | none => simp
  | some u => simp

theorem readDecimal_eq_ok_iff : readDecimal cs = .ok w ↔
    IsNumeral 10 cs ∧ ofDigits 10 (digitsOf 10 cs) = w.val := by
  unfold readDecimal
  rw [bind_eq_ok_iff]
  simp only [foldlM_pushDecimal (by decide : 0 < size), ofChecked_eq_ok_iff]
  constructor
  · rintro ⟨n, ⟨hnumeral, hvalue, -⟩, rfl⟩
    exact ⟨hnumeral, hvalue⟩
  · rintro ⟨hnumeral, hvalue⟩
    exact ⟨w.val, ⟨hnumeral, hvalue, w.val_lt⟩, rfl⟩

theorem readHex_eq_ok_iff : readHex cs = .ok w ↔
    IsNumeral 16 cs ∧ ofDigits 16 (digitsOf 16 cs) = w.val := by
  have hreverse : IsNumeral 16 cs.reverse ↔ IsNumeral 16 cs := by simp [IsNumeral]
  have hdigits : (digitsOf 16 cs.reverse).reverse = digitsOf 16 cs := by
    simp [digitsOf, List.filterMap_reverse]
  unfold readHex
  rw [bind_eq_ok_iff]
  simp only [foldlM_pushHex (p := ⟨0, 0⟩) (by decide : 0 < size), ofChecked_eq_ok_iff, hreverse,
    hdigits]
  constructor
  · rintro ⟨q, ⟨hnumeral, hvalue, -⟩, hq⟩
    exact ⟨hnumeral, by rw [← hq, hvalue]; simp⟩
  · rintro ⟨hnumeral, hvalue⟩
    exact ⟨⟨w.val, _⟩, ⟨hnumeral, by rw [hvalue]; simp, rfl, w.val_lt⟩, rfl⟩

theorem readChars_eq_ok_iff : readChars cs = .ok w ↔ Denotes cs w.val := by
  unfold readChars
  split
  · exact readHex_eq_ok_iff
  · exact readHex_eq_ok_iff
  · next hsmall hlarge =>
    have hunmarked : unmark cs = (10, cs) := unmark_of_unmarked hsmall hlarge
    rw [Denotes, hunmarked]
    exact readDecimal_eq_ok_iff

theorem read_eq_ok_iff {s : String} : read s = .ok w ↔ Denotes s.toList w.val := by
  unfold read
  rw [readChars_eq_ok_iff]
  constructor
  · intro h
    have hascii := ascii_of_byteChars (ascii_of_unmark (ascii_of_isNumeral h.1))
    rwa [byteChars_of_ascii hascii] at h
  · intro h
    rwa [byteChars_of_ascii (ascii_of_unmark (ascii_of_isNumeral h.1))]

end Word

namespace Json

def Writes (v : Json) (n : Nat) : Prop :=
  v = .ofNat n ∨ ∃ s, v = .string s ∧ Text.Denotes (Text.trim s).toList n ∧
    ¬ Text.IsDigitless (Text.trim s).toList

def IsDigitless (v : Json) : Prop := ∃ s, v = .string s ∧ Text.IsDigitless (Text.trim s).toList

end Json

namespace FirmOrder

variable {v : Json} {w : Word} {body : Json} {fields : List (String × Json)} {o : FirmOrder}

theorem numberOf_integer {n : Int} :
    numberOf (.number (.integer n)) = .ok w ↔ n = w.val := by
  have hword : Word.ofNat? n.toNat = some w ↔ n.toNat = w.val := Word.ofNat?_eq_some_iff
  by_cases hsign : 0 ≤ n
  · have hn : n = w.val ↔ Word.ofNat? n.toNat = some w := by
      rw [hword]
      omega
    rw [hn]
    cases hread : Word.ofNat? n.toNat with
    | none => simp [numberOf, hsign, hread]
    | some u => simp [numberOf, hsign, hread]
  · have hn : n ≠ w.val := by omega
    simp [numberOf, hsign, hn]

theorem numberOf_eq_ok_iff : numberOf v = .ok w ↔
    v = .ofNat w.val ∨ ∃ s, v = .string s ∧ Text.Denotes (Text.trim s).toList w.val := by
  cases v with
  | string s => simp [numberOf, mapError_eq_ok_iff, Word.read_eq_ok_iff, Json.ofNat]
  | number n =>
    cases n with
    | real x => simp [numberOf, Json.ofNat]
    | integer n => simp [numberOf_integer, Json.ofNat]
  | _ => simp [numberOf, Json.ofNat]

theorem expiryOf_eq_ok_iff {e : UInt64} : expiryOf v = .ok e ↔ numberOf v = .ok (.ofUInt64 e) := by
  unfold expiryOf
  rw [bind_eq_ok_iff]
  constructor
  · rintro ⟨w, hw, h⟩
    split at h
    · next hsmall =>
      obtain rfl := Except.ok.inj h
      have hw' : w = .ofUInt64 (UInt64.ofNat w.val) := by
        have hval : (UInt64.ofNat w.val).toNat = w.val := UInt64.toNat_ofNat_of_lt' hsmall
        simp [Word.ofUInt64, hval]
      rwa [← hw']
    · cases h
  · intro h
    refine ⟨_, h, ?_⟩
    have hsmall : (Word.ofUInt64 e).val < UInt64.size := e.toNat_lt
    rw [if_pos hsmall]
    exact congrArg Except.ok (UInt64.ofNat_toNat)

def numbers (o : FirmOrder) : List (String × Nat) :=
  [("nonceAndMeta", o.nonceAndMeta.val), ("expiry", o.expiry.toNat),
   ("makerAmount", o.makerAmount.val), ("takerAmount", o.takerAmount.val)]

/-- Each number of an order stands in its field and has been read as a word. -/
theorem exists_numberOf (h : ofFields fields = .ok o) {name : String} {n : Nat}
    (hn : (name, n) ∈ o.numbers) :
    ∃ v w, Json.field? name fields = some v ∧ numberOf v = .ok w ∧ w.val = n := by
  obtain ⟨-, -, -, -, hmakerAmount, htakerAmount, -, -, hnonce, hexpiry⟩ := ofFields_eq_ok_iff.mp h
  have word : ∀ {name w}, readField name numberOf fields = .ok w →
      ∃ v w', Json.field? name fields = some v ∧ numberOf v = .ok w' ∧ w'.val = w.val := by
    intro name w hw
    obtain ⟨v, hv, -, hread⟩ := readField_eq_ok_iff.mp hw
    exact ⟨v, w, hv, hread, rfl⟩
  simp only [numbers, List.mem_cons, List.not_mem_nil, or_false, Prod.mk.injEq] at hn
  obtain ⟨rfl, rfl⟩ | ⟨rfl, rfl⟩ | ⟨rfl, rfl⟩ | ⟨rfl, rfl⟩ := hn
  · exact word hnonce
  · obtain ⟨v, hv, -, hread⟩ := readField_eq_ok_iff.mp hexpiry
    exact ⟨v, .ofUInt64 o.expiry, hv, expiryOf_eq_ok_iff.mp hread, rfl⟩
  · exact word hmakerAmount
  · exact word htakerAmount

/-- A number of an accepted order is the one that stands in its field, exactly if the field is not a
text without digits. Such a text, if it is not blank, is read as zero. -/
theorem numbers_written_iff (h : ofReply body = .ok o) :
    ∃ fields, fields? body = some fields ∧
      ∀ x ∈ o.numbers, ∃ v, Json.field? x.1 fields = some v ∧
        (v.Writes x.2 ↔ ¬ v.IsDigitless) ∧ (v.IsDigitless → x.2 = 0) := by
  obtain ⟨fields, hfields, hread⟩ := ofReply_eq_ok_iff.mp h
  refine ⟨fields, hfields, fun ⟨name, n⟩ hn => ?_⟩
  obtain ⟨v, w, hv, hw, rfl⟩ := exists_numberOf hread hn
  refine ⟨v, hv, ?_⟩
  rcases numberOf_eq_ok_iff.mp hw with rfl | ⟨s, rfl, hdenotes⟩
  · have hdigits : ¬ (Json.ofNat w.val).IsDigitless := by
      rintro ⟨s, hs, -⟩
      cases hs
    exact ⟨iff_of_true (.inl rfl) hdigits, fun h => absurd h hdigits⟩
  · have hdigitless : (Json.string s).IsDigitless ↔ Text.IsDigitless (Text.trim s).toList := by
      simp [Json.IsDigitless]
    have hwrites : (Json.string s).Writes w.val ↔ ¬ Text.IsDigitless (Text.trim s).toList := by
      simp [Json.Writes, Json.ofNat, hdenotes]
    rw [hdigitless, hwrites]
    exact ⟨Iff.rfl, fun h => hdenotes.eq_zero h⟩

def unpricedFields : List (String × Json) :=
  [("nonceAndMeta", .string "0x01"), ("expiry", .ofNat 1700000000),
   ("makerAsset", .string "0xB97EF9Ef8734C71904D8002F8b6Bc66Dd9c48a6E"),
   ("takerAsset", .string "0x0000000000000000000000000000000000000000"),
   ("maker", .string "0xd62f9E53Be8884C21f5aa523B3c7D6F9a0050af5"),
   ("taker", .string "0x70997970C51812dc3A010C7d01b50e0d17dc79C8"),
   ("makerAmount", .string "72000000"), ("takerAmount", .string "0x"), ("signature", .string "0x11")]

def unpricedReply : Json := .object [("order", .object unpricedFields)]

def unpriced : FirmOrder :=
  ⟨⟨1, by decide⟩, 1700000000, .ofNat 0xB97EF9Ef8734C71904D8002F8b6Bc66Dd9c48a6E, .ofNat 0,
    .ofNat 0xd62f9E53Be8884C21f5aa523B3c7D6F9a0050af5,
    .ofNat 0x70997970C51812dc3A010C7d01b50e0d17dc79C8, ⟨72000000, by decide⟩, .zero, [0x11]⟩

theorem ofReply_unpricedReply : ofReply unpricedReply = .ok unpriced := rfl

theorem numbers_written_iff_unpriced :
    ofReply unpricedReply = .ok unpriced ∧
      ∃ fields, fields? unpricedReply = some fields ∧
        ∀ x ∈ unpriced.numbers, ∃ v, Json.field? x.1 fields = some v ∧
          (v.Writes x.2 ↔ ¬ v.IsDigitless) ∧ (v.IsDigitless → x.2 = 0) :=
  ⟨ofReply_unpricedReply, numbers_written_iff ofReply_unpricedReply⟩

/-- An accepted order need not have a digit in each of its numbers. -/
theorem not_numbers_written : ¬ ∀ body o, ofReply body = .ok o →
    ∃ fields, fields? body = some fields ∧
      ∀ x ∈ o.numbers, ∃ v, Json.field? x.1 fields = some v ∧ v.Writes x.2 := by
  intro h
  obtain ⟨fields, hfields, hnumbers⟩ := h unpricedReply unpriced ofReply_unpricedReply
  have hread : fields? unpricedReply = some unpricedFields := rfl
  obtain rfl := Option.some.inj (hread.symm.trans hfields)
  have hmem : ("takerAmount", 0) ∈ unpriced.numbers := by decide
  obtain ⟨v, hv, hwrites⟩ := hnumbers _ hmem
  have hfield : Json.field? "takerAmount" unpricedFields = some (.string "0x") := rfl
  obtain rfl := Option.some.inj (hfield.symm.trans hv)
  rcases hwrites with hinteger | ⟨s, hs, -, hdigits⟩
  · cases hinteger
  · obtain rfl := Json.string.inj hs
    exact hdigits rfl

end FirmOrder
end QuoteDesk
