import QuoteDesk.Text.Digits
import QuoteDesk.Proofs.Text.Blank
import Mathlib.Algebra.Group.Nat.Defs
import Mathlib.Data.List.Basic
/-!
Digits of texts. Letter case does not count for a digit, a digit is a single byte, and what is written
in a base reads back in it.
-/
namespace QuoteDesk.Text

theorem isHexDigit_iff (c : Char) : isHexDigit c = true ↔
    (48 ≤ c.toNat ∧ c.toNat ≤ 57) ∨ (97 ≤ c.toNat ∧ c.toNat ≤ 102) ∨
      (65 ≤ c.toNat ∧ c.toNat ≤ 70) := by
  have hdigit : '0' ≤ c ∧ c ≤ '9' ↔ 48 ≤ c.toNat ∧ c.toNat ≤ 57 := Iff.rfl
  have hsmall : 'a' ≤ c ∧ c ≤ 'f' ↔ 97 ≤ c.toNat ∧ c.toNat ≤ 102 := Iff.rfl
  have hlarge : 'A' ≤ c ∧ c ≤ 'F' ↔ 65 ≤ c.toNat ∧ c.toNat ≤ 70 := Iff.rfl
  simp only [isHexDigit, hexDigit?, hdigit, hsmall, hlarge]
  split
  · next h => simp [h]
  · next h =>
    split
    · next h' => simp [h']
    · next h' =>
      split
      · next h'' => simp [h'']
      · next h'' => simp [h, h', h'']

theorem isHexDigit_toLower {c : Char} (h : isHexDigit c = true) : isHexDigit c.toLower = true := by
  rw [isHexDigit_iff] at h ⊢
  rw [toNat_toLower]
  split <;> omega

theorem isBlank_of_isHexDigit {c : Char} (h : isHexDigit c = true) : isBlank c = false := by
  rw [isHexDigit_iff] at h
  simp only [isBlank, blankRanges, List.any_cons, List.any_nil, Bool.or_eq_false_iff,
    Bool.and_eq_false_iff, decide_eq_false_iff_not, and_true]
  omega

theorem toNat_lt_of_isHexDigit {c : Char} (h : isHexDigit c = true) : c.toNat < 128 := by
  rw [isHexDigit_iff] at h
  omega

theorem hexDigit?_eq (c : Char) : hexDigit? c =
    if 48 ≤ c.toNat ∧ c.toNat ≤ 57 then some (c.toNat - 48)
    else if 97 ≤ c.toNat ∧ c.toNat ≤ 102 then some (c.toNat - 97 + 10)
    else if 65 ≤ c.toNat ∧ c.toNat ≤ 70 then some (c.toNat - 65 + 10)
    else none := by
  have hdigit : '0' ≤ c ∧ c ≤ '9' ↔ 48 ≤ c.toNat ∧ c.toNat ≤ 57 := Iff.rfl
  have hsmall : 'a' ≤ c ∧ c ≤ 'f' ↔ 97 ≤ c.toNat ∧ c.toNat ≤ 102 := Iff.rfl
  have hlarge : 'A' ≤ c ∧ c ≤ 'F' ↔ 65 ≤ c.toNat ∧ c.toNat ≤ 70 := Iff.rfl
  simp only [hexDigit?, hdigit, hsmall, hlarge]
  rfl

theorem hexDigit?_toLower (c : Char) : hexDigit? c.toLower = hexDigit? c := by
  rw [hexDigit?_eq, hexDigit?_eq, toNat_toLower]
  split
  · next h =>
    by_cases hletter : c.toNat ≤ 70
    · rw [if_neg (by omega), if_pos (by omega), if_neg (by omega), if_neg (by omega),
        if_pos (by omega)]
      congr 1
    · rw [if_neg (by omega), if_neg (by omega), if_neg (by omega), if_neg (by omega),
        if_neg (by omega), if_neg (by omega)]
  · rfl

theorem digit?_toLower (base : Nat) (c : Char) : digit? base c.toLower = digit? base c := by
  rw [digit?, digit?, hexDigit?_toLower]

theorem lt_of_hexDigit? {c : Char} {d : Nat} (h : hexDigit? c = some d) : d < 16 := by
  rw [hexDigit?_eq] at h
  split at h
  · cases h
    omega
  · split at h
    · cases h
      omega
    · split at h
      · cases h
        omega
      · cases h

theorem digit?_sixteen (c : Char) : digit? 16 c = hexDigit? c := by
  refine Option.ext fun d => ?_
  rw [digit?, Option.filter_eq_some_iff, decide_eq_true_iff, and_iff_left_iff_imp]
  exact lt_of_hexDigit?

theorem isHexDigit_of_digit? {base d : Nat} {c : Char} (h : digit? base c = some d) :
    isHexDigit c = true := by
  obtain ⟨hd, -⟩ := Option.filter_eq_some_iff.mp h
  rw [isHexDigit, hd]
  rfl

theorem digit?_digitChar {base d : Nat} (hbase : base ≤ 16) (hd : d < base) :
    digit? base (Nat.digitChar d) = some d := by
  have hall : ∀ d < 16, hexDigit? (Nat.digitChar d) = some d := by decide
  rw [digit?, hall d (Nat.lt_of_lt_of_le hd hbase), Option.filter_some, if_pos (by simpa using hd)]

theorem map_byteChar_of_lt {c : Char} (h : c.toNat < 128) :
    (String.utf8EncodeChar c).map byteChar = [c] := by
  have hle : c.val.toNat ≤ 127 := Nat.le_of_lt_succ h
  have hbyte : (UInt8.ofNat c.val.toNat).toNat = c.toNat :=
    UInt8.toNat_ofNat_of_lt' (Nat.lt_trans h (by decide))
  rw [String.utf8EncodeChar, if_pos hle, List.map_singleton, byteChar, hbyte, Char.ofNat_toNat]

theorem exists_high_byte {c : Char} (h : 128 ≤ c.toNat) :
    ∃ b ∈ String.utf8EncodeChar c, 128 ≤ (byteChar b).toNat := by
  have hlast : ∀ n : Nat, 128 ≤ (byteChar (UInt8.ofNat (n % 64 + 128))).toNat := by
    intro n
    have hbyte : (UInt8.ofNat (n % 64 + 128)).toNat = n % 64 + 128 :=
      UInt8.toNat_ofNat_of_lt' (by change n % 64 + 128 < 256; omega)
    have hvalid : (n % 64 + 128).isValidChar := .inl (by omega)
    have hchar : Char.ofNat (n % 64 + 128) = Char.ofNatAux (n % 64 + 128) hvalid := dif_pos hvalid
    rw [byteChar, hbyte, hchar]
    exact Nat.le_add_left 128 (n % 64)
  refine ⟨UInt8.ofNat (c.val.toNat % 64 + 128), ?_, hlast _⟩
  have hlow : ¬ c.val.toNat ≤ 127 := Nat.not_le.mpr h
  rw [String.utf8EncodeChar, if_neg hlow]
  split
  · simp
  · split <;> simp

theorem byteChars_eq (s : String) :
    byteChars s = s.toList.flatMap fun c => (String.utf8EncodeChar c).map byteChar :=
  List.map_flatMap

theorem byteChars_of_ascii {s : String} (h : ∀ c ∈ s.toList, c.toNat < 128) :
    byteChars s = s.toList := by
  rw [byteChars_eq]
  generalize s.toList = cs at h
  induction cs with
  | nil => rfl
  | cons c cs ih =>
    rw [List.flatMap_cons, map_byteChar_of_lt (h c List.mem_cons_self),
      ih fun d hd => h d (List.mem_cons_of_mem _ hd)]
    rfl

theorem ascii_of_byteChars {s : String} (h : ∀ c ∈ byteChars s, c.toNat < 128) :
    ∀ c ∈ s.toList, c.toNat < 128 := by
  intro c hc
  by_contra hhigh
  obtain ⟨b, hb, hbyte⟩ := exists_high_byte (Nat.not_lt.mp hhigh)
  have hlow := h (byteChar b) (by
    rw [byteChars_eq]
    exact List.mem_flatMap.mpr ⟨c, hc, List.mem_map_of_mem hb⟩)
  omega

/-- Every character is a digit in a base, and these are the digits. -/
def Spells (base : Nat) (cs : List Char) (ds : List Nat) : Prop :=
  cs.map (digit? base) = ds.map some

section

variable {base : Nat} {cs cs' : List Char} {ds ds' : List Nat}

theorem Spells.append (h : Spells base cs ds) (h' : Spells base cs' ds') :
    Spells base (cs ++ cs') (ds ++ ds') := by
  rw [Spells, List.map_append, List.map_append, h, h']

theorem Spells.of_map_toLower (h : Spells base (cs.map Char.toLower) ds) : Spells base cs ds := by
  have hcase : digit? base ∘ Char.toLower = digit? base := funext (digit?_toLower base)
  rwa [Spells, List.map_map, hcase] at h

theorem Spells.length_eq (h : Spells base cs ds) : cs.length = ds.length := by
  simpa using congrArg List.length h

theorem Spells.exists_digit (h : Spells base cs ds) {c : Char} (hc : c ∈ cs) :
    ∃ d ∈ ds, digit? base c = some d := by
  have hmem : digit? base c ∈ ds.map some := h ▸ List.mem_map_of_mem hc
  obtain ⟨d, hd, heq⟩ := List.mem_map.mp hmem
  exact ⟨d, hd, heq.symm⟩

theorem Spells.isHexDigit (h : Spells base cs ds) {c : Char} (hc : c ∈ cs) :
    isHexDigit c = true := by
  obtain ⟨d, -, hd⟩ := h.exists_digit hc
  exact isHexDigit_of_digit? hd

theorem Spells.filterMap_eq (h : Spells base cs ds) : cs.filterMap (digit? base) = ds := by
  have hid : cs.filterMap (digit? base) = (cs.map (digit? base)).filterMap id := by
    rw [List.filterMap_map]
    rfl
  rw [hid, h, List.filterMap_map]
  exact List.filterMap_some

theorem Spells.filterMap_hexDigit? (h : Spells 16 cs ds) : cs.filterMap hexDigit? = ds := by
  have hsixteen : digit? 16 = hexDigit? := funext digit?_sixteen
  rw [← hsixteen]
  exact h.filterMap_eq

theorem Spells.ne_marked (h : Spells base cs ds) {x : Char} (hx : hexDigit? x = none)
    (rest : List Char) : cs ≠ '0' :: x :: rest := by
  rintro rfl
  obtain ⟨d, -, hd⟩ := h.exists_digit (c := x) (by simp)
  simp [digit?, hx] at hd

theorem spells_singleton {d : Nat} (hbase : base ≤ 16) (hd : d < base) :
    Spells base [Nat.digitChar d] [d] :=
  congrArg ([·]) (digit?_digitChar hbase hd)

theorem ofDigits_append_singleton (base : Nat) (ds : List Nat) (d : Nat) :
    ofDigits base (ds ++ [d]) = base * ofDigits base ds + d := by
  simp [ofDigits]

theorem ofDigits_zeros (base k : Nat) (ds : List Nat) :
    ofDigits base (List.replicate k 0 ++ ds) = ofDigits base ds := by
  induction k with
  | zero => rfl
  | succ k ih => simpa [ofDigits, List.replicate_succ] using ih

theorem exists_spells_toDigits (hlow : 1 < base) (hbase : base ≤ 16) (n : Nat) :
    ∃ ds, Spells base (Nat.toDigits base n) ds ∧ ofDigits base ds = n := by
  induction n using Nat.strong_induction_on with
  | _ n ih =>
    by_cases hn : n < base
    · refine ⟨[n], ?_, by simp [ofDigits]⟩
      rw [Nat.toDigits_of_lt_base hn]
      exact spells_singleton hbase hn
    · have hge : base ≤ n := Nat.not_lt.mp hn
      obtain ⟨ds, hds, hvalue⟩ := ih (n / base) (Nat.div_lt_self (by omega) hlow)
      refine ⟨ds ++ [n % base], ?_, ?_⟩
      · rw [Nat.toDigits_of_base_le hlow hge]
        exact hds.append (spells_singleton hbase (Nat.mod_lt n (by omega)))
      · rw [ofDigits_append_singleton, hvalue, Nat.div_add_mod]

theorem exists_spells_hexDigits (width n : Nat) :
    ∃ ds, Spells 16 (hexDigits width n) ds ∧ ds.length = width ∧
      ofDigits 16 ds = n % 16 ^ width := by
  induction width generalizing n with
  | zero => exact ⟨[], rfl, rfl, by simp [ofDigits, Nat.mod_one]⟩
  | succ width ih =>
    obtain ⟨ds, hds, hlength, hvalue⟩ := ih (n / 16)
    refine ⟨ds ++ [n % 16], ?_, by simp [hlength], ?_⟩
    · exact hds.append (spells_singleton (Nat.le_refl 16) (Nat.mod_lt n (by decide)))
    · rw [ofDigits_append_singleton, hvalue, Nat.pow_succ', Nat.mod_mul]
      omega

theorem spells_zeros (hlow : 1 < base) (hbase : base ≤ 16) (k : Nat) :
    Spells base (List.replicate k '0') (List.replicate k 0) := by
  have hzero : digit? base '0' = some 0 := digit?_digitChar hbase (Nat.lt_trans Nat.zero_lt_one hlow)
  rw [Spells, List.map_replicate, List.map_replicate, hzero]

end

end QuoteDesk.Text
