import QuoteDesk.Json.Reader
import QuoteDesk.Json.Writer
/-!
Written strings and arrays read back.
-/
namespace QuoteDesk.Json

theorem hexFour?_digits : ∀ n < 0x20, hexFour? (Nat.digitChar (n / 16 / 16 / 16 % 16))
    (Nat.digitChar (n / 16 / 16 % 16)) (Nat.digitChar (n / 16 % 16)) (Nat.digitChar (n % 16)) =
      some n := by
  decide

theorem hexDigits_four (n : Nat) : Text.hexDigits 4 n =
    [Nat.digitChar (n / 16 / 16 / 16 % 16), Nat.digitChar (n / 16 / 16 % 16),
     Nat.digitChar (n / 16 % 16), Nat.digitChar (n % 16)] := rfl

theorem scanString_control {n : Nat} (h : n < 0x20) (rest : List Char) :
    scanString ('\\' :: 'u' :: Text.hexDigits 4 n ++ rest) =
      (scanString rest).map fun p => (Char.ofNat n :: p.1, p.2) := by
  have hhigh : isHighSurrogate n = false := by
    simp only [isHighSurrogate, Bool.and_eq_false_iff, decide_eq_false_iff_not]
    omega
  have hlow : isLowSurrogate n = false := by
    simp only [isLowSurrogate, Bool.and_eq_false_iff, decide_eq_false_iff_not]
    omega
  rw [hexDigits_four]
  simp only [List.cons_append, List.nil_append, scanString, hexFour?_digits n h, hhigh, hlow]
  rfl

theorem scanString_plain {c : Char} (hquote : c ≠ '"') (hslash : c ≠ '\\') (hc : ¬ c.toNat < 0x20)
    (rest : List Char) :
    scanString (c :: rest) = (scanString rest).map fun p => (c :: p.1, p.2) := by
  rw [scanString.eq_def]
  split
  · next heq => cases heq
  · next heq =>
    cases heq
    exact absurd rfl hquote
  · next heq =>
    cases heq
    exact absurd rfl hslash
  · next heq =>
    cases heq
    exact absurd rfl hslash
  · next heq =>
    cases heq
    rw [if_neg hc]

theorem scanString_escapeChar (c : Char) (rest : List Char) :
    scanString (escapeChar c ++ rest) = (scanString rest).map fun p => (c :: p.1, p.2) := by
  unfold escapeChar
  split
  · rfl
  · rfl
  · rfl
  · rfl
  · rfl
  · rfl
  · rfl
  · next hquote hslash _ _ _ _ _ =>
    split
    · next hcontrol =>
      rw [scanString_control hcontrol, Char.ofNat_toNat]
    · next hplain => exact scanString_plain hquote hslash hplain rest

theorem scanString_escape (cs rest : List Char) :
    scanString (cs.flatMap escapeChar ++ '"' :: rest) = some (cs, rest) := by
  induction cs with
  | nil => rfl
  | cons c cs ih =>
    rw [List.flatMap_cons, List.append_assoc, scanString_escapeChar, ih]
    rfl

/-- Reading takes a written value back from the front of a text, given enough steps. -/
def ReadsBack (v : Json) (steps depth : Nat) : Prop :=
  ∀ n, steps ≤ n → ∀ rest, scanValue n depth (v.writeChars ++ rest) = some (v, rest)

theorem readsBack_string (s : String) (depth : Nat) : ReadsBack (.string s) 1 depth := by
  intro n hn rest
  obtain ⟨n, rfl⟩ : ∃ m, n = m + 1 := ⟨n - 1, by omega⟩
  have hwritten : (Json.string s).writeChars ++ rest =
      '"' :: (s.toList.flatMap escapeChar ++ '"' :: rest) := by
    simp [writeChars, writeString]
  have hspace : ∀ cs : List Char, skipSpace ('"' :: cs) = '"' :: cs := fun _ => rfl
  rw [hwritten, scanValue, hspace]
  simp only [scanString_escape, Option.map_some, String.ofList_toList]

def Opens (v : Json) : Prop :=
  ∃ c cs, v.writeChars = c :: cs ∧ isSpace c = false ∧ c ≠ ']'

theorem opens_string (s : String) : Opens (.string s) :=
  ⟨'"', s.toList.flatMap escapeChar ++ ['"'], by simp [writeChars, writeString], rfl, by decide⟩

theorem opens_array (items : List Json) : Opens (.array items) :=
  ⟨'[', writeItems items, by simp [writeChars], rfl, by decide⟩

variable {steps depth : Nat}

theorem scanItems_writeItems {v : Json} {vs : List Json} (hall : ∀ x ∈ v :: vs, ReadsBack x steps depth)
    {n : Nat} (hn : steps + (v :: vs).length ≤ n) (rest : List Char) :
    scanItems n depth (writeItems (v :: vs) ++ rest) = some (v :: vs, rest) := by
  induction vs generalizing v n with
  | nil =>
    obtain ⟨n, rfl⟩ : ∃ m, n = m + 1 := ⟨n - 1, by simp at hn; omega⟩
    have hv := hall v List.mem_cons_self n (by simp at hn; omega) (']' :: rest)
    have hwritten : writeItems [v] ++ rest = v.writeChars ++ ']' :: rest := by simp [writeItems]
    rw [hwritten, scanItems, hv]
    rfl
  | cons w vs ih =>
    obtain ⟨n, rfl⟩ : ∃ m, n = m + 1 := ⟨n - 1, by simp at hn; omega⟩
    have hv := hall v List.mem_cons_self n (by simp at hn; omega)
      (',' :: (writeItems (w :: vs) ++ rest))
    have hlater := ih (v := w) (n := n) (fun x hx => hall x (List.mem_cons_of_mem v hx))
      (by simp at hn ⊢; omega)
    have hwritten : writeItems (v :: w :: vs) ++ rest =
        v.writeChars ++ ',' :: (writeItems (w :: vs) ++ rest) := by simp [writeItems]
    have hcomma : ∀ cs : List Char, skipSpace (',' :: cs) = ',' :: cs := fun _ => rfl
    rw [hwritten, scanItems, hv]
    simp only [hcomma, hlater, Option.map_some]

/-- An array of values that read back reads back itself, one level further down. -/
theorem readsBack_array {vs : List Json} (hall : ∀ x ∈ vs, ReadsBack x steps depth)
    (hopens : ∀ x ∈ vs, Opens x) (hdepth : 0 < depth) :
    ReadsBack (.array vs) (steps + vs.length + 1) (depth + 1) := by
  intro n hn rest
  obtain ⟨n, rfl⟩ : ∃ m, n = m + 1 := ⟨n - 1, by omega⟩
  have hdeep : ¬ depth + 1 ≤ 1 := by omega
  have hbracket : ∀ cs : List Char, skipSpace ('[' :: cs) = '[' :: cs := fun _ => rfl
  cases vs with
  | nil =>
    have hclose : skipSpace (']' :: rest) = ']' :: rest := rfl
    simp only [writeChars, writeItems, List.cons_append, List.nil_append, scanValue, hbracket,
      if_neg hdeep, hclose]
  | cons v vs =>
    have hitems := scanItems_writeItems (n := n) hall (by omega) rest
    obtain ⟨c, cs, hv, hspace, hclose⟩ := hopens v List.mem_cons_self
    have hfirst : ∃ ds, writeItems (v :: vs) ++ rest = c :: ds := by
      cases vs with
      | nil => exact ⟨_, by simp [writeItems, hv]; rfl⟩
      | cons w vs => exact ⟨_, by simp [writeItems, hv]; rfl⟩
    obtain ⟨ds, hds⟩ := hfirst
    have hskip : skipSpace (c :: ds) = c :: ds := List.dropWhile_cons_of_neg (by simp [hspace])
    rw [writeChars, List.cons_append, scanValue, hbracket]
    simp only [if_neg hdeep]
    rw [hds] at hitems ⊢
    rw [hskip]
    split
    · next heq =>
      cases heq
      exact absurd rfl hclose
    · rw [Nat.add_sub_cancel, hitems]
      rfl

theorem length_lt_writeItems {vs : List Json} (hopens : ∀ x ∈ vs, Opens x) :
    vs.length < (writeItems vs).length := by
  induction vs with
  | nil => simp [writeItems]
  | cons v vs ih =>
    obtain ⟨c, cs, hv, -, -⟩ := hopens v List.mem_cons_self
    have hlater := ih fun x hx => hopens x (List.mem_cons_of_mem v hx)
    cases vs with
    | nil => simp [writeItems, hv]
    | cons w vs =>
      simp only [writeItems, hv, List.length_append, List.length_cons] at hlater ⊢
      omega

theorem read_write_array {vs : List Json} (hall : ∀ x ∈ vs, ReadsBack x steps depth)
    (hopens : ∀ x ∈ vs, Opens x) (hdepth : depth + 1 = maxDepth) (hsteps : steps ≤ 4) :
    read (Json.array vs).write = some (.array vs) := by
  have hlength : vs.length + 1 < (Json.array vs).writeChars.length := by
    have := length_lt_writeItems hopens
    simp only [writeChars, List.length_cons]
    omega
  have hdeep : 0 < depth := by
    unfold maxDepth at hdepth
    omega
  have hvalue := readsBack_array hall hopens hdeep (2 * (Json.array vs).writeChars.length + 2)
    (by omega) []
  rw [List.append_nil, hdepth] at hvalue
  rw [read, write, String.toList_ofList, readChars, hvalue]
  rfl

end QuoteDesk.Json
