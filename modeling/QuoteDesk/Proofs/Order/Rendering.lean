import QuoteDesk.Proofs.Order.Numeral
/-!
Orders written in replies. Numbers, addresses and bytes have several spellings, and the fields may
stand in any order among others. Main statement: whatever the spelling, a reply that writes a signed
order is read as that order.
-/
namespace QuoteDesk

namespace Text

def marks : List (List Char) := [[], ['0', 'x'], ['0', 'X']]

/-- A text is a mark and digits, in any letter case and with blanks around them if any. -/
def Shows (s : String) (mark digits : List Char) : Prop :=
  ∃ cs, IsPadded s (mark ++ cs) ∧ cs.map Char.toLower = digits

section

variable {base : Nat} {cs : List Char} {ds : List Nat} {s : String} {mark digits : List Char}

theorem shows_mk (front cs back : List Char) (hs : s.toList = front ++ (mark ++ cs ++ back))
    (hfront : front.all isBlank = true) (hback : back.all isBlank = true)
    (hdigits : cs.map Char.toLower = digits) : Shows s mark digits :=
  ⟨cs, ⟨front, back, hs, List.all_eq_true.mp hfront, List.all_eq_true.mp hback⟩, hdigits⟩

theorem Spells.unmark_eq (h : Spells base cs ds) : unmark cs = (10, cs) :=
  unmark_of_unmarked (h.ne_marked rfl) (h.ne_marked rfl)

theorem Spells.unmarked_eq (h : Spells base cs ds) : Address.unmarked cs = cs := by
  unfold Address.unmarked
  split
  · exact absurd rfl (h.ne_marked rfl _)
  · exact absurd rfl (h.ne_marked rfl _)
  · rfl

theorem Spells.dropMarks_eq (h : Spells base cs ds) : FirmOrder.dropMarks cs = cs := by
  unfold FirmOrder.dropMarks
  split
  · exact absurd rfl (h.ne_marked rfl _)
  · rfl

theorem Spells.firstBad?_eq (h : Spells base cs ds) (i : Nat) : Hex.firstBad? i cs = none :=
  Hex.firstBad?_eq_none (fun _ hc => h.isHexDigit hc) i

theorem Spells.denotes_decimal (h : Spells 10 cs ds) : Denotes cs (ofDigits 10 ds) := by
  rw [Denotes, h.unmark_eq]
  exact ⟨h.isNumeral, congrArg (ofDigits 10) h.filterMap_eq⟩

theorem Spells.denotes_hex (h : Spells 16 cs ds) {x : Char} (hx : x = 'x' ∨ x = 'X') :
    Denotes ('0' :: x :: cs) (ofDigits 16 ds) := by
  have hmark : unmark ('0' :: x :: cs) = (16, cs) := by
    rcases hx with rfl | rfl
    · rfl
    · rfl
  rw [Denotes, hmark]
  exact ⟨h.isNumeral, congrArg (ofDigits 16) h.filterMap_eq⟩

theorem plain_of_mem_marks (hmark : mark ∈ marks) :
    ∀ c ∈ mark, isBlank c = false ∧ c.toNat < 128 := by
  simp only [marks, List.mem_cons, List.not_mem_nil, or_false] at hmark
  rcases hmark with rfl | rfl | rfl
  · simp
  · simp [(by decide : isBlank '0' = false ∧ isBlank 'x' = false)]
  · simp [(by decide : isBlank '0' = false ∧ isBlank 'X' = false)]

theorem Shows.trim (h : Shows s mark digits) (hmark : mark ∈ marks)
    (hdigits : Spells base digits ds) (hne : digits ≠ []) :
    ∃ cs, (trim s).toList = mark ++ cs ∧ byteChars (trim s) = mark ++ cs ∧ mark ++ cs ≠ [] ∧
      Spells base cs ds := by
  obtain ⟨cs, hpadded, rfl⟩ := h
  have hcs : Spells base cs ds := hdigits.of_map_toLower
  have hplain : ∀ c ∈ mark ++ cs, isBlank c = false ∧ c.toNat < 128 := by
    intro c hc
    rcases List.mem_append.mp hc with hc | hc
    · exact plain_of_mem_marks hmark c hc
    · have hdigit := hcs.isHexDigit hc
      exact ⟨isBlank_of_isHexDigit hdigit, toNat_lt_of_isHexDigit hdigit⟩
  have hsome : mark ++ cs ≠ [] := fun hnil => hne (by simp [(List.append_eq_nil_iff.mp hnil).2])
  have htrim := hpadded.trim fun c hc => (hplain c hc).1
  have hbytes : byteChars (Text.trim s) = (Text.trim s).toList :=
    byteChars_of_ascii fun c hc => (hplain c (htrim ▸ hc)).2
  exact ⟨cs, htrim, hbytes.trans htrim, hsome, hcs⟩

theorem exists_spells_number (hlow : 1 < base) (hbase : base ≤ 16) (zeros n : Nat) :
    ∃ ds, Spells base (List.replicate zeros '0' ++ Nat.toDigits base n) ds ∧
      ofDigits base ds = n := by
  obtain ⟨ds, hds, hvalue⟩ := exists_spells_toDigits hlow hbase n
  exact ⟨_, (spells_zeros hlow hbase zeros).append hds, (ofDigits_zeros base zeros ds).trans hvalue⟩

end

end Text

namespace Address

variable {a : Address} {mark cs : List Char} {ds : List Nat}

theorem exists_spells_digits (a : Address) :
    ∃ ds, Text.Spells 16 a.digits ds ∧ ds.length = 40 ∧ Text.ofDigits 16 ds = a.val := by
  obtain ⟨ds, hds, hlength, hvalue⟩ := Text.exists_spells_hexDigits 40 a.val
  have hsize : (16 : Nat) ^ 40 = size := by decide
  rw [hsize, Nat.mod_eq_of_lt a.val_lt] at hvalue
  exact ⟨ds, hds, hlength, hvalue⟩

theorem unmarked_append (hmark : mark ∈ Text.marks) (h : Text.Spells 16 cs ds) :
    unmarked (mark ++ cs) = cs := by
  simp only [Text.marks, List.mem_cons, List.not_mem_nil, or_false] at hmark
  rcases hmark with rfl | rfl | rfl
  · exact h.unmarked_eq
  · rfl
  · rfl

theorem readChars_eq (hmark : mark ∈ Text.marks) (h : Text.Spells 16 cs ds)
    (hlength : ds.length = 40) (hvalue : Text.ofDigits 16 ds = a.val) :
    readChars (mark ++ cs) = .ok a := by
  have hforty : cs.length = 40 := h.length_eq.trans hlength
  have hread : ofNat a.val = a := by
    cases a
    simp [ofNat, Nat.mod_eq_of_lt, *]
  unfold readChars
  dsimp only
  rw [unmarked_append hmark h, if_neg (by omega), if_neg (by omega), h.firstBad?_eq 0]
  dsimp only
  rw [h.filterMap_hexDigit?, hvalue, hread]

end Address

theorem Hex.exists_spells_digits (bs : Bytes) :
    ∃ ds, Text.Spells 16 (Hex.digits bs) ds ∧ ds.length = 2 * bs.length ∧ Hex.pairs ds = bs := by
  induction bs with
  | nil => exact ⟨[], rfl, rfl, rfl⟩
  | cons b bs ih =>
    obtain ⟨ds, hds, hlength, hpairs⟩ := ih
    obtain ⟨pair, hpair, htwo, hvalue⟩ := Text.exists_spells_hexDigits 2 b.toNat
    obtain ⟨x, y, rfl⟩ := List.length_eq_two.mp htwo
    refine ⟨[x, y] ++ ds, hpair.append hds, by simp [hlength]; omega, ?_⟩
    have hbyte : 16 * x + y = b.toNat := by
      have hlt := b.toNat_lt
      simp [Text.ofDigits] at hvalue
      omega
    change UInt8.ofNat (16 * x + y) :: Hex.pairs ds = b :: bs
    rw [hbyte, UInt8.ofNat_toNat, hpairs]

theorem Hex.read_eq {cs : List Char} {ds : List Nat} {bs : Bytes} (h : Text.Spells 16 cs ds)
    (hlength : ds.length = 2 * bs.length) (hpairs : Hex.pairs ds = bs) : Hex.read cs = .ok bs := by
  have heven : ¬ cs.length % 2 ≠ 0 := by
    rw [h.length_eq, hlength]
    omega
  rw [Hex.read, if_neg heven, h.firstBad?_eq 0, h.filterMap_hexDigit?, hpairs]

namespace Json

inductive WritesNumber (n : Nat) : Json → Prop where
  | integer : n < 2 ^ 64 → WritesNumber n (.ofNat n)
  | decimal {s} (zeros) : Text.Shows s [] (List.replicate zeros '0' ++ Nat.toDigits 10 n) →
      WritesNumber n (.string s)
  | hex {s x} (zeros) : x = 'x' ∨ x = 'X' →
      Text.Shows s ['0', x] (List.replicate zeros '0' ++ Nat.toDigits 16 n) →
      WritesNumber n (.string s)

inductive WritesAddress (a : Address) : Json → Prop where
  | digits {s} (mark) : mark ∈ Text.marks → Text.Shows s mark a.digits → WritesAddress a (.string s)

/-- The ways to write bytes. A mark has a small letter here. -/
inductive WritesBytes (bs : Bytes) : Json → Prop where
  | digits {s} (mark) : mark = [] ∨ mark = ['0', 'x'] → Text.Shows s mark (Hex.digits bs) →
      WritesBytes bs (.string s)

end Json

namespace FirmOrder

def Holds (fields : List (String × Json)) (name : String) (writes : Json → Prop) : Prop :=
  ∃ v, Json.field? name fields = some v ∧ writes v

/-- The fields, among others and in any order, write the order. -/
structure IsWritten (o : FirmOrder) (fields : List (String × Json)) : Prop where
  nonceAndMeta : Holds fields "nonceAndMeta" (Json.WritesNumber o.nonceAndMeta.val)
  expiry : Holds fields "expiry" (Json.WritesNumber o.expiry.toNat)
  makerAsset : Holds fields "makerAsset" (Json.WritesAddress o.makerAsset)
  takerAsset : Holds fields "takerAsset" (Json.WritesAddress o.takerAsset)
  maker : Holds fields "maker" (Json.WritesAddress o.maker)
  taker : Holds fields "taker" (Json.WritesAddress o.taker)
  makerAmount : Holds fields "makerAmount" (Json.WritesNumber o.makerAmount.val)
  takerAmount : Holds fields "takerAmount" (Json.WritesNumber o.takerAmount.val)
  signature : Holds fields "signature" (Json.WritesBytes o.signature)

variable {v : Json} {fields reply : List (String × Json)} {o : FirmOrder}

theorem not_isAbsent_of_trim {s : String} {cs : List Char} (h : (Text.trim s).toList = cs)
    (hne : cs ≠ []) : ¬ IsAbsent (.string s) := by
  rintro (hnull | ⟨s', hs, hblank⟩)
  · cases hnull
  · obtain rfl := Json.string.inj hs
    exact hne (h.symm.trans hblank)

theorem numberOf_of_denotes {w : Word} {s : String} {cs : List Char}
    (h : (Text.trim s).toList = cs) (hcs : Text.Denotes cs w.val) :
    numberOf (.string s) = .ok w :=
  numberOf_eq_ok_iff.mpr (.inr ⟨s, rfl, h ▸ hcs⟩)

theorem numberOf_of_writes {w : Word} (h : v.WritesNumber w.val) :
    ¬ IsAbsent v ∧ numberOf v = .ok w := by
  cases h with
  | integer _ =>
    refine ⟨?_, numberOf_eq_ok_iff.mpr (.inl rfl)⟩
    rintro (h | ⟨s, h, -⟩)
    · cases h
    · cases h
  | @decimal s zeros h =>
    obtain ⟨ds, hds, hvalue⟩ := Text.exists_spells_number (by decide : 1 < 10) (by decide) zeros
      w.val
    obtain ⟨cs, htrim, -, hne, hcs⟩ := h.trim (by decide) hds (by simp [Nat.toDigits_ne_nil])
    exact ⟨not_isAbsent_of_trim htrim hne, numberOf_of_denotes htrim (hvalue ▸ hcs.denotes_decimal)⟩
  | @hex s x zeros hx h =>
    obtain ⟨ds, hds, hvalue⟩ := Text.exists_spells_number (by decide : 1 < 16) (by decide) zeros
      w.val
    have hmark : ['0', x] ∈ Text.marks := by
      rcases hx with rfl | rfl
      · decide
      · decide
    obtain ⟨cs, htrim, -, hne, hcs⟩ := h.trim hmark hds (by simp [Nat.toDigits_ne_nil])
    exact ⟨not_isAbsent_of_trim htrim hne,
      numberOf_of_denotes htrim (hvalue ▸ hcs.denotes_hex hx)⟩

theorem addressOf_of_writes {a : Address} (h : v.WritesAddress a) :
    ¬ IsAbsent v ∧ addressOf v = .ok a := by
  cases h with
  | @digits s mark hmark h =>
    obtain ⟨ds, hds, hlength, hvalue⟩ := a.exists_spells_digits
    have hdigits : a.digits ≠ [] := by
      rw [← List.length_pos_iff, hds.length_eq, hlength]
      exact Nat.zero_lt_succ 39
    obtain ⟨cs, htrim, hbytes, hne, hcs⟩ := h.trim hmark hds hdigits
    refine ⟨not_isAbsent_of_trim htrim hne, ?_⟩
    rw [addressOf, mapError_eq_ok_iff, Address.read, hbytes]
    exact Address.readChars_eq hmark hcs hlength hvalue

theorem dropMarks_append {mark cs : List Char} {ds : List Nat}
    (hmark : mark = [] ∨ mark = ['0', 'x']) (h : Text.Spells 16 cs ds) :
    dropMarks (mark ++ cs) = cs := by
  rcases hmark with rfl | rfl
  · exact h.dropMarks_eq
  · exact h.dropMarks_eq

theorem signatureOf_of_writes {bs : Bytes} (hbs : bs ≠ []) (h : v.WritesBytes bs) :
    ¬ IsAbsent v ∧ signatureOf v = .ok bs := by
  cases h with
  | @digits s mark hmark h =>
    obtain ⟨ds, hds, hlength, hpairs⟩ := Hex.exists_spells_digits bs
    have hdigits : Hex.digits bs ≠ [] := by
      have hsome := List.length_pos_iff.mpr hbs
      rw [← List.length_pos_iff, hds.length_eq, hlength]
      omega
    have hmem : mark ∈ Text.marks := by
      rcases hmark with rfl | rfl
      · decide
      · decide
    obtain ⟨cs, htrim, hbytes, hne, hcs⟩ := h.trim hmem hds hdigits
    refine ⟨not_isAbsent_of_trim htrim hne, ?_⟩
    rw [signatureOf, mapError_eq_ok_iff, hbytes, dropMarks_append hmark hcs]
    exact Hex.read_eq hcs hlength hpairs

theorem Holds.readField {α : Type} {name : String} {writes : Json → Prop}
    {read : Json → Except FieldFault α} {a : α} (h : Holds fields name writes)
    (hread : ∀ v, writes v → ¬ IsAbsent v ∧ read v = .ok a) : readField name read fields = .ok a := by
  obtain ⟨v, hv, hwrites⟩ := h
  exact readField_eq_ok_iff.mpr ⟨v, hv, hread v hwrites⟩

/-- However a signed order is written in a reply, it is read as that order. -/
theorem ofReply_of_isWritten (hsigned : o.signature ≠ [])
    (horder : Json.field? "order" reply = some (.object fields)) (h : o.IsWritten fields) :
    ofReply (.object reply) = .ok o := by
  have hfields : fields? (.object reply) = some fields := by
    simp [fields?, Json.record?, horder, fieldNames]
  have word : ∀ {name w}, Holds fields name (Json.WritesNumber (Word.val w)) →
      readField name numberOf fields = .ok w :=
    fun h => h.readField fun _ => numberOf_of_writes
  have address : ∀ {name a}, Holds fields name (Json.WritesAddress a) →
      readField name addressOf fields = .ok a :=
    fun h => h.readField fun _ => addressOf_of_writes
  have hexpiry : readField "expiry" expiryOf fields = .ok o.expiry :=
    h.expiry.readField fun v hv => by
      obtain ⟨hthere, hread⟩ := numberOf_of_writes (w := .ofUInt64 o.expiry) hv
      exact ⟨hthere, expiryOf_eq_ok_iff.mpr hread⟩
  have hsignature : readField "signature" signatureOf fields = .ok o.signature :=
    h.signature.readField fun _ => signatureOf_of_writes hsigned
  rw [ofReply_eq_ok_iff]
  refine ⟨fields, hfields, ofFields_eq_ok_iff.mpr ?_⟩
  exact ⟨address h.maker, address h.taker, address h.makerAsset, address h.takerAsset,
    word h.makerAmount, word h.takerAmount, hsignature, hsigned, word h.nonceAndMeta, hexpiry⟩

def spelledFields : List (String × Json) :=
  [("signature", .string "aBCd\n"), ("chain", .ofNat 43114), ("expiry", .string " 1700000000"),
   ("nonceAndMeta", .string "0X0fF"), ("makerAmount", .ofNat 5000000),
   ("takerAmount", .string "\t007 "),
   ("makerAsset", .string "0XB97EF9Ef8734C71904D8002F8b6Bc66Dd9c48a6E"),
   ("takerAsset", .string "0000000000000000000000000000000000000000"),
   ("maker", .string "0xd62f9E53Be8884C21f5aa523B3c7D6F9a0050af5"),
   ("taker", .string " 0x70997970C51812dc3A010C7d01b50e0d17dc79C8")]

def spelled : FirmOrder :=
  ⟨⟨255, by decide⟩, 1700000000, .ofNat 0xB97EF9Ef8734C71904D8002F8b6Bc66Dd9c48a6E, .ofNat 0,
    .ofNat 0xd62f9E53Be8884C21f5aa523B3c7D6F9a0050af5,
    .ofNat 0x70997970C51812dc3A010C7d01b50e0d17dc79C8, ⟨5000000, by decide⟩, ⟨7, by decide⟩,
    [0xAB, 0xCD]⟩

theorem isWritten_spelled : spelled.IsWritten spelledFields where
  nonceAndMeta := ⟨_, rfl, .hex 1 (.inr rfl) (Text.shows_mk [] "0fF".toList [] rfl rfl rfl rfl)⟩
  expiry := ⟨_, rfl, .decimal 0 (Text.shows_mk [' '] "1700000000".toList [] rfl rfl rfl rfl)⟩
  makerAsset := ⟨_, rfl, .digits ['0', 'X'] (by decide)
    (Text.shows_mk [] "B97EF9Ef8734C71904D8002F8b6Bc66Dd9c48a6E".toList [] rfl rfl rfl rfl)⟩
  takerAsset := ⟨_, rfl, .digits [] (by decide)
    (Text.shows_mk [] "0000000000000000000000000000000000000000".toList [] rfl rfl rfl rfl)⟩
  maker := ⟨_, rfl, .digits ['0', 'x'] (by decide)
    (Text.shows_mk [] "d62f9E53Be8884C21f5aa523B3c7D6F9a0050af5".toList [] rfl rfl rfl rfl)⟩
  taker := ⟨_, rfl, .digits ['0', 'x'] (by decide)
    (Text.shows_mk [' '] "70997970C51812dc3A010C7d01b50e0d17dc79C8".toList [] rfl rfl rfl rfl)⟩
  makerAmount := ⟨_, rfl, .integer (by decide)⟩
  takerAmount := ⟨_, rfl, .decimal 2 (Text.shows_mk ['\t'] "007".toList [' '] rfl rfl rfl rfl)⟩
  signature := ⟨_, rfl, .digits [] (.inl rfl)
    (Text.shows_mk [] "aBCd".toList ['\n'] rfl rfl rfl rfl)⟩

theorem ofReply_of_isWritten_spelled :
    spelled.signature ≠ [] ∧ spelled.IsWritten spelledFields ∧
      ofReply (.object [("status", .string "ok"), ("order", .object spelledFields)]) =
        .ok spelled :=
  ⟨by decide, isWritten_spelled, ofReply_of_isWritten (by decide) rfl isWritten_spelled⟩

end FirmOrder
end QuoteDesk
