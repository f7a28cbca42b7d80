import QuoteDesk.Cache.Scope
import QuoteDesk.Listing
import QuoteDesk.Proofs.Text.Digits
/-!
Keys in the cache. The key of a desk is free text and may have underscores and digits of its own, so a
key is not told apart part by part. The key of a book has a fixed length after its network and that of a
deny set begins with its network, and a network has no underscore. Main statement: keys are the same only
if everything they are made of is, up to letter case and to blanks around addresses.
-/
namespace QuoteDesk

namespace Text

theorem eq_of_first_mark {xs ys zs ws : List Char} (hx : '_' ∉ xs) (hy : '_' ∉ ys)
    (h : xs ++ '_' :: zs = ys ++ '_' :: ws) : xs = ys ∧ zs = ws := by
  induction xs generalizing ys with
  | nil =>
    cases ys with
    | nil => exact ⟨rfl, (List.cons.inj h).2⟩
    | cons y ys => exact absurd ((List.cons.inj h).1 ▸ List.mem_cons_self) hy
  | cons x xs ih =>
    cases ys with
    | nil => exact absurd ((List.cons.inj h).1 ▸ List.mem_cons_self) hx
    | cons y ys =>
      obtain ⟨rfl, hrest⟩ := List.cons.inj h
      obtain ⟨rfl, hback⟩ := ih (fun hmem => hx (List.mem_cons_of_mem x hmem))
        (fun hmem => hy (List.mem_cons_of_mem x hmem)) hrest
      exact ⟨rfl, hback⟩

theorem eq_of_last_mark {xs ys zs ws : List Char} (hz : '_' ∉ zs) (hw : '_' ∉ ws)
    (h : xs ++ '_' :: zs = ys ++ '_' :: ws) : xs = ys ∧ zs = ws := by
  have hback : zs.reverse ++ '_' :: xs.reverse = ws.reverse ++ '_' :: ys.reverse := by
    simpa using congrArg List.reverse h
  obtain ⟨hparts, hfront⟩ := eq_of_first_mark (fun hmem => hz (List.mem_reverse.mp hmem))
    (fun hmem => hw (List.mem_reverse.mp hmem)) hback
  exact ⟨List.reverse_inj.mp hfront, List.reverse_inj.mp hparts⟩

theorem decimal_inj {n k : Nat} (h : decimal n = decimal k) : n = k := by
  have hread := congrArg readNat? h
  rw [readNat?_decimal, readNat?_decimal] at hread
  exact Option.some.inj hread

theorem isDigit_of_mem_decimal {n : Nat} {c : Char} (hc : c ∈ (decimal n).toList) :
    48 ≤ c.toNat ∧ c.toNat ≤ 57 := by
  rw [decimal, String.toList_ofList] at hc
  have hdigit := Nat.isDigit_of_mem_toDigits (by decide) (by decide) hc
  have hrange : c.val ≥ '0'.val ∧ c.val ≤ '9'.val := by
    simpa only [Char.isDigit, Bool.and_eq_true, decide_eq_true_eq] using hdigit
  exact hrange

theorem lowerChars_decimal (n : Nat) : lowerChars (decimal n).toList = (decimal n).toList := by
  have hsame : ∀ c ∈ (decimal n).toList, c.toLower = c := by
    intro c hc
    have hrange := isDigit_of_mem_decimal hc
    refine Char.ext (UInt32.toNat_inj.mp ?_)
    change c.toLower.toNat = c.toNat
    rw [toNat_toLower, if_neg (by omega)]
  exact (List.map_congr_left hsame).trans (List.map_id' _)

theorem mark_not_mem_decimal (n : Nat) : '_' ∉ (decimal n).toList := by
  intro hmem
  have hle : ('_').toNat ≤ 57 := (isDigit_of_mem_decimal hmem).2
  exact absurd hle (by decide)

end Text

/-- An address text in normal form: the mark `0x` and forty digits of base 16, no letter in upper case. -/
structure Address.IsCanonical (s : String) : Prop where
  hex : Address.isHexText s = true
  normal : Text.normalize s = s

theorem Address.length_of_isHexText {s : String} (h : isHexText s = true) : s.toList.length = 42 := by
  obtain ⟨mark, ds, -, hs, hlen, -⟩ := isHexText_iff.mp h
  rw [hs, List.length_cons, List.length_cons, hlen]

theorem Address.isHexText_lower {s : String} (h : isHexText s = true) :
    isHexText (Text.lower s) = true := by
  obtain ⟨mark, ds, hmark, hs, hlen, hall⟩ := isHexText_iff.mp h
  refine isHexText_iff.mpr ⟨'x', Text.lowerChars ds, .inl rfl, ?_, ?_, ?_⟩
  · rw [Text.toList_lower, hs]
    rcases hmark with rfl | rfl <;> rfl
  · rw [Text.lowerChars, List.length_map, hlen]
  · intro c hc
    obtain ⟨c', hc', rfl⟩ := List.mem_map.mp hc
    exact Text.isHexDigit_toLower (hall c' hc')

/-- The address of a token comes to its normal form when the token is listed. -/
theorem Address.isCanonical_normalize {s : String} (h : isListedAddress s = true) :
    IsCanonical (Text.normalize s) :=
  ⟨isHexText_lower h, Text.normalize_normalize s⟩

namespace Scope

theorem toList_bookKey (s : Scope) {base quote : String} (hbase : Address.IsCanonical base)
    (hquote : Address.IsCanonical quote) (side : BookSide) :
    (s.bookKey base quote side).toList =
      (Text.lowerChars s.dexKey.toList ++ '_' :: s.networkText.toList) ++
        ('_' :: (base.toList ++ '_' :: (quote.toList ++ '_' :: side.name.toList))) := by
  have hname : Text.lowerChars side.name.toList = side.name.toList := by cases side <;> decide
  have hmark : Text.lowerChars "_".toList = ['_'] := by decide
  have hnetwork : Text.lowerChars s.networkText.toList = s.networkText.toList :=
    Text.lowerChars_decimal _
  simp only [bookKey, key, BookSide.cacheKey, Text.toList_lower, String.toList_append,
    Text.lowerChars_append, hbase.normal, hquote.normal, Text.lower_eq_of_normal hbase.normal,
    Text.lower_eq_of_normal hquote.normal, hname, hmark, hnetwork, List.append_assoc,
    List.cons_append, List.nil_append]

theorem network_eq_of_text {s s' : Scope} (h : s.networkText = s'.networkText) :
    s.network = s'.network :=
  UInt64.toNat_inj.mp (Text.decimal_inj h)

/-- The key of a book tells the desk, its network, the two addresses and the side. -/
theorem bookKey_eq_iff {s s' : Scope} {base base' quote quote' : String} {side side' : BookSide}
    (hbase : Address.IsCanonical base) (hbase' : Address.IsCanonical base')
    (hquote : Address.IsCanonical quote) (hquote' : Address.IsCanonical quote') :
    s.bookKey base quote side = s'.bookKey base' quote' side' ↔
      Text.lower s.dexKey = Text.lower s'.dexKey ∧ s.network = s'.network ∧
        base = base' ∧ quote = quote' ∧ side = side' := by
  have hlen : base.toList.length = base'.toList.length :=
    (Address.length_of_isHexText hbase.hex).trans (Address.length_of_isHexText hbase'.hex).symm
  have hlen' : quote.toList.length = quote'.toList.length :=
    (Address.length_of_isHexText hquote.hex).trans (Address.length_of_isHexText hquote'.hex).symm
  have hname : side.name.toList.length = side'.name.toList.length := by
    cases side <;> cases side' <;> rfl
  constructor
  · intro h
    have hchars := congrArg String.toList h
    rw [toList_bookKey s hbase hquote, toList_bookKey s' hbase' hquote'] at hchars
    obtain ⟨hdesk, hbook⟩ := List.append_inj' hchars (by
      simp only [List.length_cons, List.length_append, hlen, hlen', hname])
    obtain ⟨hkey, hnetwork⟩ := Text.eq_of_last_mark (Text.mark_not_mem_decimal _)
      (Text.mark_not_mem_decimal _) hdesk
    obtain ⟨hb, hrest⟩ := List.append_inj (List.cons.inj hbook).2 hlen
    obtain ⟨hq, hside⟩ := List.append_inj (List.cons.inj hrest).2 hlen'
    refine ⟨?_, network_eq_of_text (String.toList_inj.mp hnetwork), String.toList_inj.mp hb,
      String.toList_inj.mp hq, ?_⟩
    · exact congrArg String.ofList hkey
    · cases side <;> cases side' <;> first | rfl | exact absurd (List.cons.inj hside).2 (by decide)
  · rintro ⟨hkey, hnetwork, rfl, rfl, rfl⟩
    apply String.toList_inj.mp
    have hlower : Text.lowerChars s.dexKey.toList = Text.lowerChars s'.dexKey.toList := by
      rw [← Text.toList_lower, hkey, Text.toList_lower]
    rw [toList_bookKey s hbase hquote, toList_bookKey s' hbase hquote, hlower, networkText, hnetwork,
      networkText]

theorem bookKey_inj (s : Scope) {base base' quote quote' : String} {side side' : BookSide}
    (hbase : Address.IsCanonical base) (hbase' : Address.IsCanonical base')
    (hquote : Address.IsCanonical quote) (hquote' : Address.IsCanonical quote') :
    s.bookKey base quote side = s.bookKey base' quote' side' ↔
      base = base' ∧ quote = quote' ∧ side = side' := by
  rw [bookKey_eq_iff hbase hbase' hquote hquote', and_iff_right rfl, and_iff_right rfl]

theorem bookKey_normalize (s : Scope) (base quote : String) (side : BookSide) :
    s.bookKey (Text.normalize base) (Text.normalize quote) side = s.bookKey base quote side := by
  simp only [bookKey, Text.normalize_normalize]

theorem toList_blacklistKey (s : Scope) :
    s.blacklistKey.toList =
      s.networkText.toList ++ '_' :: (Text.lowerChars s.dexKey.toList ++ "_blacklist".toList) := by
  have hname : Text.lowerChars "_blacklist".toList = "_blacklist".toList := by decide
  have hmark : Text.lowerChars "_".toList = ['_'] := by decide
  have hnetwork : Text.lowerChars s.networkText.toList = s.networkText.toList :=
    Text.lowerChars_decimal _
  simp only [blacklistKey, Text.toList_lower, String.toList_append, Text.lowerChars_append, hname,
    hmark, hnetwork, List.append_assoc, List.cons_append, List.nil_append]

theorem blacklistKey_eq_iff {s s' : Scope} : s.blacklistKey = s'.blacklistKey ↔
    s.network = s'.network ∧ Text.lower s.dexKey = Text.lower s'.dexKey := by
  constructor
  · intro h
    have hchars := congrArg String.toList h
    rw [toList_blacklistKey, toList_blacklistKey] at hchars
    obtain ⟨hnetwork, hdesk⟩ := Text.eq_of_first_mark (Text.mark_not_mem_decimal _)
      (Text.mark_not_mem_decimal _) hchars
    exact ⟨network_eq_of_text (String.toList_inj.mp hnetwork),
      congrArg String.ofList (List.append_cancel_right hdesk)⟩
  · rintro ⟨hnetwork, hkey⟩
    apply String.toList_inj.mp
    rw [toList_blacklistKey, toList_blacklistKey, ← Text.toList_lower, hkey, Text.toList_lower,
      networkText, hnetwork, networkText]

theorem getLast?_bookKey (s : Scope) (base quote : String) (side : BookSide) :
    (s.bookKey base quote side).toList.getLast? = some 's' := by
  cases side <;>
    simp [bookKey, key, BookSide.cacheKey, BookSide.name, Text.toList_lower, Text.lowerChars,
      List.getLast?_cons, List.getLast?_append]

theorem getLast?_blacklistKey (s : Scope) : s.blacklistKey.toList.getLast? = some 't' := by
  simp [toList_blacklistKey, List.getLast?_cons, List.getLast?_append]

/-- The last letter tells the key of a book from that of a deny set, whosever they are. -/
theorem bookKey_ne (s s' : Scope) (base quote : String) (side : BookSide) :
    s.bookKey base quote side ≠ s'.blacklistKey := by
  intro h
  have hlast := s.getLast?_bookKey base quote side
  rw [h, s'.getLast?_blacklistKey] at hlast
  cases hlast

theorem bookKey_ne_blacklistKey (s : Scope) (base quote : String) (side : BookSide) :
    s.bookKey base quote side ≠ s.blacklistKey :=
  s.bookKey_ne s base quote side

/-- Two desks share a key only if their keys, up to letter case, and their networks are the same. Then
the keys of two books are the same exactly if the addresses are, up to letter case and blanks around
them, and the sides; and no key of a book is the key of a deny set. -/
theorem keys_tell_apart (s s' : Scope) :
    (∀ base quote base' quote' side side',
      isListedAddress base = true → isListedAddress quote = true →
      isListedAddress base' = true → isListedAddress quote' = true →
      (s.bookKey base quote side = s'.bookKey base' quote' side' ↔
        Text.lower s.dexKey = Text.lower s'.dexKey ∧ s.network = s'.network ∧
          Text.normalize base = Text.normalize base' ∧
          Text.normalize quote = Text.normalize quote' ∧ side = side')) ∧
    (s.blacklistKey = s'.blacklistKey ↔
      s.network = s'.network ∧ Text.lower s.dexKey = Text.lower s'.dexKey) ∧
    ∀ base quote side, s.bookKey base quote side ≠ s'.blacklistKey := by
  refine ⟨fun base quote base' quote' side side' hbase hquote hbase' hquote' => ?_,
    blacklistKey_eq_iff, s.bookKey_ne s'⟩
  rw [← bookKey_normalize s, ← bookKey_normalize s']
  exact bookKey_eq_iff (Address.isCanonical_normalize hbase) (Address.isCanonical_normalize hbase')
    (Address.isCanonical_normalize hquote) (Address.isCanonical_normalize hquote')

/-- Underscores and digits in the key of a desk do not make it share with another. -/
theorem keys_of_marked_desks :
    let usdc := "0xB97EF9Ef8734C71904D8002F8b6Bc66Dd9c48a6E"
    let padded := "  0xb97ef9ef8734c71904d8002f8b6bc66dd9c48a6e "
    let eth := "0x49D5c2BdFfac6CE2BFdB6640F4F80f226bc10bAB"
    bookKey ⟨"Desk_1", 7⟩ usdc eth .bids = bookKey ⟨"dESK_1", 7⟩ padded eth .bids ∧
      bookKey ⟨"Desk_1", 7⟩ usdc eth .bids ≠ bookKey ⟨"Desk", 1⟩ usdc eth .bids ∧
      blacklistKey ⟨"7_desk", 1⟩ ≠ blacklistKey ⟨"desk", 17⟩ ∧
      bookKey ⟨"7_desk", 1⟩ usdc eth .asks ≠ blacklistKey ⟨"1_desk", 7⟩ := by
  have husdc : isListedAddress "0xB97EF9Ef8734C71904D8002F8b6Bc66Dd9c48a6E" = true := by
    decide +kernel
  have hpadded : isListedAddress "  0xb97ef9ef8734c71904d8002f8b6bc66dd9c48a6e " = true := by
    decide +kernel
  have heth : isListedAddress "0x49D5c2BdFfac6CE2BFdB6640F4F80f226bc10bAB" = true := by
    decide +kernel
  refine ⟨?_, ?_, ?_, (keys_tell_apart ⟨"7_desk", 1⟩ ⟨"1_desk", 7⟩).2.2 _ _ _⟩
  · exact ((keys_tell_apart ⟨"Desk_1", 7⟩ ⟨"dESK_1", 7⟩).1 _ _ _ _ _ _ husdc heth hpadded heth).mpr
      (by decide +kernel)
  · exact mt ((keys_tell_apart ⟨"Desk_1", 7⟩ ⟨"Desk", 1⟩).1 _ _ _ _ _ _ husdc heth husdc heth).mp
      (by decide +kernel)
  · exact mt (keys_tell_apart ⟨"7_desk", 1⟩ ⟨"desk", 17⟩).2.1.mp (by decide +kernel)

end Scope
end QuoteDesk
