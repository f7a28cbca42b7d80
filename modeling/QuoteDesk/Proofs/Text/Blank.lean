import QuoteDesk.Text.Blank
import Mathlib.Data.List.DropRight
/-!
Trimming and lowering. Both can be done twice or in either order, so an address has one normal form.
Trimming takes off blanks that are put around a text and leaves a text alone that has none.
-/
namespace QuoteDesk.Text

theorem toNat_toLower (c : Char) :
    c.toLower.toNat = if 65 ≤ c.toNat ∧ c.toNat ≤ 90 then c.toNat + 32 else c.toNat := by
  by_cases h : 65 ≤ c.toNat ∧ c.toNat ≤ 90
  · have hc : c.val ≥ 'A'.val ∧ c.val ≤ 'Z'.val := h
    have hval : c.toLower.val = c.val + 32 := congrArg Char.val (dif_pos hc)
    have hlt : c.val.toNat + 32 < 2 ^ 32 := by
      have : c.val.toNat ≤ 90 := h.2
      omega
    rw [if_pos h]
    change c.toLower.val.toNat = c.val.toNat + 32
    rw [hval, UInt32.toNat_add]
    exact Nat.mod_eq_of_lt hlt
  · have hc : ¬ (c.val ≥ 'A'.val ∧ c.val ≤ 'Z'.val) := h
    have hsame : c.toLower = c := dif_neg hc
    rw [if_neg h, hsame]

theorem isBlank_toLower (c : Char) : isBlank c.toLower = isBlank c := by
  rw [Bool.eq_iff_iff]
  simp only [isBlank, blankRanges, List.any_cons, List.any_nil, Bool.or_eq_true, Bool.and_eq_true,
    decide_eq_true_eq, toNat_toLower, Bool.false_eq_true, or_false]
  split
  · omega
  · rfl

theorem toLower_toLower (c : Char) : c.toLower.toLower = c.toLower := by
  apply Char.ext
  apply UInt32.toNat_inj.mp
  change c.toLower.toLower.toNat = c.toLower.toNat
  rw [toNat_toLower c.toLower, toNat_toLower c]
  split
  · next h => rw [if_neg (by omega)]
  · rfl

theorem trimChars_eq (cs : List Char) :
    trimChars cs = (cs.dropWhile isBlank).rdropWhile isBlank := rfl

theorem dropWhile_rdropWhile (cs : List Char) (h : cs.dropWhile isBlank = cs) :
    (cs.rdropWhile isBlank).dropWhile isBlank = cs.rdropWhile isBlank := by
  rw [List.dropWhile_eq_self_iff] at h ⊢
  intro hlen
  have hprefix := List.rdropWhile_prefix isBlank cs
  have hlen' : 0 < cs.length := Nat.lt_of_lt_of_le hlen hprefix.length_le
  rw [List.IsPrefix.getElem hprefix hlen]
  exact h hlen'

theorem trimChars_trimChars (cs : List Char) : trimChars (trimChars cs) = trimChars cs := by
  have hfront : (cs.dropWhile isBlank).dropWhile isBlank = cs.dropWhile isBlank :=
    List.dropWhile_idempotent isBlank cs
  rw [trimChars_eq (trimChars cs), trimChars_eq cs, dropWhile_rdropWhile _ hfront]
  exact List.rdropWhile_idempotent isBlank _

theorem trimChars_lowerChars (cs : List Char) :
    trimChars (lowerChars cs) = lowerChars (trimChars cs) := by
  have hblank : isBlank ∘ Char.toLower = isBlank := funext isBlank_toLower
  simp only [trimChars, lowerChars, List.dropWhile_map, ← List.map_reverse, hblank]

theorem lowerChars_lowerChars (cs : List Char) : lowerChars (lowerChars cs) = lowerChars cs := by
  simp only [lowerChars, List.map_map]
  exact List.map_congr_left fun c _ => toLower_toLower c

@[simp] theorem normalize_normalize (s : String) : normalize (normalize s) = normalize s := by
  apply String.toList_inj.mp
  rw [toList_normalize, toList_normalize, trimChars_lowerChars, trimChars_trimChars,
    lowerChars_lowerChars]

theorem lowerChars_append (cs ds : List Char) :
    lowerChars (cs ++ ds) = lowerChars cs ++ lowerChars ds := List.map_append

theorem lower_eq_of_normal {s : String} (h : normalize s = s) : lowerChars s.toList = s.toList := by
  rw [← h, toList_normalize, lowerChars_lowerChars]

theorem isBlank_of_isDigit {c : Char} (h : c.isDigit = true) : isBlank c = false := by
  have hrange : c.val ≥ '0'.val ∧ c.val ≤ '9'.val := by
    simpa only [Char.isDigit, Bool.and_eq_true, decide_eq_true_eq] using h
  have hdigit : 48 ≤ c.toNat ∧ c.toNat ≤ 57 := hrange
  simp only [isBlank, blankRanges, List.any_cons, List.any_nil, Bool.or_eq_false_iff,
    Bool.and_eq_false_iff, decide_eq_false_iff_not, and_true]
  omega

theorem trimChars_of_no_blank {cs : List Char} (h : ∀ c ∈ cs, isBlank c = false) :
    trimChars cs = cs := by
  have hfront : ∀ ds : List Char, (∀ c ∈ ds, isBlank c = false) → ds.dropWhile isBlank = ds := by
    intro ds hds
    cases ds with
    | nil => rfl
    | cons d ds => exact List.dropWhile_cons_of_neg (by simp [hds d List.mem_cons_self])
  have hback : ∀ c ∈ cs.reverse, isBlank c = false := fun c hc => h c (List.mem_reverse.mp hc)
  rw [trimChars, hfront cs h, hfront _ hback, List.reverse_reverse]

theorem trimChars_padded {front core back : List Char} (hfront : ∀ c ∈ front, isBlank c = true)
    (hback : ∀ c ∈ back, isBlank c = true) :
    trimChars (front ++ (core ++ back)) = trimChars core := by
  have hnone : back.dropWhile isBlank = [] := by
    rw [List.dropWhile_eq_nil_iff]
    exact hback
  rw [trimChars, trimChars, List.dropWhile_append_of_pos hfront, List.dropWhile_append]
  split
  · next hempty =>
    rw [hnone, List.isEmpty_iff.mp hempty]
  · rw [List.reverse_append,
      List.dropWhile_append_of_pos fun c hc => hback c (List.mem_reverse.mp hc)]

theorem trimChars_eq_self {cs : List Char} (hfirst : cs.head?.any isBlank = false)
    (hlast : cs.getLast?.any isBlank = false) : trimChars cs = cs := by
  have hfront : cs.dropWhile isBlank = cs := by
    cases cs with
    | nil => rfl
    | cons c cs => exact List.dropWhile_cons_of_neg (by simpa using hfirst)
  rw [trimChars_eq, hfront, List.rdropWhile_eq_self_iff]
  intro hne hblank
  rw [List.getLast?_eq_some_getLast hne] at hlast
  exact absurd hblank (by simpa using hlast)

theorem head?_trimChars (cs : List Char) : (trimChars cs).head?.any isBlank = false := by
  have hfront := dropWhile_rdropWhile (cs.dropWhile isBlank) (List.dropWhile_idempotent isBlank cs)
  rw [← trimChars_eq] at hfront
  cases htrim : trimChars cs with
  | nil => rfl
  | cons c rest =>
    rw [htrim, List.dropWhile_eq_self_iff] at hfront
    simpa using hfront (Nat.zero_lt_succ rest.length)

theorem getLast?_trimChars (cs : List Char) : (trimChars cs).getLast?.any isBlank = false := by
  rw [trimChars_eq]
  by_cases hne : (cs.dropWhile isBlank).rdropWhile isBlank = []
  · rw [hne]
    rfl
  · rw [List.getLast?_eq_some_getLast hne]
    simpa using List.rdropWhile_last_not isBlank _ hne

def opensBlank (s : String) : Bool := s.toList.head?.any isBlank

theorem opensBlank_normalize (s : String) : opensBlank (normalize s) = false := by
  rw [opensBlank, toList_normalize, ← trimChars_lowerChars]
  exact head?_trimChars _

def IsPadded (s : String) (core : List Char) : Prop :=
  ∃ front back, s.toList = front ++ (core ++ back) ∧ (∀ c ∈ front, isBlank c = true) ∧
    ∀ c ∈ back, isBlank c = true

theorem IsPadded.trimChars_eq {s : String} {core : List Char} (h : IsPadded s core) :
    trimChars s.toList = trimChars core := by
  obtain ⟨front, back, hs, hfront, hback⟩ := h
  rw [hs, trimChars_padded hfront hback]

theorem IsPadded.trim {s : String} {core : List Char} (h : IsPadded s core)
    (hcore : ∀ c ∈ core, isBlank c = false) : (trim s).toList = core := by
  rw [toList_trim, h.trimChars_eq, trimChars_of_no_blank hcore]

/-- One text is another one in any letter case and with blanks around it, if any. -/
def Respells (s t : String) : Prop :=
  ∃ core, IsPadded s core ∧ lowerChars core = lowerChars t.toList

theorem Respells.refl (s : String) : Respells s s :=
  ⟨s.toList, ⟨[], [], by simp, nofun, nofun⟩, rfl⟩

theorem Respells.normalize_eq {s t : String} (h : Respells s t) : normalize s = normalize t := by
  obtain ⟨core, hpadded, hcore⟩ := h
  apply String.toList_inj.mp
  rw [toList_normalize, toList_normalize, hpadded.trimChars_eq, ← trimChars_lowerChars, hcore,
    trimChars_lowerChars]

end QuoteDesk.Text
