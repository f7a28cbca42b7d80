import QuoteDesk.Directory
/-!
Names of pairs. A name is two symbols with a slash between them and is parted at its first slash, so a
symbol that has a slash itself makes a name that stands for other symbols too. Main statement: names
and look-ups of a directory keep in step with its pairs exactly if every pair stands under its own name
and no symbol of a pair has a slash.
-/
namespace QuoteDesk

namespace Pair

variable {base quote base' quote' name : String}

theorem toList_nameOf (base quote : String) :
    (nameOf base quote).toList = base.toList ++ '/' :: quote.toList := by
  have hslash : "/".toList = ['/'] := rfl
  simp only [nameOf, String.toList_append, hslash, List.append_assoc, List.singleton_append]

theorem takeWhile_nameOf (h : '/' ∉ base.toList) :
    (nameOf base quote).toList.takeWhile (· ≠ '/') = base.toList := by
  have hall : ∀ c ∈ base.toList, decide (c ≠ '/') = true :=
    fun c hc => decide_eq_true fun heq => h (heq ▸ hc)
  rw [toList_nameOf, List.takeWhile_append_of_pos hall]
  simp

theorem dropWhile_nameOf (h : '/' ∉ base.toList) :
    (nameOf base quote).toList.dropWhile (· ≠ '/') = '/' :: quote.toList := by
  have hall : ∀ c ∈ base.toList, decide (c ≠ '/') = true :=
    fun c hc => decide_eq_true fun heq => h (heq ▸ hc)
  rw [toList_nameOf, List.dropWhile_append_of_pos hall]
  simp

theorem nameOf_inj (h : '/' ∉ base.toList) (h' : '/' ∉ base'.toList) :
    nameOf base quote = nameOf base' quote' ↔ base = base' ∧ quote = quote' := by
  constructor
  · intro heq
    have hbase : (nameOf base quote).toList.takeWhile (· ≠ '/') = base.toList := takeWhile_nameOf h
    rw [heq, takeWhile_nameOf h'] at hbase
    have hquote : (nameOf base quote).toList.dropWhile (· ≠ '/') = '/' :: quote.toList :=
      dropWhile_nameOf h
    rw [heq, dropWhile_nameOf h'] at hquote
    exact ⟨(String.toList_inj.mp hbase).symm,
      (String.toList_inj.mp (List.cons.inj hquote).2).symm⟩
  · rintro ⟨rfl, rfl⟩
    rfl

theorem eq_of_nameOf_eq (hbase : '/' ∉ base.toList) (hquote : '/' ∉ quote.toList)
    (h : nameOf base quote = nameOf base' quote') : base = base' ∧ quote = quote' := by
  have hplain : '/' ∉ base'.toList := by
    intro hmem
    have hcount := congrArg (fun s => s.toList.count '/') h
    simp only [toList_nameOf, List.count_append, List.count_cons_self,
      List.count_eq_zero_of_not_mem hbase, List.count_eq_zero_of_not_mem hquote] at hcount
    have hpos := List.count_pos_iff.mpr hmem
    omega
  exact (nameOf_inj hbase hplain).mp h

theorem splitName?_nameOf (h : '/' ∉ base.toList) (hbase : base ≠ "") (hquote : quote ≠ "") :
    splitName? (nameOf base quote) = some (base, quote) := by
  have hne : ¬ (base.toList = [] ∨ quote.toList = []) := by
    rintro (hnil | hnil)
    · exact hbase (String.toList_eq_nil_iff.mp hnil)
    · exact hquote (String.toList_eq_nil_iff.mp hnil)
  simp only [splitName?, takeWhile_nameOf h, dropWhile_nameOf h, if_neg hne, String.ofList_toList]

theorem not_mem_of_splitName? (h : splitName? name = some (base, quote)) : '/' ∉ base.toList := by
  unfold splitName? at h
  simp only at h
  split at h
  · next rest _ =>
    split at h
    · cases h
    · obtain rfl : String.ofList _ = base := congrArg Prod.fst (Option.some.inj h)
      rw [String.toList_ofList]
      intro hmem
      have hall := List.all_takeWhile (p := (· ≠ '/')) (l := name.toList)
      exact absurd rfl (of_decide_eq_true (List.all_eq_true.mp hall '/' hmem))
  · cases h

end Pair

namespace PairDirectory

variable {d : PairDirectory} {first second : String} {p : Pair}

theorem find?_of_named? (h : d.named? (Pair.nameOf first second) = some p) :
    d.find? first second = some (p, true) := by
  simp only [find?, h]

theorem named?_of_find?_true (h : d.find? first second = some (p, true)) :
    d.named? (Pair.nameOf first second) = some p := by
  unfold find? at h
  split at h
  · next q hq =>
    obtain rfl : q = p := congrArg Prod.fst (Option.some.inj h)
    exact hq
  · obtain ⟨q, -, hq⟩ := Option.map_eq_some_iff.mp h
    cases congrArg Prod.snd hq

theorem named?_of_find?_false (h : d.find? first second = some (p, false)) :
    d.named? (Pair.nameOf second first) = some p := by
  unfold find? at h
  split at h
  · cases congrArg Prod.snd (Option.some.inj h)
  · obtain ⟨q, hnamed, hq⟩ := Option.map_eq_some_iff.mp h
    obtain rfl : q = p := congrArg Prod.fst hq
    exact hnamed

/-- A pair that is found for two symbols is the pair of these in the orientation that is told, and every
pair stands under its own name, which parts into its symbols. -/
structure IsFaithful (d : PairDirectory) : Prop where
  forward : ∀ first second p, d.find? first second = some (p, true) →
    p.base = first ∧ p.quote = second
  backward : ∀ first second p, d.find? first second = some (p, false) →
    p.base = second ∧ p.quote = first
  name : ∀ name p, d.named? name = some p →
    name = p.name ∧ Pair.splitName? name = some (p.base, p.quote)

/-- A slash in the second symbol lets the same name stand for another two symbols. -/
theorem not_slash_of_forward (h : ∀ first second p, d.find? first second = some (p, true) →
    p.base = first ∧ p.quote = second) (hp : d.named? p.name = some p) : '/' ∉ p.quote.toList := by
  intro hmem
  obtain ⟨before, after, hquote⟩ := List.append_of_mem hmem
  let first := Pair.nameOf p.base (String.ofList before)
  have hname : Pair.nameOf first (String.ofList after) = p.name := by
    apply String.toList_inj.mp
    simp only [Pair.toList_nameOf, Pair.name, first, String.toList_ofList, hquote,
      List.append_assoc, List.cons_append]
  have hbase := (h first (String.ofList after) p (find?_of_named? (hname.symm ▸ hp))).1
  have hlen := congrArg (fun s => s.toList.length) hbase
  simp only [first, Pair.toList_nameOf, List.length_append, List.length_cons] at hlen
  omega

/-- Names and look-ups keep in step with the pairs exactly if each pair is listed under its own name and
its symbols have no slash. -/
theorem isFaithful_iff (hlegs : ∀ name p, d.named? name = some p → p.base ≠ "" ∧ p.quote ≠ "") :
    d.IsFaithful ↔ ∀ name p, d.named? name = some p →
      name = p.name ∧ '/' ∉ p.base.toList ∧ '/' ∉ p.quote.toList := by
  constructor
  · intro h name p hp
    obtain ⟨hname, hsplit⟩ := h.name name p hp
    exact ⟨hname, Pair.not_mem_of_splitName? hsplit, not_slash_of_forward h.forward (hname ▸ hp)⟩
  · intro h
    have of_nameOf : ∀ first second p, d.named? (Pair.nameOf first second) = some p →
        p.base = first ∧ p.quote = second := by
      intro first second p hp
      obtain ⟨hname, hbase, hquote⟩ := h _ p hp
      exact Pair.eq_of_nameOf_eq hbase hquote hname.symm
    refine ⟨fun first second p hp => ?_, fun first second p hp => ?_, fun name p hp => ?_⟩
    · exact of_nameOf first second p (named?_of_find?_true hp)
    · exact of_nameOf second first p (named?_of_find?_false hp)
    · obtain ⟨hname, hbase, -⟩ := h name p hp
      obtain ⟨hb, hq⟩ := hlegs name p hp
      refine ⟨hname, ?_⟩
      rw [hname]
      exact Pair.splitName?_nameOf hbase hb hq

end PairDirectory
end QuoteDesk
