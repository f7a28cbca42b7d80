import QuoteDesk.Proofs.Cache.Books
import Mathlib.Data.Finset.Insert
import Mathlib.Data.Set.Card
/-!
The cache as a timed map. In the map a text exists from the moment it is stored until its lifetime is
over and a set until a text takes its place, and nothing is ever taken out. Main statement: whatever a
client asks of a cache and however long it waits in between, it gets the answers of the timed map. So
nobody can tell when a slot past its end is dropped.
-/
namespace QuoteDesk

inductive CacheRequest where
  | get (key : String)
  | put (key : String) (lifetime : Nat) (value : String)
  | add (key member : String)
  | members (key : String)
  | size

inductive CacheAnswer where
  | text (value : Option String)
  | members (names : Finset String)
  | size (n : Nat)
  | done
  | refused (cause : CacheError)
  deriving DecidableEq

def CacheAnswer.ofResult {α : Type} (answer : α → CacheAnswer) : Except CacheError α → CacheAnswer
  | .ok a => answer a
  | .error e => .refused e

/-- The answers to a session of requests. The client waits before each of them, so the clock never goes
back. -/
def CacheRequest.session {σ : Type} (answer : σ → Nat → CacheRequest → CacheAnswer × σ) :
    σ → Nat → List (Nat × CacheRequest) → List CacheAnswer
  | _, _, [] => []
  | s, now, (wait, r) :: rest =>
    (answer s (now + wait) r).1 :: session answer (answer s (now + wait) r).2 (now + wait) rest

def Table.names (set : Table Unit) : Finset String := (set.entries.map (·.1)).toFinset

def Cache.answer (c : Cache) (now : Nat) : CacheRequest → CacheAnswer × Cache
  | .get key => (.ofResult .text (c.get now key).1, (c.get now key).2)
  | .put key lifetime value => (.done, c.put now key lifetime value)
  | .add key member => (.ofResult (fun _ => .done) (c.add now key member).1, (c.add now key member).2)
  | .members key => (.ofResult (.members ·.names) (c.members now key).1, (c.members now key).2)
  | .size => (.size (c.size now), c)

/-- What was stored under a key last: a text with its moment and its lifetime, or a set. -/
inductive Stored where
  | text (value : String) (since lifetime : Nat)
  | members (names : Finset String)

def Stored.isThere (now : Nat) : Stored → Bool
  | .text _ since lifetime => now < since + lifetime
  | .members _ => true

structure TimedMap where
  stored : String → Option Stored

namespace TimedMap

def empty : TimedMap := ⟨fun _ => none⟩

def at? (m : TimedMap) (now : Nat) (key : String) : Option Stored :=
  (m.stored key).filter (·.isThere now)

def store (m : TimedMap) (key : String) (s : Stored) : TimedMap :=
  ⟨Function.update m.stored key (some s)⟩

noncomputable def answer (m : TimedMap) (now : Nat) : CacheRequest → CacheAnswer × TimedMap
  | .get key =>
    match m.at? now key with
    | none => (.text none, m)
    | some (.text value _ _) => (.text (some value), m)
    | some (.members _) => (.refused (.holdsSet key), m)
  | .put key lifetime value => (.done, m.store key (.text value now lifetime))
  | .add key member =>
    match m.at? now key with
    | none => (.done, m.store key (.members {member}))
    | some (.text _ _ _) => (.refused (.holdsText key), m)
    | some (.members names) => (.done, m.store key (.members (insert member names)))
  | .members key =>
    match m.at? now key with
    | none => (.members ∅, m)
    | some (.text _ _ _) => (.refused (.holdsText key), m)
    | some (.members names) => (.members names, m)
  | .size => (.size {key | (m.at? now key).isSome}.ncard, m)

end TimedMap

theorem Table.names_insert (set : Table Unit) (member : String) :
    (set.insert member ()).names = Insert.insert member set.names := by
  ext name
  simp only [names, List.mem_toFinset, Finset.mem_insert]
  exact mem_keys_insert set member name ()

namespace Cache

/-- A slot holds what was stored last under its key. A text past its end may have been dropped. -/
inductive Holds (now : Nat) : Option Slot → Option Stored → Prop where
  | nothing : Holds now none none
  | text (value : String) (since lifetime : Nat) :
    Holds now (some ⟨.text value, some (since + lifetime)⟩) (some (.text value since lifetime))
  | members (set : Table Unit) : Holds now (some ⟨.members set, none⟩) (some (.members set.names))
  | dropped (value : String) {since lifetime : Nat} (hover : since + lifetime ≤ now) :
    Holds now none (some (.text value since lifetime))

/-- Every key of the cache holds what the timed map has stored there. -/
def Refines (c : Cache) (m : TimedMap) (now : Nat) : Prop :=
  ∀ key, Holds now (c.slots.find? key) (m.stored key)

/-- What a read sees is what exists in the timed map. -/
inductive Sight.Shows : Sight → Option Stored → Prop where
  | absent : Shows .absent none
  | expired : Shows .expired none
  | text (value : String) (since lifetime : Nat) :
    Shows (.live (.text value)) (some (.text value since lifetime))
  | members (set : Table Unit) : Shows (.live (.members set)) (some (.members set.names))

variable {c : Cache} {m : TimedMap} {now : Nat} {key : String}

theorem refines_empty (now : Nat) : Refines .empty .empty now := fun _ => .nothing

theorem Refines.later (h : c.Refines m now) {later : Nat} (hle : now ≤ later) :
    c.Refines m later := by
  intro key
  have hkey := h key
  generalize c.slots.find? key = slot at hkey ⊢
  generalize m.stored key = stored at hkey ⊢
  cases hkey with
  | nothing => exact .nothing
  | text value since lifetime => exact .text value since lifetime
  | members set => exact .members set
  | dropped value hover => exact .dropped value (Nat.le_trans hover hle)

theorem Refines.look (h : c.Refines m now) (key : String) :
    (c.look now key).Shows (m.at? now key) := by
  have hkey := h key
  unfold Cache.look TimedMap.at?
  generalize c.slots.find? key = slot at hkey ⊢
  generalize m.stored key = stored at hkey ⊢
  cases hkey with
  | nothing => exact .absent
  | text value since lifetime =>
    rw [Option.filter_some]
    by_cases hlive : now < since + lifetime
    · simpa [Slot.isLive, Stored.isThere, hlive] using Sight.Shows.text value since lifetime
    · simpa [Slot.isLive, Stored.isThere, hlive] using Sight.Shows.expired
  | members set => exact .members set
  | @dropped value since lifetime hover =>
    have hgone : ¬ now < since + lifetime := Nat.not_lt.mpr hover
    rw [Option.filter_some]
    simpa [Stored.isThere, hgone] using Sight.Shows.absent

/-- Dropping a slot past its end changes nothing that the timed map can tell. -/
theorem Refines.afterSight (h : c.Refines m now) (key : String) :
    (c.afterSight key (c.look now key)).Refines m now := by
  intro k
  rcases find?_afterSight c now key k with hsame | ⟨hnone, hdead⟩
  · exact hsame ▸ h k
  · have hk := h k
    rw [hnone]
    generalize c.slots.find? k = slot at hk hdead
    generalize m.stored k = stored at hk ⊢
    cases hk with
    | nothing => exact .nothing
    | text value since lifetime =>
      have hover : ¬ now < since + lifetime := by simpa [Slot.isLive] using hdead _ rfl
      exact .dropped value (Nat.not_lt.mp hover)
    | members set => cases hdead _ rfl
    | dropped value hover => exact .dropped value hover

theorem Refines.store (h : c.Refines m now) {slot : Slot} {s : Stored}
    (hs : Holds now (some slot) (some s)) (key : String) :
    Refines ⟨c.slots.insert key slot⟩ (m.store key s) now := by
  intro k
  rw [Table.find?_insert]
  by_cases hk : key = k
  · subst hk
    simpa [TimedMap.store] using hs
  · simpa [TimedMap.store, hk, Function.update_of_ne (Ne.symm hk)] using h k

theorem Refines.isSome_at?_iff (h : c.Refines m now) :
    (m.at? now key).isSome = true ↔ ∃ slot, c.slots.find? key = some slot ∧ slot.isLive now = true := by
  have hlook := h.look key
  unfold Cache.look at hlook
  generalize m.at? now key = stored at hlook ⊢
  constructor
  · intro hthere
    split at hlook
    · cases hlook
      cases hthere
    · next slot hslot =>
      split at hlook
      · next hlive => exact ⟨slot, hslot, hlive⟩
      · cases hlook
        cases hthere
  · rintro ⟨slot, hslot, hlive⟩
    simp only [hslot, hlive, if_true] at hlook
    generalize slot.content = content at hlook
    cases hlook <;> rfl

theorem Refines.size_eq (h : c.Refines m now) :
    c.size now = {key | (m.at? now key).isSome}.ncard := by
  let live := c.slots.entries.filter fun e => e.2.isLive now
  have hkeys : {key | (m.at? now key).isSome} = ((live.map (·.1)).toFinset : Set String) := by
    ext key
    rw [Set.mem_ofPred_eq, h.isSome_at?_iff]
    simp [live, Table.find?_eq_some_iff]
  have hnodup : (live.map (·.1)).Nodup :=
    c.slots.nodup_keys.sublist (List.filter_sublist.map _)
  rw [hkeys, Set.ncard_coe_finset, List.toFinset_card_of_nodup hnodup, List.length_map]
  rfl

theorem Refines.answer (h : c.Refines m now) (r : CacheRequest) :
    (c.answer now r).1 = (m.answer now r).1 ∧
      (c.answer now r).2.Refines (m.answer now r).2 now := by
  cases r with
  | get key =>
    have hlook := h.look key
    have hafter := h.afterSight key
    simp only [Cache.answer, Cache.get, TimedMap.answer]
    generalize c.look now key = sight at hlook hafter ⊢
    generalize m.at? now key = stored at hlook ⊢
    cases hlook <;> exact ⟨rfl, hafter⟩
  | put key lifetime value => exact ⟨rfl, h.store (.text value now lifetime) key⟩
  | add key member =>
    have hlook := h.look key
    simp only [Cache.answer, Cache.add, TimedMap.answer]
    generalize c.look now key = sight at hlook ⊢
    generalize m.at? now key = stored at hlook ⊢
    have hfirst : Table.names (Table.empty.insert member ()) = {member} :=
      Table.names_insert .empty member
    cases hlook with
    | absent => exact ⟨rfl, h.store (hfirst ▸ .members _) key⟩
    | expired => exact ⟨rfl, h.store (hfirst ▸ .members _) key⟩
    | text value since lifetime => exact ⟨rfl, h⟩
    | members set => exact ⟨rfl, h.store (Table.names_insert set member ▸ .members _) key⟩
  | members key =>
    have hlook := h.look key
    have hafter := h.afterSight key
    simp only [Cache.answer, Cache.members, TimedMap.answer]
    generalize c.look now key = sight at hlook hafter ⊢
    generalize m.at? now key = stored at hlook ⊢
    cases hlook <;> exact ⟨rfl, hafter⟩
  | size => exact ⟨congrArg CacheAnswer.size h.size_eq, h⟩

/-- A whole session: every answer is that of the timed map. -/
theorem Refines.session (h : c.Refines m now) (requests : List (Nat × CacheRequest)) :
    CacheRequest.session Cache.answer c now requests =
      CacheRequest.session TimedMap.answer m now requests := by
  induction requests generalizing c m now with
  | nil => rfl
  | cons request requests ih =>
    obtain ⟨wait, r⟩ := request
    obtain ⟨hanswer, hafter⟩ := (h.later (Nat.le_add_right now wait)).answer r
    simp only [CacheRequest.session, hanswer, ih hafter]

/-- A new cache answers like an empty timed map, whatever is asked of it and whenever: values, sets, counts
and refusals. -/
theorem session_eq_timedMap (now : Nat) (requests : List (Nat × CacheRequest)) :
    CacheRequest.session Cache.answer .empty now requests =
      CacheRequest.session TimedMap.answer .empty now requests :=
  (refines_empty now).session requests

example : CacheRequest.session Cache.answer .empty 0 [(0, .put "k" 10 "v"), (9, .add "k" "a"),
    (1, .add "k" "a"), (5, .get "k"), (0, .members "k"), (0, .size)] =
    [.done, .refused (.holdsText "k"), .done, .refused (.holdsSet "k"), .members {"a"}, .size 1] := by
  decide

end Cache
end QuoteDesk
