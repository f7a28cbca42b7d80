import QuoteDesk.Proofs.Cache.Timed
/-!
A cache that clients share. A read that comes across a slot past its end drops it in a second step, and
other clients act in between. Main statement: what is stored while nobody is about to drop its key is
seen by every read of its kind until its time is over or a text takes its place, however the steps of
the clients interleave. A drop takes a live slot only if the slot was written after the read.
-/
namespace QuoteDesk

theorem Slot.not_isLive_later {slot : Slot} {now later : Nat} (h : slot.isLive now = false)
    (hle : now ≤ later) : slot.isLive later = false := by
  unfold isLive at h ⊢
  split at h
  · cases h
  · next expiry hexpiry =>
    simp only [decide_eq_false_iff_not, Nat.not_lt] at h ⊢
    omega

/-- A cache, the time and for each client the key it is about to drop: it has seen the slot past its end
and its read is not over. -/
structure SharedCache (ι : Type) where
  cache : Cache
  now : Nat
  dropping : ι → Option String

namespace SharedCache

variable {ι : Type} {s : SharedCache ι} {i : ι} {key : String}

def empty : SharedCache ι := ⟨.empty, 0, fun _ => none⟩

def answer (s : SharedCache ι) (r : CacheRequest) : CacheAnswer := (s.cache.answer s.now r).1

/-- What a write leaves: a text until its end or a member of a set. -/
inductive Deposit where
  | text (value : String) (expiry : Nat)
  | member (name : String)

namespace Deposit

def IsThere (now : Nat) : Deposit → Prop
  | .text _ expiry => now < expiry
  | .member _ => True

inductive In : Deposit → Slot → Prop where
  | text (value : String) (expiry : Nat) : In (.text value expiry) ⟨.text value, some expiry⟩
  | member {set : Table Unit} {name : String} (hmem : name ∈ set.names) :
    In (.member name) ⟨.members set, none⟩

theorem IsThere.earlier {d : Deposit} {now later : Nat} (h : d.IsThere later) (hle : now ≤ later) :
    d.IsThere now := by
  cases d with
  | text value expiry => exact Nat.lt_of_le_of_lt hle h
  | member name => trivial

theorem In.isLive {d : Deposit} {slot : Slot} {now : Nat} (h : d.In slot) (hthere : d.IsThere now) :
    slot.isLive now = true := by
  cases h with
  | text value expiry => exact decide_eq_true hthere
  | member hmem => rfl

end Deposit

variable {d : Deposit}

/-- The slot under a key has a deposit and nobody is about to drop it. -/
structure Holds (s : SharedCache ι) (key : String) (d : Deposit) : Prop where
  slot : ∃ slot, s.cache.slots.find? key = some slot ∧ d.In slot
  undropped : ∀ j, s.dropping j ≠ some key

def Ended (s : SharedCache ι) (key : String) : Prop :=
  ∀ slot, s.cache.slots.find? key = some slot → slot.isLive s.now = false

theorem Holds.look (h : s.Holds key d) (hthere : d.IsThere s.now) :
    ∃ slot, s.cache.look s.now key = .live slot.content ∧ d.In slot := by
  obtain ⟨slot, hslot, hin⟩ := h.slot
  refine ⟨slot, ?_, hin⟩
  simp only [Cache.look, hslot, hin.isLive hthere, if_true]

theorem Holds.text_seen {value : String} {expiry : Nat} (h : s.Holds key (.text value expiry))
    (hthere : s.now < expiry) :
    s.answer (.get key) = .text (some value) ∧ s.answer (.members key) = .refused (.holdsText key) := by
  obtain ⟨slot, hlook, hin⟩ := h.look hthere
  cases hin
  constructor
  · simp [answer, Cache.answer, Cache.get, hlook, Cache.Sight.text?, CacheAnswer.ofResult]
  · simp [answer, Cache.answer, Cache.members, hlook, Cache.Sight.members?, CacheAnswer.ofResult]

theorem Holds.member_seen {name : String} (h : s.Holds key (.member name)) :
    (∃ names, s.answer (.members key) = .members names ∧ name ∈ names) ∧
      s.answer (.get key) = .refused (.holdsSet key) := by
  obtain ⟨slot, hlook, hin⟩ := h.look trivial
  cases hin with
  | @member set name hmem =>
    constructor
    · refine ⟨set.names, ?_, hmem⟩
      simp [answer, Cache.answer, Cache.members, hlook, Cache.Sight.members?, CacheAnswer.ofResult]
    · simp [answer, Cache.answer, Cache.get, hlook, Cache.Sight.text?, CacheAnswer.ofResult]

theorem Holds.add (h : s.Holds key d) (hthere : d.IsThere s.now) (k member : String) :
    Holds { s with cache := (s.cache.add s.now k member).2 } key d := by
  refine ⟨?_, h.undropped⟩
  by_cases hk : key = k
  · subst hk
    obtain ⟨slot, hlook, hin⟩ := h.look hthere
    cases hin with
    | text value expiry =>
      simp only [Cache.add, hlook]
      exact h.slot
    | @member set name hmem =>
      simp only [Cache.add, hlook, Table.find?_insert, if_true]
      refine ⟨_, rfl, .member ?_⟩
      rw [Table.names_insert]
      exact Finset.mem_insert_of_mem hmem
  · rw [Cache.find?_add s.cache s.now hk member]
    exact h.slot

inductive Event (ι : Type) where
  | request (i : ι) (r : CacheRequest)
  | drop (i : ι)
  | elapse (ms : Nat)

inductive Event.Replaces (key : String) : Event ι → Prop where
  | put (i : ι) (lifetime : Nat) (value : String) : Replaces key (.request i (.put key lifetime value))

inductive Event.Writes (key : String) : Event ι → Prop where
  | put (i : ι) (lifetime : Nat) (value : String) : Writes key (.request i (.put key lifetime value))
  | add (i : ι) (member : String) : Writes key (.request i (.add key member))

variable [DecidableEq ι] {e : Event ι} {es : List (Event ι)}

/-- The first step of a read. -/
def read (s : SharedCache ι) (i : ι) (key : String) : SharedCache ι :=
  match s.cache.look s.now key with
  | .expired => { s with dropping := Function.update s.dropping i (some key) }
  | _ => s

def request (s : SharedCache ι) (i : ι) : CacheRequest → SharedCache ι
  | .get key => s.read i key
  | .members key => s.read i key
  | r => { s with cache := (s.cache.answer s.now r).2 }

def drop (s : SharedCache ι) (i : ι) : SharedCache ι :=
  match s.dropping i with
  | none => s
  | some key => { s with cache := s.cache.drop key, dropping := Function.update s.dropping i none }

def step (s : SharedCache ι) : Event ι → SharedCache ι
  | .request i r =>
    match s.dropping i with
    | none => s.request i r
    | some _ => s
  | .drop i => s.drop i
  | .elapse ms => { s with now := s.now + ms }

def run (s : SharedCache ι) (es : List (Event ι)) : SharedCache ι := es.foldl step s

@[simp] theorem now_read (s : SharedCache ι) (i : ι) (key : String) : (s.read i key).now = s.now := by
  unfold read
  split <;> rfl

@[simp] theorem cache_read (s : SharedCache ι) (i : ι) (key : String) :
    (s.read i key).cache = s.cache := by
  unfold read
  split <;> rfl

@[simp] theorem now_request (s : SharedCache ι) (i : ι) (r : CacheRequest) :
    (s.request i r).now = s.now := by
  cases r <;> simp [request]

@[simp] theorem now_drop (s : SharedCache ι) (i : ι) : (s.drop i).now = s.now := by
  unfold drop
  split <;> rfl

theorem now_le_step (s : SharedCache ι) (e : Event ι) : s.now ≤ (s.step e).now := by
  cases e with
  | request i r =>
    simp only [step]
    split
    · rw [now_request]
    · exact Nat.le_refl _
  | drop i => rw [step, now_drop]
  | elapse ms => exact Nat.le_add_right _ _

theorem now_le_run (s : SharedCache ι) (es : List (Event ι)) : s.now ≤ (s.run es).now := by
  induction es generalizing s with
  | nil => exact Nat.le_refl _
  | cons e es ih => exact (now_le_step s e).trans (ih (s.step e))

/-- When nobody comes in between, both steps of a request leave what a client alone leaves. -/
theorem request_drop (h : s.dropping i = none) (r : CacheRequest) :
    ((s.request i r).drop i).cache = (s.cache.answer s.now r).2 := by
  have hread : ∀ key, ((s.read i key).drop i).cache = s.cache.afterSight key (s.cache.look s.now key) := by
    intro key
    unfold read
    cases s.cache.look s.now key <;> simp [drop, h, Cache.afterSight]
  cases r with
  | get key => exact hread key
  | members key => exact hread key
  | put key lifetime value => simp [request, drop, h]
  | add key member => simp [request, drop, h]
  | size => simp [request, drop, h]

/-- A read of the key finds the slot before its end, and a read of another key will drop another slot. -/
theorem Holds.read (h : s.Holds key d) (hthere : d.IsThere s.now) (i : ι) (k : String) :
    (s.read i k).Holds key d := by
  unfold SharedCache.read
  split
  · next hlook =>
    have hk : k ≠ key := by
      rintro rfl
      obtain ⟨slot, hlive, -⟩ := h.look hthere
      rw [hlive] at hlook
      cases hlook
    refine ⟨h.slot, ?_⟩
    intro j
    by_cases hj : j = i
    · subst hj
      simp [hk]
    · simpa [hj] using h.undropped j
  · exact h

theorem Holds.request (h : s.Holds key d) (hthere : d.IsThere s.now) (i : ι) {r : CacheRequest}
    (hr : ¬ (Event.request i r).Replaces key) : (s.request i r).Holds key d := by
  cases r with
  | get k => exact h.read hthere i k
  | members k => exact h.read hthere i k
  | put k lifetime value =>
    have hk : k ≠ key := by
      rintro rfl
      exact hr (.put i lifetime value)
    refine ⟨?_, h.undropped⟩
    simp only [SharedCache.request, Cache.answer, Cache.find?_put s.now lifetime value hk]
    exact h.slot
  | add k member => exact h.add hthere k member
  | size => exact h

theorem Holds.drop (h : s.Holds key d) (i : ι) : (s.drop i).Holds key d := by
  unfold SharedCache.drop
  split
  · exact h
  · next k hdrop =>
    have hk : k ≠ key := by
      rintro rfl
      exact h.undropped i hdrop
    constructor
    · simp only [Cache.drop, Table.find?_erase, if_neg hk]
      exact h.slot
    · intro j
      by_cases hj : j = i
      · subst hj
        simp
      · simpa [hj] using h.undropped j

/-- No step takes a deposit before its end, apart from a text that takes its place. -/
theorem Holds.step (h : s.Holds key d) (hthere : d.IsThere s.now) (he : ¬ e.Replaces key) :
    (s.step e).Holds key d := by
  cases e with
  | request i r =>
    simp only [SharedCache.step]
    split
    · exact h.request hthere i he
    · exact h
  | drop i => exact h.drop i
  | elapse ms => exact ⟨h.slot, h.undropped⟩

theorem Holds.run (h : s.Holds key d) (hes : ∀ e ∈ es, ¬ e.Replaces key)
    (hthere : d.IsThere (s.run es).now) : (s.run es).Holds key d := by
  induction es generalizing s with
  | nil => exact h
  | cons e es ih =>
    have hnow : d.IsThere s.now := hthere.earlier (now_le_run s (e :: es))
    have hstep : (s.step e).Holds key d := h.step hnow (hes e List.mem_cons_self)
    exact ih hstep (fun e' he' => hes e' (List.mem_cons_of_mem e he')) hthere

theorem holds_put (hi : s.dropping i = none) (hkey : ∀ j, s.dropping j ≠ some key) (lifetime : Nat)
    (value : String) :
    (s.step (.request i (.put key lifetime value))).Holds key (.text value (s.now + lifetime)) := by
  simp only [step, hi]
  refine ⟨⟨⟨.text value, some (s.now + lifetime)⟩, ?_, .text value _⟩, hkey⟩
  simp [request, Cache.answer, Cache.put, Table.find?_insert]

theorem holds_add (hi : s.dropping i = none) (hkey : ∀ j, s.dropping j ≠ some key) {member : String}
    (hdone : s.answer (.add key member) = .done) :
    (s.step (.request i (.add key member))).Holds key (.member member) := by
  simp only [step, hi]
  refine ⟨?_, hkey⟩
  simp only [answer, Cache.answer] at hdone
  simp only [request, Cache.answer]
  have hmem : ∀ set : Table Unit, member ∈ (set.insert member ()).names := by
    intro set
    rw [Table.names_insert]
    exact Finset.mem_insert_self _ _
  unfold Cache.add at hdone ⊢
  split at hdone
  · cases hdone
  · next set hlook => exact ⟨_, by rw [Table.find?_insert, if_pos rfl], .member (hmem set)⟩
  · exact ⟨_, by rw [Table.find?_insert, if_pos rfl], .member (hmem .empty)⟩

theorem Ended.request (h : s.Ended key) (i : ι) {r : CacheRequest}
    (hr : ¬ (Event.request i r).Writes key) : (s.request i r).Ended key := by
  cases r with
  | get k => simpa [Ended, SharedCache.request] using h
  | members k => simpa [Ended, SharedCache.request] using h
  | put k lifetime value =>
    have hk : k ≠ key := by
      rintro rfl
      exact hr (.put i lifetime value)
    simpa [Ended, SharedCache.request, Cache.answer, Cache.find?_put _ _ _ hk] using h
  | add k member =>
    have hk : key ≠ k := by
      rintro rfl
      exact hr (.add i member)
    simpa [Ended, SharedCache.request, Cache.answer, Cache.find?_add _ _ hk] using h
  | size => exact h

theorem Ended.step (h : s.Ended key) (he : ¬ e.Writes key) : (s.step e).Ended key := by
  cases e with
  | request i r =>
    simp only [SharedCache.step]
    split
    · exact h.request i he
    · exact h
  | drop i =>
    simp only [SharedCache.step, SharedCache.drop]
    split
    · exact h
    · next k hdrop =>
      intro slot hslot
      simp only [Cache.drop, Table.find?_erase] at hslot
      split at hslot
      · cases hslot
      · exact h slot hslot
  | elapse ms =>
    intro slot hslot
    exact Slot.not_isLive_later (h slot hslot) (Nat.le_add_right _ _)

/-- A client comes to drop a key only by a read that has found the slot past its end. -/
theorem ended_of_dropping_step {j : ι} (hj : s.dropping j ≠ some key)
    (hdrop : (s.step e).dropping j = some key) : s.Ended key := by
  have hread : ∀ i k, (s.read i k).dropping j = some key → s.Ended key := by
    intro i k hread
    unfold read at hread
    split at hread
    · next hlook =>
      by_cases hi : j = i
      · subst hi
        obtain rfl : k = key := by simpa using hread
        intro slot hslot
        simpa [Cache.look, hslot] using hlook
      · exact absurd (by simpa [hi] using hread) hj
    · exact absurd hread hj
  cases e with
  | request i r =>
    simp only [step] at hdrop
    split at hdrop
    · cases r with
      | get k => exact hread i k hdrop
      | members k => exact hread i k hdrop
      | put k lifetime value => exact absurd hdrop hj
      | add k member => exact absurd hdrop hj
      | size => exact absurd hdrop hj
    · exact absurd hdrop hj
  | drop i =>
    simp only [step, drop] at hdrop
    split at hdrop
    · exact absurd hdrop hj
    · by_cases hi : j = i
      · subst hi
        simp at hdrop
      · exact absurd (by simpa [hi] using hdrop) hj
  | elapse ms => exact absurd hdrop hj

theorem ended_of_dropping {j : ι} (h : s.dropping j = some key → s.Ended key)
    (hes : ∀ e ∈ es, ¬ e.Writes key) (hdrop : (s.run es).dropping j = some key) :
    (s.run es).Ended key := by
  induction es generalizing s with
  | nil => exact h hdrop
  | cons e es ih =>
    have he : ¬ e.Writes key := hes e List.mem_cons_self
    have hstep : (s.step e).dropping j = some key → (s.step e).Ended key := by
      intro hnext
      by_cases hj : s.dropping j = some key
      · exact (h hj).step he
      · exact (ended_of_dropping_step hj hnext).step he
    exact ih hstep (fun e' he' => hes e' (List.mem_cons_of_mem e he')) hdrop

/-- A drop leaves every live slot when its own has ended. -/
theorem look_drop {j : ι} (hended : ∀ k, s.dropping j = some k → s.Ended k) {content : Content}
    (hlive : s.cache.look s.now key = .live content) :
    (s.drop j).cache.look s.now key = .live content := by
  unfold drop
  split
  · exact hlive
  · next k hdrop =>
    have hk : k ≠ key := by
      rintro rfl
      unfold Cache.look at hlive
      split at hlive
      · cases hlive
      · next slot hslot =>
        rw [hended k hdrop slot hslot] at hlive
        cases hlive
    simp only [Cache.look, Cache.drop, Table.find?_erase, if_neg hk]
    exact hlive

/-- A text or a member that is stored while nobody is about to drop its key is seen by every read of
its kind until the end of the text or until a text takes its place, and reads of the other kind are
told what the key holds. A drop takes no live slot, unless its key was written since the client was
about to drop nothing. -/
theorem stored_is_seen (s : SharedCache ι) :
    (∀ i key, s.dropping i = none → (∀ j, s.dropping j ≠ some key) →
      ∀ es : List (Event ι), (∀ e ∈ es, ¬ e.Replaces key) →
        (∀ lifetime value, let t := (s.step (.request i (.put key lifetime value))).run es
          t.now < s.now + lifetime →
          t.answer (.get key) = .text (some value) ∧
            t.answer (.members key) = .refused (.holdsText key)) ∧
        ∀ member, s.answer (.add key member) = .done →
          let t := (s.step (.request i (.add key member))).run es
          (∃ names, t.answer (.members key) = .members names ∧ member ∈ names) ∧
            t.answer (.get key) = .refused (.holdsSet key)) ∧
    ∀ j, s.dropping j = none → ∀ es : List (Event ι), let t := s.run es
      (∀ key, t.dropping j = some key → ∀ e ∈ es, ¬ e.Writes key) →
      ∀ key content, t.cache.look t.now key = .live content →
        (t.step (.drop j)).cache.look t.now key = .live content := by
  constructor
  · intro i key hi hkey es hes
    constructor
    · intro lifetime value t hnow
      exact ((holds_put hi hkey lifetime value).run hes hnow).text_seen hnow
    · intro member hdone t
      exact ((holds_add hi hkey hdone).run hes trivial).member_seen
  · intro j hj es t hes key content hlive
    refine look_drop ?_ hlive
    intro k hdrop
    refine ended_of_dropping ?_ (hes k hdrop) hdrop
    intro hbusy
    rw [hj] at hbusy
    cases hbusy

/-- While one client is about to drop another key, a text and a member outlast its drop. -/
theorem stored_is_seen_beside_drop :
    let s : SharedCache Bool :=
      empty.run [.request true (.put "old" 10 "v"), .elapse 10, .request false (.get "old")]
    s.dropping false = some "old" ∧
      ((s.step (.request true (.put "k" 20 "w"))).run [.drop false, .elapse 19]).answer (.get "k") =
        .text (some "w") ∧
      (∃ names, ((s.step (.request true (.add "k" "m"))).run [.drop false, .elapse 30]).answer
        (.members "k") = .members names ∧ "m" ∈ names) ∧
      ∀ key content, s.cache.look s.now key = .live content →
        (s.step (.drop false)).cache.look s.now key = .live content := by
  intro s
  have hdropping : ∀ j, s.dropping j ≠ some "k" := by decide
  have hreads : ∀ ms, ∀ e ∈ ([.drop false, .elapse ms] : List (Event Bool)), ¬ e.Replaces "k" := by
    rintro ms e he ⟨⟩
    simp at he
  refine ⟨by decide, ?_, ?_, ?_⟩
  · exact (((stored_is_seen s).1 true "k" (by decide) hdropping _ (hreads 19)).1 20 "w" (by decide)).1
  · exact (((stored_is_seen s).1 true "k" (by decide) hdropping _ (hreads 30)).2 "m" (by decide)).1
  · refine (stored_is_seen (empty.run [.request true (.put "old" 10 "v"), .elapse 10])).2 false
      (by decide) [.request false (.get "old")] ?_
    rintro key - e he hwrites
    obtain rfl := List.mem_singleton.mp he
    cases hwrites

/-- What is stored between a read and its drop is lost long before its end, be it a text or a member;
and a read of the other kind never answers what is stored. -/
theorem stored_is_lost :
    let s : SharedCache Bool :=
      empty.run [.request true (.put "k" 10 "old"), .elapse 10, .request false (.get "k")]
    let text := s.step (.request true (.put "k" 1000 "new"))
    let member := s.step (.request true (.add "k" "m"))
    text.answer (.get "k") = .text (some "new") ∧ text.answer .size = .size 1 ∧
      (text.step (.drop false)).answer (.get "k") = .text none ∧
      (text.step (.drop false)).answer .size = .size 0 ∧
      s.answer (.add "k" "m") = .done ∧ member.answer (.members "k") = .members {"m"} ∧
      (member.step (.drop false)).answer (.members "k") = .members ∅ ∧
      text.answer (.members "k") = .refused (.holdsText "k") ∧
      member.answer (.get "k") = .refused (.holdsSet "k") := by
  decide

end SharedCache
end QuoteDesk
