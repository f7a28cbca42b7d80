import QuoteDesk.Proofs.Feed.Exclusive
import QuoteDesk.Proofs.Feed.Turn
import QuoteDesk.Proofs.Feed.Work
/-!
Replies that are taken and cycles that end. A cycle ends once for each reply that its feed has taken, and
in between one task handles the reply. Main statement: whatever counts the replies and the ends, the two
counts of a feed differ by one while a task of it handles a reply, and else they are the same.
-/
namespace QuoteDesk

variable {W A : Type}

def Phase.Handling : Phase A → Prop
  | .acting _ _ _ => True
  | _ => False

theorem Phase.Handling.inCycle {p : Phase A} (h : p.Handling) : p.InCycle := by
  cases p with
  | acting outcome due todo => trivial
  | _ => exact h.elim

/-- Two counts of each feed: one goes up with each reply that is taken, one with each end of a
cycle. -/
structure Behaviour.Tallies (b : Behaviour W A) (taken ended : Feed → W → Nat) : Prop where
  receive : ∀ feed w f, taken f (b.receive feed w).2.2 = taken f w + (if f = feed then 1 else 0) ∧
    ended f (b.receive feed w).2.2 = ended f w
  perform : ∀ a now w f, taken f (b.perform a now w) = taken f w ∧
    ended f (b.perform a now w) = ended f w
  settle : ∀ feed outcome w f, taken f (b.settle feed outcome w) = taken f w ∧
    ended f (b.settle feed outcome w) = ended f w + (if f = feed then 1 else 0)

namespace Machine

variable {b : Behaviour W A} {m m' : Machine W A} {feed : Feed} {id k : TaskId} {t : Task A}

def Handles (m : Machine W A) (feed : Feed) (id : TaskId) : Prop :=
  ∃ t, m.task? id = some t ∧ t.feed = feed ∧ t.phase.Handling

theorem Handles.cycles (h : m.Handles feed id) : m.Cycles feed id := by
  obtain ⟨t, ht, hfeed, hp⟩ := h
  exact ⟨t, ht, hfeed, hp.inCycle⟩

theorem handles_iff_of_task? (h : m'.task? k = m.task? k) :
    m'.Handles feed k ↔ m.Handles feed k := by
  rw [Handles, Handles, h]

theorem handles_iff_of_kept (hdescends : Descends m m')
    (hkept : ∀ t, m.task? k = some t → ∃ t', m'.task? k = some t' ∧ Kept t t') :
    m'.Handles feed k ↔ m.Handles feed k := by
  constructor
  · rintro ⟨u, hu, hfeed, hp⟩
    rcases hdescends k u hu with hqueued | ⟨t, ht, hphase⟩
    · rw [hqueued] at hp
      exact hp.elim
    · obtain ⟨t', ht', hkept⟩ := hkept t ht
      obtain rfl := Option.some.inj (ht'.symm.trans hu)
      exact ⟨t, ht, hkept.feed.symm.trans hfeed, hphase ▸ hp⟩
  · rintro ⟨t, ht, hfeed, hp⟩
    obtain ⟨t', ht', hkept⟩ := hkept t ht
    exact ⟨t', ht', hkept.feed.trans hfeed, hkept.phase ▸ hp⟩

theorem handles_iff_of_self (ht : m.task? id = some t) :
    m.Handles feed id ↔ t.feed = feed ∧ t.phase.Handling := by
  simp [Handles, ht]

theorem not_handles_removeTask (m : Machine W A) (id : TaskId) :
    ¬ (m.removeTask id).Handles feed id := by
  simp [Handles, task?_removeTask]

theorem handles_setPhase (ht : m.task? id = some t) (p : Phase A) :
    (m.setPhase id p).Handles feed k ↔
      if k = id then t.feed = feed ∧ p.Handling else m.Handles feed k := by
  split
  · next hk =>
    subst hk
    exact handles_iff_of_self (task?_setPhase_self ht p)
  · next hk => exact handles_iff_of_task? (by rw [task?_setPhase, if_neg hk])

theorem handles_setPhase_of_ne (ht : m.task? id = some t) (hfeed : t.feed ≠ feed) (p : Phase A) :
    (m.setPhase id p).Handles feed k ↔ m.Handles feed k := by
  rw [handles_setPhase ht]
  split
  · next hk =>
    subst hk
    simp [handles_iff_of_self ht, hfeed]
  · rfl

theorem handles_setPhase_of_iff (ht : m.task? id = some t) {p : Phase A}
    (hp : p.Handling ↔ t.phase.Handling) :
    (m.setPhase id p).Handles feed k ↔ m.Handles feed k := by
  rw [handles_setPhase ht]
  split
  · next hk =>
    subst hk
    rw [handles_iff_of_self ht, hp]
  · rfl

theorem handles_performAction (b : Behaviour W A) (m : Machine W A) (a : A) :
    (m.performAction b a).Handles feed k ↔ m.Handles feed k :=
  handles_iff_of_kept (descends_performAction b m a) fun _ ht => kept_performAction b a ht

theorem handles_beginAgain (m : Machine W A) (id : TaskId) :
    (m.beginAgain id).Handles feed k ↔ m.Handles feed k := by
  rcases beginAgain_cases m id with hsame | ⟨t, due, ht, hp, -, hagain⟩
  · rw [hsame]
  · rw [hagain]
    exact handles_setPhase_of_iff ht (by rw [hp]; rfl)

/-- What is no step of a task neither begins nor ends the handling of a reply. -/
theorem handles_step {e : Event W} (he : ∀ id, e ≠ .move (.advance id)) :
    (m.step b e).Handles feed k ↔ m.Handles feed k := by
  by_cases hsubject : subject? e = some k
  · cases e with
    | move v =>
      cases v with
      | advance id => exact absurd rfl (he id)
      | beginAgain id => exact handles_beginAgain m id
      | elapse ms => cases hsubject
    | collect id =>
      obtain rfl : id = k := Option.some.inj hsubject
      change (m.collect id).Handles feed id ↔ m.Handles feed id
      rcases collect_cases m id with hsame | ⟨t, o, ht, hended, hgone⟩
      · rw [hsame]
      · rw [hgone]
        have hidle : ¬ m.Handles feed id := by
          simp [handles_iff_of_self ht, hended, Phase.Handling]
        exact iff_of_false (not_handles_removeTask m id) hidle
    | _ => cases hsubject
  · exact handles_iff_of_kept (descends_step he) fun t ht =>
      (keeps_step b m e).kept k t hsubject ht

theorem handles_run {es : List (Event W)} (hes : ∀ e ∈ es, ∀ id, e ≠ .move (.advance id)) :
    (m.run b es).Handles feed k ↔ m.Handles feed k := by
  induction es generalizing m with
  | nil => rfl
  | cons e es ih =>
    have hrest : ∀ e ∈ es, ∀ id, e ≠ .move (.advance id) :=
      fun x hx => hes x (List.mem_cons_of_mem e hx)
    exact (ih hrest).trans (handles_step (hes e List.mem_cons_self))

/-- What a step means for the replies that are being handled: it takes one, it ends a cycle, or it does
neither. -/
inductive Turns (b : Behaviour W A) (m : Machine W A) (id : TaskId) (m' : Machine W A) : Prop where
  | other (hsame : ∀ f k, m'.Handles f k ↔ m.Handles f k)
      (hworld : m'.world = m.world ∨ ∃ a, m'.world = b.perform a m.now m.world)
  | takes {feed : Feed} (hbefore : ∀ k, ¬ m.Handles feed k) (hafter : m'.Handles feed id)
      (hothers : ∀ f, feed ≠ f → ∀ k, m'.Handles f k ↔ m.Handles f k)
      (hworld : m'.world = (b.receive feed m.world).2.2)
  | ends {feed : Feed} {outcome : CycleOutcome} (hbefore : m.Handles feed id)
      (hafter : ∀ k, ¬ m'.Handles feed k)
      (hothers : ∀ f, feed ≠ f → ∀ k, m'.Handles f k ↔ m.Handles f k)
      (hworld : m'.world = b.settle feed outcome m.world)

theorem not_handles_setPhase (ht : m.task? id = some t) {p : Phase A} (hp : ¬ p.Handling) :
    ¬ (m.setPhase id p).Handles feed id := by
  rw [handles_setPhase ht, if_pos rfl]
  exact fun h => hp h.2

theorem handles_removeTask_of_ne (ht : m.task? id = some t) (hfeed : t.feed ≠ feed) :
    (m.removeTask id).Handles feed k ↔ m.Handles feed k := by
  by_cases hk : k = id
  · subst hk
    exact iff_of_false (not_handles_removeTask m k) (by simp [handles_iff_of_self ht, hfeed])
  · exact handles_iff_of_task? (by rw [task?_removeTask, if_neg hk])

theorem ends_endCycle (hm : Consistent b m) (ht : m.task? id = some t) (hp : t.phase.Handling)
    (outcome : CycleOutcome) (hself : ¬ m'.Handles t.feed id)
    (hkept : ∀ k, k ≠ id → m'.task? k = m.task? k)
    (hothers : ∀ f, t.feed ≠ f → ∀ k, m'.Handles f k ↔ m.Handles f k)
    (hworld : m'.world = b.settle t.feed outcome m.world) : Turns b m id m' := by
  have hbefore : m.Handles t.feed id := ⟨t, ht, rfl, hp⟩
  refine .ends hbefore (fun k hk => ?_) hothers hworld
  by_cases hne : k = id
  · subst hne
    exact hself hk
  · have hother : m.Handles t.feed k := (handles_iff_of_task? (hkept k hne)).mp hk
    exact hne (hm.cycles_unique hbefore.cycles hother.cycles).symm

theorem turns_setPhase (hm : Consistent b m) (ht : m.task? id = some t) (hp : t.phase.Handling)
    (outcome : CycleOutcome) {p : Phase A} (hidle : ¬ p.Handling) :
    Turns b m id ((m.endCycle b t outcome).setPhase id p) := by
  have ht' : (m.endCycle b t outcome).task? id = some t := ht
  refine ends_endCycle hm ht hp outcome (not_handles_setPhase ht' hidle) ?_ ?_ rfl
  · intro k hk
    rw [task?_setPhase, if_neg hk]
    rfl
  · intro f hf k
    exact handles_setPhase_of_ne (m := m.endCycle b t outcome) ht hf p

theorem Advances.turns (hm : Consistent b m) (ht : m.task? id = some t)
    (h : Advances b m id t m') : Turns b m id m' := by
  have hid : t.id = id := id_of_task? ht
  cases h with
  | join hp =>
    refine .other (fun f k => ?_) (.inl rfl)
    exact handles_setPhase_of_iff (m := m.joinLine t.feed id) ht (by rw [hp]; rfl)
  | ask hp hturn =>
    exact .other (fun f k => handles_setPhase_of_iff ht (by rw [hp]; rfl)) (.inl rfl)
  | @receive due hp hdue outcome todo world hreceive =>
    have ht' : (m.mapWorld fun _ => world).task? id = some t := ht
    refine .takes (fun k (hk : m.Handles t.feed k) => ?_) ?_ (fun f hf k => ?_) ?_
    · have hcycles : m.Cycles t.feed id := ⟨t, ht, rfl, by rw [hp]; trivial⟩
      obtain rfl := hm.cycles_unique hcycles hk.cycles
      have hself := (handles_iff_of_self ht).mp hk
      rw [hp] at hself
      exact hself.2
    · rw [handles_setPhase ht', if_pos rfl]
      exact ⟨rfl, trivial⟩
    · exact handles_setPhase_of_ne ht' hf _
    · rw [hreceive]
      rfl
  | @perform outcome due a todo hp hdue =>
    obtain ⟨t', ht', hkept⟩ := kept_performAction b a ht
    refine .other (fun f k => ?_) (.inr ⟨a, world_performAction b m a⟩)
    rw [handles_setPhase_of_iff ht' (by rw [hkept.phase, hp]; rfl), handles_performAction]
  | @conclude outcome due hp hcall =>
    exact turns_setPhase hm ht (by rw [hp]; trivial) outcome fun h => h
  | @rest outcome due hp hloop hstays =>
    exact turns_setPhase hm ht (by rw [hp]; trivial) outcome fun h => h
  | @quit outcome due hp hc =>
    exact ends_endCycle hm ht (by rw [hp]; trivial) outcome (not_handles_removeTask _ id)
      (fun k hk => by rw [task?_removeTask, if_neg hk]; rfl)
      (fun f hf k => handles_removeTask_of_ne (m := m.endCycle b t outcome) ht hf) rfl
  | leave hp hc =>
    refine .other (fun f k => ?_) (.inl rfl)
    by_cases hk : k = id
    · subst hk
      have hresting : ¬ m.Handles f k := by simp [handles_iff_of_self ht, hp, Phase.Handling]
      exact iff_of_false (not_handles_removeTask m k) hresting
    · exact handles_iff_of_task? (by rw [task?_removeTask, if_neg hk])
  | again hp hdue =>
    exact .other (fun f k => handles_setPhase_of_iff ht (by rw [hp]; rfl)) (.inl rfl)

theorem turns_advance (hm : Consistent b m) (id : TaskId) : Turns b m id (m.advance b id) := by
  rcases advance_cases b m id with hsame | ⟨t, ht, hstep⟩
  · rw [hsame]
    exact .other (fun _ _ => .rfl) (.inl rfl)
  · exact hstep.turns hm ht

/-- Each reply that has been taken has been followed by the end of its cycle, the one that is being
handled apart. -/
structure Balanced (taken ended : Feed → W → Nat) (m : Machine W A) : Prop where
  idle : ∀ feed, (∀ id, ¬ m.Handles feed id) → ended feed m.world = taken feed m.world
  busy : ∀ feed id, m.Handles feed id → ended feed m.world + 1 = taken feed m.world

variable {taken ended : Feed → W → Nat}

theorem Balanced.of_same (h : Balanced taken ended m)
    (hsame : ∀ f k, m'.Handles f k ↔ m.Handles f k)
    (hcounts : ∀ f, taken f m'.world = taken f m.world ∧ ended f m'.world = ended f m.world) :
    Balanced taken ended m' where
  idle feed hnone := by
    rw [(hcounts feed).1, (hcounts feed).2]
    exact h.idle feed fun id hid => hnone id ((hsame feed id).mpr hid)
  busy feed id hid := by
    rw [(hcounts feed).1, (hcounts feed).2]
    exact h.busy feed id ((hsame feed id).mp hid)

theorem balanced_initial {world : W} (h : ∀ feed, ended feed world = taken feed world) :
    Balanced taken ended (Machine.initial (A := A) world) where
  idle feed _ := h feed
  busy _ _ hid := by
    obtain ⟨t, ht, -⟩ := hid
    cases ht

theorem Balanced.advance (hb : b.Tallies taken ended) (hm : Consistent b m)
    (h : Balanced taken ended m) (id : TaskId) : Balanced taken ended (m.advance b id) := by
  have hm' := hm.advance id
  cases turns_advance hm id with
  | other hsame hworld =>
    refine h.of_same hsame fun f => ?_
    rcases hworld with hworld | ⟨a, hworld⟩
    · rw [hworld]
      exact ⟨rfl, rfl⟩
    · rw [hworld]
      exact hb.perform a _ _ f
  | @takes feed hbefore hafter hothers hworld =>
    have hcounts := hb.receive feed m.world
    rw [← hworld] at hcounts
    constructor
    · intro f hnone
      have hf : feed ≠ f := fun hf => hnone id (hf ▸ hafter)
      obtain ⟨htaken, hended⟩ := hcounts f
      rw [htaken, hended, if_neg (Ne.symm hf), Nat.add_zero]
      exact h.idle f fun k hk => hnone k ((hothers f hf k).mpr hk)
    · intro f k hk
      obtain ⟨htaken, hended⟩ := hcounts f
      rw [htaken, hended]
      by_cases hf : feed = f
      · subst hf
        rw [if_pos rfl, h.idle feed hbefore]
      · rw [if_neg (Ne.symm hf), Nat.add_zero]
        exact h.busy f k ((hothers f hf k).mp hk)
  | @ends feed outcome hbefore hafter hothers hworld =>
    have hcounts := hb.settle feed outcome m.world
    rw [← hworld] at hcounts
    constructor
    · intro f hnone
      obtain ⟨htaken, hended⟩ := hcounts f
      rw [htaken, hended]
      by_cases hf : feed = f
      · subst hf
        rw [if_pos rfl, h.busy feed id hbefore]
      · rw [if_neg (Ne.symm hf), Nat.add_zero]
        exact h.idle f fun k hk => hnone k ((hothers f hf k).mpr hk)
    · intro f k hk
      have hf : feed ≠ f := by
        rintro rfl
        exact hafter k hk
      obtain ⟨htaken, hended⟩ := hcounts f
      rw [htaken, hended, if_neg (Ne.symm hf), Nat.add_zero]
      exact h.busy f k ((hothers f hf k).mp hk)

end Machine
end QuoteDesk
