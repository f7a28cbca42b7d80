import QuoteDesk.Proofs.Feed.Run
/-!
What cycles make of the state. A step of a task takes a reply, performs an action, ends a cycle or
leaves the state alone; between reply and end the task keeps what it still has to do.
-/
namespace QuoteDesk

variable {W A : Type} {b : Behaviour W A}

/-- Nothing a feed does takes a state out of a set of states. -/
structure Behaviour.Preserves (b : Behaviour W A) (P : W → Prop) : Prop where
  receive : ∀ feed w, P w → P (b.receive feed w).2.2
  perform : ∀ a now w, P w → P (b.perform a now w)
  settle : ∀ feed outcome w, P w → P (b.settle feed outcome w)

def Phase.todo : Phase A → List A
  | .acting _ _ todo => todo
  | _ => []

namespace Machine

variable {m m' : Machine W A}

@[simp] theorem world_start (m : Machine W A) (feed : Feed) : (m.start feed).world = m.world := by
  unfold Machine.start
  split <;> rfl

@[simp] theorem world_stop (m : Machine W A) (feed : Feed) : (m.stop feed).world = m.world := by
  unfold Machine.stop
  split <;> rfl

theorem now_stop (m : Machine W A) (feed : Feed) : (m.stop feed).now = m.now := by
  unfold Machine.stop
  split <;> rfl

theorem now_start (m : Machine W A) (feed : Feed) : (m.start feed).now = m.now := by
  unfold Machine.start
  split <;> rfl

theorem now_collect (m : Machine W A) (id : TaskId) : (m.collect id).now = m.now := by
  unfold Machine.collect
  split <;> rfl

theorem now_performAction (b : Behaviour W A) (m : Machine W A) (a : A) :
    (m.performAction b a).now = m.now := by
  have hidle : ∀ feed, ((poller feed).stopIfPolling m).now = m.now := fun feed =>
    (poller feed).stopIfPolling_preserves (·.now = m.now) rfl (now_stop m feed)
  unfold Machine.performAction
  cases b.restarts a with
  | none => rfl
  | some feed => exact (now_start _ feed).trans (hidle feed)

@[simp] theorem world_collect (m : Machine W A) (id : TaskId) : (m.collect id).world = m.world := by
  unfold Machine.collect
  split <;> rfl

theorem world_performAction (b : Behaviour W A) (m : Machine W A) (a : A) :
    (m.performAction b a).world = b.perform a m.now m.world := by
  have hidle : ∀ feed, ((poller feed).stopIfPolling m).world = m.world ∧
      ((poller feed).stopIfPolling m).now = m.now := fun feed =>
    (poller feed).stopIfPolling_preserves (fun m' => m'.world = m.world ∧ m'.now = m.now)
      ⟨rfl, rfl⟩ ⟨world_stop m feed, now_stop m feed⟩
  unfold Machine.performAction
  cases b.restarts a with
  | none => rfl
  | some feed =>
    obtain ⟨hworld, hnow⟩ := hidle feed
    refine (world_start _ feed).trans ?_
    change b.perform a _ _ = b.perform a m.now m.world
    rw [hnow, hworld]

theorem world_finish (b : Behaviour W A) (m : Machine W A) (t : Task A) (o : CycleOutcome) :
    (m.finish b t o).world = b.settle t.feed o m.world := by
  unfold Machine.finish
  split
  · rfl
  · split <;> rfl

theorem live_finish (b : Behaviour W A) (m : Machine W A) (t : Task A) (o : CycleOutcome) :
    (m.finish b t o).live = m.live := by
  unfold Machine.finish
  split
  · rfl
  · split <;> rfl

def todo (m : Machine W A) (id : TaskId) : List A := ((m.task? id).map (·.phase.todo)).getD []

theorem todo_of_task? {id : TaskId} {t : Task A} (ht : m.task? id = some t) :
    m.todo id = t.phase.todo := by
  simp [todo, ht]

theorem todo_of_none {id : TaskId} (h : m.task? id = none) : m.todo id = [] := by
  simp [todo, h]

theorem todo_setPhase {id : TaskId} {t : Task A} (ht : m.task? id = some t) (p : Phase A)
    (k : TaskId) : (m.setPhase id p).todo k = if k = id then p.todo else m.todo k := by
  unfold todo
  rw [task?_setPhase]
  split
  · next hk => rw [hk, ht]; rfl
  · rfl

theorem todo_removeTask (m : Machine W A) (id k : TaskId) :
    (m.removeTask id).todo k = if k = id then [] else m.todo k := by
  unfold todo
  rw [task?_removeTask]
  split <;> rfl

@[simp] theorem todo_spawn (m : Machine W A) (feed : Feed) (isLoop : Bool) (k : TaskId) :
    (m.spawn feed isLoop).todo k = m.todo k := by
  unfold todo
  rw [task?_spawn]
  cases m.task? k with
  | some t => rfl
  | none =>
    rw [Option.none_or]
    split <;> rfl

@[simp] theorem todo_start (m : Machine W A) (feed : Feed) (k : TaskId) :
    (m.start feed).todo k = m.todo k := by
  unfold Machine.start
  split
  · rfl
  · exact todo_spawn m feed true k

@[simp] theorem todo_stop (m : Machine W A) (feed : Feed) (k : TaskId) :
    (m.stop feed).todo k = m.todo k := by
  unfold todo
  rw [task?_stop]
  cases m.task? k with
  | none => rfl
  | some t => rfl

@[simp] theorem todo_performAction (b : Behaviour W A) (m : Machine W A) (a : A) (k : TaskId) :
    (m.performAction b a).todo k = m.todo k := by
  unfold Machine.performAction
  cases b.restarts a with
  | none => rfl
  | some feed =>
    refine (todo_start _ feed k).trans ?_
    exact (poller feed).stopIfPolling_preserves (·.todo k = m.todo k) rfl (todo_stop m feed k)

theorem todo_collect (m : Machine W A) (id k : TaskId) : (m.collect id).todo k = m.todo k := by
  rcases collect_cases m id with hsame | ⟨t, o, ht, hended, hgone⟩
  · rw [hsame]
  · rw [hgone, todo_removeTask]
    split
    · next hk =>
      rw [hk, todo_of_task? ht, hended]
      rfl
    · rfl

def receives? (m : Machine W A) (id : TaskId) : Option Feed :=
  (m.task? id).bind fun t =>
    match t.phase with
    | .asking due => if due ≤ m.now then some t.feed else none
    | _ => none

theorem receives?_eq_some_iff {id : TaskId} {feed : Feed} :
    m.receives? id = some feed ↔
      ∃ t due, m.task? id = some t ∧ t.phase = .asking due ∧ due ≤ m.now ∧ t.feed = feed := by
  unfold receives?
  constructor
  · intro h
    obtain ⟨t, ht, h⟩ := Option.bind_eq_some_iff.mp h
    split at h
    · next due hp =>
      split at h
      · next hdue => exact ⟨t, due, ht, hp, hdue, Option.some.inj h⟩
      · cases h
    · cases h
  · rintro ⟨t, due, ht, hp, hdue, rfl⟩
    simp [ht, hp, hdue]

theorem receives?_eq_none {id : TaskId} {t : Task A} (ht : m.task? id = some t)
    (h : ∀ due, t.phase = .asking due → ¬ due ≤ m.now) : m.receives? id = none := by
  cases hr : m.receives? id with
  | none => rfl
  | some feed =>
    obtain ⟨u, due, hu, hp, hdue, -⟩ := receives?_eq_some_iff.mp hr
    obtain rfl := Option.some.inj (hu.symm.trans ht)
    exact absurd hdue (h due hp)

/-- What a step does besides moving its task: it takes a reply, performs an action, or leaves what is
to be done as it is and ends a cycle at most. -/
inductive Effect (b : Behaviour W A) (m : Machine W A) (id : TaskId) (m' : Machine W A) : Prop where
  | still (hr : m.receives? id = none) (htodo : m'.todo id = m.todo id)
      (hworld : m'.world = m.world)
  | settled (hr : m.receives? id = none) (htodo : m'.todo id = m.todo id) {feed : Feed}
      {outcome : CycleOutcome} (hworld : m'.world = b.settle feed outcome m.world)
  | received {feed : Feed} (hr : m.receives? id = some feed) (hidle : m.todo id = [])
      (htodo : m'.todo id = (b.receive feed m.world).2.1)
      (hworld : m'.world = (b.receive feed m.world).2.2)
  | performed (hr : m.receives? id = none) {a : A} (htodo : m.todo id = a :: m'.todo id)
      (hworld : m'.world = b.perform a m.now m.world)

theorem Advances.effect {id : TaskId} {t : Task A} (ht : m.task? id = some t)
    (h : Advances b m id t m') :
    (∀ k, k ≠ id → m'.todo k = m.todo k) ∧ Effect b m id m' := by
  have hnone : (∀ due, t.phase ≠ .asking due) → m.receives? id = none :=
    fun h => receives?_eq_none ht fun due hp => absurd hp (h due)
  cases h with
  | join hp =>
    have htodo := todo_setPhase (m := m.joinLine t.feed id) ht .waiting
    refine ⟨fun k hk => (htodo k).trans (if_neg hk), .still (hnone (by simp [hp])) ?_ rfl⟩
    rw [htodo, if_pos rfl, todo_of_task? ht, hp]
    rfl
  | ask hp hturn =>
    have htodo := todo_setPhase ht (.asking (m.now + b.delay t.feed m.world))
    refine ⟨fun k hk => (htodo k).trans (if_neg hk), .still (hnone (by simp [hp])) ?_ rfl⟩
    rw [htodo, if_pos rfl, todo_of_task? ht, hp]
    rfl
  | @receive due hp hdue outcome todo world hreceive =>
    have htodo := todo_setPhase (m := m.mapWorld fun _ => world) ht
      (.acting outcome (nextDue b m.now todo) todo)
    have hr : m.receives? id = some t.feed :=
      receives?_eq_some_iff.mpr ⟨t, due, ht, hp, hdue, rfl⟩
    refine ⟨fun k hk => (htodo k).trans (if_neg hk), .received hr ?_ ?_ ?_⟩
    · rw [todo_of_task? ht, hp]
      rfl
    · rw [htodo, if_pos rfl, hreceive]
      rfl
    · rw [hreceive]
      rfl
  | @perform outcome due a todo hp hdue =>
    obtain ⟨t', ht', -⟩ := kept_performAction b a ht
    have htodo := todo_setPhase ht' (.acting outcome (nextDue b m.now todo) todo)
    refine ⟨fun k hk => ?_, .performed (hnone (by simp [hp])) ?_ (world_performAction b m a)⟩
    · rw [htodo, if_neg hk, todo_performAction]
    · rw [htodo, if_pos rfl, todo_of_task? ht, hp]
      rfl
  | @conclude outcome due hp hcall =>
    have htodo := todo_setPhase (m := m.endCycle b t outcome) ht (.ended outcome)
    refine ⟨fun k hk => (htodo k).trans (if_neg hk), .settled (hnone (by simp [hp])) ?_ rfl⟩
    rw [htodo, if_pos rfl, todo_of_task? ht, hp]
    rfl
  | @rest outcome due hp hloop hstays =>
    have htodo := todo_setPhase (m := m.endCycle b t outcome) ht
      (.resting (m.now + b.interval t.feed))
    refine ⟨fun k hk => (htodo k).trans (if_neg hk), .settled (hnone (by simp [hp])) ?_ rfl⟩
    rw [htodo, if_pos rfl, todo_of_task? ht, hp]
    rfl
  | @quit outcome due hp hc =>
    have htodo := todo_removeTask (m.endCycle b t outcome) id
    refine ⟨fun k hk => (htodo k).trans (if_neg hk), .settled (hnone (by simp [hp])) ?_ rfl⟩
    rw [htodo, if_pos rfl, todo_of_task? ht, hp]
    rfl
  | leave hp hc =>
    have htodo := todo_removeTask m id
    refine ⟨fun k hk => (htodo k).trans (if_neg hk), .still (hnone (by simp [hp])) ?_ rfl⟩
    rw [htodo, if_pos rfl, todo_of_task? ht, hp]
    rfl
  | again hp hdue =>
    have htodo := todo_setPhase ht .queued
    refine ⟨fun k hk => (htodo k).trans (if_neg hk), .still (hnone (by simp [hp])) ?_ rfl⟩
    rw [htodo, if_pos rfl, todo_of_task? ht, hp]
    rfl

theorem advance_effect (b : Behaviour W A) (m : Machine W A) (id : TaskId) :
    (∀ k, k ≠ id → (m.advance b id).todo k = m.todo k) ∧ Effect b m id (m.advance b id) := by
  unfold Machine.advance
  cases ht : m.task? id with
  | none => exact ⟨fun _ _ => rfl, .still (by simp [receives?, ht]) rfl rfl⟩
  | some t =>
    by_cases hmove : m.canMove t = true
    · simp only [hmove, if_true]
      exact (advances_of_canMove ht hmove).effect ht
    · have hr : m.receives? id = none :=
        receives?_eq_none ht fun due hp hdue => hmove (by simp [canMove, hp, hdue])
      simp only [hmove]
      exact ⟨fun _ _ => rfl, .still hr rfl rfl⟩

theorem now_advance (b : Behaviour W A) (m : Machine W A) (id : TaskId) :
    (m.advance b id).now = m.now := by
  rcases advance_cases b m id with hsame | ⟨t, -, hstep⟩
  · rw [hsame]
  · generalize m.advance b id = m' at hstep
    cases hstep with
    | perform hp hdue => exact now_performAction b m _
    | _ => rfl

theorem beginAgain_still (m : Machine W A) (id : TaskId) :
    (m.beginAgain id).world = m.world ∧ (m.beginAgain id).now = m.now ∧
      ∀ k, (m.beginAgain id).todo k = m.todo k := by
  rcases beginAgain_cases m id with hsame | ⟨t, due, ht, hp, -, hagain⟩
  · rw [hsame]
    exact ⟨rfl, rfl, fun _ => rfl⟩
  · rw [hagain]
    refine ⟨rfl, rfl, fun k => ?_⟩
    rw [todo_setPhase ht]
    split
    · next hk =>
      rw [hk, todo_of_task? ht, hp]
      rfl
    · rfl

theorem preserves_advance {P : W → Prop} (hb : b.Preserves P) (id : TaskId) (hm : P m.world) :
    P (m.advance b id).world := by
  cases (advance_effect b m id).2 with
  | still _ _ hworld => exact hworld ▸ hm
  | settled _ _ hworld => exact hworld ▸ hb.settle _ _ _ hm
  | received _ _ _ hworld => exact hworld ▸ hb.receive _ _ hm
  | performed _ _ hworld => exact hworld ▸ hb.perform _ _ _ hm

end Machine
end QuoteDesk
