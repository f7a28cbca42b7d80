import QuoteDesk.Proofs.Feed.Turn
import QuoteDesk.Proofs.Feed.Work
/-!
Prompt handling. A task that takes its reply goes on to the end of its cycle before anybody else
moves, so a cycle is one change of the state; requests and rests still take their time, and meanwhile
everything else goes on.
-/
namespace QuoteDesk

variable {W A : Type} {b : Behaviour W A}

/-- What a cycle makes of a state between its reply and its end. -/
def Behaviour.cycle (b : Behaviour W A) (feed : Feed) (now : Nat) (w : W) : W :=
  let (outcome, todo, w) := b.receive feed w
  b.settle feed outcome (todo.foldl (fun w a => b.perform a now w) w)

namespace Machine

variable {m m' : Machine W A} {id : TaskId} {t : Task A}

def advanceBy (b : Behaviour W A) (id : TaskId) : Nat → Machine W A → Machine W A
  | 0, m => m
  | n + 1, m => advanceBy b id n (m.advance b id)

def react (b : Behaviour W A) (m : Machine W A) (id : TaskId) : Machine W A :=
  match m.receives? id with
  | none => m.advance b id
  | some _ => advanceBy b id (((m.advance b id).todo id).length + 1) (m.advance b id)

theorem advanceBy_eq_run (b : Behaviour W A) (id : TaskId) (n : Nat) (m : Machine W A) :
    advanceBy b id n m = m.run b (List.replicate n (.move (.advance id))) := by
  induction n generalizing m with
  | zero => rfl
  | succ n ih => exact ih (m.advance b id)

/-- Prompt handling is one of the orders in which tasks can move. -/
theorem exists_run_react (b : Behaviour W A) (m : Machine W A) (id : TaskId) :
    ∃ n, m.react b id = m.run b (List.replicate n (.move (.advance id))) := by
  unfold react
  cases m.receives? id with
  | none => exact ⟨1, rfl⟩
  | some feed =>
    refine ⟨((m.advance b id).todo id).length + 2, ?_⟩
    simp only [advanceBy_eq_run]
    rfl

theorem now_advanceBy (b : Behaviour W A) (id : TaskId) (n : Nat) (m : Machine W A) :
    (advanceBy b id n m).now = m.now := by
  induction n generalizing m with
  | zero => rfl
  | succ n ih => exact (ih (m.advance b id)).trans (now_advance b m id)

theorem now_react (b : Behaviour W A) (m : Machine W A) (id : TaskId) :
    (m.react b id).now = m.now := by
  unfold react
  split
  · exact now_advance b m id
  · exact (now_advanceBy b id _ _).trans (now_advance b m id)

theorem advance_of_receives {feed : Feed} (hr : m.receives? id = some feed) :
    ∃ t, m.task? id = some t ∧ t.feed = feed ∧ m.advance b id =
      (m.mapWorld fun _ => (b.receive feed m.world).2.2).setPhase id
        (.acting (b.receive feed m.world).1 (nextDue b m.now (b.receive feed m.world).2.1)
          (b.receive feed m.world).2.1) := by
  obtain ⟨t, due, ht, hp, hdue, rfl⟩ := receives?_eq_some_iff.mp hr
  have hid : t.id = id := id_of_task? ht
  refine ⟨t, ht, rfl, ?_⟩
  rw [advance_of_canMove ht (by simpa only [canMove, hp, decide_eq_true_eq] using hdue)]
  simp only [stepTask, hp, hid]
  rfl

theorem advance_of_done {o : CycleOutcome} {due : Nat} (ht : m.task? id = some t)
    (hp : t.phase = .acting o due []) : m.advance b id = m.finish b t o := by
  rw [advance_of_canMove ht (by simp only [canMove, hp])]
  simp only [stepTask, hp]

structure Cycled (m m' : Machine W A) (id : TaskId) (w : W) : Prop where
  world : m'.world = w
  idle : m'.todo id = []
  others : ∀ k, k ≠ id → m'.todo k = m.todo k

theorem nextDue_eq_now (hpause : ∀ a, b.pause a = 0) (now : Nat) (todo : List A) :
    nextDue b now todo = now := by
  cases todo with
  | nil => rfl
  | cons a todo => simp [nextDue, hpause]

theorem cycled_finish {o : CycleOutcome} {due : Nat} (ht : m.task? id = some t)
    (hp : t.phase = .acting o due []) :
    Cycled m (m.advance b id) id (b.settle t.feed o m.world) := by
  have hstep := advance_of_done (b := b) ht hp
  have hidle : m.todo id = [] := by
    rw [todo_of_task? ht, hp]
    rfl
  refine ⟨by rw [hstep]; exact world_finish b m t o, ?_, (advance_effect b m id).1⟩
  cases (advance_effect b m id).2 with
  | still _ htodo => exact htodo.trans hidle
  | settled _ htodo => exact htodo.trans hidle
  | received hr =>
    rw [receives?_eq_none ht fun due' hasking => by rw [hp] at hasking; cases hasking] at hr
    cases hr
  | performed _ htodo =>
    rw [hidle] at htodo
    cases htodo

/-- Without a pause a task performs everything it has to do and ends its cycle. -/
theorem cycled_advanceBy (hpause : ∀ a, b.pause a = 0) {o : CycleOutcome} {due : Nat}
    {todo : List A} (ht : m.task? id = some t) (hp : t.phase = .acting o due todo)
    (hdue : due ≤ m.now) :
    Cycled m (advanceBy b id (todo.length + 1) m) id
      (b.settle t.feed o (todo.foldl (fun w a => b.perform a m.now w) m.world)) := by
  induction todo generalizing m t due with
  | nil => exact cycled_finish ht hp
  | cons a todo ih =>
    have hstep := advance_of_acting (b := b) ht hp hdue
    obtain ⟨t', ht', hkept⟩ := kept_performAction b a ht
    have hat : (m.advance b id).task? id =
        some { t' with phase := .acting o (nextDue b m.now todo) todo } := by
      rw [hstep]
      exact task?_setPhase_self ht' _
    have hworld : (m.advance b id).world = b.perform a m.now m.world := by
      rw [hstep]
      exact world_performAction b m a
    have hnow := now_advance b m id
    have hrest := ih hat rfl (Nat.le_of_eq ((nextDue_eq_now hpause m.now todo).trans hnow.symm))
    rw [hnow, hworld] at hrest
    have hfeed : t'.feed = t.feed := hkept.feed
    refine ⟨hrest.world.trans (by rw [hfeed]; rfl), hrest.idle,
      fun k hk => (hrest.others k hk).trans ((advance_effect b m id).1 k hk)⟩

theorem cycled_react (hpause : ∀ a, b.pause a = 0) {feed : Feed}
    (hr : m.receives? id = some feed) :
    Cycled m (m.react b id) id (b.cycle feed m.now m.world) := by
  obtain ⟨t, ht, rfl, hstep⟩ := advance_of_receives (b := b) hr
  rcases hreceive : b.receive t.feed m.world with ⟨o, todo, w⟩
  rw [hreceive] at hstep
  have hat : (m.advance b id).task? id =
      some { t with phase := .acting o (nextDue b m.now todo) todo } := by
    rw [hstep]
    exact task?_setPhase_self (m := m.mapWorld fun _ => w) ht _
  have hworld : (m.advance b id).world = w := by
    rw [hstep]
    rfl
  have hnow := now_advance b m id
  have hrest := cycled_advanceBy hpause hat rfl
    (Nat.le_of_eq ((nextDue_eq_now hpause m.now todo).trans hnow.symm))
  rw [hnow, hworld] at hrest
  simp only [react, hr, todo_of_task? hat, Phase.todo, Behaviour.cycle, hreceive]
  exact ⟨hrest.world, hrest.idle,
    fun k hk => (hrest.others k hk).trans ((advance_effect b m id).1 k hk)⟩

end Machine
end QuoteDesk
