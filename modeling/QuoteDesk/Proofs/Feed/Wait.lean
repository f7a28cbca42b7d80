import QuoteDesk.Feed.Runner
import QuoteDesk.Proofs.Feed.Work
/-!
Waits. The fixed order in which tasks move while somebody waits is one of the orders the machine
allows: every wait is a run of moves, and calling for a cycle is a run that spawns a task, moves and
takes the outcome. What no cycle of a feed changes about the state, no wait changes.
-/
namespace QuoteDesk

variable {W A : Type} {b : Behaviour W A}

namespace Machine

def Moves (b : Behaviour W A) (m m' : Machine W A) : Prop :=
  ∃ vs : List Move, m.run b (vs.map .move) = m'

variable {m m' m'' : Machine W A}

theorem Moves.refl (m : Machine W A) : Moves b m m := ⟨[], rfl⟩

theorem Moves.trans (h : Moves b m m') (h' : Moves b m' m'') : Moves b m m'' := by
  obtain ⟨vs, hvs⟩ := h
  obtain ⟨us, hus⟩ := h'
  exact ⟨vs ++ us, by rw [List.map_append, run_append, hvs, hus]⟩

theorem moves_advance (b : Behaviour W A) (m : Machine W A) (id : TaskId) :
    Moves b m (m.advance b id) := ⟨[.advance id], rfl⟩

theorem moves_elapse (b : Behaviour W A) (m : Machine W A) (ms : Nat) :
    Moves b m (m.elapse ms) := ⟨[.elapse ms], rfl⟩

theorem Moves.preserves {P : W → Prop} (hb : b.Preserves P) (h : Moves b m m') (hm : P m.world) :
    P m'.world := by
  obtain ⟨vs, rfl⟩ := h
  induction vs generalizing m with
  | nil => exact hm
  | cons v vs ih =>
    refine ih ?_
    cases v with
    | advance id => exact preserves_advance hb id hm
    | beginAgain id => exact (beginAgain_still m id).1 ▸ hm
    | elapse ms => exact hm

end Machine

namespace Runner

open Machine

theorem drain_moves (b : Behaviour W A) (caller : Option TaskId) (steps : Nat) (r : Runner W A) :
    Moves b r.machine (drain b caller steps r).machine := by
  induction steps generalizing r with
  | zero => exact .refl _
  | succ steps ih =>
    unfold drain
    split
    · exact .refl _
    · next id rest _ =>
      split
      · exact (moves_advance b r.machine id).trans
          (ih (wake caller (r.mapMachine (·.advance b id))))
      · exact ih { r with ready := rest }

theorem goTo_moves (b : Behaviour W A) (r : Runner W A) (instant : Nat) :
    Moves b r.machine (r.goTo instant).machine :=
  moves_elapse b r.machine _

theorem sleepUntil_moves (b : Behaviour W A) (target steps : Nat) (r : Runner W A) :
    Moves b r.machine (sleepUntil b target steps r).machine := by
  induction steps generalizing r with
  | zero => exact .refl _
  | succ steps ih =>
    have hdrain := drain_moves b none patience (wake none r)
    simp only [sleepUntil]
    generalize drain b none patience (wake none r) = drained at hdrain
    split
    · next instant _ =>
      split
      · have hgo := hdrain.trans (goTo_moves b drained instant)
        exact hgo.trans (ih (wake none (drained.goTo instant)))
      · exact hdrain.trans (goTo_moves b drained target)
    · exact hdrain.trans (goTo_moves b drained target)

theorem sleep_moves (b : Behaviour W A) (r : Runner W A) (ms : Nat) :
    Moves b r.machine (r.sleep b ms).machine := by
  unfold sleep
  split
  · exact .refl _
  · exact sleepUntil_moves b _ patience r

theorem runCaller_moves (b : Behaviour W A) (caller : TaskId) (steps : Nat) (r : Runner W A) :
    Moves b r.machine (runCaller b caller steps r).machine := by
  induction steps generalizing r with
  | zero => exact .refl _
  | succ steps ih =>
    unfold runCaller
    split
    · exact (moves_advance b r.machine caller).trans
        (ih (wake (some caller) (r.mapMachine (·.advance b caller))))
    · exact .refl _

theorem collect_of_outcome? {r : Runner W A} {id : TaskId} {outcome : CycleOutcome}
    (h : r.outcome? id = some outcome) : r.machine.collect id = r.machine.removeTask id := by
  unfold outcome? at h
  split at h
  · next ht => simp only [Machine.collect, ht]
  · cases h

theorem awaitCaller_moves (b : Behaviour W A) (caller : TaskId) (steps : Nat) (r : Runner W A) :
    ∃ m, Moves b r.machine m ∧ ((awaitCaller b caller steps r).2.machine = m ∨
      (awaitCaller b caller steps r).2.machine = m.collect caller) := by
  induction steps generalizing r with
  | zero => exact ⟨r.machine, .refl _, .inl rfl⟩
  | succ steps ih =>
    have hcaller := runCaller_moves b caller patience r
    simp only [awaitCaller]
    generalize runCaller b caller patience r = moved at hcaller
    split
    · next outcome houtcome => exact ⟨_, hcaller, .inr (collect_of_outcome? houtcome).symm⟩
    · have hdrain := hcaller.trans (drain_moves b (some caller) patience (wake (some caller) moved))
      generalize drain b (some caller) patience (wake (some caller) moved) = drained at hdrain
      split
      · obtain ⟨m, hm, hlast⟩ := ih drained
        exact ⟨m, hdrain.trans hm, hlast⟩
      · split
        · next instant _ =>
          obtain ⟨m, hm, hlast⟩ := ih (wake (some caller) (drained.goTo instant))
          exact ⟨m, (hdrain.trans (goTo_moves b _ instant)).trans hm, hlast⟩
        · exact ⟨_, hdrain, .inl rfl⟩

theorem call_run (b : Behaviour W A) (r : Runner W A) (feed : Feed) :
    ∃ (vs : List Move) (last : List (Event W)), (last = [] ∨ last = [.collect r.machine.fresh]) ∧
      (r.call b feed).2.machine = r.machine.run b (.call feed :: vs.map .move ++ last) := by
  obtain ⟨m, ⟨vs, hvs⟩, hlast⟩ := awaitCaller_moves b r.machine.fresh patience
    (r.mapMachine (·.spawn feed false))
  have hrun : r.machine.run b (.call feed :: vs.map .move) = m := hvs
  rcases hlast with hlast | hlast
  · exact ⟨vs, [], .inl rfl, by rw [List.append_nil, hrun]; exact hlast⟩
  · exact ⟨vs, [.collect r.machine.fresh], .inr rfl, by rw [run_append, hrun]; exact hlast⟩

end Runner
end QuoteDesk
