import QuoteDesk.Proofs.Desk.Delivery
/-!
One cycle amid all others. What a task has to do after it has taken its reply it does action by action,
whatever comes in between, until nothing is left or it takes another reply. Main statement: at any
moment of a run what a task still has to do is the rest of what its last reply asked for.
-/
namespace QuoteDesk

namespace Machine

variable {W A : Type} {b : Behaviour W A} {m : Machine W A} {id : TaskId} {a : A}

def performs? (m : Machine W A) (id : TaskId) : Option A :=
  (m.task? id).bind fun t =>
    match t.phase with
    | .acting _ due (a :: _) => if due ≤ m.now then some a else none
    | _ => none

theorem performs?_eq_some_iff : m.performs? id = some a ↔
    ∃ t outcome due todo, m.task? id = some t ∧ t.phase = .acting outcome due (a :: todo) ∧
      due ≤ m.now := by
  unfold performs?
  constructor
  · intro h
    obtain ⟨t, ht, h⟩ := Option.bind_eq_some_iff.mp h
    split at h
    · next outcome due a' todo hp =>
      split at h
      · next hdue =>
        obtain rfl : a' = a := Option.some.inj h
        exact ⟨t, outcome, due, todo, ht, hp, hdue⟩
      · cases h
    · cases h
  · rintro ⟨t, outcome, due, todo, ht, hp, hdue⟩
    simp [ht, hp, hdue]

/-- A step performs an action exactly if it takes it from what is to be done. -/
theorem performs?_eq_some_iff_todo (b : Behaviour W A) :
    m.performs? id = some a ↔ m.todo id = a :: (m.advance b id).todo id := by
  constructor
  · intro h
    obtain ⟨t, outcome, due, todo, ht, hp, hdue⟩ := performs?_eq_some_iff.mp h
    obtain ⟨t', ht', -⟩ := kept_performAction b a ht
    rw [advance_of_acting ht hp hdue, todo_setPhase ht', if_pos rfl, todo_of_task? ht, hp]
    rfl
  · intro h
    cases ht : m.task? id with
    | none =>
      rw [todo_of_none ht] at h
      cases h
    | some t =>
      have htodo : t.phase.todo = a :: (m.advance b id).todo id := todo_of_task? ht ▸ h
      cases hp : t.phase with
      | acting outcome due todo =>
        have hcons : todo = a :: (m.advance b id).todo id := by rw [← htodo, hp]; rfl
        by_cases hdue : due ≤ m.now
        · exact performs?_eq_some_iff.mpr
            ⟨t, outcome, due, (m.advance b id).todo id, ht, hcons ▸ hp, hdue⟩
        · -- a task that is not due yet stands still and cannot lose an action
          have hstill : m.canMove t = false := by
            rw [hcons] at hp
            simpa only [canMove, hp, decide_eq_false_iff_not] using hdue
          have hstep : m.advance b id = m := by
            simp only [Machine.advance, ht, hstill, Bool.false_eq_true, if_false]
          rw [hstep] at h
          exact absurd h.symm (List.cons_ne_self a _)
      | _ =>
        rw [hp] at htodo
        cases htodo

theorem world_of_performs? (h : m.performs? id = some a) :
    (m.advance b id).world = b.perform a m.now m.world := by
  have htodo := (performs?_eq_some_iff_todo b).mp h
  have habsurd : m.todo id ≠ (m.advance b id).todo id :=
    fun heq => List.cons_ne_self a _ (htodo.symm.trans heq)
  cases (advance_effect b m id).2 with
  | still _ hsame => exact absurd hsame.symm habsurd
  | settled _ hsame => exact absurd hsame.symm habsurd
  | received _ hidle =>
    rw [hidle] at htodo
    cases htodo
  | performed _ htaken hworld =>
    obtain ⟨rfl, -⟩ := List.cons.inj (htaken.symm.trans htodo)
    exact hworld

end Machine

namespace Session

open Machine

variable {settings : Settings} {s : Session} {id : TaskId} {α : Type}

/-- What the events of a session leave in a log, each seen from where it happens. -/
def log (settings : Settings) (mark? : Session → Event → Option α) (s : Session) :
    List Event → List α
  | [] => []
  | e :: es => (mark? s e).toList ++ (s.step settings e).log settings mark? es

theorem log_append (settings : Settings) (mark? : Session → Event → Option α) (s : Session)
    (es fs : List Event) : s.log settings mark? (es ++ fs) =
      s.log settings mark? es ++ (s.run settings es).log settings mark? fs := by
  induction es generalizing s with
  | nil => rfl
  | cons e es ih => simp only [List.cons_append, log, run_cons, ih, List.append_assoc]

theorem mem_log_iff {mark? : Session → Event → Option α} {es : List Event} {a : α} :
    a ∈ s.log settings mark? es ↔
      ∃ before e after, es = before ++ e :: after ∧ mark? (s.run settings before) e = some a := by
  induction es generalizing s with
  | nil => simp [log]
  | cons e es ih =>
    rw [log, List.mem_append, ih, Option.mem_toList]
    constructor
    · rintro (h | ⟨before, x, after, rfl, h⟩)
      · exact ⟨[], e, es, rfl, h⟩
      · exact ⟨e :: before, x, after, rfl, h⟩
    · rintro ⟨before, x, after, hes, h⟩
      cases before with
      | nil =>
        obtain ⟨rfl, rfl⟩ := List.cons.inj hes
        exact .inl h
      | cons y before =>
        obtain ⟨rfl, rfl⟩ := List.cons.inj hes
        exact .inr ⟨before, x, after, rfl, h⟩

def taker? (s : Session) : Event → Option TaskId
  | .move (.advance id) => if (s.machine.receives? id).isSome then some id else none
  | _ => none

theorem taker?_eq_some_iff {e : Event} : s.taker? e = some id ↔
    e = .move (.advance id) ∧ ∃ feed, s.machine.receives? id = some feed := by
  unfold taker?
  split
  · next k =>
    rw [Option.ite_none_right_eq_some, Option.isSome_iff_exists, Option.some.injEq]
    constructor
    · rintro ⟨hr, rfl⟩
      exact ⟨rfl, hr⟩
    · rintro ⟨heq, hr⟩
      obtain rfl : k = id := by simpa using heq
      exact ⟨hr, rfl⟩
  · next hother => exact ⟨nofun, fun h => absurd h.1 (hother id)⟩

def takers (settings : Settings) (s : Session) (es : List Event) : List TaskId :=
  s.log settings taker? es

theorem todo_step_other {e : Event} (he : e ≠ .move (.advance id)) :
    (s.step settings e).machine.todo id = s.machine.todo id := by
  by_cases hadvance : ∃ k, e = .move (.advance k)
  · obtain ⟨k, rfl⟩ := hadvance
    exact (advance_effect settings.behaviour s.machine k).1 id fun heq => he (heq ▸ rfl)
  · exact (aside_step settings s e fun k hk => hadvance ⟨k, hk⟩).todo id

/-- A task has taken its last reply at some moment, and since then has done a part of what this asked
for. -/
structure Underway (settings : Settings) (s : Session) (id : TaskId) (before since : List Event)
    (feed : Feed) (done : List FeedAction) : Prop where
  receipt : (s.run settings before).machine.receives? id = some feed
  none_since : id ∉ (s.run settings (before ++ [.move (.advance id)])).takers settings since
  work : (State.receive settings feed (s.run settings before).machine.world).2.1 =
    done ++ (s.run settings (before ++ .move (.advance id) :: since)).machine.todo id

theorem Underway.next {before since : List Event} {feed : Feed} {done done' : List FeedAction}
    (h : s.Underway settings id before since feed done) {e : Event}
    (htaker : (s.run settings (before ++ .move (.advance id) :: since)).taker? e ≠ some id)
    (htodo : (s.run settings (before ++ .move (.advance id) :: since)).machine.todo id =
      done' ++ ((s.run settings (before ++ .move (.advance id) :: since)).step settings
        e).machine.todo id) :
    s.Underway settings id before (since ++ [e]) feed (done ++ done') where
  receipt := h.receipt
  none_since := by
    have hnone := h.none_since
    rw [takers] at hnone ⊢
    rw [log_append, List.mem_append, not_or]
    refine ⟨hnone, ?_⟩
    rw [← run_append, List.append_assoc, List.singleton_append]
    simpa only [log, List.append_nil, Option.mem_toList, Option.mem_def] using htaker
  work := by
    rw [h.work, htodo, List.append_assoc, ← List.cons_append, ← List.append_assoc before,
      run_append _ _ _ [e]]
    rfl

/-- What a task has to do at any moment of a run is the rest of what its last reply asked for. -/
theorem exists_underway (hidle : s.machine.todo id = []) (es : List Event)
    (h : (s.run settings es).machine.todo id ≠ []) :
    ∃ before since feed done, es = before ++ .move (.advance id) :: since ∧
      s.Underway settings id before since feed done := by
  induction es using List.reverseRecOn with
  | nil => exact absurd hidle h
  | append_singleton es e ih =>
    rw [run_append] at h
    have extend : ∀ done', (s.run settings es).taker? e ≠ some id →
        (s.run settings es).machine.todo id =
          done' ++ ((s.run settings es).step settings e).machine.todo id →
        ∃ before since feed done, es ++ [e] = before ++ .move (.advance id) :: since ∧
          s.Underway settings id before since feed done := by
      intro done' htaker htodo
      have hbusy : (s.run settings es).machine.todo id ≠ [] := by
        rw [htodo]
        exact List.append_ne_nil_of_right_ne_nil _ h
      obtain ⟨before, since, feed, done, rfl, hunder⟩ := ih hbusy
      exact ⟨before, since ++ [e], feed, done ++ done', by simp, hunder.next htaker htodo⟩
    by_cases he : e = .move (.advance id)
    · subst he
      have not_taker : (s.run settings es).machine.receives? id = none →
          (s.run settings es).taker? (.move (.advance id)) ≠ some id := by
        intro hr heq
        obtain ⟨-, feed, hfeed⟩ := taker?_eq_some_iff.mp heq
        cases hr.symm.trans hfeed
      cases (advance_effect settings.behaviour (s.run settings es).machine id).2 with
      | still hr htodo => exact extend [] (not_taker hr) htodo.symm
      | settled hr htodo => exact extend [] (not_taker hr) htodo.symm
      | performed hr htodo => exact extend [_] (not_taker hr) htodo
      | @received feed hr _ htodo =>
        exact ⟨es, [], feed, [], rfl, hr, List.not_mem_nil, by rw [run_append]; exact htodo.symm⟩
    · refine extend [] (fun heq => he (taker?_eq_some_iff.mp heq).1) ?_
      exact (todo_step_other he).symm

end Session
end QuoteDesk
