import QuoteDesk.Proofs.Feed.Stop
/-!
Restarts by other cycles. Where the cycles of one feed restart another, stopping both is not enough:
a cycle of the first that has begun may still restart the second, and a loop of the first that rests may
go round for another one. Once no task can, neither feed comes back before somebody asks for it; and as
long as one can, it can be driven to the restart, the reply permitting.
-/
namespace QuoteDesk

variable {W A : Type}

/-- Only the cycles of one feed restart another, and nothing restarts that one. -/
structure Behaviour.RestartsOnly (b : Behaviour W A) (source target : Feed) : Prop where
  only_source : ∀ feed w, ∀ a ∈ (b.receive feed w).2.1, b.restarts a = some target → feed = source
  never_source : ∀ a, b.restarts a ≠ some source

/-- A task that may still restart a feed, stopped or not: it has no reply yet, is to do what restarts
the feed, or may go round again. -/
def Task.Loaded (b : Behaviour W A) (target : Feed) (t : Task A) : Prop :=
  match t.phase with
  | .queued | .waiting | .asking _ | .resting _ => True
  | .acting _ _ todo => (∃ a ∈ todo, b.restarts a = some target) ∨
      t.isLoop = true ∧ b.interval t.feed = 0
  | .ended _ => False

namespace Machine

variable {b : Behaviour W A} {source target : Feed} {m m' : Machine W A} {id : TaskId} {t : Task A}

structure Spent (b : Behaviour W A) (source target : Feed) (m : Machine W A) : Prop where
  source_off : m.live.get source = none
  target_off : m.live.get target = none
  unloaded : ∀ id t, m.task? id = some t → t.feed = source → ¬ t.Loaded b target

theorem Spent.not_starts (hb : b.RestartsOnly source target) (hm : Consistent b m)
    (h : Spent b source target m) {e : Event W} (he : e.asks = false) :
    ¬ Starts b m source e ∧ ¬ Starts b m target e := by
  cases e with
  | start f => cases he
  | call f => cases he
  | move v =>
    cases v with
    | elapse ms => exact ⟨id, id⟩
    | beginAgain k => exact ⟨id, id⟩
    | advance k =>
      refine ⟨?_, ?_⟩
      · rintro ⟨t, o, due, a, todo, -, -, -, ha⟩
        exact hb.never_source a ha
      · rintro ⟨t, o, due, a, todo, ht, hp, -, ha⟩
        obtain ⟨w, hw⟩ := hm.todo_received k t o due _ ht hp a List.mem_cons_self
        refine h.unloaded k t ht (hb.only_source _ w a hw ha) ?_
        simp only [Task.Loaded, hp]
        exact .inl ⟨a, List.mem_cons_self, ha⟩
  | stop f => exact ⟨id, id⟩
  | collect k => exact ⟨id, id⟩
  | work f => exact ⟨id, id⟩

theorem Advances.not_loaded (hm : Consistent b m) (ht : m.task? id = some t)
    (hoff : m.live.get t.feed = none) (hnot : ¬ t.Loaded b target) (h : Advances b m id t m')
    {t' : Task A} (ht' : m'.task? id = some t') : ¬ t'.Loaded b target := by
  have of_phase : ∀ {m' : Machine W A} {u : Task A} {p : Phase A}, m'.task? id = some u →
      (m'.setPhase id p).task? id = some t' → t' = { u with phase := p } := by
    intro m' u p hu hu'
    exact (Option.some.inj ((task?_setPhase_self hu p).symm.trans hu')).symm
  cases h with
  | join hp | ask hp | receive hp | leave hp | again hp =>
    refine absurd ?_ hnot
    simp only [Task.Loaded, hp]
  | @perform o due a todo hp hdue =>
    obtain ⟨u, hu, hkept⟩ := kept_performAction b a ht
    obtain rfl := of_phase hu ht'
    simp only [Task.Loaded, hp] at hnot
    simp only [Task.Loaded, hkept.feed, hkept.isLoop]
    rintro (⟨x, hx, hr⟩ | hagain)
    · exact hnot (.inl ⟨x, List.mem_cons_of_mem a hx, hr⟩)
    · exact hnot (.inr hagain)
  | @conclude o due hp hcall =>
    have hself : (m.endCycle b t o).task? id = some t := ht
    obtain rfl := of_phase hself ht'
    exact fun hloaded => hloaded
  | @rest o due hp hloop hstays =>
    refine absurd ?_ hnot
    have hc : t.cancelled = true := by
      by_contra hc
      have hlive := hm.loop_live id t ht hloop (Bool.eq_false_iff.mpr hc)
      rw [hoff] at hlive
      cases hlive
    simp only [Task.Loaded, hp]
    exact .inr ⟨hloop, hstays hc⟩
  | @quit o due hp hc =>
    rw [task?_removeTask, if_pos rfl] at ht'
    cases ht'

theorem Spent.step (hb : b.RestartsOnly source target) (hm : Consistent b m)
    (h : Spent b source target m) {e : Event W} (he : e.asks = false) :
    Spent b source target (m.step b e) := by
  obtain ⟨hsource, htarget⟩ := h.not_starts hb hm he
  have hcall : ∀ feed, e ≠ .call feed := by
    rintro feed rfl
    cases he
  have hinherits : Inherits source true m (m.step b e) := inherits_step hsource fun _ => hcall source
  have hrestarts : Inherits target true m (m.step b e) := inherits_step htarget fun _ => hcall target
  refine ⟨hinherits.live h.source_off, hrestarts.live h.target_off, ?_⟩
  intro k t' ht' hfeed
  obtain ⟨t, ht, htfeed, -⟩ := hinherits.task k t' ht' hfeed (Bool.or_true _)
  have hnot := h.unloaded k t ht htfeed
  have of_own : ∀ m', (m' = m ∨ ∃ u, m.task? k = some u ∧ Advances b m k u m') →
      m'.task? k = some t' → ¬ t'.Loaded b target := by
    rintro m' (rfl | ⟨u, hu, hadvances⟩) hown
    · obtain rfl := Option.some.inj (hown.symm.trans ht)
      exact hnot
    · obtain rfl := Option.some.inj (hu.symm.trans ht)
      exact hadvances.not_loaded hm ht (htfeed ▸ h.source_off) hnot hown
  by_cases hk : subject? e = some k
  · cases e with
    | move v =>
      cases v with
      | advance id =>
        obtain rfl := Option.some.inj hk
        exact of_own _ (advance_cases b m id) ht'
      | beginAgain id =>
        obtain rfl := Option.some.inj hk
        exact of_own _ (advances_beginAgain b m id) ht'
      | elapse ms => cases hk
    | collect id =>
      obtain rfl := Option.some.inj hk
      change (m.collect id).task? id = some t' at ht'
      rcases collect_cases m id with hsame | ⟨u, o, -, -, hgone⟩
      · exact of_own _ (.inl hsame) ht'
      · rw [hgone, task?_removeTask, if_pos rfl] at ht'
        cases ht'
    | start f => cases he
    | stop f => cases hk
    | call f => cases he
    | work f => cases hk
  · obtain ⟨u, hu, hkept⟩ := (keeps_step b m e).kept k t hk ht
    obtain rfl := Option.some.inj (hu.symm.trans ht')
    simpa only [Task.Loaded, hkept.phase, hkept.feed, hkept.isLoop] using hnot

theorem Spent.run (hb : b.RestartsOnly source target) (hm : Consistent b m)
    (h : Spent b source target m) {es : List (Event W)} (hes : ∀ e ∈ es, e.asks = false) :
    Spent b source target (m.run b es) := by
  induction es generalizing m with
  | nil => exact h
  | cons e es ih =>
    have he := hes e List.mem_cons_self
    exact ih (hm.step e) (h.step hb hm he) fun x hx => hes x (List.mem_cons_of_mem e hx)

theorem isPolling_start (m : Machine W A) (feed : Feed) : (m.start feed).isPolling feed = true := by
  unfold Machine.start
  split
  · next h => exact h
  · simp [isPolling]

theorem isPolling_performAction (m : Machine W A) {a : A} (ha : b.restarts a = some target) :
    (m.performAction b a).isPolling target = true := by
  simp only [Machine.performAction, ha]
  exact isPolling_start _ target

end Machine
end QuoteDesk
