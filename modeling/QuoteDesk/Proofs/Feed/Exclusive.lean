import QuoteDesk.Desk.Feeds
import QuoteDesk.Feed.Recorder
import QuoteDesk.Proofs.Feed.Frame
import QuoteDesk.Proofs.Feed.Prompt
/-!
One cycle at a time and one loop at a time. Whatever is started, stopped and called for and whichever
task moves next, a feed has at most one task between request and end of a cycle and at most one loop
that is not cancelled, and it counts as polled exactly while it has one. Main statement: so it is in
every run, and the steps of a cycle that fails change nothing about who polls.
-/
namespace QuoteDesk

variable {W A : Type}

def Behaviour.DropsFailures (b : Behaviour W A) : Prop :=
  ∀ feed w, (b.receive feed w).1 ≠ .ok → (b.receive feed w).2.1 = []

theorem Recorder.dropsFailures (url : String) (interval handling : Nat) :
    (behaviour url interval handling).DropsFailures := by
  intro feed w
  simp only [behaviour, receive]
  split
  · exact fun _ => rfl
  · split
    · exact fun _ => rfl
    · exact fun hfailed => absurd rfl hfailed

theorem Settings.dropsFailures (settings : Settings) : settings.behaviour.DropsFailures := by
  intro feed w
  simp only [behaviour, State.receive]
  split
  · exact fun _ => rfl
  · split
    · exact fun _ => rfl
    · exact fun hfailed => absurd rfl hfailed

namespace Machine

variable {b : Behaviour W A} {m m' m'' : Machine W A} {feed : Feed} {id k : TaskId} {t : Task A}

def Cycles (m : Machine W A) (feed : Feed) (id : TaskId) : Prop :=
  ∃ t, m.task? id = some t ∧ t.feed = feed ∧ t.phase.InCycle

def Polls (m : Machine W A) (feed : Feed) (id : TaskId) : Prop :=
  ∃ t, m.task? id = some t ∧ t.feed = feed ∧ t.isLoop = true ∧ t.cancelled = false

theorem Consistent.cycles_unique (h : Consistent b m) (hid : m.Cycles feed id)
    (hk : m.Cycles feed k) : id = k := by
  obtain ⟨t, ht, rfl, hin⟩ := hid
  obtain ⟨u, hu, hfeed, hin'⟩ := hk
  have hfirst : (m.line.get t.feed).head? = some k := hfeed ▸ h.cycle_first k u hu hin'
  exact Option.some.inj ((h.cycle_first id t ht hin).symm.trans hfirst)

theorem Consistent.polls_iff (h : Consistent b m) : m.Polls feed id ↔ m.live.get feed = some id := by
  constructor
  · rintro ⟨t, ht, rfl, hloop, hcancelled⟩
    exact h.loop_live id t ht hloop hcancelled
  · intro hlive
    obtain ⟨t, ht, hfeed, hloop, hcancelled⟩ := h.live_loop feed id hlive
    exact ⟨t, ht, hfeed, hloop, hcancelled⟩

theorem Consistent.polls_unique (h : Consistent b m) (hid : m.Polls feed id)
    (hk : m.Polls feed k) : id = k :=
  Option.some.inj ((h.polls_iff.mp hid).symm.trans (h.polls_iff.mp hk))

theorem Consistent.isPolling_iff (h : Consistent b m) :
    m.isPolling feed = true ↔ ∃ id, m.Polls feed id := by
  rw [isPolling, Option.isSome_iff_exists]
  constructor
  · rintro ⟨id, hlive⟩
    exact ⟨id, h.polls_iff.mpr hlive⟩
  · rintro ⟨id, hpolls⟩
    exact ⟨id, h.polls_iff.mp hpolls⟩

/-- The same loops poll, and the same feeds count as polled. -/
structure SamePolling (m m' : Machine W A) : Prop where
  loops : ∀ feed id, m'.Polls feed id ↔ m.Polls feed id
  feeds : ∀ feed, m'.isPolling feed = m.isPolling feed

theorem samePolling_of_live (h : Consistent b m) (h' : Consistent b m') (hlive : m'.live = m.live) :
    SamePolling m m' := by
  constructor
  · intro feed id
    rw [h.polls_iff, h'.polls_iff, hlive]
  · intro feed
    rw [isPolling, isPolling, hlive]

theorem Advances.live_eq (h : Advances b m id t m')
    (hp : ∀ o due a todo, t.phase ≠ .acting o due (a :: todo)) : m'.live = m.live := by
  cases h with
  | perform hacting hdue => exact absurd hacting (hp _ _ _ _)
  | join hp => rfl
  | ask hp hturn => rfl
  | receive hp hdue hreceive => rfl
  | conclude hp hcall => rfl
  | rest hp hloop hstays => rfl
  | quit hp hc => rfl
  | leave hp hc => rfl
  | again hp hdue => rfl

/-- Every task stands where it stood or is queued. -/
def Descends (m m' : Machine W A) : Prop :=
  ∀ k u, m'.task? k = some u → u.phase = .queued ∨ ∃ t, m.task? k = some t ∧ t.phase = u.phase

theorem Descends.of_task? (h : ∀ k, m'.task? k = m.task? k) : Descends m m' :=
  fun k u hu => .inr ⟨u, h k ▸ hu, rfl⟩

theorem Descends.trans (h : Descends m m') (h' : Descends m' m'') : Descends m m'' := by
  intro k u hu
  rcases h' k u hu with hqueued | ⟨t, ht, hphase⟩
  · exact .inl hqueued
  · rw [← hphase]
    exact h k t ht

theorem descends_spawn (m : Machine W A) (feed : Feed) (isLoop : Bool) :
    Descends m (m.spawn feed isLoop) := by
  intro k u hu
  rcases task?_spawn_cases hu with hu | ⟨_, rfl⟩
  · exact .inr ⟨u, hu, rfl⟩
  · exact .inl rfl

theorem descends_start (m : Machine W A) (feed : Feed) : Descends m (m.start feed) := by
  unfold Machine.start
  split
  · exact .of_task? fun _ => rfl
  · exact descends_spawn m feed true

theorem descends_stop (m : Machine W A) (feed : Feed) : Descends m (m.stop feed) := by
  intro k u hu
  rw [task?_stop] at hu
  obtain ⟨t, ht, rfl⟩ := Option.map_eq_some_iff.mp hu
  exact .inr ⟨t, ht, rfl⟩

theorem descends_removeTask (m : Machine W A) (id : TaskId) : Descends m (m.removeTask id) := by
  intro k u hu
  rw [task?_removeTask] at hu
  split at hu
  · cases hu
  · exact .inr ⟨u, hu, rfl⟩

theorem descends_performAction (b : Behaviour W A) (m : Machine W A) (a : A) :
    Descends m (m.performAction b a) := by
  unfold Machine.performAction
  cases b.restarts a with
  | none => exact .of_task? fun _ => rfl
  | some feed =>
    have hidle : Descends m ((poller feed).stopIfPolling m) :=
      (poller feed).stopIfPolling_preserves (Descends m) (.of_task? fun _ => rfl)
        (descends_stop m feed)
    exact (hidle.trans (.of_task? fun _ => rfl)).trans (descends_start _ feed)

theorem descends_beginAgain (m : Machine W A) (id : TaskId) : Descends m (m.beginAgain id) := by
  rcases beginAgain_cases m id with hsame | ⟨t, due, -, -, -, hagain⟩
  · exact .of_task? fun k => by rw [hsame]
  · rw [hagain]
    intro k u hu
    rw [task?_setPhase] at hu
    split at hu
    · obtain ⟨v, -, rfl⟩ := Option.map_eq_some_iff.mp hu
      exact .inl rfl
    · exact .inr ⟨u, hu, rfl⟩

/-- Only a step of a task takes it on in its cycle. -/
theorem descends_step {e : Event W} (he : ∀ id, e ≠ .move (.advance id)) :
    Descends m (m.step b e) := by
  cases e with
  | move v =>
    cases v with
    | advance id => exact absurd rfl (he id)
    | beginAgain id => exact descends_beginAgain m id
    | elapse ms => exact .of_task? fun _ => rfl
  | start feed => exact descends_start m feed
  | stop feed => exact descends_stop m feed
  | call feed => exact descends_spawn m feed false
  | collect id =>
    change Descends m (m.collect id)
    rcases collect_cases m id with hsame | ⟨t, o, -, -, hgone⟩
    · exact .of_task? fun k => by rw [hsame]
    · rw [hgone]
      exact descends_removeTask m id
  | work f => exact .of_task? fun _ => rfl

def FailsIdle (m : Machine W A) : Prop :=
  ∀ k u o due todo, m.task? k = some u → u.phase = .acting o due todo → o ≠ .ok → todo = []

theorem FailsIdle.descends (h : FailsIdle m) (hdescends : Descends m m') : FailsIdle m' := by
  intro k u o due todo hu hp hfailed
  rcases hdescends k u hu with hqueued | ⟨t, ht, hphase⟩
  · rw [hqueued] at hp
    cases hp
  · exact h k t o due todo ht (hphase.trans hp) hfailed

theorem FailsIdle.setPhase (h : FailsIdle m) {p : Phase A}
    (hp : ∀ o due todo, p = .acting o due todo → o ≠ .ok → todo = []) :
    FailsIdle (m.setPhase id p) := by
  intro k u o due todo hu hphase hfailed
  rw [task?_setPhase] at hu
  split at hu
  · obtain ⟨t, _, rfl⟩ := Option.map_eq_some_iff.mp hu
    exact hp o due todo hphase hfailed
  · exact h k u o due todo hu hphase hfailed

theorem FailsIdle.advances (hb : b.DropsFailures) (h : FailsIdle m) (ht : m.task? id = some t)
    (hstep : Advances b m id t m') : FailsIdle m' := by
  cases hstep with
  | join hp => exact FailsIdle.setPhase (m := m.joinLine t.feed id) h nofun
  | ask hp hturn => exact h.setPhase nofun
  | @receive due hp hdue outcome todo world hreceive =>
    refine FailsIdle.setPhase (m := m.mapWorld fun _ => world) h ?_
    rintro o due todo ⟨⟩ hfailed
    have hdropped := hb t.feed m.world
    rw [hreceive] at hdropped
    exact hdropped hfailed
  | @perform outcome due a todo hp hdue =>
    refine (h.descends (descends_performAction b m a)).setPhase ?_
    rintro o due' todo' ⟨⟩ hfailed
    cases h id t _ _ _ ht hp hfailed
  | @conclude o due hp hcall => exact FailsIdle.setPhase (m := m.endCycle b t o) h nofun
  | @rest o due hp hloop hstays => exact FailsIdle.setPhase (m := m.endCycle b t o) h nofun
  | @quit o due hp hc => exact FailsIdle.descends (m := m.endCycle b t o) h (descends_removeTask _ id)
  | leave hp hc => exact h.descends (descends_removeTask m id)
  | again hp hdue => exact h.setPhase nofun

theorem FailsIdle.step (hb : b.DropsFailures) (h : FailsIdle m) (e : Event W) :
    FailsIdle (m.step b e) := by
  by_cases he : ∃ id, e = .move (.advance id)
  · obtain ⟨id, rfl⟩ := he
    change FailsIdle (m.advance b id)
    rcases advance_cases b m id with hsame | ⟨t, ht, hstep⟩
    · rw [hsame]
      exact h
    · exact h.advances hb ht hstep
  · exact h.descends (descends_step fun id hid => he ⟨id, hid⟩)

theorem FailsIdle.run (hb : b.DropsFailures) (h : FailsIdle m) (es : List (Event W)) :
    FailsIdle (m.run b es) := by
  induction es generalizing m with
  | nil => exact h
  | cons e es ih => exact ih (h.step hb e)

theorem failsIdle_initial (world : W) : FailsIdle (Machine.initial (A := A) world) :=
  fun _ _ _ _ _ hu => nomatch hu

theorem samePolling_advance (hm : Consistent b m) (hidle : FailsIdle m)
    (hp : ∀ t due todo, m.task? id = some t → t.phase ≠ .acting .ok due todo) :
    SamePolling m (m.advance b id) := by
  refine samePolling_of_live hm (hm.advance id) ?_
  rcases advance_cases b m id with hsame | ⟨t, ht, hstep⟩
  · rw [hsame]
  · refine hstep.live_eq ?_
    intro o due a todo hacting
    by_cases ho : o = .ok
    · subst ho
      exact hp t due _ ht hacting
    · cases hidle id t o due _ ht hacting ho

theorem samePolling_beginAgain (hm : Consistent b m) (id : TaskId) :
    SamePolling m (m.beginAgain id) := by
  refine samePolling_of_live hm (hm.beginAgain id) ?_
  rcases beginAgain_cases m id with hsame | ⟨t, due, -, -, -, hagain⟩
  · rw [hsame]
  · rw [hagain]
    rfl

/-- A reply that fails leaves its task in the cycle with nothing to do, and the next step of the task
ends the cycle. -/
theorem cycle_ends_of_fails (hm : Consistent b m) (hb : b.DropsFailures) (hr : m.receives? id = some feed)
    (hfailed : (b.receive feed m.world).1 ≠ .ok) {since : List (Event W)}
    (hsince : ∀ e ∈ since, e ≠ .move (.advance id)) :
    let m' := (m.advance b id).run b since
    (∃ t due, m'.task? id = some t ∧ t.feed = feed ∧
      t.phase = .acting (b.receive feed m.world).1 due []) ∧
    ¬ (m'.advance b id).Cycles feed id := by
  intro m'
  obtain ⟨t, ht, rfl, hstep⟩ := advance_of_receives (b := b) hr
  rw [hb t.feed m.world hfailed] at hstep
  have hat : (m.advance b id).task? id =
      some { t with phase := .acting (b.receive t.feed m.world).1 m.now [] } := by
    rw [hstep]
    exact task?_setPhase_self (m := m.mapWorld _) ht _
  obtain ⟨t', ht', hkept⟩ : ∃ t', m'.task? id = some t' ∧ Kept _ t' := kept_run hsince hat trivial
  refine ⟨⟨t', m.now, ht', hkept.feed, hkept.phase⟩, ?_⟩
  rintro ⟨u, hu, hfeed, hin⟩
  have hm' : Consistent b m' := (hm.advance id).run since
  have hmem := (hm'.advance id).task_line id u hu hin.inLine
  have hsame : t'.feed = u.feed := hkept.feed.trans hfeed.symm
  rw [advance_of_done ht' hkept.phase, ← hsame, line_finish, id_of_task? ht'] at hmem
  exact (hm'.line_nodup t'.feed).not_mem_erase hmem

/-- In every run at most one task of a feed is in a cycle, at most one loop is not cancelled, and a feed
counts as polled exactly while such a loop is there. If nothing is done after a failure, a step of a
task changes who polls only in a cycle that has succeeded, and going round again never does, so that a
cycle whose reply fails goes to its end without any change. -/
theorem one_cycle_one_loop (b : Behaviour W A) (world : W) (es : List (Event W)) :
    let m := (Machine.initial world).run b es
    (∀ feed id k, m.Cycles feed id → m.Cycles feed k → id = k) ∧
    (∀ feed id k, m.Polls feed id → m.Polls feed k → id = k) ∧
    (∀ feed, m.isPolling feed = true ↔ ∃ id, m.Polls feed id) ∧
    (b.DropsFailures →
      (∀ id, (∀ t due todo, m.task? id = some t → t.phase ≠ .acting .ok due todo) →
        SamePolling m (m.step b (.move (.advance id)))) ∧
      (∀ id, SamePolling m (m.step b (.move (.beginAgain id)))) ∧
      ∀ feed id, m.receives? id = some feed → (b.receive feed m.world).1 ≠ .ok →
        ∀ since, (∀ e ∈ since, e ≠ .move (.advance id)) →
          let m' := (m.step b (.move (.advance id))).run b since
          m'.Cycles feed id ∧ ¬ (m'.step b (.move (.advance id))).Cycles feed id ∧
            SamePolling m' (m'.step b (.move (.advance id)))) := by
  intro m
  have hm : Consistent b m := run_consistent b world es
  refine ⟨?_, ?_, ?_, ?_⟩
  · intro feed id k hid hk
    exact hm.cycles_unique hid hk
  · intro feed id k hid hk
    exact hm.polls_unique hid hk
  · intro feed
    exact hm.isPolling_iff
  · intro hb
    have hidle : FailsIdle m := (failsIdle_initial world).run hb es
    refine ⟨fun id hp => samePolling_advance hm hidle hp, fun id => samePolling_beginAgain hm id, ?_⟩
    intro feed id hr hfailed since hsince m'
    obtain ⟨⟨t, due, ht, hfeed, hp⟩, hends⟩ := cycle_ends_of_fails hm hb hr hfailed hsince
    refine ⟨⟨t, ht, hfeed, hp ▸ trivial⟩, hends, ?_⟩
    refine samePolling_advance ((hm.advance id).run since) ((hidle.step hb _).run hb since) ?_
    intro u due' todo hu hsucceeded
    obtain rfl := Option.some.inj (ht.symm.trans hu)
    rw [hp] at hsucceeded
    injection hsucceeded with houtcome
    exact hfailed houtcome

def wentRound : List (Event Recorder) :=
  .start .blacklist :: List.replicate 4 (.move (.advance 0)) ++
    [.move (.elapse 100), .stop .blacklist, .start .blacklist, .move (.beginAgain 0),
      .move (.advance 0), .move (.advance 0)]

theorem run_wentRound :
    let m := (Machine.initial Recorder.initial).run (Recorder.behaviour "" 100 0) wentRound
    m.task? 0 = some ⟨0, .blacklist, true, true, .asking 100⟩ ∧
      m.task? 1 = some ⟨1, .blacklist, true, false, .queued⟩ ∧ m.now = 100 ∧
      (Recorder.receive "" .blacklist m.world).1 = .requestError :=
  ⟨rfl, rfl, rfl, rfl⟩

/-- A loop that was cancelled is in its cycle again while its successor polls; then its request fails,
and polling is stopped before the cycle ends. -/
theorem one_cycle_one_loop_restarted :
    let b := Recorder.behaviour "" 100 0
    let m := (Machine.initial Recorder.initial).run b wentRound
    let m' := (m.step b (.move (.advance 0))).run b [.stop .blacklist]
    m.Cycles .blacklist 0 ∧ ¬ m.Cycles .blacklist 1 ∧ m.Polls .blacklist 1 ∧
      ¬ m.Polls .blacklist 0 ∧ m.isPolling .blacklist = true ∧
      SamePolling m (m.step b (.move (.advance 0))) ∧ m'.Cycles .blacklist 0 ∧
      SamePolling m' (m'.step b (.move (.advance 0))) := by
  intro b m m'
  obtain ⟨hcycle, hloop, hpolling, hfailing⟩ := one_cycle_one_loop b Recorder.initial wentRound
  obtain ⟨hsame, -, hfails⟩ := hfailing (Recorder.dropsFailures "" 100 0)
  obtain ⟨hasking, hqueued, hnow, hrequest⟩ := run_wentRound
  have hcycles : m.Cycles .blacklist 0 := ⟨_, hasking, rfl, trivial⟩
  have hpolls : m.Polls .blacklist 1 := ⟨_, hqueued, rfl, rfl, rfl⟩
  have hreceives : m.receives? 0 = some .blacklist :=
    receives?_eq_some_iff.mpr ⟨_, 100, hasking, rfl, Nat.le_of_eq hnow.symm, rfl⟩
  have hfailed : (b.receive .blacklist m.world).1 ≠ .ok := hrequest ▸ nofun
  have hends := hfails .blacklist 0 hreceives hfailed [.stop .blacklist] (by simp)
  refine ⟨hcycles, ?_, hpolls, ?_, (hpolling .blacklist).mpr ⟨1, hpolls⟩, ?_, hends.1, hends.2.2⟩
  · intro hother
    cases hcycle _ _ _ hcycles hother
  · intro hother
    cases hloop _ _ _ hpolls hother
  · refine hsame 0 ?_
    intro t due todo ht hp
    obtain rfl := Option.some.inj (hasking.symm.trans ht)
    cases hp

end Machine
end QuoteDesk
