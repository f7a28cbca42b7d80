import QuoteDesk.Proofs.Feed.Run
/-!
What a step leaves alone. A step of one task leaves every other task where it stands; at most it
cancels one. Nothing the owner does moves a task, and no identity is given twice.
-/
namespace QuoteDesk.Machine

variable {W A : Type} {b : Behaviour W A} {m m' m'' : Machine W A}

/-- All tasks but the one a change is about stand where they stood, and those that are gone stay
away. -/
structure Keeps (m m' : Machine W A) (about : Option TaskId) : Prop where
  fresh : m.fresh ≤ m'.fresh
  kept : ∀ id t, about ≠ some id → m.task? id = some t → ∃ t', m'.task? id = some t' ∧ Kept t t'
  gone : ∀ id, about ≠ some id → id < m.fresh → m.task? id = none → m'.task? id = none

variable {about : Option TaskId}

theorem Keeps.of_task?_eq (hfresh : m'.fresh = m.fresh)
    (h : ∀ id, about ≠ some id → m'.task? id = m.task? id) : Keeps m m' about where
  fresh := Nat.le_of_eq hfresh.symm
  kept id t hid ht := ⟨t, (h id hid).trans ht, .refl t⟩
  gone id hid _ ht := (h id hid).trans ht

theorem Keeps.refl (m : Machine W A) (about : Option TaskId) : Keeps m m about :=
  .of_task?_eq rfl fun _ _ => rfl

theorem Keeps.trans (h : Keeps m m' about) (h' : Keeps m' m'' about) : Keeps m m'' about where
  fresh := Nat.le_trans h.fresh h'.fresh
  kept id t hid ht := by
    obtain ⟨t', ht', hkept⟩ := h.kept id t hid ht
    obtain ⟨t'', ht'', hkept'⟩ := h'.kept id t' hid ht'
    exact ⟨t'', ht'', hkept.trans hkept'⟩
  gone id hid hlt ht := h'.gone id hid (Nat.lt_of_lt_of_le hlt h.fresh) (h.gone id hid hlt ht)

theorem keeps_setPhase (m : Machine W A) (id : TaskId) (p : Phase A) :
    Keeps m (m.setPhase id p) (some id) :=
  .of_task?_eq rfl fun k hk => by
    rw [task?_setPhase, if_neg fun h => hk (congrArg some h.symm)]

theorem keeps_removeTask (m : Machine W A) (id : TaskId) : Keeps m (m.removeTask id) (some id) :=
  .of_task?_eq rfl fun k hk => by
    rw [task?_removeTask, if_neg fun h => hk (congrArg some h.symm)]

theorem keeps_mapWorld (m : Machine W A) (f : W → W) : Keeps m (m.mapWorld f) about :=
  .of_task?_eq rfl fun _ _ => rfl

theorem keeps_elapse (m : Machine W A) (ms : Nat) : Keeps m (m.elapse ms) about :=
  .of_task?_eq rfl fun _ _ => rfl

theorem keeps_joinLine (m : Machine W A) (feed : Feed) (id : TaskId) :
    Keeps m (m.joinLine feed id) about :=
  .of_task?_eq rfl fun _ _ => rfl

theorem keeps_spawn (m : Machine W A) (feed : Feed) (isLoop : Bool) :
    Keeps m (m.spawn feed isLoop) about where
  fresh := Nat.le_succ _
  kept _ t _ ht := ⟨t, task?_spawn_of_some ht, .refl t⟩
  gone id _ hlt ht := by
    rw [task?_spawn, ht, Option.none_or, if_neg (Nat.ne_of_lt hlt)]

theorem keeps_start (m : Machine W A) (feed : Feed) : Keeps m (m.start feed) about := by
  unfold Machine.start
  split
  · exact .refl m about
  · have h : Keeps m (m.spawn feed true) about := keeps_spawn m feed true
    exact ⟨h.fresh, h.kept, h.gone⟩

theorem keeps_stop (m : Machine W A) (feed : Feed) : Keeps m (m.stop feed) about where
  fresh := Nat.le_of_eq (fresh_stop m feed).symm
  kept _ _ _ ht := kept_stop feed ht
  gone id _ _ ht := by rw [task?_stop, ht, Option.map_none]

theorem keeps_stopIfPolling (m : Machine W A) (feed : Feed) :
    Keeps m ((poller feed).stopIfPolling m) about :=
  (poller feed).stopIfPolling_preserves (Keeps m · about) (.refl m about) (keeps_stop m feed)

theorem keeps_performAction (b : Behaviour W A) (m : Machine W A) (a : A) :
    Keeps m (m.performAction b a) about := by
  unfold Machine.performAction
  cases b.restarts a with
  | none => exact keeps_mapWorld m _
  | some feed =>
    exact ((keeps_stopIfPolling m feed).trans (keeps_mapWorld _ _)).trans (keeps_start _ feed)

theorem keeps_endCycle (b : Behaviour W A) (m : Machine W A) (t : Task A) (o : CycleOutcome) :
    Keeps m (m.endCycle b t o) about :=
  .of_task?_eq rfl fun _ _ => rfl

theorem Advances.keeps {id : TaskId} {t : Task A} (h : Advances b m id t m') :
    Keeps m m' (some id) := by
  cases h with
  | join hp => exact (keeps_joinLine m _ id).trans (keeps_setPhase _ id _)
  | ask hp hturn => exact keeps_setPhase m id _
  | receive hp hdue hreceive => exact (keeps_mapWorld m _).trans (keeps_setPhase _ id _)
  | perform hp hdue => exact (keeps_performAction b m _).trans (keeps_setPhase _ id _)
  | conclude hp hcall => exact (keeps_endCycle b m t _).trans (keeps_setPhase _ id _)
  | rest hp hloop hstays => exact (keeps_endCycle b m t _).trans (keeps_setPhase _ id _)
  | quit hp hc => exact (keeps_endCycle b m t _).trans (keeps_removeTask _ id)
  | leave hp hc => exact keeps_removeTask m id
  | again hp hdue => exact keeps_setPhase m id _

theorem keeps_advance (b : Behaviour W A) (m : Machine W A) (id : TaskId) :
    Keeps m (m.advance b id) (some id) := by
  rcases advance_cases b m id with hsame | ⟨t, ht, hstep⟩
  · rw [hsame]
    exact .refl m _
  · exact hstep.keeps

theorem keeps_beginAgain (m : Machine W A) (id : TaskId) :
    Keeps m (m.beginAgain id) (some id) := by
  rcases beginAgain_cases m id with hsame | ⟨t, due, -, -, -, hagain⟩
  · rw [hsame]
    exact .refl m _
  · rw [hagain]
    exact keeps_setPhase m id _

theorem keeps_collect (m : Machine W A) (id : TaskId) : Keeps m (m.collect id) (some id) := by
  rcases collect_cases m id with hsame | ⟨t, o, -, -, hgone⟩
  · rw [hsame]
    exact .refl m _
  · rw [hgone]
    exact keeps_removeTask m id

def subject? : Event W → Option TaskId
  | .move (.advance id) | .move (.beginAgain id) => some id
  | .collect id => some id
  | _ => none

theorem keeps_step (b : Behaviour W A) (m : Machine W A) (e : Event W) :
    Keeps m (m.step b e) (subject? e) := by
  cases e with
  | move v =>
    cases v with
    | advance id => exact keeps_advance b m id
    | beginAgain id => exact keeps_beginAgain m id
    | elapse ms => exact keeps_elapse m ms
  | start feed => exact keeps_start m feed
  | stop feed => exact keeps_stop m feed
  | call feed => exact keeps_spawn m feed false
  | collect id => exact keeps_collect m id
  | work f => exact keeps_mapWorld m f

theorem collect_of_task? {id : TaskId} {t : Task A} (ht : m.task? id = some t)
    (hp : ∀ o, t.phase ≠ .ended o) : m.collect id = m := by
  rcases collect_cases m id with hsame | ⟨u, o, hu, hended, -⟩
  · exact hsame
  · obtain rfl := Option.some.inj (hu.symm.trans ht)
    exact absurd hended (hp o)

theorem beginAgain_of_task? {id : TaskId} {t : Task A} (ht : m.task? id = some t)
    (hp : ∀ due, t.phase ≠ .resting due) : m.beginAgain id = m := by
  rcases beginAgain_cases m id with hsame | ⟨u, due, hu, hresting, -, -⟩
  · exact hsame
  · obtain rfl := Option.some.inj (hu.symm.trans ht)
    exact absurd hresting (hp due)

/-- Without a step of its own a task in the line of its feed stays where it is; at most it is
cancelled. -/
theorem kept_run {id : TaskId} {t : Task A} {es : List (Event W)}
    (hes : ∀ e ∈ es, e ≠ .move (.advance id)) (ht : m.task? id = some t)
    (hp : t.phase.InLine) : ∃ t', (m.run b es).task? id = some t' ∧ Kept t t' := by
  induction es generalizing m t with
  | nil => exact ⟨t, ht, .refl t⟩
  | cons e es ih =>
    have hstep : ∃ t', (m.step b e).task? id = some t' ∧ Kept t t' := by
      have hother := hes e List.mem_cons_self
      by_cases hsubject : subject? e = some id
      · cases e with
        | move v =>
          cases v with
          | advance k =>
            cases hsubject
            exact absurd rfl hother
          | beginAgain k =>
            cases hsubject
            have hsame : m.step b (.move (.beginAgain id)) = m :=
              beginAgain_of_task? ht fun due hresting => by simp [hresting, Phase.InLine] at hp
            exact ⟨t, hsame.symm ▸ ht, .refl t⟩
          | elapse ms => cases hsubject
        | collect k =>
          cases hsubject
          have hsame : m.step b (.collect id) = m :=
            collect_of_task? ht fun o hended => by simp [hended, Phase.InLine] at hp
          exact ⟨t, hsame.symm ▸ ht, .refl t⟩
        | _ => cases hsubject
      · exact (keeps_step b m e).kept id t hsubject ht
    obtain ⟨t', ht', hkept⟩ := hstep
    obtain ⟨t'', ht'', hkept'⟩ := ih (fun x hx => hes x (List.mem_cons_of_mem e hx)) ht'
      (hkept.phase.symm ▸ hp)
    exact ⟨t'', ht'', hkept.trans hkept'⟩

def Starts (b : Behaviour W A) (m : Machine W A) (feed : Feed) : Event W → Prop
  | .start f => f = feed
  | .move (.advance id) => ∃ t o due a todo, m.task? id = some t ∧
      t.phase = .acting o due (a :: todo) ∧ due ≤ m.now ∧ b.restarts a = some feed
  | _ => False

def Unstarted (b : Behaviour W A) (feed : Feed) (m : Machine W A) : List (Event W) → Prop
  | [] => True
  | e :: es => ¬ Starts b m feed e ∧ Unstarted b feed (m.step b e) es

/-- Every loop of a feed was one before, and so was every call if calls count; a feed that was not
polled is not polled. -/
structure Inherits (feed : Feed) (calls : Bool) (m m' : Machine W A) : Prop where
  task : ∀ id t', m'.task? id = some t' → t'.feed = feed → (t'.isLoop || calls) = true →
    ∃ t, m.task? id = some t ∧ t.feed = feed ∧ t.isLoop = t'.isLoop
  live : m.live.get feed = none → m'.live.get feed = none

variable {feed : Feed} {calls : Bool}

theorem Inherits.refl (m : Machine W A) : Inherits feed calls m m :=
  ⟨fun _ t' ht' hfeed _ => ⟨t', ht', hfeed, rfl⟩, id⟩

theorem Inherits.trans (h : Inherits feed calls m m') (h' : Inherits feed calls m' m'') :
    Inherits feed calls m m'' where
  task id t' ht' hfeed hcounts := by
    obtain ⟨u, hu, hufeed, huloop⟩ := h'.task id t' ht' hfeed hcounts
    obtain ⟨t, ht, htfeed, htloop⟩ := h.task id u hu hufeed (huloop ▸ hcounts)
    exact ⟨t, ht, htfeed, htloop.trans huloop⟩
  live hnone := h'.live (h.live hnone)

theorem Inherits.of_tasks (hlive : m'.live = m.live)
    (h : ∀ id t', m'.task? id = some t' →
      ∃ t, m.task? id = some t ∧ t'.feed = t.feed ∧ t'.isLoop = t.isLoop) :
    Inherits feed calls m m' where
  task id t' ht' hfeed _ := by
    obtain ⟨t, ht, hf, hl⟩ := h id t' ht'
    exact ⟨t, ht, hf.symm.trans hfeed, hl.symm⟩
  live hnone := by rw [hlive, hnone]

theorem inherits_setPhase (m : Machine W A) (id : TaskId) (p : Phase A) :
    Inherits feed calls m (m.setPhase id p) := by
  refine .of_tasks rfl fun k u hu => ?_
  rw [task?_setPhase] at hu
  split at hu
  · obtain ⟨t, ht, rfl⟩ := Option.map_eq_some_iff.mp hu
    exact ⟨t, ht, rfl, rfl⟩
  · exact ⟨u, hu, rfl, rfl⟩

theorem inherits_removeTask (m : Machine W A) (id : TaskId) :
    Inherits feed calls m (m.removeTask id) := by
  refine .of_tasks rfl fun k u hu => ?_
  rw [task?_removeTask] at hu
  split at hu
  · cases hu
  · exact ⟨u, hu, rfl, rfl⟩

theorem inherits_mapWorld (m : Machine W A) (f : W → W) : Inherits feed calls m (m.mapWorld f) :=
  .of_tasks rfl fun _ u hu => ⟨u, hu, rfl, rfl⟩

theorem inherits_joinLine (m : Machine W A) (f : Feed) (id : TaskId) :
    Inherits feed calls m (m.joinLine f id) :=
  .of_tasks rfl fun _ u hu => ⟨u, hu, rfl, rfl⟩

theorem inherits_endCycle (b : Behaviour W A) (m : Machine W A) (t : Task A) (o : CycleOutcome) :
    Inherits feed calls m (m.endCycle b t o) :=
  .of_tasks rfl fun _ u hu => ⟨u, hu, rfl, rfl⟩

theorem inherits_stop (m : Machine W A) (f : Feed) : Inherits feed calls m (m.stop f) where
  task id u hu hfeed _ := by
    rw [task?_stop] at hu
    obtain ⟨t, ht, rfl⟩ := Option.map_eq_some_iff.mp hu
    exact ⟨t, ht, hfeed, rfl⟩
  live hnone := by
    rw [live_stop]
    split
    · rfl
    · exact hnone

theorem inherits_call (m : Machine W A) {f : Feed} (hf : calls = true → f ≠ feed) :
    Inherits feed calls m (m.spawn f false) where
  task id u hu hfeed hcounts := by
    rcases task?_spawn_cases hu with hu | ⟨_, rfl⟩
    · exact ⟨u, hu, hfeed, rfl⟩
    · exact absurd hfeed (hf hcounts)
  live hnone := hnone

theorem inherits_start (m : Machine W A) {f : Feed} (hf : f ≠ feed) :
    Inherits feed calls m (m.start f) := by
  unfold Machine.start
  split
  · exact .refl m
  · refine ⟨fun id u hu hfeed _ => ?_, fun hnone => ?_⟩
    · rcases task?_spawn_cases (m := m) hu with hu | ⟨_, rfl⟩
      · exact ⟨u, hu, hfeed, rfl⟩
      · exact absurd hfeed hf
    · change (m.live.set (some m.fresh) f).get feed = none
      rw [PerFeed.get_set, if_neg hf]
      exact hnone

theorem inherits_performAction (b : Behaviour W A) (m : Machine W A) {a : A}
    (ha : b.restarts a ≠ some feed) : Inherits feed calls m (m.performAction b a) := by
  unfold Machine.performAction
  cases hr : b.restarts a with
  | none => exact inherits_mapWorld m _
  | some f =>
    have hf : f ≠ feed := fun h => ha (hr.trans (congrArg some h))
    have hidle : Inherits feed calls m ((poller f).stopIfPolling m) :=
      (poller f).stopIfPolling_preserves (Inherits feed calls m) (.refl m) (inherits_stop m f)
    exact (hidle.trans (inherits_mapWorld _ _)).trans (inherits_start _ hf)

theorem inherits_advance {id : TaskId}
    (hstart : ¬ Starts b m feed (.move (.advance id))) : Inherits feed calls m (m.advance b id) := by
  rcases advance_cases b m id with hsame | ⟨t, ht, hstep⟩
  · rw [hsame]
    exact .refl m
  · generalize m.advance b id = m' at hstep
    cases hstep with
    | join hp => exact (inherits_joinLine m _ id).trans (inherits_setPhase _ id _)
    | ask hp hturn => exact inherits_setPhase m id _
    | receive hp hdue hreceive => exact (inherits_mapWorld m _).trans (inherits_setPhase _ id _)
    | @perform o due a todo hp hdue =>
      have ha : b.restarts a ≠ some feed := fun h => hstart ⟨t, o, due, a, todo, ht, hp, hdue, h⟩
      exact (inherits_performAction b m ha).trans (inherits_setPhase _ id _)
    | conclude hp hcall => exact (inherits_endCycle b m t _).trans (inherits_setPhase _ id _)
    | rest hp hloop hstays => exact (inherits_endCycle b m t _).trans (inherits_setPhase _ id _)
    | quit hp hc => exact (inherits_endCycle b m t _).trans (inherits_removeTask _ id)
    | leave hp hc => exact inherits_removeTask m id
    | again hp hdue => exact inherits_setPhase m id _

theorem inherits_beginAgain (m : Machine W A) (id : TaskId) :
    Inherits feed calls m (m.beginAgain id) := by
  rcases beginAgain_cases m id with hsame | ⟨t, due, -, -, -, hagain⟩
  · rw [hsame]
    exact .refl m
  · rw [hagain]
    exact inherits_setPhase m id _

theorem inherits_step {e : Event W} (hstart : ¬ Starts b m feed e)
    (hcall : calls = true → e ≠ .call feed) : Inherits feed calls m (m.step b e) := by
  cases e with
  | move v =>
    cases v with
    | advance id => exact inherits_advance hstart
    | beginAgain id => exact inherits_beginAgain m id
    | elapse ms => exact .of_tasks rfl fun _ u hu => ⟨u, hu, rfl, rfl⟩
  | start f => exact inherits_start m hstart
  | stop f => exact inherits_stop m f
  | call f => exact inherits_call m fun hcalls hf => hcall hcalls (congrArg Event.call hf)
  | collect id =>
    change Inherits feed calls m (m.collect id)
    rcases collect_cases m id with hsame | ⟨t, o, -, -, hgone⟩
    · rw [hsame]
      exact .refl m
    · rw [hgone]
      exact inherits_removeTask m id
  | work f => exact inherits_mapWorld m f

theorem Unstarted.append {es fs : List (Event W)} (h : Unstarted b feed m es)
    (h' : Unstarted b feed (m.run b es) fs) : Unstarted b feed m (es ++ fs) := by
  induction es generalizing m with
  | nil => exact h'
  | cons e es ih => exact ⟨h.1, ih h.2 h'⟩

theorem Unstarted.inherits {es : List (Event W)} (h : Unstarted b feed m es) :
    Inherits feed false m (m.run b es) := by
  induction es generalizing m with
  | nil => exact .refl m
  | cons e es ih => exact (inherits_step h.1 (by simp)).trans (ih h.2)

end QuoteDesk.Machine
