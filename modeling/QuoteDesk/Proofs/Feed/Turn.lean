import QuoteDesk.Proofs.Feed.Frame
/-!
Every turn comes. The first of a line can always go on, as far as the end of its cycle, by steps of
its own and the passing of time. So a task that waits gets its turn without any step of another feed.
-/
namespace QuoteDesk.Machine

variable {W A : Type} {b : Behaviour W A} {m m' m'' : Machine W A} {id : TaskId} {t t' : Task A}

inductive Drives (b : Behaviour W A) (feed : Feed) : Machine W A → Machine W A → Prop where
  | refl (m : Machine W A) : Drives b feed m m
  | elapse (ms : Nat) {m m' : Machine W A} (h : Drives b feed (m.elapse ms) m') :
      Drives b feed m m'
  | advance {id : TaskId} {t : Task A} {m m' : Machine W A} (ht : m.task? id = some t)
      (hfeed : t.feed = feed) (h : Drives b feed (m.advance b id) m') : Drives b feed m m'
  | beginAgain {id : TaskId} {t : Task A} {m m' : Machine W A} (ht : m.task? id = some t)
      (hfeed : t.feed = feed) (h : Drives b feed (m.beginAgain id) m') : Drives b feed m m'

theorem Drives.trans {feed : Feed} (h : Drives b feed m m') (h' : Drives b feed m' m'') :
    Drives b feed m m'' := by
  induction h with
  | refl => exact h'
  | elapse ms _ ih => exact .elapse ms (ih h')
  | advance ht hfeed _ ih => exact .advance ht hfeed (ih h')
  | beginAgain ht hfeed _ ih => exact .beginAgain ht hfeed (ih h')

theorem Drives.consistent {feed : Feed} (h : Drives b feed m m') (hm : Consistent b m) :
    Consistent b m' := by
  induction h with
  | refl => exact hm
  | elapse ms _ ih => exact ih (hm.elapse ms)
  | advance ht hfeed _ ih => exact ih (hm.advance _)
  | beginAgain ht hfeed _ ih => exact ih (hm.beginAgain _)

theorem advance_of_canMove (ht : m.task? id = some t) (hmove : m.canMove t = true) :
    m.advance b id = m.stepTask b t := by
  simp only [Machine.advance, ht, hmove, if_true]

theorem advance_of_acting {o : CycleOutcome} {due : Nat} {a : A} {todo : List A}
    (ht : m.task? id = some t) (hp : t.phase = .acting o due (a :: todo)) (hdue : due ≤ m.now) :
    m.advance b id =
      (m.performAction b a).setPhase id (.acting o (nextDue b m.now todo) todo) := by
  have hid : t.id = id := id_of_task? ht
  rw [advance_of_canMove ht (by simpa only [canMove, hp, decide_eq_true_eq] using hdue)]
  simp only [stepTask, hp, hid]

/-- A task gets on to a phase by steps of its own; no line changes. -/
structure Reaches (b : Behaviour W A) (m : Machine W A) (id : TaskId) (t : Task A) (p : Phase A)
    (m' : Machine W A) : Prop where
  drives : Drives b t.feed m m'
  keeps : Keeps m m' (some id)
  line : m'.line = m.line
  task : ∃ t', m'.task? id = some t' ∧ Kept { t with phase := p } t'

theorem Reaches.here (ht : m.task? id = some t) : Reaches b m id t t.phase m :=
  ⟨.refl m, .refl m _, rfl, t, ht, .refl t⟩

def CanReach (b : Behaviour W A) (m : Machine W A) (id : TaskId) (t : Task A)
    (P : Phase A → Prop) : Prop :=
  ∃ p m', P p ∧ Reaches b m id t p m'

theorem CanReach.next {P Q : Phase A → Prop} (h : CanReach b m id t P)
    (hnext : ∀ m' t', m'.task? id = some t' → P t'.phase → CanReach b m' id t' Q) :
    CanReach b m id t Q := by
  obtain ⟨p, m', hp, hreach⟩ := h
  obtain ⟨t', ht', hkept⟩ := hreach.task
  have hphase : t'.phase = p := hkept.phase
  obtain ⟨q, m'', hq, hreach'⟩ := hnext m' t' ht' (hphase ▸ hp)
  obtain ⟨t'', ht'', hkept'⟩ := hreach'.task
  have hfeed : t'.feed = t.feed := hkept.feed
  exact ⟨q, m'', hq, hreach.drives.trans (hfeed ▸ hreach'.drives),
    hreach.keeps.trans hreach'.keeps, hreach'.line.trans hreach.line, t'', ht'',
    hkept'.feed.trans hfeed, hkept'.isLoop.trans hkept.isLoop, hkept'.phase,
    fun hc => hkept'.cancelled (hkept.cancelled hc)⟩

theorem task?_setPhase_self (ht : m.task? id = some t) (p : Phase A) :
    (m.setPhase id p).task? id = some { t with phase := p } := by
  rw [task?_setPhase, if_pos rfl, ht, Option.map_some]

theorem canReach_asking (ht : m.task? id = some t) (hp : t.phase = .waiting)
    (hturn : (m.line.get t.feed).head? = some id) :
    CanReach b m id t fun p => ∃ due, p = .asking due := by
  have hid : t.id = id := id_of_task? ht
  have hmove : m.canMove t = true := by
    simp only [canMove, hp, hasTurn_iff, hid]
    exact hturn
  have hstep : m.advance b id = m.setPhase id (.asking (m.now + b.delay t.feed m.world)) := by
    rw [advance_of_canMove ht hmove]
    simp only [stepTask, hp, hid]
  refine ⟨_, m.advance b id, ⟨_, rfl⟩, .advance ht rfl (.refl _), keeps_advance b m id, ?_,
    { t with phase := .asking (m.now + b.delay t.feed m.world) }, ?_, .refl _⟩
  · rw [hstep]
    rfl
  · rw [hstep]
    exact task?_setPhase_self ht _

theorem canReach_acting {due : Nat} (ht : m.task? id = some t) (hp : t.phase = .asking due) :
    CanReach b m id t fun p =>
      ∃ due', p = .acting (b.receive t.feed m.world).1 due' (b.receive t.feed m.world).2.1 := by
  have hid : t.id = id := id_of_task? ht
  let later := m.elapse (due - m.now)
  have hmove : later.canMove t = true := by
    simp only [canMove, hp, later, Machine.elapse, decide_eq_true_eq]
    omega
  let acting : Phase A := .acting (b.receive t.feed m.world).1
    (nextDue b later.now (b.receive t.feed m.world).2.1) (b.receive t.feed m.world).2.1
  have hstep : later.advance b id =
      (later.mapWorld fun _ => (b.receive t.feed m.world).2.2).setPhase id acting := by
    rw [advance_of_canMove (m := later) ht hmove]
    simp only [stepTask, hp, hid]
    rfl
  refine ⟨acting, later.advance b id, ⟨_, rfl⟩,
    .elapse _ (.advance (m := later) ht rfl (.refl _)), ?_, ?_, { t with phase := acting }, ?_,
    .refl _⟩
  · exact (keeps_elapse m _).trans (keeps_advance b later id)
  · rw [hstep]
    rfl
  · rw [hstep]
    exact task?_setPhase_self (m := later.mapWorld _) ht _

theorem canReach_rest {o : CycleOutcome} {due : Nat} {a : A} {todo : List A}
    (ht : m.task? id = some t) (hp : t.phase = .acting o due (a :: todo)) :
    CanReach b m id t fun p => ∃ due', p = .acting o due' todo := by
  let later := m.elapse (due - m.now)
  have hdue : due ≤ later.now := by
    simp only [later, Machine.elapse]
    omega
  let acting : Phase A := .acting o (nextDue b later.now todo) todo
  have hstep : later.advance b id = (later.performAction b a).setPhase id acting :=
    advance_of_acting (m := later) ht hp hdue
  obtain ⟨t', ht', hkept⟩ := kept_performAction (m := later) b a ht
  refine ⟨acting, later.advance b id, ⟨_, rfl⟩,
    .elapse _ (.advance (m := later) ht rfl (.refl _)), ?_, ?_, { t' with phase := acting }, ?_, ?_⟩
  · exact (keeps_elapse m _).trans (keeps_advance b later id)
  · rw [hstep]
    exact line_performAction b later a
  · rw [hstep]
    exact task?_setPhase_self ht' _
  · exact ⟨hkept.feed, hkept.isLoop, rfl, hkept.cancelled⟩

theorem canReach_suffix {o : CycleOutcome} {due : Nat} {todo rest : List A}
    (ht : m.task? id = some t) (hp : t.phase = .acting o due (todo ++ rest)) :
    CanReach b m id t fun p => ∃ due', p = .acting o due' rest := by
  induction todo generalizing m t due with
  | nil => exact ⟨_, m, ⟨due, hp⟩, .here ht⟩
  | cons a todo ih =>
    refine (canReach_rest ht hp).next fun m' t' ht' hp' => ?_
    obtain ⟨due', hp'⟩ := hp'
    exact ih ht' hp'

theorem canReach_end (ht : m.task? id = some t) (hp : t.phase.InLine)
    (hturn : (m.line.get t.feed).head? = some id) :
    CanReach b m id t fun p => ∃ o due, p = .acting o due [] := by
  have of_acting : ∀ {m : Machine W A} {t : Task A} {o due todo}, m.task? id = some t →
      t.phase = .acting o due todo →
      CanReach b m id t fun p => ∃ o due, p = .acting o due [] := by
    intro m t o due todo ht hp
    have hall : t.phase = .acting o due (todo ++ []) := by rw [hp, List.append_nil]
    obtain ⟨p, m', ⟨due', hp'⟩, hreach⟩ := canReach_suffix (b := b) ht hall
    exact ⟨p, m', ⟨o, due', hp'⟩, hreach⟩
  have of_asking : ∀ {m : Machine W A} {t : Task A} {due}, m.task? id = some t →
      t.phase = .asking due → CanReach b m id t fun p => ∃ o due, p = .acting o due [] := by
    intro m t due ht hp
    refine (canReach_acting ht hp).next fun m' t' ht' hp' => ?_
    obtain ⟨due', hp'⟩ := hp'
    exact of_acting ht' hp'
  cases hphase : t.phase with
  | waiting =>
    refine (canReach_asking ht hphase hturn).next fun m' t' ht' hp' => ?_
    obtain ⟨due, hp'⟩ := hp'
    exact of_asking ht' hp'
  | asking due => exact of_asking ht hphase
  | acting o due todo => exact of_acting ht hphase
  | queued => exact absurd hp (by simp [hphase, Phase.InLine])
  | resting due => exact absurd hp (by simp [hphase, Phase.InLine])
  | ended o => exact absurd hp (by simp [hphase, Phase.InLine])

theorem line_finish (b : Behaviour W A) (m : Machine W A) (t : Task A) (o : CycleOutcome) :
    (m.finish b t o).line.get t.feed = (m.line.get t.feed).erase t.id := by
  have hended : (m.endCycle b t o).line.get t.feed = (m.line.get t.feed).erase t.id := by
    simp [endCycle, leaveLine, PerFeed.modify]
  unfold Machine.finish
  split
  · exact hended
  · split <;> exact hended

theorem exists_left (ht : m.task? id = some t) (hp : t.phase.InLine)
    (hturn : (m.line.get t.feed).head? = some id) :
    ∃ m', Drives b t.feed m m' ∧ Keeps m m' (some id) ∧
      m'.line.get t.feed = (m.line.get t.feed).erase id := by
  obtain ⟨p, m', ⟨o, due, rfl⟩, hreach⟩ := canReach_end (b := b) ht hp hturn
  obtain ⟨t', ht', hkept⟩ := hreach.task
  have hid : t'.id = id := id_of_task? ht'
  have hphase : t'.phase = .acting o due [] := hkept.phase
  have hfeed : t'.feed = t.feed := hkept.feed
  have hstep : m'.advance b id = m'.finish b t' o := by
    rw [advance_of_canMove ht' (by simp only [canMove, hphase])]
    simp only [stepTask, hphase]
  refine ⟨m'.advance b id, hreach.drives.trans (.advance ht' hfeed (.refl _)),
    hreach.keeps.trans (keeps_advance b m' id), ?_⟩
  rw [hstep, ← hfeed, line_finish, hid, hreach.line]

theorem exists_turn (hm : Consistent b m) (ht : m.task? id = some t) (hp : t.phase = .waiting) :
    ∃ m' t', Drives b t.feed m m' ∧ m'.task? id = some t' ∧ Kept t t' ∧
      (m'.line.get t.feed).head? = some id := by
  have hin : id ∈ m.line.get t.feed := hm.task_line id t ht (by simp [hp, Phase.InLine])
  generalize hline : m.line.get t.feed = line at hin
  -- on the tasks ahead: the first of them is driven out of the line
  induction line generalizing m t with
  | nil => cases hin
  | cons k rest ih =>
    by_cases hk : id = k
    · subst hk
      exact ⟨m, t, .refl m, ht, .refl t, by rw [hline]; rfl⟩
    · obtain ⟨u, hu, hfeed, hinline⟩ := hm.line_task t.feed k (hline ▸ List.mem_cons_self)
      obtain ⟨m', hdrives, hkeeps, hleft⟩ :=
        exists_left (b := b) hu hinline (by rw [hfeed, hline]; rfl)
      rw [hfeed] at hdrives hleft
      rw [hline, List.erase_cons_head] at hleft
      obtain ⟨t', ht', hkept⟩ := hkeeps.kept id t (fun h => hk (Option.some.inj h).symm) ht
      have hrest : id ∈ rest := (List.mem_cons.mp hin).resolve_left hk
      obtain ⟨m'', t'', hdrives', ht'', hkept', hturn⟩ := ih (hdrives.consistent hm) ht'
        (hkept.phase.trans hp) (hkept.feed ▸ hleft) hrest
      rw [hkept.feed] at hdrives' hturn
      exact ⟨m'', t'', hdrives.trans hdrives', ht'', hkept.trans hkept', hturn⟩

end QuoteDesk.Machine
