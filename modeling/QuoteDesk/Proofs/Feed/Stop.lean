import QuoteDesk.Proofs.Feed.Turn
import QuoteDesk.Feed.Recorder
/-!
What goes on after a feed has been stopped. A stopped loop notices at the end of a cycle and while it
rests. One that is on the way to a request, queued or in the line, sends it first; one that rests may go
round once more; one that is in a cycle sends none, unless its rest would be over at once. Main
statement: a stop is followed by no request but that of the cycle whose turn it was, exactly if no loop
is left but one that has the turn, and rests take time.
-/
namespace QuoteDesk

variable {W A : Type}

/-- The requests that a stopped loop may still send. -/
def Phase.ahead : Phase A → Nat
  | .queued | .waiting | .resting _ => 1
  | _ => 0

def Phase.isWaiting : Phase A → Bool
  | .waiting => true
  | _ => false

theorem Phase.isWaiting_iff {p : Phase A} : p.isWaiting = true ↔ p = .waiting := by
  cases p <;> simp [Phase.isWaiting]

namespace Machine

variable {b : Behaviour W A} {m m' m'' : Machine W A} {feed : Feed} {id : TaskId} {t t' : Task A}

def sends (m : Machine W A) (id : TaskId) : Event W → Bool
  | .move (.advance k) => k == id && (m.task? id).any fun t => t.phase.isWaiting && m.hasTurn t
  | _ => false

def sent (b : Behaviour W A) (m : Machine W A) (id : TaskId) : List (Event W) → Nat
  | [] => 0
  | e :: es => (m.sends id e).toNat + sent b (m.step b e) id es

def ahead (m : Machine W A) (id : TaskId) : Nat := ((m.task? id).map (·.phase.ahead)).getD 0

/-- As long as nothing starts a feed, none of its loops sends a request but the one that has the turn
now, and that one sends only the request of its cycle. -/
def Quiet (b : Behaviour W A) (feed : Feed) (m : Machine W A) : Prop :=
  ∀ es, Unstarted b feed m es → ∀ id t e, (m.run b es).task? id = some t → t.feed = feed →
    t.isLoop = true → (m.run b es).sends id e = true → m.sends id e = true ∧ sent b m id es = 0

theorem ahead_of_task? (ht : m.task? id = some t) : m.ahead id = t.phase.ahead := by
  simp [ahead, ht]

theorem ahead_of_none (h : m.task? id = none) : m.ahead id = 0 := by
  simp [ahead, h]

theorem sends_iff {e : Event W} : m.sends id e = true ↔ e = .move (.advance id) ∧
    ∃ t, m.task? id = some t ∧ t.phase = .waiting ∧ (m.line.get t.feed).head? = some id := by
  constructor
  · intro h
    unfold sends at h
    split at h
    · next k =>
      obtain ⟨hk, hany⟩ := Bool.and_eq_true_iff.mp h
      obtain ⟨t, ht, htrue⟩ := (Option.any_eq_true _ _).mp hany
      obtain ⟨hp, hturn⟩ := Bool.and_eq_true_iff.mp htrue
      refine ⟨by rw [beq_iff_eq.mp hk], t, ht, Phase.isWaiting_iff.mp hp, ?_⟩
      rw [hasTurn_iff.mp hturn, id_of_task? ht]
    · cases h
  · rintro ⟨rfl, t, ht, hp, hturn⟩
    have hid : t.id = id := id_of_task? ht
    simp [sends, ht, hp, Phase.isWaiting, hasTurn_iff, hid, hturn]

theorem sends_eq_false_of_subject {e : Event W} (h : subject? e ≠ some id) :
    m.sends id e = false := by
  refine Bool.eq_false_iff.mpr fun hs => h ?_
  rw [(sends_iff.mp hs).1]
  rfl

theorem sends_eq_false {e : Event W}
    (h : ∀ t, m.task? id = some t → t.phase = .waiting → (m.line.get t.feed).head? ≠ some id) :
    m.sends id e = false := by
  refine Bool.eq_false_iff.mpr fun hs => ?_
  obtain ⟨-, t, ht, hp, hturn⟩ := sends_iff.mp hs
  exact h t ht hp hturn

theorem sends_eq_false_of_phase {e : Event W} (ht : m.task? id = some t) (hp : t.phase ≠ .waiting) :
    m.sends id e = false := by
  refine sends_eq_false fun u hu hw => ?_
  obtain rfl := Option.some.inj (hu.symm.trans ht)
  exact absurd hw hp

theorem sent_append (b : Behaviour W A) (m : Machine W A) (id : TaskId) (es fs : List (Event W)) :
    sent b m id (es ++ fs) = sent b m id es + sent b (m.run b es) id fs := by
  induction es generalizing m with
  | nil => exact (Nat.zero_add _).symm
  | cons e es ih =>
    have hrest := ih (m.step b e)
    simp only [List.cons_append, sent, run_cons]
    omega

/-- A task of a feed that is a stopped loop as long as it is there. -/
structure Retired (m : Machine W A) (feed : Feed) (id : TaskId) : Prop where
  used : id < m.fresh
  stopped : ∀ t, m.task? id = some t → t.feed = feed ∧ t.isLoop = true ∧ t.cancelled = true

theorem Keeps.retired {about : Option TaskId} (h : Keeps m m' about) (hid : about ≠ some id)
    (hr : Retired m feed id) : Retired m' feed id where
  used := Nat.lt_of_lt_of_le hr.used h.fresh
  stopped t' ht' := by
    cases ht : m.task? id with
    | none =>
      rw [h.gone id hid hr.used ht] at ht'
      cases ht'
    | some t =>
      obtain ⟨u, hu, hkept⟩ := h.kept id t hid ht
      obtain rfl := Option.some.inj (hu.symm.trans ht')
      obtain ⟨hfeed, hloop, hc⟩ := hr.stopped t ht
      exact ⟨hkept.feed.trans hfeed, hkept.isLoop.trans hloop, hkept.cancelled hc⟩

theorem Keeps.ahead_eq {about : Option TaskId} (h : Keeps m m' about) (hid : about ≠ some id)
    (hused : id < m.fresh) : m'.ahead id = m.ahead id := by
  cases ht : m.task? id with
  | none => rw [ahead_of_none ht, ahead_of_none (h.gone id hid hused ht)]
  | some t =>
    obtain ⟨t', ht', hkept⟩ := h.kept id t hid ht
    rw [ahead_of_task? ht, ahead_of_task? ht', hkept.phase]

theorem Retired.setPhase (hr : Retired m feed id) (ht : m.task? id = some t) (p : Phase A) :
    Retired (m.setPhase id p) feed id ∧ (m.setPhase id p).ahead id = p.ahead := by
  have hself := task?_setPhase_self ht p
  refine ⟨⟨hr.used, fun u hu => ?_⟩, ahead_of_task? hself⟩
  obtain rfl := Option.some.inj (hu.symm.trans hself)
  exact hr.stopped t ht

theorem Retired.removeTask (hr : Retired m feed id) :
    Retired (m.removeTask id) feed id ∧ (m.removeTask id).ahead id = 0 := by
  have hgone : (m.removeTask id).task? id = none := by rw [task?_removeTask, if_pos rfl]
  refine ⟨⟨hr.used, fun u hu => ?_⟩, ahead_of_none hgone⟩
  rw [hgone] at hu
  cases hu

/-- No step of a stopped loop adds a request to those it may still send, as long as rests take time. -/
theorem Retired.advances (hr : Retired m feed id) (ht : m.task? id = some t)
    (h : Advances b m id t m') : Retired m' feed id ∧ (b.interval feed ≠ 0 →
      (m.sends id (W := W) (.move (.advance id))).toNat + m'.ahead id ≤ m.ahead id) := by
  obtain ⟨rfl, hloop, hc⟩ := hr.stopped t ht
  rw [ahead_of_task? ht]
  have of_silent : ∀ {n : Nat}, t.phase ≠ .waiting → m'.ahead id = n → n ≤ t.phase.ahead →
      (m.sends id (W := W) (.move (.advance id))).toNat + m'.ahead id ≤ t.phase.ahead := by
    intro n hp ha hn
    rw [sends_eq_false_of_phase ht hp, ha]
    exact Nat.le_trans (Nat.le_of_eq (Nat.zero_add n)) hn
  cases h with
  | join hp =>
    obtain ⟨hr', ha⟩ := Retired.setPhase (m := m.joinLine t.feed id) ⟨hr.used, hr.stopped⟩ ht .waiting
    exact ⟨hr', fun _ => of_silent (by simp [hp]) ha (by rw [hp]; exact Nat.le_refl 1)⟩
  | ask hp hturn =>
    obtain ⟨hr', ha⟩ := hr.setPhase ht (.asking (m.now + b.delay t.feed m.world))
    refine ⟨hr', fun _ => ?_⟩
    rw [sends_iff.mpr ⟨rfl, t, ht, hp, hturn⟩, ha, hp]
    exact Nat.le_refl 1
  | @receive due hp hdue o todo world hreceive =>
    obtain ⟨hr', ha⟩ := Retired.setPhase (m := m.mapWorld fun _ => world) ⟨hr.used, hr.stopped⟩ ht
      (.acting o (nextDue b m.now todo) todo)
    exact ⟨hr', fun _ => of_silent (by simp [hp]) ha (Nat.zero_le _)⟩
  | @perform o due a todo hp hdue =>
    obtain ⟨u, hu, -⟩ := kept_performAction b a ht
    have hkeeps : Keeps m (m.performAction b a) none := keeps_performAction b m a
    have hother : Retired (m.performAction b a) t.feed id := hkeeps.retired nofun hr
    obtain ⟨hr', ha⟩ := hother.setPhase hu (.acting o (nextDue b m.now todo) todo)
    exact ⟨hr', fun _ => of_silent (by simp [hp]) ha (Nat.zero_le _)⟩
  | conclude hp hcall =>
    rw [hloop] at hcall
    cases hcall
  | @rest o due hp _ hstays =>
    obtain ⟨hr', -⟩ := Retired.setPhase (m := m.endCycle b t o) ⟨hr.used, hr.stopped⟩ ht
      (.resting (m.now + b.interval t.feed))
    exact ⟨hr', fun hlong => absurd (hstays hc) hlong⟩
  | @quit o due hp _ =>
    obtain ⟨hr', ha⟩ := Retired.removeTask (m := m.endCycle b t o) ⟨hr.used, hr.stopped⟩
    exact ⟨hr', fun _ => of_silent (by simp [hp]) ha (Nat.zero_le _)⟩
  | leave hp _ =>
    obtain ⟨hr', ha⟩ := hr.removeTask
    exact ⟨hr', fun _ => of_silent (by simp [hp]) ha (Nat.zero_le _)⟩
  | again hp _ =>
    obtain ⟨hr', ha⟩ := hr.setPhase ht .queued
    exact ⟨hr', fun _ => of_silent (by simp [hp]) ha (by rw [hp]; exact Nat.le_refl 1)⟩

theorem Retired.advance (hr : Retired m feed id) : Retired (m.advance b id) feed id ∧
    (b.interval feed ≠ 0 →
      (m.sends id (W := W) (.move (.advance id))).toNat + (m.advance b id).ahead id ≤ m.ahead id) := by
  cases ht : m.task? id with
  | none =>
    have hsame : m.advance b id = m := by simp only [Machine.advance, ht]
    rw [hsame, sends_eq_false (by simp [ht])]
    exact ⟨hr, fun _ => Nat.le_of_eq (Nat.zero_add _)⟩
  | some t =>
    by_cases hmove : m.canMove t = true
    · rw [advance_of_canMove ht hmove]
      exact hr.advances ht (advances_of_canMove ht hmove)
    · have hsame : m.advance b id = m := by simp [Machine.advance, ht, hmove]
      have hsends : m.sends id (W := W) (.move (.advance id)) = false := by
        refine sends_eq_false fun u hu hp hturn => hmove ?_
        obtain rfl := Option.some.inj (hu.symm.trans ht)
        simp only [canMove, hp, hasTurn_iff, id_of_task? ht]
        exact hturn
      rw [hsame, hsends]
      exact ⟨hr, fun _ => Nat.le_of_eq (Nat.zero_add _)⟩

theorem Retired.beginAgain (b : Behaviour W A) (hr : Retired m feed id) :
    Retired (m.beginAgain id) feed id ∧
      (b.interval feed ≠ 0 → (m.beginAgain id).ahead id ≤ m.ahead id) := by
  rcases advances_beginAgain b m id with hsame | ⟨t, ht, hstep⟩
  · rw [hsame]
    exact ⟨hr, fun _ => Nat.le_refl _⟩
  · obtain ⟨hr', hbound⟩ := hr.advances ht hstep
    exact ⟨hr', fun hlong => Nat.le_of_add_left_le (hbound hlong)⟩

theorem Retired.collect (hr : Retired m feed id) :
    Retired (m.collect id) feed id ∧ (m.collect id).ahead id = m.ahead id := by
  rcases collect_cases m id with hsame | ⟨t, o, ht, hended, hgone⟩
  · rw [hsame]
    exact ⟨hr, rfl⟩
  · rw [hgone]
    obtain ⟨hr', ha⟩ := hr.removeTask
    refine ⟨hr', ?_⟩
    rw [ha, ahead_of_task? ht, hended]
    rfl

theorem Retired.step (hr : Retired m feed id) (e : Event W) : Retired (m.step b e) feed id ∧
    (b.interval feed ≠ 0 → (m.sends id e).toNat + (m.step b e).ahead id ≤ m.ahead id) := by
  by_cases hid : subject? e = some id
  · cases e with
    | move v =>
      cases v with
      | advance k =>
        obtain rfl := Option.some.inj hid
        exact hr.advance
      | beginAgain k =>
        obtain rfl := Option.some.inj hid
        obtain ⟨hr', hbound⟩ := hr.beginAgain b
        exact ⟨hr', fun hlong => Nat.le_trans (Nat.le_of_eq (Nat.zero_add _)) (hbound hlong)⟩
      | elapse ms => cases hid
    | collect k =>
      obtain rfl := Option.some.inj hid
      obtain ⟨hr', ha⟩ := hr.collect
      exact ⟨hr', fun _ => Nat.le_of_eq ((Nat.zero_add _).trans ha)⟩
    | start f => cases hid
    | stop f => cases hid
    | call f => cases hid
    | work f => cases hid
  · refine ⟨(keeps_step b m e).retired hid hr, fun _ => Nat.le_of_eq ?_⟩
    rw [sends_eq_false_of_subject hid, (keeps_step b m e).ahead_eq hid hr.used]
    exact Nat.zero_add _

theorem Retired.run (hr : Retired m feed id) (es : List (Event W)) :
    Retired (m.run b es) feed id := by
  induction es generalizing m with
  | nil => exact hr
  | cons e es ih => exact ih (hr.step e).1

theorem Retired.sent_add_ahead_le (hr : Retired m feed id) (hlong : b.interval feed ≠ 0)
    (es : List (Event W)) : sent b m id es + (m.run b es).ahead id ≤ m.ahead id := by
  induction es generalizing m with
  | nil => exact Nat.le_of_eq (Nat.zero_add _)
  | cons e es ih =>
    obtain ⟨hr', hstep⟩ := hr.step (b := b) e
    have hrest := ih hr'
    have hnow := hstep hlong
    simp only [sent, run_cons]
    omega

theorem beforeRequest_step (ht : m.task? id = some t) (hp : t.phase.BeforeRequest) {e : Event W}
    (hsilent : m.sends id e = false) :
    ∃ t', (m.step b e).task? id = some t' ∧ t'.phase.BeforeRequest := by
  by_cases hid : subject? e = some id
  · cases e with
    | move v =>
      cases v with
      | advance k =>
        obtain rfl := Option.some.inj hid
        change ∃ t', (m.advance b k).task? k = some t' ∧ t'.phase.BeforeRequest
        rcases advance_cases b m k with hsame | ⟨u, hu, hstep⟩
        · exact ⟨t, by rw [hsame]; exact ht, hp⟩
        · obtain rfl := Option.some.inj (hu.symm.trans ht)
          generalize m.advance b k = m' at hstep
          cases hstep with
          | join hqueued =>
            exact ⟨_, task?_setPhase_self (m := m.joinLine u.feed k) ht .waiting, trivial⟩
          | ask hwaiting hturn =>
            rw [sends_iff.mpr ⟨rfl, u, ht, hwaiting, hturn⟩] at hsilent
            cases hsilent
          | receive h | perform h | conclude h | rest h | quit h | leave h | again h =>
            rw [h] at hp
            exact hp.elim
      | beginAgain k =>
        obtain rfl := Option.some.inj hid
        have hsame : m.beginAgain k = m :=
          beginAgain_of_task? ht fun due hresting => by simp [hresting, Phase.BeforeRequest] at hp
        exact ⟨t, (congrArg (·.task? k) hsame).trans ht, hp⟩
      | elapse ms => cases hid
    | collect k =>
      obtain rfl := Option.some.inj hid
      have hsame : m.collect k = m :=
        collect_of_task? ht fun o hended => by simp [hended, Phase.BeforeRequest] at hp
      exact ⟨t, (congrArg (·.task? k) hsame).trans ht, hp⟩
    | start f => cases hid
    | stop f => cases hid
    | call f => cases hid
    | work f => cases hid
  · obtain ⟨t', ht', hkept⟩ := (keeps_step b m e).kept id t hid ht
    exact ⟨t', ht', hkept.phase ▸ hp⟩

theorem beforeRequest_run (ht : m.task? id = some t) (hp : t.phase.BeforeRequest)
    {es : List (Event W)} (hunsent : sent b m id es = 0) :
    ∃ t', (m.run b es).task? id = some t' ∧ t'.phase.BeforeRequest := by
  induction es generalizing m t with
  | nil => exact ⟨t, ht, hp⟩
  | cons e es ih =>
    simp only [sent] at hunsent
    have hsilent : m.sends id e = false := by
      by_contra hsends
      rw [Bool.not_eq_false] at hsends
      simp [hsends] at hunsent
    obtain ⟨t', ht', hp'⟩ := beforeRequest_step (b := b) ht hp hsilent
    exact ih ht' hp' (Nat.eq_zero_of_add_eq_zero_left hunsent)

theorem Drives.exists_unstarted
    (hfree : ∀ w, ∀ a ∈ (b.receive feed w).2.1, b.restarts a ≠ some feed)
    (h : Drives b feed m m') (hm : Consistent b m) :
    ∃ es : List (Event W), Unstarted b feed m es ∧ m.run b es = m' := by
  induction h with
  | refl => exact ⟨[], trivial, rfl⟩
  | elapse ms _ ih =>
    obtain ⟨es, hes, hrun⟩ := ih (hm.elapse ms)
    exact ⟨.move (.elapse ms) :: es, ⟨id, hes⟩, hrun⟩
  | @advance k t m _ ht hfeed _ ih =>
    obtain ⟨es, hes, hrun⟩ := ih (hm.advance k)
    refine ⟨.move (.advance k) :: es, ⟨?_, hes⟩, hrun⟩
    rintro ⟨u, o, due, a, todo, hu, hp, _, ha⟩
    obtain rfl := Option.some.inj (hu.symm.trans ht)
    obtain ⟨w, hw⟩ := hm.todo_received k u o due _ ht hp a List.mem_cons_self
    exact hfree w a (hfeed ▸ hw) ha
  | @beginAgain k t m _ ht hfeed _ ih =>
    obtain ⟨es, hes, hrun⟩ := ih (hm.beginAgain k)
    exact ⟨.move (.beginAgain k) :: es, ⟨id, hes⟩, hrun⟩

def CanSend (b : Behaviour W A) (m : Machine W A) (id : TaskId) (t : Task A) : Prop :=
  ∃ m' t', Drives b t.feed m m' ∧ m'.task? id = some t' ∧ t'.feed = t.feed ∧
    t'.isLoop = t.isLoop ∧ m'.sends id (W := W) (.move (.advance id)) = true

theorem CanSend.of_drives (hdrives : Drives b t.feed m m') (hfeed : t'.feed = t.feed)
    (hloop : t'.isLoop = t.isLoop) (h : CanSend b m' id t') : CanSend b m id t := by
  obtain ⟨m'', t'', hdrives', ht'', hfeed', hloop', hsends⟩ := h
  exact ⟨m'', t'', hdrives.trans (hfeed ▸ hdrives'), ht'', hfeed'.trans hfeed, hloop'.trans hloop,
    hsends⟩

theorem canSend_of_waiting (hm : Consistent b m) (ht : m.task? id = some t)
    (hp : t.phase = .waiting) : CanSend b m id t := by
  obtain ⟨m', t', hdrives, ht', hkept, hturn⟩ := exists_turn hm ht hp
  refine ⟨m', t', hdrives, ht', hkept.feed, hkept.isLoop, sends_iff.mpr ⟨rfl, t', ht', ?_, ?_⟩⟩
  · exact hkept.phase.trans hp
  · rw [hkept.feed]
    exact hturn

theorem canSend_of_queued (hm : Consistent b m) (ht : m.task? id = some t)
    (hp : t.phase = .queued) : CanSend b m id t := by
  have hstep : m.advance b id = (m.joinLine t.feed id).setPhase id .waiting := by
    rw [advance_of_canMove ht (by simp only [canMove, hp])]
    simp only [stepTask, hp, id_of_task? ht]
  have hat : (m.advance b id).task? id = some { t with phase := .waiting } := by
    rw [hstep]
    exact task?_setPhase_self (m := m.joinLine t.feed id) ht .waiting
  exact (canSend_of_waiting (hm.advance id) hat rfl).of_drives (.advance ht rfl (.refl _)) rfl rfl

theorem canSend_of_resting (hm : Consistent b m) (ht : m.task? id = some t) {due : Nat}
    (hp : t.phase = .resting due) : CanSend b m id t := by
  let later := m.elapse (due - m.now)
  have hrested : later.isRested t = true := by
    refine isRested_iff.mpr ⟨due, hp, ?_⟩
    simp only [later, Machine.elapse]
    omega
  have hstep : later.beginAgain id = later.setPhase id .queued := by
    have ht' : later.task? id = some t := ht
    simp only [Machine.beginAgain, ht', hrested, if_true]
  have hat : (later.beginAgain id).task? id = some { t with phase := .queued } := by
    rw [hstep]
    exact task?_setPhase_self (m := later) ht .queued
  exact (canSend_of_queued ((hm.elapse _).beginAgain id) hat rfl).of_drives
    (.elapse _ (.beginAgain (m := later) ht rfl (.refl _))) rfl rfl

theorem finish_of_loop (m : Machine W A) (o : CycleOutcome) (hloop : t.isLoop = true)
    (hzero : b.interval t.feed = 0) : m.finish b t o =
      (m.endCycle b t o).setPhase t.id (.resting (m.now + b.interval t.feed)) := by
  unfold Machine.finish
  rw [if_neg (by simp [hloop]), if_neg fun h => h.2 hzero]
  rfl

theorem exists_resting (hm : Consistent b m) (ht : m.task? id = some t) (hloop : t.isLoop = true)
    (hp : t.phase.InCycle) (hzero : b.interval t.feed = 0) : ∃ m' t' due, Drives b t.feed m m' ∧
      m'.task? id = some t' ∧ t'.feed = t.feed ∧ t'.isLoop = true ∧ t'.phase = .resting due := by
  obtain ⟨p, m', ⟨o, due, rfl⟩, hreach⟩ :=
    canReach_end (b := b) ht hp.inLine (hm.cycle_first id t ht hp)
  obtain ⟨t', ht', hkept⟩ := hreach.task
  have hphase : t'.phase = .acting o due [] := hkept.phase
  have hfeed : t'.feed = t.feed := hkept.feed
  have hloop' : t'.isLoop = true := hkept.isLoop.trans hloop
  have hstep : m'.advance b id =
      (m'.endCycle b t' o).setPhase id (.resting (m'.now + b.interval t'.feed)) := by
    rw [advance_of_canMove ht' (by simp only [canMove, hphase])]
    simp only [stepTask, hphase]
    rw [finish_of_loop m' o hloop' (hfeed ▸ hzero), id_of_task? ht']
  refine ⟨m'.advance b id, { t' with phase := .resting (m'.now + b.interval t'.feed) }, _,
    hreach.drives.trans (.advance ht' hfeed (.refl _)), ?_, hfeed, hloop', rfl⟩
  rw [hstep]
  exact task?_setPhase_self (m := m'.endCycle b t' o) ht' _

/-- A loop can be driven to a request, from the middle of a cycle where rests take no time. -/
theorem canSend_of_loop (hm : Consistent b m) (ht : m.task? id = some t) (hloop : t.isLoop = true)
    (hzero : t.phase.InCycle → b.interval t.feed = 0) : CanSend b m id t := by
  have of_cycle : t.phase.InCycle → CanSend b m id t := by
    intro hp
    obtain ⟨m', t', due, hdrives, ht', hfeed, hloop', hp'⟩ :=
      exists_resting hm ht hloop hp (hzero hp)
    exact (canSend_of_resting (hdrives.consistent hm) ht' hp').of_drives hdrives hfeed
      (hloop'.trans hloop.symm)
  cases hp : t.phase with
  | queued => exact canSend_of_queued hm ht hp
  | waiting => exact canSend_of_waiting hm ht hp
  | asking due => exact of_cycle (by rw [hp]; trivial)
  | acting o due todo => exact of_cycle (by rw [hp]; trivial)
  | resting due => exact canSend_of_resting hm ht hp
  | ended o =>
    have hcall := hm.ended_call id t o ht hp
    rw [hloop] at hcall
    cases hcall

theorem retired_stop (hm : Consistent b m) (ht : (m.stop feed).task? id = some t)
    (hfeed : t.feed = feed) (hloop : t.isLoop = true) : Retired (m.stop feed) feed id where
  used := (hm.stop feed).fresh id t ht
  stopped u hu := by
    obtain rfl := Option.some.inj (hu.symm.trans ht)
    refine ⟨hfeed, hloop, ?_⟩
    by_contra hc
    have hlive := (hm.stop feed).loop_live id u ht hloop (Bool.eq_false_iff.mpr hc)
    rw [hfeed, live_stop, if_pos rfl] at hlive
    cases hlive

/-- A loop that is not in the middle of a cycle breaks the quiet, and so does every one where rests take
no time. -/
theorem Quiet.turn (hfree : ∀ w, ∀ a ∈ (b.receive feed w).2.1, b.restarts a ≠ some feed)
    (hm : Consistent b m) (hquiet : Quiet b feed m) (ht : m.task? id = some t)
    (hfeed : t.feed = feed) (hloop : t.isLoop = true) :
    (m.line.get feed).head? = some id ∧ b.interval feed ≠ 0 := by
  subst hfeed
  by_cases hsends : m.sends id (W := W) (.move (.advance id)) = true
  · obtain ⟨-, u, hu, hwaiting, hturn⟩ := sends_iff.mp hsends
    obtain rfl := Option.some.inj (hu.symm.trans ht)
    refine ⟨hturn, fun hzero => ?_⟩
    obtain ⟨p, m', ⟨due, rfl⟩, hreach⟩ := canReach_asking (b := b) ht hwaiting hturn
    obtain ⟨t', ht', hkept⟩ := hreach.task
    have hfeed : t'.feed = u.feed := hkept.feed
    have hasking : t'.phase = .asking due := hkept.phase
    have hm' := hreach.drives.consistent hm
    obtain ⟨m'', t'', hdrives, ht'', hfeed', hloop', hagain⟩ :=
      canSend_of_loop hm' ht' (hkept.isLoop.trans hloop) fun _ => hfeed ▸ hzero
    obtain ⟨es, hes, hrun⟩ := hreach.drives.exists_unstarted hfree hm
    obtain ⟨fs, hfs, hrun'⟩ := (hfeed ▸ hdrives).exists_unstarted hfree hm'
    subst hrun
    subst hrun'
    rw [← run_append] at ht'' hagain
    obtain ⟨-, hunsent⟩ := hquiet _ (hes.append hfs) id t'' _ ht'' (hfeed'.trans hfeed)
      (hloop'.trans (hkept.isLoop.trans hloop)) hagain
    rw [sent_append] at hunsent
    obtain ⟨v, hv, hbefore⟩ := beforeRequest_run (b := b) ht (by rw [hwaiting]; trivial)
      (Nat.eq_zero_of_add_eq_zero_right hunsent)
    obtain rfl := Option.some.inj (hv.symm.trans ht')
    rw [hasking] at hbefore
    exact hbefore
  · by_contra hnot
    have hzero : t.phase.InCycle → b.interval t.feed = 0 := by
      intro hp
      by_contra hlong
      exact hnot ⟨hm.cycle_first id t ht hp, hlong⟩
    obtain ⟨m', t', hdrives, ht', hfeed', hloop', hsent⟩ := canSend_of_loop hm ht hloop hzero
    obtain ⟨es, hes, hrun⟩ := hdrives.exists_unstarted hfree hm
    subst hrun
    exact hsends (hquiet es hes id t' _ ht' hfeed' (hloop'.trans hloop) hsent).1

theorem quiet_of_turn (hm : Consistent b m) (h : ∀ id t, (m.stop feed).task? id = some t →
      t.feed = feed → t.isLoop = true →
      ((m.stop feed).line.get feed).head? = some id ∧ b.interval feed ≠ 0) :
    Quiet b feed (m.stop feed) := by
  intro es hes id t e ht hfeed hloop hsends
  obtain ⟨t₀, ht₀, hfeed₀, hsame⟩ := hes.inherits.task id t ht hfeed (by rw [hloop]; rfl)
  have hloop₀ : t₀.isLoop = true := hsame.trans hloop
  obtain ⟨hturn, hlong⟩ := h id t₀ ht₀ hfeed₀ hloop₀
  have hbound := (retired_stop hm ht₀ hfeed₀ hloop₀).sent_add_ahead_le hlong (es ++ [e])
  rw [sent_append, ahead_of_task? ht₀] at hbound
  simp only [sent, hsends, Bool.toNat_true] at hbound
  obtain ⟨u, hu, -, hin⟩ := (hm.stop feed).line_task feed id (List.mem_of_mem_head? hturn)
  obtain rfl := Option.some.inj (hu.symm.trans ht₀)
  cases hp : u.phase with
  | waiting =>
    rw [hp] at hbound
    change sent b (m.stop feed) id es + (1 + 0) + _ ≤ 1 at hbound
    have he := (sends_iff.mp hsends).1
    refine ⟨sends_iff.mpr ⟨he, u, ht₀, hp, ?_⟩, by omega⟩
    rw [hfeed₀]
    exact hturn
  | queued | resting due | ended o =>
    rw [hp] at hin
    exact hin.elim
  | asking due | acting o due todo =>
    rw [hp] at hbound
    change sent b (m.stop feed) id es + (1 + 0) + _ ≤ 0 at hbound
    omega

/-- After a stop a feed is quiet, the cycle that has the turn apart, exactly if no loop is left but one
that has the turn, and rests take time. Where they do, a loop that was in the middle of a cycle sends no
request, and every other one sends one at most; one that was on the way to a request sends it, unless it
is still on the way. No other loop comes up before the next start. -/
theorem quiet_stop_iff (b : Behaviour W A) (feed : Feed)
    (hfree : ∀ w, ∀ a ∈ (b.receive feed w).2.1, b.restarts a ≠ some feed) (world : W)
    (before : List (Event W)) :
    let m := ((Machine.initial world).run b before).stop feed
    (Quiet b feed m ↔ ∀ id t, m.task? id = some t → t.feed = feed → t.isLoop = true →
      (m.line.get feed).head? = some id ∧ b.interval feed ≠ 0) ∧
    (∀ id t, m.task? id = some t → t.feed = feed → t.isLoop = true → ∀ es,
      (b.interval feed ≠ 0 → sent b m id es ≤ t.phase.ahead) ∧
      (t.phase.BeforeRequest → sent b m id es = 0 →
        ∃ t', (m.run b es).task? id = some t' ∧ t'.phase.BeforeRequest)) ∧
    ∀ es, Unstarted b feed m es → Inherits feed false m (m.run b es) := by
  intro m
  have hbefore := run_consistent b world before
  have hm : Consistent b m := hbefore.stop feed
  refine ⟨⟨?_, quiet_of_turn hbefore⟩, ?_, fun es hes => hes.inherits⟩
  · intro hquiet id t ht hfeed hloop
    exact hquiet.turn hfree hm ht hfeed hloop
  · intro id t ht hfeed hloop es
    refine ⟨fun hlong => ?_, fun hp hunsent => beforeRequest_run ht hp hunsent⟩
    rw [← ahead_of_task? ht]
    exact Nat.le_of_add_right_le
      ((retired_stop hbefore ht hfeed hloop).sent_add_ahead_le hlong es)

/-- A loop that is stopped in the middle of a cycle sends no other request: start, ask, stop. -/
theorem quiet_stop_in_cycle :
    let b := Recorder.behaviour "" 100 0
    let m := (Machine.initial Recorder.initial).run b
      [.start .blacklist, .move (.advance 0), .move (.advance 0)]
    (∀ w, ∀ a ∈ (b.receive .blacklist w).2.1, b.restarts a ≠ some .blacklist) ∧
      (m.task? 0).map (·.phase) = some (.asking 0) ∧ Quiet b .blacklist (m.stop .blacklist) := by
  intro b m
  have hfree : ∀ w, ∀ a ∈ (b.receive .blacklist w).2.1, b.restarts a ≠ some .blacklist :=
    fun _ _ _ => nofun
  refine ⟨hfree, rfl, (quiet_stop_iff b .blacklist hfree Recorder.initial _).1.mpr ?_⟩
  intro id t ht _ _
  have htasks : (m.stop .blacklist).tasks = [⟨0, .blacklist, true, true, .asking 0⟩] := rfl
  have hmem : t ∈ (m.stop .blacklist).tasks := List.mem_of_find?_eq_some ht
  rw [htasks, List.mem_singleton] at hmem
  obtain rfl : (0 : TaskId) = id := by
    rw [← id_of_task? ht, hmem]
  exact ⟨rfl, nofun⟩

/-- Start and stop at once: the loop still sends a request. -/
theorem not_quiet_stop_at_start :
    ¬ Quiet (Recorder.behaviour "" 100 0) .blacklist
      (((Machine.initial Recorder.initial).run (Recorder.behaviour "" 100 0)
        [.start .blacklist]).stop .blacklist) := by
  intro hquiet
  have hjoin : Unstarted (Recorder.behaviour "" 100 0) .blacklist
      (((Machine.initial Recorder.initial).run (Recorder.behaviour "" 100 0)
        [.start .blacklist]).stop .blacklist) [.move (.advance 0)] := by
    refine ⟨?_, trivial⟩
    rintro ⟨t, o, due, a, todo, -, -, -, ha⟩
    cases ha
  have hnow := hquiet _ hjoin 0 ⟨0, .blacklist, true, true, .waiting⟩ (.move (.advance 0))
    rfl rfl rfl rfl
  cases hnow.1

end Machine
end QuoteDesk
