import QuoteDesk.Feed.Machine
import Mathlib.Data.List.Basic
/-!
Runs of the machine, every order of steps allowed.

An event is a step of a task, one way or the other where there are two, the passing of time, or
something that the owner of the machine does: starting and stopping feeds, calling for a cycle, taking
the outcome of a call, working on the state. Nothing is assumed about who moves when. Main statement:
how tasks, lines and live loops fit together after every run.
-/
namespace QuoteDesk

variable {W A : Type}

namespace Phase

def InLine : Phase A → Prop
  | .waiting | .asking _ | .acting _ _ _ => True
  | _ => False

def InCycle : Phase A → Prop
  | .asking _ | .acting _ _ _ => True
  | _ => False

def BeforeRequest : Phase A → Prop
  | .queued | .waiting => True
  | _ => False

theorem InCycle.inLine {p : Phase A} (h : p.InCycle) : p.InLine := by
  cases p with
  | asking due => trivial
  | acting outcome due todo => trivial
  | _ => exact h.elim

end Phase

namespace Machine

inductive Move where
  | advance (id : TaskId)
  | beginAgain (id : TaskId)
  | elapse (ms : Nat)

inductive Event (W : Type) where
  | move (v : Move)
  | start (feed : Feed)
  | stop (feed : Feed)
  | call (feed : Feed)
  | collect (id : TaskId)
  | work (f : W → W)

def Event.asks : Event W → Bool
  | .start _ | .call _ => true
  | _ => false

def move (b : Behaviour W A) (m : Machine W A) : Move → Machine W A
  | .advance id => m.advance b id
  | .beginAgain id => m.beginAgain id
  | .elapse ms => m.elapse ms

def collect (m : Machine W A) (id : TaskId) : Machine W A :=
  match m.task? id with
  | some ⟨_, _, _, _, .ended _⟩ => m.removeTask id
  | _ => m

def step (b : Behaviour W A) (m : Machine W A) : Event W → Machine W A
  | .move v => m.move b v
  | .start feed => m.start feed
  | .stop feed => m.stop feed
  | .call feed => m.spawn feed false
  | .collect id => m.collect id
  | .work f => m.mapWorld f

def run (b : Behaviour W A) (m : Machine W A) (es : List (Event W)) : Machine W A :=
  es.foldl (step b) m

@[simp] theorem run_nil (b : Behaviour W A) (m : Machine W A) : m.run b [] = m := rfl

@[simp] theorem run_cons (b : Behaviour W A) (m : Machine W A) (e : Event W) (es : List (Event W)) :
    m.run b (e :: es) = (m.step b e).run b es := rfl

@[simp] theorem run_append (b : Behaviour W A) (m : Machine W A) (es fs : List (Event W)) :
    m.run b (es ++ fs) = (m.run b es).run b fs := List.foldl_append

theorem id_of_task? {m : Machine W A} {id : TaskId} {t : Task A} (h : m.task? id = some t) :
    t.id = id := by
  simpa using List.find?_some h

theorem task?_modifyTask (m : Machine W A) (id k : TaskId) (f : Task A → Task A)
    (hf : ∀ t, (f t).id = t.id) :
    (m.modifyTask id f).task? k = if k = id then (m.task? k).map f else m.task? k := by
  have hp : ((fun t : Task A => t.id == k) ∘ fun t => if t.id = id then f t else t) =
      fun t => t.id == k := by
    funext t
    by_cases ht : t.id = id <;> simp [ht, hf]
  simp only [task?, modifyTask, List.find?_map, hp]
  cases hm : m.tasks.find? (·.id == k) with
  | none => simp
  | some t =>
    have ht : t.id = k := by simpa using List.find?_some hm
    by_cases hk : k = id <;> simp [ht, hk]

theorem task?_setPhase (m : Machine W A) (id k : TaskId) (p : Phase A) :
    (m.setPhase id p).task? k =
      if k = id then (m.task? k).map ({ · with phase := p }) else m.task? k :=
  task?_modifyTask m id k _ fun _ => rfl

theorem task?_removeTask (m : Machine W A) (id k : TaskId) :
    (m.removeTask id).task? k = if k = id then none else m.task? k := by
  simp only [task?, removeTask, List.find?_filter]
  by_cases hk : k = id
  · simp only [hk, if_true, List.find?_eq_none]
    intro t _ ht
    simp at ht
  · simp only [hk, if_false]
    congr 1
    funext t
    by_cases ht : t.id = k <;> simp [ht, hk]

theorem removeTask_setPhase (m : Machine W A) (id : TaskId) (p : Phase A) :
    (m.setPhase id p).removeTask id = m.removeTask id := by
  simp only [setPhase, modifyTask, removeTask]
  congr 1
  induction m.tasks with
  | nil => rfl
  | cons t tasks ih =>
    rw [List.map_cons]
    by_cases ht : t.id = id
    · rw [if_pos ht, List.filter_cons_of_neg (by simpa using ht),
        List.filter_cons_of_neg (by simpa using ht), ih]
    · rw [if_neg ht, List.filter_cons_of_pos (by simpa using ht),
        List.filter_cons_of_pos (by simpa using ht), ih]

theorem task?_spawn (m : Machine W A) (feed : Feed) (isLoop : Bool) (k : TaskId) :
    (m.spawn feed isLoop).task? k =
      (m.task? k).or (if k = m.fresh then some ⟨m.fresh, feed, isLoop, false, .queued⟩ else none) := by
  simp only [task?, spawn, List.find?_append]
  congr 1
  by_cases hk : k = m.fresh
  · simp [hk]
  · have : m.fresh ≠ k := fun h => hk h.symm
    simp [hk, this]

/-- How tasks, lines and live loops fit together. A feed has one live loop at most, and every other
loop is cancelled; a line holds the tasks of its feed that wait or are in a cycle, each once; only the
first of them is in a cycle; what a task still has to do was received for its feed. -/
structure Consistent (b : Behaviour W A) (m : Machine W A) : Prop where
  fresh : ∀ id t, m.task? id = some t → id < m.fresh
  live_loop : ∀ feed id, m.live.get feed = some id →
    ∃ t, m.task? id = some t ∧ t.feed = feed ∧ t.isLoop = true ∧ t.cancelled = false
  loop_live : ∀ id t, m.task? id = some t → t.isLoop = true → t.cancelled = false →
    m.live.get t.feed = some id
  resting_loop : ∀ id t due, m.task? id = some t → t.phase = .resting due → t.isLoop = true
  ended_call : ∀ id t o, m.task? id = some t → t.phase = .ended o → t.isLoop = false
  line_nodup : ∀ feed, (m.line.get feed).Nodup
  line_task : ∀ feed id, id ∈ m.line.get feed →
    ∃ t, m.task? id = some t ∧ t.feed = feed ∧ t.phase.InLine
  task_line : ∀ id t, m.task? id = some t → t.phase.InLine → id ∈ m.line.get t.feed
  cycle_first : ∀ id t, m.task? id = some t → t.phase.InCycle →
    (m.line.get t.feed).head? = some id
  todo_received : ∀ id t o due todo, m.task? id = some t → t.phase = .acting o due todo →
    ∀ a ∈ todo, ∃ w, a ∈ (b.receive t.feed w).2.1

variable {b : Behaviour W A} {m : Machine W A}

theorem Consistent.initial (world : W) : Consistent b (Machine.initial world) := by
  constructor <;> simp [Machine.initial, task?]

theorem Consistent.mapWorld (h : Consistent b m) (f : W → W) : Consistent b (m.mapWorld f) :=
  ⟨h.fresh, h.live_loop, h.loop_live, h.resting_loop, h.ended_call, h.line_nodup, h.line_task,
    h.task_line, h.cycle_first, h.todo_received⟩

theorem Consistent.elapse (h : Consistent b m) (ms : Nat) : Consistent b (m.elapse ms) :=
  ⟨h.fresh, h.live_loop, h.loop_live, h.resting_loop, h.ended_call, h.line_nodup, h.line_task,
    h.task_line, h.cycle_first, h.todo_received⟩

/-- A task may change its phase together with the line of its feed, as long as the line holds it
exactly in the phases that belong there and treats the others as before. -/
theorem Consistent.rephase (h : Consistent b m) {id : TaskId} {t : Task A} {p : Phase A}
    {line : List TaskId} (ht : m.task? id = some t) (hnodup : line.Nodup)
    (hself : id ∈ line ↔ p.InLine) (hothers : ∀ k, k ≠ id → (k ∈ line ↔ k ∈ m.line.get t.feed))
    (hcycle : p.InCycle → line.head? = some id)
    (hfirst : ∀ k, k ≠ id → (m.line.get t.feed).head? = some k → line.head? = some k)
    (hrest : ∀ due, p = .resting due → t.isLoop = true)
    (hend : ∀ o, p = .ended o → t.isLoop = false)
    (htodo : ∀ o due todo, p = .acting o due todo →
      ∀ a ∈ todo, ∃ w, a ∈ (b.receive t.feed w).2.1) :
    Consistent b ({ m with line := m.line.set line t.feed }.setPhase id p) := by
  let m' : Machine W A := { m with line := m.line.set line t.feed }.setPhase id p
  change Consistent b m'
  have hat : m'.task? id = some { t with phase := p } := by
    simp only [m', task?_setPhase, if_true]
    exact congrArg _ ht
  have helse : ∀ k, k ≠ id → m'.task? k = m.task? k := by
    intro k hk
    simp only [m', task?_setPhase, hk, if_false]
    rfl
  have hline : ∀ feed, m'.line.get feed = if t.feed = feed then line else m.line.get feed :=
    fun feed => PerFeed.get_set _ _ _ _
  have cases_of : ∀ k u, m'.task? k = some u →
      (k = id ∧ u = { t with phase := p }) ∨ (k ≠ id ∧ m.task? k = some u) := by
    intro k u hu
    by_cases hk : k = id
    · subst hk
      exact .inl ⟨rfl, Option.some.inj (hu.symm.trans hat)⟩
    · exact .inr ⟨hk, helse k hk ▸ hu⟩
  constructor
  · intro k u hu
    rcases cases_of k u hu with ⟨rfl, rfl⟩ | ⟨_, hu⟩
    · exact h.fresh _ t ht
    · exact h.fresh k u hu
  · intro feed k hk
    obtain ⟨u, hu, hfeed, hloop, hcancelled⟩ := h.live_loop feed k hk
    by_cases hkid : k = id
    · subst hkid
      obtain rfl := Option.some.inj (hu.symm.trans ht)
      exact ⟨_, hat, hfeed, hloop, hcancelled⟩
    · exact ⟨u, (helse k hkid).trans hu, hfeed, hloop, hcancelled⟩
  · intro k u hu hloop hcancelled
    rcases cases_of k u hu with ⟨rfl, rfl⟩ | ⟨_, hu⟩
    · exact h.loop_live _ t ht hloop hcancelled
    · exact h.loop_live k u hu hloop hcancelled
  · intro k u due hu hphase
    rcases cases_of k u hu with ⟨rfl, rfl⟩ | ⟨_, hu⟩
    · exact hrest due hphase
    · exact h.resting_loop k u due hu hphase
  · intro k u o hu hphase
    rcases cases_of k u hu with ⟨rfl, rfl⟩ | ⟨_, hu⟩
    · exact hend o hphase
    · exact h.ended_call k u o hu hphase
  · intro feed
    rw [hline]
    split
    · exact hnodup
    · exact h.line_nodup feed
  · intro feed k hk
    rw [hline] at hk
    by_cases hkid : k = id
    · subst hkid
      by_cases hfeed : t.feed = feed
      · rw [if_pos hfeed] at hk
        exact ⟨_, hat, hfeed, hself.mp hk⟩
      · rw [if_neg hfeed] at hk
        obtain ⟨u, hu, hufeed, _⟩ := h.line_task feed k hk
        obtain rfl := Option.some.inj (hu.symm.trans ht)
        exact absurd hufeed hfeed
    · have hk' : k ∈ m.line.get feed := by
        split at hk
        · next hfeed => exact hfeed ▸ (hothers k hkid).mp hk
        · exact hk
      obtain ⟨u, hu, hu'⟩ := h.line_task feed k hk'
      exact ⟨u, (helse k hkid).trans hu, hu'⟩
  · intro k u hu hin
    rw [hline]
    rcases cases_of k u hu with ⟨rfl, rfl⟩ | ⟨hkid, hu⟩
    · rw [if_pos rfl]
      exact hself.mpr hin
    · have hk := h.task_line k u hu hin
      split
      · next hfeed => exact (hothers k hkid).mpr (hfeed ▸ hk)
      · exact hk
  · intro k u hu hin
    rw [hline]
    rcases cases_of k u hu with ⟨rfl, rfl⟩ | ⟨hkid, hu⟩
    · rw [if_pos rfl]
      exact hcycle hin
    · have hk := h.cycle_first k u hu hin
      split
      · next hfeed => exact hfirst k hkid (hfeed ▸ hk)
      · exact hk
  · intro k u o due todo hu hphase
    rcases cases_of k u hu with ⟨rfl, rfl⟩ | ⟨_, hu⟩
    · exact htodo o due todo hphase
    · exact h.todo_received k u o due todo hu hphase

theorem Consistent.setPhase (h : Consistent b m) {id : TaskId} {t : Task A} {p : Phase A}
    (ht : m.task? id = some t) (hline : p.InLine ↔ t.phase.InLine)
    (hcycle : p.InCycle → (m.line.get t.feed).head? = some id)
    (hrest : ∀ due, p = .resting due → t.isLoop = true)
    (hend : ∀ o, p = .ended o → t.isLoop = false)
    (htodo : ∀ o due todo, p = .acting o due todo →
      ∀ a ∈ todo, ∃ w, a ∈ (b.receive t.feed w).2.1) :
    Consistent b (m.setPhase id p) := by
  have hmem : id ∈ m.line.get t.feed ↔ p.InLine := by
    rw [hline]
    constructor
    · intro hid
      obtain ⟨u, hu, _, hin⟩ := h.line_task _ _ hid
      obtain rfl := Option.some.inj (hu.symm.trans ht)
      exact hin
    · exact h.task_line id t ht
  have hm : { m with line := m.line.set (m.line.get t.feed) t.feed } = m := by
    rw [PerFeed.set_get]
  have := h.rephase ht (h.line_nodup _) hmem (fun _ _ => Iff.rfl) hcycle (fun _ _ hk => hk)
    hrest hend htodo
  rwa [hm] at this

theorem Consistent.removeTask (h : Consistent b m) {id : TaskId} {t : Task A}
    (ht : m.task? id = some t) (hline : ¬ t.phase.InLine)
    (hdead : t.isLoop = true → t.cancelled = true) : Consistent b (m.removeTask id) := by
  have cases_of : ∀ k u, (m.removeTask id).task? k = some u → k ≠ id ∧ m.task? k = some u := by
    intro k u hu
    rw [task?_removeTask] at hu
    split at hu
    · cases hu
    · next hk => exact ⟨hk, hu⟩
  have helse : ∀ k, k ≠ id → (m.removeTask id).task? k = m.task? k := by
    intro k hk
    rw [task?_removeTask, if_neg hk]
  constructor
  · exact fun k u hu => h.fresh k u (cases_of k u hu).2
  · intro feed k hk
    obtain ⟨u, hu, hfeed, hloop, hcancelled⟩ := h.live_loop feed k hk
    have hkid : k ≠ id := by
      rintro rfl
      obtain rfl := Option.some.inj (hu.symm.trans ht)
      simp [hdead hloop] at hcancelled
    exact ⟨u, (helse k hkid).trans hu, hfeed, hloop, hcancelled⟩
  · exact fun k u hu => h.loop_live k u (cases_of k u hu).2
  · exact fun k u due hu => h.resting_loop k u due (cases_of k u hu).2
  · exact fun k u o hu => h.ended_call k u o (cases_of k u hu).2
  · exact h.line_nodup
  · intro feed k hk
    obtain ⟨u, hu, hfeed, hin⟩ := h.line_task feed k hk
    have hkid : k ≠ id := by
      rintro rfl
      obtain rfl := Option.some.inj (hu.symm.trans ht)
      exact hline hin
    exact ⟨u, (helse k hkid).trans hu, hfeed, hin⟩
  · exact fun k u hu => h.task_line k u (cases_of k u hu).2
  · exact fun k u hu => h.cycle_first k u (cases_of k u hu).2
  · exact fun k u o due todo hu => h.todo_received k u o due todo (cases_of k u hu).2

theorem task?_spawn_cases {feed : Feed} {isLoop : Bool} {k : TaskId} {u : Task A}
    (hu : (m.spawn feed isLoop).task? k = some u) :
    m.task? k = some u ∨ k = m.fresh ∧ u = ⟨m.fresh, feed, isLoop, false, .queued⟩ := by
  rw [task?_spawn] at hu
  cases hk : m.task? k with
  | some v => exact .inl (by simpa [hk] using hu)
  | none =>
    rw [hk, Option.none_or] at hu
    split at hu
    · next hkf => exact .inr ⟨hkf, (Option.some.inj hu).symm⟩
    · cases hu

theorem task?_spawn_of_some {feed : Feed} {isLoop : Bool} {k : TaskId} {u : Task A}
    (hu : m.task? k = some u) : (m.spawn feed isLoop).task? k = some u := by
  rw [task?_spawn, hu, Option.some_or]

theorem Consistent.task?_fresh (h : Consistent b m) : m.task? m.fresh = none := by
  cases hm : m.task? m.fresh with
  | none => rfl
  | some t => exact absurd (h.fresh _ t hm) (Nat.lt_irrefl _)

theorem Consistent.task?_spawned (h : Consistent b m) (feed : Feed) (isLoop : Bool) :
    (m.spawn feed isLoop).task? m.fresh = some ⟨m.fresh, feed, isLoop, false, .queued⟩ := by
  rw [task?_spawn, h.task?_fresh, Option.none_or, if_pos rfl]

theorem Consistent.spawn (h : Consistent b m) {feed : Feed} {isLoop : Bool}
    {live : PerFeed (Option TaskId)}
    (hlive : live = if isLoop then m.live.set (some m.fresh) feed else m.live)
    (hfree : isLoop = true → m.live.get feed = none) :
    Consistent b { m.spawn feed isLoop with live := live } := by
  let m' : Machine W A := { m.spawn feed isLoop with live := live }
  change Consistent b m'
  have hget : ∀ k, m'.task? k = (m.spawn feed isLoop).task? k := fun _ => rfl
  have hline : m'.line = m.line := rfl
  have cases_of : ∀ k u, m'.task? k = some u →
      m.task? k = some u ∨ k = m.fresh ∧ u = ⟨m.fresh, feed, isLoop, false, .queued⟩ :=
    fun k u hu => task?_spawn_cases hu
  constructor
  · intro k u hu
    change k < m.fresh + 1
    rcases cases_of k u hu with hu | ⟨rfl, _⟩
    · exact Nat.lt_succ_of_lt (h.fresh k u hu)
    · exact Nat.lt_succ_self _
  · intro f k hk
    have hold : m.live.get f = some k → ∃ t, m'.task? k = some t ∧ t.feed = f ∧
        t.isLoop = true ∧ t.cancelled = false := by
      intro hk
      obtain ⟨u, hu, hu'⟩ := h.live_loop f k hk
      exact ⟨u, task?_spawn_of_some hu, hu'⟩
    change live.get f = some k at hk
    rw [hlive] at hk
    cases isLoop with
    | false => exact hold hk
    | true =>
      rw [if_pos rfl, PerFeed.get_set] at hk
      split at hk
      · next hf =>
        obtain rfl := Option.some.inj hk
        exact ⟨_, h.task?_spawned feed true, hf, rfl, rfl⟩
      · exact hold hk
  · intro k u hu hloop hcancelled
    change live.get u.feed = some k
    rw [hlive]
    rcases cases_of k u hu with hu | ⟨rfl, rfl⟩
    · have hk := h.loop_live k u hu hloop hcancelled
      cases isLoop with
      | false => exact hk
      | true =>
        rw [if_pos rfl, PerFeed.get_set]
        split
        · next hf => rw [← hf, hfree rfl] at hk; cases hk
        · exact hk
    · change isLoop = true at hloop
      subst hloop
      simp
  · intro k u due hu hphase
    rcases cases_of k u hu with hu | ⟨_, rfl⟩
    · exact h.resting_loop k u due hu hphase
    · cases hphase
  · intro k u o hu hphase
    rcases cases_of k u hu with hu | ⟨_, rfl⟩
    · exact h.ended_call k u o hu hphase
    · cases hphase
  · exact h.line_nodup
  · intro f k hk
    obtain ⟨u, hu, hu'⟩ := h.line_task f k hk
    exact ⟨u, task?_spawn_of_some hu, hu'⟩
  · intro k u hu hin
    rcases cases_of k u hu with hu | ⟨_, rfl⟩
    · exact h.task_line k u hu hin
    · exact hin.elim
  · intro k u hu hin
    rcases cases_of k u hu with hu | ⟨_, rfl⟩
    · exact h.cycle_first k u hu hin
    · exact hin.elim
  · intro k u o due todo hu hphase
    rcases cases_of k u hu with hu | ⟨_, rfl⟩
    · exact h.todo_received k u o due todo hu hphase
    · cases hphase

theorem Consistent.start (h : Consistent b m) (feed : Feed) : Consistent b (m.start feed) := by
  unfold Machine.start
  split
  · exact h
  · next hoff =>
    have hnone : m.live.get feed = none := by simpa [isPolling] using hoff
    exact h.spawn rfl fun _ => hnone

theorem Consistent.call (h : Consistent b m) (feed : Feed) : Consistent b (m.spawn feed false) := by
  have hlive : m.live = if false then m.live.set (some m.fresh) feed else m.live := rfl
  exact h.spawn hlive nofun

def stoppedTask (m : Machine W A) (feed : Feed) (t : Task A) : Task A :=
  { t with cancelled := t.cancelled || m.live.get feed == some t.id }

theorem task?_stop (m : Machine W A) (feed : Feed) (k : TaskId) :
    (m.stop feed).task? k = (m.task? k).map (m.stoppedTask feed) := by
  unfold Machine.stop
  cases hl : m.live.get feed with
  | none =>
    change m.task? k = _
    cases ht : m.task? k with
    | none => rfl
    | some t => simp [stoppedTask, hl]
  | some id =>
    change (m.modifyTask id ({ · with cancelled := true })).task? k = _
    rw [task?_modifyTask m id k ({ · with cancelled := true }) fun _ => rfl]
    cases ht : m.task? k with
    | none => simp
    | some t =>
      obtain rfl := id_of_task? ht
      by_cases hk : id = t.id
      · simp [stoppedTask, hl, hk]
      · have hk' : ¬ t.id = id := fun h => hk h.symm
        simp [stoppedTask, hl, hk', beq_false_of_ne hk]

theorem live_stop (m : Machine W A) (feed f : Feed) :
    (m.stop feed).live.get f = if feed = f then none else m.live.get f := by
  unfold Machine.stop
  cases hl : m.live.get feed with
  | none =>
    by_cases hf : feed = f
    · simp [← hf, hl]
    · simp [hf]
  | some id => simp

@[simp] theorem line_stop (m : Machine W A) (feed : Feed) : (m.stop feed).line = m.line := by
  unfold Machine.stop
  split <;> rfl

@[simp] theorem fresh_stop (m : Machine W A) (feed : Feed) : (m.stop feed).fresh = m.fresh := by
  unfold Machine.stop
  split <;> rfl

theorem Consistent.stop (h : Consistent b m) (feed : Feed) : Consistent b (m.stop feed) := by
  have cases_of : ∀ k u, (m.stop feed).task? k = some u →
      ∃ t, m.task? k = some t ∧ u = m.stoppedTask feed t := by
    intro k u hu
    rw [task?_stop] at hu
    obtain ⟨t, ht, hu⟩ := Option.map_eq_some_iff.mp hu
    exact ⟨t, ht, hu.symm⟩
  have hat : ∀ k t, m.task? k = some t →
      (m.stop feed).task? k = some (m.stoppedTask feed t) := by
    intro k t ht
    rw [task?_stop, ht, Option.map_some]
  constructor
  · intro k u hu
    obtain ⟨t, ht, rfl⟩ := cases_of k u hu
    rw [fresh_stop]
    exact h.fresh k t ht
  · intro f k hk
    rw [live_stop] at hk
    split at hk
    · cases hk
    · next hf =>
      obtain ⟨t, ht, hfeed, hloop, hcancelled⟩ := h.live_loop f k hk
      refine ⟨_, hat k t ht, hfeed, hloop, ?_⟩
      have hlive : m.live.get feed ≠ some t.id := by
        intro hl
        obtain ⟨u, hu, hufeed, _⟩ := h.live_loop feed _ hl
        rw [id_of_task? ht] at hu
        obtain rfl := Option.some.inj (hu.symm.trans ht)
        exact hf (hufeed.symm.trans hfeed)
      simp [stoppedTask, hcancelled, hlive]
  · intro k u hu hloop hcancelled
    obtain ⟨t, ht, rfl⟩ := cases_of k u hu
    have hparts : t.cancelled = false ∧ m.live.get feed ≠ some t.id := by
      simpa [stoppedTask] using hcancelled
    have hk := h.loop_live k t ht hloop hparts.1
    change (m.stop feed).live.get t.feed = some k
    rw [live_stop]
    split
    · next hf =>
      rw [id_of_task? ht] at hparts
      exact absurd (hf ▸ hk) hparts.2
    · exact hk
  · intro k u due hu hphase
    obtain ⟨t, ht, rfl⟩ := cases_of k u hu
    exact h.resting_loop k t due ht hphase
  · intro k u o hu hphase
    obtain ⟨t, ht, rfl⟩ := cases_of k u hu
    exact h.ended_call k t o ht hphase
  · rw [line_stop]
    exact h.line_nodup
  · intro f k hk
    rw [line_stop] at hk
    obtain ⟨t, ht, ht'⟩ := h.line_task f k hk
    exact ⟨_, hat k t ht, ht'⟩
  · intro k u hu hin
    obtain ⟨t, ht, rfl⟩ := cases_of k u hu
    rw [line_stop]
    exact h.task_line k t ht hin
  · intro k u hu hin
    obtain ⟨t, ht, rfl⟩ := cases_of k u hu
    rw [line_stop]
    exact h.cycle_first k t ht hin
  · intro k u o due todo hu hphase
    obtain ⟨t, ht, rfl⟩ := cases_of k u hu
    exact h.todo_received k t o due todo ht hphase

/-- A task stands where it stood; at most it has been cancelled. -/
structure Kept (t t' : Task A) : Prop where
  feed : t'.feed = t.feed
  isLoop : t'.isLoop = t.isLoop
  phase : t'.phase = t.phase
  cancelled : t.cancelled = true → t'.cancelled = true

theorem Kept.refl (t : Task A) : Kept t t := ⟨rfl, rfl, rfl, id⟩

theorem Kept.trans {t u v : Task A} (h : Kept t u) (k : Kept u v) : Kept t v :=
  ⟨k.feed.trans h.feed, k.isLoop.trans h.isLoop, k.phase.trans h.phase,
    fun hc => k.cancelled (h.cancelled hc)⟩

theorem kept_stop (feed : Feed) {k : TaskId} {t : Task A} (ht : m.task? k = some t) :
    ∃ t', (m.stop feed).task? k = some t' ∧ Kept t t' := by
  refine ⟨m.stoppedTask feed t, ?_, rfl, rfl, rfl, ?_⟩
  · rw [task?_stop, ht, Option.map_some]
  · intro hc
    simp [stoppedTask, hc]

theorem task?_start_of_some (feed : Feed) {k : TaskId} {t : Task A} (ht : m.task? k = some t) :
    (m.start feed).task? k = some t := by
  unfold Machine.start
  split
  · exact ht
  · exact task?_spawn_of_some ht

@[simp] theorem line_start (m : Machine W A) (feed : Feed) : (m.start feed).line = m.line := by
  unfold Machine.start
  split <;> rfl

theorem kept_performAction (b : Behaviour W A) (a : A) {k : TaskId} {t : Task A}
    (ht : m.task? k = some t) :
    ∃ t', (m.performAction b a).task? k = some t' ∧ Kept t t' := by
  unfold Machine.performAction
  cases b.restarts a with
  | none => exact ⟨t, ht, .refl t⟩
  | some feed =>
    have hidle : ∃ t', ((poller feed).stopIfPolling m).task? k = some t' ∧ Kept t t' :=
      (poller feed).stopIfPolling_preserves (fun m' => ∃ t', m'.task? k = some t' ∧ Kept t t')
        ⟨t, ht, .refl t⟩ (kept_stop feed ht)
    obtain ⟨t', ht', hkept⟩ := hidle
    exact ⟨t', task?_start_of_some feed ht', hkept⟩

@[simp] theorem line_performAction (b : Behaviour W A) (m : Machine W A) (a : A) :
    (m.performAction b a).line = m.line := by
  unfold Machine.performAction
  cases b.restarts a with
  | none => rfl
  | some feed =>
    change (Machine.start _ feed).line = m.line
    rw [line_start]
    exact (poller feed).stopIfPolling_preserves (·.line = m.line) rfl (line_stop m feed)

theorem Consistent.performAction (h : Consistent b m) (a : A) :
    Consistent b (m.performAction b a) := by
  unfold Machine.performAction
  cases b.restarts a with
  | none => exact h.mapWorld _
  | some feed =>
    have hidle : Consistent b ((poller feed).stopIfPolling m) :=
      (poller feed).stopIfPolling_preserves (Consistent b) h (h.stop feed)
    exact (hidle.mapWorld _).start feed

theorem hasTurn_iff {t : Task A} :
    m.hasTurn t = true ↔ (m.line.get t.feed).head? = some t.id := by
  simp [hasTurn]

theorem Consistent.not_mem_line (h : Consistent b m) {id : TaskId} {t : Task A}
    (ht : m.task? id = some t) (hout : ¬ t.phase.InLine) : id ∉ m.line.get t.feed := by
  intro hid
  obtain ⟨u, hu, _, hin⟩ := h.line_task _ _ hid
  obtain rfl := Option.some.inj (hu.symm.trans ht)
  exact hout hin

theorem Consistent.joinLine (h : Consistent b m) {id : TaskId} {t : Task A}
    (ht : m.task? id = some t) (hphase : t.phase = .queued) :
    Consistent b ((m.joinLine t.feed id).setPhase id .waiting) := by
  have hout : id ∉ m.line.get t.feed := h.not_mem_line ht (by simp [hphase, Phase.InLine])
  have hnodup : (m.line.get t.feed ++ [id]).Nodup :=
    List.nodup_append.mpr ⟨h.line_nodup _, by simp, fun k hk j hj hkj =>
      hout (by rw [← List.mem_singleton.mp hj, ← hkj]; exact hk)⟩
  refine h.rephase (p := .waiting) ht hnodup ?_ ?_ nofun ?_ nofun nofun nofun
  · simp [Phase.InLine]
  · intro k hk
    simp [hk]
  · intro k _ hk
    rw [List.head?_append, hk]
    rfl

theorem Consistent.endCycle (h : Consistent b m) {id : TaskId} {t : Task A}
    (ht : m.task? id = some t) (hcycle : t.phase.InCycle) (outcome : CycleOutcome) {p : Phase A}
    (hout : ¬ p.InLine) (hrest : ∀ due, p = .resting due → t.isLoop = true)
    (hend : ∀ o, p = .ended o → t.isLoop = false) :
    Consistent b ((m.endCycle b t outcome).setPhase id p) := by
  have hid : t.id = id := id_of_task? ht
  have hhead := h.cycle_first id t ht hcycle
  obtain ⟨rest, hline⟩ : ∃ rest, m.line.get t.feed = id :: rest := by
    cases hl : m.line.get t.feed with
    | nil => rw [hl] at hhead; cases hhead
    | cons x rest =>
      rw [hl] at hhead
      exact ⟨rest, by rw [Option.some.inj hhead]⟩
  have hnodup := h.line_nodup t.feed
  rw [hline, List.nodup_cons] at hnodup
  have herase : (m.line.get t.feed).erase id = rest := by
    rw [hline, List.erase_cons_head]
  unfold Machine.endCycle
  simp only [leaveLine, PerFeed.modify, hid, herase]
  refine (h.mapWorld (b.settle t.feed outcome)).rephase ht hnodup.2 ?_ ?_ ?_ ?_ ?_ ?_ ?_
  · exact iff_of_false hnodup.1 hout
  · intro k hk
    change k ∈ rest ↔ k ∈ m.line.get t.feed
    simp [hline, hk]
  · exact fun hin => absurd hin.inLine hout
  · intro k hk hfirst
    change (m.line.get t.feed).head? = some k at hfirst
    rw [hline] at hfirst
    exact absurd (Option.some.inj hfirst).symm hk
  · exact hrest
  · exact hend
  · rintro o due todo rfl
    exact absurd trivial hout

/-- The steps of a task `t` with identity `id`, one for each place where it can stand. -/
inductive Advances (b : Behaviour W A) (m : Machine W A) (id : TaskId) (t : Task A) :
    Machine W A → Prop where
  | join (hp : t.phase = .queued) :
      Advances b m id t ((m.joinLine t.feed id).setPhase id .waiting)
  | ask (hp : t.phase = .waiting) (hturn : (m.line.get t.feed).head? = some id) :
      Advances b m id t (m.setPhase id (.asking (m.now + b.delay t.feed m.world)))
  | receive {due} (hp : t.phase = .asking due) (hdue : due ≤ m.now) {outcome todo world}
      (hreceive : b.receive t.feed m.world = (outcome, todo, world)) :
      Advances b m id t
        ((m.mapWorld fun _ => world).setPhase id (.acting outcome (nextDue b m.now todo) todo))
  | perform {outcome due a todo} (hp : t.phase = .acting outcome due (a :: todo))
      (hdue : due ≤ m.now) :
      Advances b m id t
        ((m.performAction b a).setPhase id (.acting outcome (nextDue b m.now todo) todo))
  | conclude {outcome due} (hp : t.phase = .acting outcome due []) (hcall : t.isLoop = false) :
      Advances b m id t ((m.endCycle b t outcome).setPhase id (.ended outcome))
  | rest {outcome due} (hp : t.phase = .acting outcome due []) (hloop : t.isLoop = true)
      (hstays : t.cancelled = true → b.interval t.feed = 0) :
      Advances b m id t
        ((m.endCycle b t outcome).setPhase id (.resting (m.now + b.interval t.feed)))
  | quit {outcome due} (hp : t.phase = .acting outcome due []) (hc : t.cancelled = true) :
      Advances b m id t ((m.endCycle b t outcome).removeTask id)
  | leave {due} (hp : t.phase = .resting due) (hc : t.cancelled = true) :
      Advances b m id t (m.removeTask id)
  | again {due} (hp : t.phase = .resting due) (hdue : due ≤ m.now) :
      Advances b m id t (m.setPhase id .queued)

theorem advances_finish {id : TaskId} {t : Task A} (ht : m.task? id = some t)
    {outcome : CycleOutcome} {due : Nat} (hp : t.phase = .acting outcome due []) :
    Advances b m id t (m.finish b t outcome) := by
  obtain rfl := id_of_task? ht
  unfold Machine.finish
  by_cases hloop : t.isLoop = false
  · rw [if_pos hloop]
    exact .conclude hp hloop
  · rw [if_neg hloop]
    by_cases hquits : t.cancelled = true ∧ b.interval t.feed ≠ 0
    · rw [if_pos hquits]
      exact .quit hp hquits.1
    · rw [if_neg hquits]
      refine .rest hp (by simpa using hloop) fun hc => ?_
      by_contra hlong
      exact hquits ⟨hc, hlong⟩

theorem advances_of_canMove {id : TaskId} {t : Task A} (ht : m.task? id = some t)
    (hmove : m.canMove t = true) : Advances b m id t (m.stepTask b t) := by
  have hid : t.id = id := id_of_task? ht
  cases hp : t.phase with
  | queued =>
    simp only [stepTask, hp, hid]
    exact .join hp
  | waiting =>
    simp only [canMove, hp, hasTurn_iff, hid] at hmove
    simp only [stepTask, hp, hid]
    exact .ask hp hmove
  | asking due =>
    simp only [canMove, hp, decide_eq_true_eq] at hmove
    simp only [stepTask, hp, hid]
    exact .receive hp hmove rfl
  | acting outcome due todo =>
    cases todo with
    | nil =>
      simp only [stepTask, hp]
      exact advances_finish ht hp
    | cons a todo =>
      simp only [canMove, hp, decide_eq_true_eq] at hmove
      simp only [stepTask, hp, hid]
      exact .perform hp hmove
  | resting due =>
    simp only [canMove, hp, Bool.or_eq_true, decide_eq_true_eq] at hmove
    simp only [stepTask, hp, hid]
    cases hc : t.cancelled with
    | true => exact .leave hp hc
    | false => exact .again hp (hmove.resolve_left (by simp [hc]))
  | ended outcome => simp [canMove, hp] at hmove

theorem isRested_iff {t : Task A} :
    m.isRested t = true ↔ ∃ due, t.phase = .resting due ∧ due ≤ m.now := by
  unfold isRested
  constructor
  · intro h
    split at h
    · next due hp => exact ⟨due, hp, of_decide_eq_true h⟩
    · cases h
  · rintro ⟨due, hp, hdue⟩
    simp [hp, hdue]

theorem advance_cases (b : Behaviour W A) (m : Machine W A) (id : TaskId) :
    m.advance b id = m ∨ ∃ t, m.task? id = some t ∧ Advances b m id t (m.advance b id) := by
  unfold Machine.advance
  cases ht : m.task? id with
  | none => exact .inl rfl
  | some t =>
    by_cases hmove : m.canMove t = true
    · simp only [hmove, if_true]
      exact .inr ⟨t, rfl, advances_of_canMove ht hmove⟩
    · exact .inl (if_neg hmove)

theorem beginAgain_cases (m : Machine W A) (id : TaskId) : m.beginAgain id = m ∨
    ∃ t due, m.task? id = some t ∧ t.phase = .resting due ∧ due ≤ m.now ∧
      m.beginAgain id = m.setPhase id .queued := by
  unfold Machine.beginAgain
  cases ht : m.task? id with
  | none => exact .inl rfl
  | some t =>
    by_cases hrested : m.isRested t = true
    · obtain ⟨due, hp, hdue⟩ := isRested_iff.mp hrested
      exact .inr ⟨t, due, rfl, hp, hdue, if_pos hrested⟩
    · exact .inl (if_neg hrested)

theorem advances_beginAgain (b : Behaviour W A) (m : Machine W A) (id : TaskId) :
    m.beginAgain id = m ∨
      ∃ t, m.task? id = some t ∧ Advances b m id t (m.beginAgain id) := by
  rcases beginAgain_cases m id with hsame | ⟨t, due, ht, hp, hdue, hagain⟩
  · exact .inl hsame
  · rw [hagain]
    exact .inr ⟨t, ht, .again hp hdue⟩

theorem Consistent.advances (h : Consistent b m) {id : TaskId} {t : Task A}
    (ht : m.task? id = some t) {m' : Machine W A} (hstep : Advances b m id t m') :
    Consistent b m' := by
  cases hstep with
  | join hp => exact h.joinLine ht hp
  | ask hp hturn =>
    exact h.setPhase ht (by simp [hp, Phase.InLine]) (fun _ => hturn) nofun nofun nofun
  | @receive due hp _ outcome todo world hreceive =>
    refine (h.mapWorld fun _ => world).setPhase ht (by simp [hp, Phase.InLine])
      (fun _ => h.cycle_first id t ht (by simp [hp, Phase.InCycle])) nofun nofun ?_
    intro o due' todo' hacting a ha
    cases hacting
    exact ⟨m.world, by rw [hreceive]; exact ha⟩
  | @perform outcome due a todo hp _ =>
    obtain ⟨t', ht', hkept⟩ := kept_performAction b a ht
    refine (h.performAction a).setPhase ht' (by simp [hkept.phase, hp, Phase.InLine]) ?_
      nofun nofun ?_
    · intro _
      rw [line_performAction, hkept.feed]
      exact h.cycle_first id t ht (by simp [hp, Phase.InCycle])
    · intro o due' todo' hacting x hx
      cases hacting
      rw [hkept.feed]
      exact h.todo_received id t _ _ _ ht hp x (List.mem_cons_of_mem _ hx)
  | conclude hp hcall =>
    exact h.endCycle ht (by simp [hp, Phase.InCycle]) _ (by simp [Phase.InLine]) nofun
      fun _ _ => hcall
  | rest hp hloop hstays =>
    exact h.endCycle ht (by simp [hp, Phase.InCycle]) _ (by simp [Phase.InLine])
      (fun _ _ => hloop) nofun
  | @quit outcome due hp hc =>
    have hout : Consistent b ((m.endCycle b t outcome).setPhase id .queued) :=
      h.endCycle ht (by simp [hp, Phase.InCycle]) _ (by simp [Phase.InLine]) nofun nofun
    have hat := task?_setPhase (m.endCycle b t outcome) id id .queued
    rw [if_pos rfl, show (m.endCycle b t outcome).task? id = some t from ht] at hat
    rw [← removeTask_setPhase _ id .queued]
    exact hout.removeTask hat (by simp [Phase.InLine]) fun _ => hc
  | leave hp hc => exact h.removeTask ht (by simp [hp, Phase.InLine]) fun _ => hc
  | again hp hdue => exact h.setPhase ht (by simp [hp, Phase.InLine]) nofun nofun nofun nofun

theorem Consistent.advance (h : Consistent b m) (id : TaskId) : Consistent b (m.advance b id) := by
  rcases advance_cases b m id with hsame | ⟨t, ht, hstep⟩
  · rw [hsame]
    exact h
  · exact h.advances ht hstep

theorem Consistent.beginAgain (h : Consistent b m) (id : TaskId) :
    Consistent b (m.beginAgain id) := by
  rcases advances_beginAgain b m id with hsame | ⟨t, ht, hstep⟩
  · rw [hsame]
    exact h
  · exact h.advances ht hstep

theorem collect_cases (m : Machine W A) (id : TaskId) : m.collect id = m ∨
    ∃ t o, m.task? id = some t ∧ t.phase = .ended o ∧ m.collect id = m.removeTask id := by
  unfold Machine.collect
  split
  · next feed isLoop cancelled o ht => exact .inr ⟨_, o, ht, rfl, rfl⟩
  · exact .inl rfl

theorem Consistent.collect (h : Consistent b m) (id : TaskId) : Consistent b (m.collect id) := by
  rcases collect_cases m id with hsame | ⟨t, o, ht, hended, hgone⟩
  · rw [hsame]
    exact h
  · rw [hgone]
    refine h.removeTask ht (by simp [hended, Phase.InLine]) ?_
    intro hloop
    have hcall := h.ended_call id t o ht hended
    exact absurd (hloop.symm.trans hcall) (by simp)

theorem Consistent.step (h : Consistent b m) (e : Event W) : Consistent b (m.step b e) := by
  cases e with
  | move v =>
    cases v with
    | advance id => exact h.advance id
    | beginAgain id => exact h.beginAgain id
    | elapse ms => exact h.elapse ms
  | start feed => exact h.start feed
  | stop feed => exact h.stop feed
  | call feed => exact h.call feed
  | collect id => exact h.collect id
  | work f => exact h.mapWorld f

theorem Consistent.run (h : Consistent b m) (es : List (Event W)) : Consistent b (m.run b es) := by
  induction es generalizing m with
  | nil => exact h
  | cons e es ih => exact ih (h.step e)

theorem run_consistent (b : Behaviour W A) (world : W) (es : List (Event W)) :
    Consistent b ((Machine.initial world).run b es) :=
  (Consistent.initial world).run es

end Machine
end QuoteDesk
