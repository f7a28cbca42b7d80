import QuoteDesk.Proofs.Feed.Restart
/-!
Updates around a poller, one after another. What reaches a poller is watched by running the same calls on a
poller that writes down each act with the state that it meets. Main statement: an update applies once, to a
poller that does not poll, after the stop if there was something to stop and before the start; the poller
polls afterwards, and a log of the poller is those acts in their order.
-/
namespace QuoteDesk

namespace Poller

variable {σ α : Type}

/-- The contract of a poller: a start makes it poll, and changes nothing if it polls already; a stop ends
that. -/
structure IsLawful (p : Poller σ) : Prop where
  start_of_polling : ∀ s, p.isPolling s = true → p.start s = s
  polls_of_start : ∀ s, p.isPolling s = false → p.isPolling (p.start s) = true
  isPolling_stop : ∀ s, p.isPolling (p.stop s) = false

inductive Call (α : Type) where
  | update (a : α)
  | stop

def Call.updated? : Call α → Option α
  | .update a => some a
  | .stop => none

def call (p : Poller σ) (perform : α → σ → σ) (s : σ) : Call α → σ
  | .update a => p.update (perform a) s
  | .stop => p.stop s

def run (p : Poller σ) (perform : α → σ → σ) : σ → List (Call α) → σ
  | s, [] => s
  | s, c :: calls => p.run perform (p.call perform s c) calls

inductive Act (α : Type) where
  | start
  | stop
  | apply (a : α)

def Act.applied? : Act α → Option α
  | .apply a => some a
  | .start | .stop => none

def Act.event : Act α → PollerEvent
  | .start => .start
  | .stop => .stop
  | .apply _ => .replace

/-- A state beside the acts that led to it, each with the state that it met. -/
structure Watched (α σ : Type) where
  state : σ
  acts : List (Act α × σ)

namespace Watched

def note (w : Watched α σ) (act : Act α) (next : σ) : Watched α σ :=
  ⟨next, w.acts ++ [(act, w.state)]⟩

def perform (f : α → σ → σ) (a : α) (w : Watched α σ) : Watched α σ :=
  w.note (.apply a) (f a w.state)

end Watched

/-- The same poller with its acts written down. -/
def watched (p : Poller σ) : Poller (Watched α σ) where
  isPolling w := p.isPolling w.state
  start w := w.note .start (p.start w.state)
  stop w := w.note .stop (p.stop w.state)

def acts (p : Poller σ) (perform : α → σ → σ) (s : σ) : Call α → List (Act α × σ)
  | .update a =>
    (if p.isPolling s then [(.stop, s)] else []) ++
      [(.apply a, p.stopIfPolling s), (.start, perform a (p.stopIfPolling s))]
  | .stop => [(.stop, s)]

def history (p : Poller σ) (perform : α → σ → σ) : σ → List (Call α) → List (Act α × σ)
  | _, [] => []
  | s, c :: calls => p.acts perform s c ++ p.history perform (p.call perform s c) calls

variable {p : Poller σ} {perform : α → σ → σ} {s : σ}

theorem run_append (calls more : List (Call α)) :
    p.run perform s (calls ++ more) = p.run perform (p.run perform s calls) more := by
  induction calls generalizing s with
  | nil => rfl
  | cons c calls ih => exact ih

theorem watched_call (c : Call α) (done : List (Act α × σ)) :
    p.watched.call (Watched.perform perform) ⟨s, done⟩ c =
      ⟨p.call perform s c, done ++ p.acts perform s c⟩ := by
  cases c with
  | stop => rfl
  | update a =>
    by_cases hs : p.isPolling s = true
    · simp [call, update, stopIfPolling, acts, watched, Watched.perform, Watched.note, hs]
    · simp [call, update, stopIfPolling, acts, watched, Watched.perform, Watched.note, hs]

/-- Watching changes nothing, and what it writes down is the history. -/
theorem watched_run (calls : List (Call α)) (done : List (Act α × σ)) :
    p.watched.run (Watched.perform perform) ⟨s, done⟩ calls =
      ⟨p.run perform s calls, done ++ p.history perform s calls⟩ := by
  induction calls generalizing s done with
  | nil => rw [run, run, history, List.append_nil]
  | cons c calls ih => rw [run, watched_call, ih, run, history, List.append_assoc]

theorem applied_history (calls : List (Call α)) :
    (p.history perform s calls).filterMap (·.1.applied?) = calls.filterMap Call.updated? := by
  induction calls generalizing s with
  | nil => rfl
  | cons c calls ih =>
    have hpart : (p.acts perform s c).filterMap (·.1.applied?) = c.updated?.toList := by
      cases c with
      | stop => rfl
      | update a =>
        by_cases hs : p.isPolling s = true
        · rw [acts, if_pos hs]
          rfl
        · rw [acts, if_neg hs]
          rfl
    rw [history, List.filterMap_append, hpart, ih]
    cases c <;> rfl

namespace IsLawful

theorem isPolling_stopIfPolling (h : p.IsLawful) (s : σ) :
    p.isPolling (p.stopIfPolling s) = false := by
  unfold stopIfPolling
  split
  · exact h.isPolling_stop s
  · next hs => exact eq_false_of_ne_true hs

theorem isPolling_start (h : p.IsLawful) (s : σ) : p.isPolling (p.start s) = true := by
  by_cases hs : p.isPolling s = true
  · rw [h.start_of_polling s hs, hs]
  · exact h.polls_of_start s (eq_false_of_ne_true hs)

theorem idle_of_apply (h : p.IsLawful) {calls : List (Call α)} {a : α} {t : σ}
    (ht : (.apply a, t) ∈ p.history perform s calls) : p.isPolling t = false := by
  induction calls generalizing s with
  | nil => cases ht
  | cons c calls ih =>
    rcases List.mem_append.mp ht with hpart | hlater
    · cases c with
      | stop => simp [acts] at hpart
      | update b =>
        rcases List.mem_append.mp hpart with hstop | hrest
        · split at hstop <;> simp at hstop
        · have hidle : a = b ∧ t = p.stopIfPolling s := by simpa using hrest
          rw [hidle.2]
          exact h.isPolling_stopIfPolling s
    · exact ih hlater

end IsLawful
end Poller

namespace PollerLog

open Poller (Call)

variable {α : Type}

theorem isLawful_poller : poller.IsLawful where
  start_of_polling l hl := if_pos hl
  polls_of_start l hl := by
    have hoff : ¬ l.polling = true := ne_true_of_eq_false hl
    change (if l.polling = true then l else _).polling = true
    rw [if_neg hoff]
    rfl
  isPolling_stop _ := rfl

def replace (_ : α) (l : PollerLog) : PollerLog := l.note .replace

/-- Every act of a call is noted. A start would not be if the poller polled, but it has just been stopped. -/
theorem events_call (l : PollerLog) (c : Call α) :
    (poller.call replace l c).events = l.events ++ (poller.acts replace l c).map (·.1.event) := by
  obtain ⟨polling, events⟩ := l
  cases c with
  | stop => rfl
  | update a =>
    cases polling with
    | false => exact List.append_assoc events [.replace] [.start]
    | true =>
      exact (List.append_assoc (events ++ [.stop]) [.replace] [.start]).trans
        (List.append_assoc events [.stop] [.replace, .start])

theorem events_run (l : PollerLog) (calls : List (Call α)) :
    (poller.run replace l calls).events =
      l.events ++ (poller.history replace l calls).map (·.1.event) := by
  induction calls generalizing l with
  | nil => exact (List.append_nil _).symm
  | cons c calls ih =>
    rw [Poller.run, ih, events_call, Poller.history, List.map_append, List.append_assoc]

end PollerLog

/-- The loop of a feed is a lawful poller. -/
theorem Machine.isLawful_poller {W A : Type} (feed : Feed) :
    (poller feed : Poller (Machine W A)).IsLawful where
  start_of_polling _ hm := if_pos hm
  polls_of_start m _ := isPolling_start m feed
  isPolling_stop m := by
    change ((m.stop feed).live.get feed).isSome = false
    rw [live_stop, if_pos rfl]
    rfl

namespace Poller

variable {σ α : Type} {p : Poller σ}

/-- Whatever the calls, the acts come call by call and are those of the poller itself; every update
applies once and in its order, to a poller that does not poll, and leaves one that does. A log notes
every act, in this order. -/
theorem updates_in_order (h : p.IsLawful) (perform : α → σ → σ) (s : σ) (calls : List (Call α))
    (l : PollerLog) :
    p.watched.run (Watched.perform perform) ⟨s, []⟩ calls =
        ⟨p.run perform s calls, p.history perform s calls⟩ ∧
      (p.history perform s calls).filterMap (·.1.applied?) = calls.filterMap Call.updated? ∧
      (∀ a t, (.apply a, t) ∈ p.history perform s calls → p.isPolling t = false) ∧
      (∀ a, p.isPolling (p.run perform s (calls ++ [.update a])) = true) ∧
      (PollerLog.poller.run PollerLog.replace l calls).events = l.events ++
        (PollerLog.poller.history PollerLog.replace l calls).map (·.1.event) := by
  refine ⟨watched_run calls [], applied_history calls, fun a t ht => h.idle_of_apply ht, ?_,
    PollerLog.events_run l calls⟩
  intro a
  rw [run_append]
  exact h.isPolling_start _

/-- The loop of a feed, restarted around three updates and stopped once in between. -/
theorem updates_in_order_restarted :
    let p : Poller (Machine Nat Unit) := Machine.poller .prices
    let perform (n : Nat) (m : Machine Nat Unit) : Machine Nat Unit := m.mapWorld fun _ => n
    let log := PollerLog.poller.run PollerLog.replace .empty
      [.update 1, .update 2, .stop, .update 3]
    p.IsLawful ∧
      p.isPolling (p.run perform (.initial 0) [.update 1, .update 2, .stop, .update 3]) = true ∧
      log.events = [.replace, .start, .stop, .replace, .start, .stop, .replace, .start] := by
  intro p perform log
  have hp : p.IsLawful := Machine.isLawful_poller .prices
  obtain ⟨-, -, -, hpolls, -⟩ :=
    updates_in_order hp perform (.initial 0) [.update 1, .update 2, .stop] .empty
  obtain ⟨-, -, -, -, hevents⟩ :=
    updates_in_order hp perform (.initial 0) [.update 1, .update 2, .stop, .update 3] .empty
  exact ⟨hp, hpolls 3, hevents⟩

end Poller
end QuoteDesk
