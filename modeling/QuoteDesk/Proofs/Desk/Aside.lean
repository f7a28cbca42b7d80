import QuoteDesk.Proofs.Cache.Books
import QuoteDesk.Proofs.Desk.Deny
/-!
What events do that are no steps of the feeds. Requests read keys of the cache or deny an address, the
rest leaves it alone; no such event changes a directory, turns the clock back or touches what cycles
still have to do.
-/
namespace QuoteDesk

structure State.Aside (scope : Scope) (now : Nat) (w w' : State) : Prop where
  tokens : w'.tokens = w.tokens
  pairs : w'.pairs = w.pairs
  cache : w.cache.Visit scope now w'.cache

namespace State

variable {settings : Settings} {now : Nat} {w w' : State}

theorem Aside.refl (scope : Scope) (now : Nat) (w : State) : Aside scope now w w :=
  ⟨rfl, rfl, .alone⟩

theorem aside_prices (settings : Settings) (w : State) (now : Nat) (gasCost : UInt64)
    (src dest : String) (amounts : List Units) (side : SwapSide) (limit : Option (List String)) :
    Aside settings.scope now w { w with
      cache := (Market.prices ⟨settings.scope, gasCost, w.tokens, w.pairs⟩ w.cache now src dest
        amounts side limit).2 } := by
  refine ⟨rfl, rfl, ?_⟩
  unfold Market.prices
  split
  · exact .alone
  · split
    · exact .read _
    · exact .alone

theorem aside_isDenied (w : State) (now : Nat) (scope : Scope) (address : String) :
    Aside scope now w (w.isDenied now scope address).2 :=
  ⟨rfl, rfl, .read _⟩

theorem aside_start (settings : Settings) (w : State) (now : Nat) (swap : Swap) :
    Aside settings.scope now w (swap.start settings w now).2 := by
  have hread := aside_isDenied w now settings.scope swap.user
  unfold Swap.start
  cases swap.legs w.tokens with
  | error e => exact .refl _ _ w
  | ok legs =>
    simp only [Swap.guardUser]
    generalize w.isDenied now settings.scope swap.user = answered at hread
    obtain ⟨answer, w'⟩ := answered
    cases answer with
    | error e => exact hread
    | ok verdict =>
      cases verdict with
      | true => exact ⟨hread.tokens, hread.pairs, hread.cache⟩
      | false =>
        simp only
        split <;> exact hread

theorem Stays.aside (h : Stays w w') (scope : Scope) (now : Nat) : Aside scope now w w' :=
  ⟨h.tokens, h.pairs, h.cache ▸ .alone⟩

theorem aside_refuse (settings : Settings) (w : State) (now : Nat) (p : Pending) (e : MakerError) :
    Aside settings.scope now w (p.refuse settings w now e).2 := by
  have hdeny : Aside settings.scope now w (w.deny now settings.scope p.swap.user).2 :=
    ⟨rfl, rfl, .deny _⟩
  unfold Pending.refuse
  split
  · generalize w.deny now settings.scope p.swap.user = denied at hdeny
    obtain ⟨done, w'⟩ := denied
    cases done <;> exact hdeny
  · exact .refl _ _ w

theorem aside_complete (settings : Settings) (w : State) (now : Nat) (clock : UInt64)
    (p : Pending) : Aside settings.scope now w (p.complete settings w now clock).2 := by
  have hask : (w.ask (settings.firmRequest p.quote)).2.tokens = w.tokens ∧
      (w.ask (settings.firmRequest p.quote)).2.pairs = w.pairs ∧
      (w.ask (settings.firmRequest p.quote)).2.cache = w.cache := ⟨rfl, rfl, rfl⟩
  have of_asked : ∀ asked final : State,
      asked.tokens = w.tokens ∧ asked.pairs = w.pairs ∧ asked.cache = w.cache →
      Aside settings.scope now asked final → Aside settings.scope now w final := by
    rintro asked final ⟨htokens, hpairs, hcache⟩ h
    exact ⟨h.tokens.trans htokens, h.pairs.trans hpairs, hcache ▸ h.cache⟩
  unfold Pending.complete
  generalize w.ask (settings.firmRequest p.quote) = answered at hask
  obtain ⟨reply, asked⟩ := answered
  cases reply with
  | error e =>
    exact of_asked { asked with metrics := asked.metrics.countQuote .requestError } _ hask
      (aside_refuse settings _ now p e)
  | ok body =>
    simp only
    split
    · exact of_asked { asked with metrics := asked.metrics.countQuote .invalid } _ hask
        (.refl _ now _)
    · next order _ =>
      exact of_asked { asked with metrics := asked.metrics.countQuote .ok } _ hask
        ((stays_accept settings _ order p clock).aside settings.scope now)

end State

namespace Session

open Machine

variable {settings : Settings} {s s' : Session}

/-- An event happens beside the steps of the feeds. -/
structure Aside (settings : Settings) (s s' : Session) : Prop where
  world : State.Aside settings.scope s.machine.now s.machine.world s'.machine.world
  now : s.machine.now ≤ s'.machine.now
  todo : ∀ k, s'.machine.todo k = s.machine.todo k

theorem aside_of_still (hworld : s'.machine.world = s.machine.world)
    (hnow : s'.machine.now = s.machine.now) (htodo : ∀ k, s'.machine.todo k = s.machine.todo k) :
    Aside settings s s' :=
  ⟨hworld ▸ .refl _ _ _, hnow.ge, htodo⟩

theorem aside_of_state {w : State}
    (h : State.Aside settings.scope s.machine.now s.machine.world w) :
    Aside settings s (s.withState w) :=
  ⟨h, Nat.le_refl _, fun _ => rfl⟩

theorem now_foldl {f : Machine State FeedAction → Feed → Machine State FeedAction}
    (hf : ∀ m feed, (f m feed).now = m.now) (feeds : List Feed) (m : Machine State FeedAction) :
    (feeds.foldl f m).now = m.now := by
  induction feeds generalizing m with
  | nil => rfl
  | cons feed feeds ih => exact (ih (f m feed)).trans (hf m feed)

/-- Whatever is no step of a task happens beside the feeds. -/
theorem aside_step (settings : Settings) (s : Session) (e : Event)
    (he : ∀ id, e ≠ .move (.advance id)) : Aside settings s (s.step settings e) := by
  cases e with
  | move v =>
    cases v with
    | advance id => exact absurd rfl (he id)
    | beginAgain id =>
      obtain ⟨hworld, hnow, htodo⟩ := beginAgain_still s.machine id
      exact aside_of_still hworld hnow htodo
    | elapse ms => exact ⟨.refl _ _ _, Nat.le_add_right _ ms, fun _ => rfl⟩
  | start =>
    obtain ⟨hworld, htodo⟩ := still_start settings s
    refine aside_of_still hworld ?_ htodo
    change (s.desk settings).start.runner.machine.now = s.machine.now
    unfold Desk.start
    split
    · rfl
    · exact now_foldl now_start _ s.machine
  | stop =>
    obtain ⟨hworld, htodo⟩ := still_stop settings s
    exact aside_of_still hworld (now_foldl now_stop settings.feeds s.machine) htodo
  | call feed => exact aside_of_still rfl rfl (todo_spawn s.machine feed false)
  | collect id =>
    exact aside_of_still (world_collect s.machine id) (now_collect s.machine id)
      (todo_collect s.machine id)
  | upstream replies delays => exact aside_of_state ⟨rfl, rfl, .alone⟩
  | quote src dest amounts side limit =>
    exact aside_of_state (State.aside_prices settings s.machine.world s.machine.now
      settings.gasCost src dest amounts side limit)
  | look pair side =>
    change Aside settings s (s.withMachine ((s.desk settings).orderBook pair side).2.runner.machine)
    unfold Desk.orderBook
    split
    · exact aside_of_still rfl rfl fun _ => rfl
    · exact aside_of_state ⟨rfl, rfl, .read _⟩
  | inquire address =>
    exact aside_of_state (State.aside_isDenied s.machine.world s.machine.now settings.scope address)
  | request swap =>
    have hstart := State.aside_start settings s.machine.world s.machine.now swap
    cases h : swap.start settings s.machine.world s.machine.now with
    | mk answer w =>
      rw [h] at hstart
      cases answer with
      | error e =>
        rw [step_request_error h]
        exact aside_of_state hstart
      | ok p =>
        rw [step_request_ok h]
        exact ⟨hstart, Nat.le_refl _, fun _ => rfl⟩
  | reply n clock =>
    simp only [step]
    split
    · exact aside_of_still rfl rfl fun _ => rfl
    · next p _ =>
      exact ⟨State.aside_complete settings s.machine.world s.machine.now clock p, Nat.le_refl _,
        fun _ => rfl⟩

end Session
end QuoteDesk
