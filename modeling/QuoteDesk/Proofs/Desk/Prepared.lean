import QuoteDesk.Proofs.Desk.Cached
import QuoteDesk.Proofs.Order.Effects
/-!
Preparations in the life of a desk. Whatever comes of one, at most one request leaves the desk, neither
the directories nor the cached books change, and the deny set gains the user of a swap that the maker
refuses as restricted and nobody else. Main statement: so it is in every state that an application
comes to, with the exact request, while the feeds go on between the request and its reply.
-/
namespace QuoteDesk

namespace Desk

variable {d : Desk} {swap : Swap} {w : State}

theorem prepare_of_error {e : PrepareError}
    (h : swap.start d.settings d.state d.now = (.error e, w)) (clock : UInt64) :
    (d.prepare swap clock).2.state = w := by
  simp only [prepare, h]
  rfl

theorem prepare_of_ok {p : Pending} (h : swap.start d.settings d.state d.now = (.ok p, w))
    (clock : UInt64) :
    let asked := (d.withState w).sleep (w.maker.delayAt d.settings.firmUrl)
    (d.prepare swap clock).2.state = (p.complete d.settings asked.state asked.now clock).2 := by
  intro asked
  simp only [prepare, h]
  rfl

end Desk

namespace Session

open Machine

variable {settings : Settings} {s : Session}

theorem wellKept_of_reachable (h : Reachable settings s) :
    s.machine.world.cache.WellKept settings.scope := by
  obtain ⟨verifier, es, rfl⟩ := h
  exact wellKept_initial settings verifier es

theorem Reachable.moves {m : Machine State FeedAction} (h : Reachable settings s)
    (hm : Moves settings.behaviour s.machine m) : Reachable settings (s.withMachine m) := by
  obtain ⟨verifier, es, rfl⟩ := h
  obtain ⟨vs, rfl⟩ := hm
  exact ⟨verifier, es ++ vs.map .move, by rw [run_append, run_moves]⟩

/-- A preparation that may not ask changes nothing. One that may sends one request and then does what
the reply to it asks for; in between the feeds go on, unless the maker answers at once. A reply does the
same however many preparations wait for theirs. -/
theorem prepare_effect (h : Reachable settings s) (clock : UInt64) :
    (∀ swap, let after := ((s.desk settings).prepare swap clock).2.state
      ((∀ src dest, ¬ s.machine.world.Asks settings swap src dest) →
        State.Effect settings [] [] s.machine.world after) ∧
      ∀ src dest, s.machine.world.Asks settings swap src dest →
        Text.normalize swap.user ∉ s.machine.world.deniedNames settings ∧
        ∃ m, Moves settings.behaviour s.machine m ∧
          (s.machine.world.maker.delayAt settings.firmUrl = 0 → m = s.machine) ∧
          State.Completes settings swap src dest m.world after) ∧
    ∀ n p, s.pending[n]? = some p →
      State.Completes settings p.swap p.src p.dest s.machine.world
        (s.step settings (.reply n clock)).machine.world := by
  have hkeeps := (wellKept_of_reachable h).keepsSet
  constructor
  · intro swap after
    let d := s.desk settings
    rcases State.start_cases hkeeps s.machine.now swap with
      ⟨e, w, hstart, hstays, -, hnot⟩ | ⟨src, dest, hstart, hasks⟩
    · have hafter : after = w := Desk.prepare_of_error (d := d) hstart clock
      refine ⟨fun _ => hafter ▸ hstays.effect, ?_⟩
      intro src dest hasks
      exact absurd hasks (hnot src dest)
    · refine ⟨fun hnot => absurd hasks (hnot src dest), ?_⟩
      intro src' dest' hasks'
      obtain ⟨rfl, rfl⟩ := hasks.unique hasks'
      let asked := (d.withState d.state).sleep (d.state.maker.delayAt settings.firmUrl)
      have hmoves : Moves settings.behaviour s.machine asked.runner.machine :=
        Runner.sleep_moves settings.behaviour (d.withState d.state).runner _
      refine ⟨hasks.not_mem, asked.runner.machine, hmoves, ?_, ?_⟩
      · intro hprompt
        have hasked : asked = (d.withState d.state).sleep 0 :=
          congrArg (d.withState d.state).sleep hprompt
        rw [hasked]
        rfl
      · have hafter : after = _ := Desk.prepare_of_ok (d := d) hstart clock
        rw [hafter]
        have hkept := wellKept_of_reachable (h.moves hmoves)
        exact State.completes hkept.keepsSet asked.now clock ⟨swap, src, dest⟩
  · intro n p hp
    have hstep : (s.step settings (.reply n clock)).machine.world =
        (p.complete settings s.machine.world s.machine.now clock).2 := by
      simp only [step, hp]
      rfl
    rw [hstep]
    exact State.completes hkeeps s.machine.now clock p

def refusal : Event :=
  .upstream [(Settings.brisk.firmUrl,
    .error (.status 403 "User is restricted from using Dexalot"))] []

def acquaintance : List Event :=
  publication :: .call .tokens :: List.replicate 5 (.move (.advance 0))

def refusedSale : Swap := { smallSale with user := " 0xABC " }

/-- The sale of a restricted user, without an amount, with one, and beside other events. -/
theorem prepare_effect_refused_sale :
    let s := ((initial (.fixed true [])).run .brisk acquaintance).step .brisk refusal
    let w := s.machine.world
    let sold := ((s.desk .brisk).prepare refusedSale 0).2.state
    Reachable .brisk s ∧ w.deniedNames .brisk = [] ∧
    State.Effect .brisk [] [] w
      ((s.desk .brisk).prepare { refusedSale with srcAmount := .zero } 0).2.state ∧
    (∃ r, r.method = "POST" ∧ sold.maker.log = w.maker.log ++ [r]) ∧
    (∀ name, name ∈ sold.deniedNames .brisk ↔ name = "0xabc") ∧
    ∃ p, (s.step .brisk (.request refusedSale)).pending[0]? = some p ∧
      State.Completes .brisk p.swap p.src p.dest (s.step .brisk (.request refusedSale)).machine.world
        ((s.step .brisk (.request refusedSale)).step .brisk (.reply 0 0)).machine.world := by
  intro s w sold
  have hreachable : Reachable .brisk s :=
    ⟨.fixed true [], acquaintance ++ [refusal], run_append _ _ _ _⟩
  have hrequested : Reachable .brisk (s.step .brisk (.request refusedSale)) :=
    ⟨.fixed true [], acquaintance ++ [refusal, .request refusedSale], run_append _ _ _ _⟩
  have hknown : (w.tokens.ofAddress? baseAddress).isSome = true ∧
      (w.tokens.ofAddress? quoteAddress).isSome = true ∧ w.deniedNames .brisk = [] ∧
      (s.step .brisk (.request refusedSale)).pending[0]?.isSome = true := by
    decide +kernel
  obtain ⟨hsrc, hdest, hnames, hpending⟩ := hknown
  obtain ⟨src, hsrc⟩ := Option.isSome_iff_exists.mp hsrc
  obtain ⟨dest, hdest⟩ := Option.isSome_iff_exists.mp hdest
  obtain ⟨p, hp⟩ := Option.isSome_iff_exists.mp hpending
  have hasks : w.Asks .brisk refusedSale src dest :=
    ⟨hsrc, hdest, hnames ▸ covers_nil _, by decide⟩
  have hreply : ∀ x : Session, (x.step .brisk refusal).machine.world.maker.replyAt
      Settings.brisk.firmUrl = .error (.status 403 "User is restricted from using Dexalot") := by
    intro x
    change (Maker.lookup Settings.brisk.firmUrl [(Settings.brisk.firmUrl, Except.error _)]).getD _ = _
    rw [Maker.lookup, if_pos rfl]
    rfl
  have hdelay : ∀ x : Session,
      (x.step .brisk refusal).machine.world.maker.delayAt Settings.brisk.firmUrl = 0 := fun _ => rfl
  have hrefuses : Settings.brisk.Refuses w := ⟨_, hreply _, by decide +kernel⟩
  have hnormal : Text.normalize refusedSale.user = "0xabc" := by decide +kernel
  obtain ⟨hprepare, -⟩ := prepare_effect hreachable 0
  obtain ⟨-, m, -, hprompt, hcompletes⟩ := (hprepare refusedSale).2 src dest hasks
  obtain rfl : m = s.machine := hprompt (hdelay _)
  obtain ⟨r, hfirm, hrefused, -⟩ := hcompletes
  have heffect := hrefused hrefuses
  refine ⟨hreachable, hnames, (hprepare _).1 ?_, ⟨r, hfirm.method, heffect.log⟩, ?_, p, hp,
    (prepare_effect hrequested 0).2 0 p hp⟩
  · intro src' dest' hzero
    exact hzero.amount rfl
  · intro name
    rw [heffect.names, hnormal]
    change name ∈ ["0xabc"] ∨ name ∈ w.deniedNames .brisk ↔ name = "0xabc"
    rw [hnames, List.mem_singleton]
    simp

end Session
end QuoteDesk
