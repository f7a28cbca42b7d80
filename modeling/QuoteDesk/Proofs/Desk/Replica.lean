import QuoteDesk.Proofs.Desk.Attribution
import QuoteDesk.Proofs.Desk.Restart
/-!
Desks that leave polling to somebody else. Such a desk starts nothing by itself, but a cycle of the pairs
that is called for and succeeds starts the prices as it does everywhere. Main statement: only cycles that
are called for ask the maker, and nothing is polled, exactly as long as no cycle has replaced the pairs.
-/
namespace QuoteDesk

namespace Machine

variable {W A : Type} {m m' : Machine W A} {feed : Feed}

structure CalledOnly (feed : Feed) (m : Machine W A) : Prop where
  unpolled : m.isPolling feed = false
  calls : ∀ id t, m.task? id = some t → t.feed = feed → t.isLoop = false

theorem CalledOnly.inherits (h : CalledOnly feed m) (hinherits : Inherits feed false m m') :
    CalledOnly feed m' where
  unpolled := by
    have hlive : m.live.get feed = none :=
      Option.not_isSome_iff_eq_none.mp (by simpa [isPolling] using h.unpolled)
    rw [isPolling, hinherits.live hlive]
    rfl
  calls id t' ht' hfeed := by
    by_contra hloop
    rw [Bool.not_eq_false] at hloop
    obtain ⟨t, ht, htfeed, hsame⟩ := hinherits.task id t' ht' hfeed (by rw [hloop]; rfl)
    have hcall := h.calls id t ht htfeed
    rw [hsame, hloop] at hcall
    cases hcall

theorem calledOnly_initial (feed : Feed) (world : W) :
    CalledOnly feed (Machine.initial (A := A) world) where
  unpolled := by simp [Machine.initial, isPolling]
  calls id t ht := nomatch ht

theorem unstarted_of_beside {b : Behaviour W A} {es : List (Event W)}
    (h : ∀ e ∈ es, (∀ f, e ≠ .start f) ∧ ∀ id, e ≠ .move (.advance id)) :
    Unstarted b feed m es := by
  induction es generalizing m with
  | nil => trivial
  | cons e es ih =>
    obtain ⟨howner, htask⟩ := h e List.mem_cons_self
    refine ⟨?_, ih fun x hx => h x (List.mem_cons_of_mem e hx)⟩
    cases e with
    | start f => exact absurd rfl (howner f)
    | move v =>
      cases v with
      | advance id => exact absurd rfl (htask id)
      | beginAgain id => exact fun h => h
      | elapse ms => exact id
    | _ => exact id

end Machine

namespace Session

open Machine

variable {settings : Settings} {s : Session} {feed : Feed} {e : Event}

theorem installed?_eq_some_iff {d : PairDirectory} : s.installed? e = some d ↔
    ∃ id, e = .move (.advance id) ∧ s.machine.performs? id = some (.replacePairs d) := by
  unfold installed?
  constructor
  · intro h
    split at h
    · next id =>
      split at h
      · next d' hperforms =>
        obtain rfl := Option.some.inj h
        exact ⟨id, rfl, hperforms⟩
      · cases h
    · cases h
  · rintro ⟨id, rfl, hperforms⟩
    simp only [hperforms]

/-- A replacement of the pairs starts the prices, whoever is to poll. -/
theorem isPolling_of_installed? {d : PairDirectory} (h : s.installed? e = some d) :
    (s.step settings e).machine.isPolling .prices = true := by
  obtain ⟨id, rfl, hperforms⟩ := installed?_eq_some_iff.mp h
  obtain ⟨t, outcome, due, todo, ht, hp, hdue⟩ := performs?_eq_some_iff.mp hperforms
  have hstep : (s.step settings (.move (.advance id))).machine = _ :=
    advance_of_acting (b := settings.behaviour) ht hp hdue
  rw [hstep]
  have hpolling : (s.machine.performAction settings.behaviour (.replacePairs d)).isPolling .prices =
      true := isPolling_performAction s.machine rfl
  exact hpolling

theorem not_starts_advance {id : TaskId}
    (h : feed ≠ .prices ∨ s.installed? (.move (.advance id)) = none) :
    ¬ Starts settings.behaviour s.machine feed (.move (.advance id)) := by
  rintro ⟨t, outcome, due, a, todo, ht, hp, hdue, hrestarts⟩
  have hperforms : s.machine.performs? id = some a :=
    performs?_eq_some_iff.mpr ⟨t, outcome, due, todo, ht, hp, hdue⟩
  cases a with
  | replacePairs d =>
    have hinstalled : s.installed? (.move (.advance id)) = some d :=
      installed?_eq_some_iff.mpr ⟨id, rfl, hperforms⟩
    rcases h with hfeed | hnone
    · exact hfeed (Option.some.inj hrestarts).symm
    · cases hnone.symm.trans hinstalled
  | _ => cases hrestarts

/-- A desk that leaves polling to others gives no feed a loop but the prices, and these only by replacing
the pairs. -/
theorem inherits_replica (hreplica : settings.isReplica = true)
    (h : feed ≠ .prices ∨ s.installed? e = none) :
    Inherits feed false s.machine (s.step settings e).machine := by
  have of_silent : e.asks = false → (∀ id, e ≠ .move (.advance id)) →
      Inherits feed false s.machine (s.step settings e).machine := by
    intro hsilent hbeside
    obtain ⟨es, hes, hallows⟩ := exists_step_run settings s e
    rw [hes]
    refine (unstarted_of_beside fun x hx => ⟨?_, ?_⟩).inherits
    · rintro f rfl
      cases (hallows _ hx).asks hsilent
    · exact fun id hid => hbeside id ((hallows x hx).moves id hid)
  cases e with
  | move v =>
    cases v with
    | advance id => exact inherits_advance (not_starts_advance h)
    | beginAgain id => exact of_silent rfl fun _ h => by cases h
    | elapse ms => exact of_silent rfl fun _ h => by cases h
  | start =>
    have hsame : (s.step settings .start).machine = s.machine := by
      have hdesk : (s.desk settings).settings.isReplica = true := hreplica
      change (s.desk settings).start.runner.machine = s.machine
      rw [Desk.start, if_pos hdesk]
      rfl
    rw [hsame]
    exact .refl _
  | call f => exact inherits_call s.machine fun h => by cases h
  | _ => exact of_silent rfl fun _ h => by cases h

theorem calledOnly_run (hreplica : settings.isReplica = true) (hs : CalledOnly feed s.machine)
    {es : List Event} (h : feed ≠ .prices ∨ s.installs settings es = []) :
    CalledOnly feed (s.run settings es).machine := by
  induction es generalizing s with
  | nil => exact hs
  | cons e es ih =>
    have hsplit : feed ≠ .prices ∨ (s.installed? e = none ∧
        (s.step settings e).installs settings es = []) :=
      h.imp_right fun hnone => by simpa [installs, log] using hnone
    exact ih (hs.inherits (inherits_replica hreplica (hsplit.imp_right And.left)))
      (hsplit.imp_right And.right)

/-- All along some events nothing is polled, and whatever takes a reply of the maker is a cycle that was
called for. -/
def LeavesPolling (settings : Settings) (s : Session) (es : List Event) : Prop :=
  ∀ before after, es = before ++ after →
    (((s.run settings before).desk settings).isPolling = false ∧
      ((s.run settings before).desk settings).isPricesPolling = false ∧
      ∀ feed, (s.run settings before).machine.isPolling feed = false) ∧
    ∀ id feed, (s.run settings before).machine.receives? id = some feed →
      ∃ t, (s.run settings before).machine.task? id = some t ∧ t.feed = feed ∧ t.isLoop = false

/-- In a run of a desk that leaves polling to others, tokens, pairs and denied users are never polled, and
their requests are all called for. The prices are no different, exactly as long as no cycle that was
called for has replaced the pairs: that one starts to poll them. -/
theorem leavesPolling_iff (settings : Settings) (hreplica : settings.isReplica = true)
    (verifier : Verifier) (es : List Event) :
    (∀ feed, feed ≠ .prices → CalledOnly feed ((initial verifier).run settings es).machine) ∧
    (LeavesPolling settings (initial verifier) es ↔ (initial verifier).installs settings es = []) := by
  have hinitial : ∀ feed, CalledOnly feed (initial verifier).machine :=
    fun feed => calledOnly_initial feed _
  refine ⟨fun feed hfeed => calledOnly_run hreplica (hinitial feed) (.inl hfeed), ?_, ?_⟩
  · intro hleaves
    by_contra hinstalls
    obtain ⟨d, hd⟩ := List.exists_mem_of_ne_nil _ hinstalls
    obtain ⟨before, e, after, rfl, hinstalled⟩ := mem_log_iff.mp hd
    have hoff := (hleaves (before ++ [e]) after (by simp)).1.2.2 .prices
    rw [run_append] at hoff
    cases hoff.symm.trans (isPolling_of_installed? hinstalled)
  · rintro hnone before after rfl
    have hbefore : (initial verifier).installs settings before = [] := by
      rw [installs, log_append] at hnone
      exact (List.append_eq_nil_iff.mp hnone).1
    have hcalled : ∀ feed, CalledOnly feed ((initial verifier).run settings before).machine :=
      fun feed => calledOnly_run hreplica (hinitial feed) (.inr hbefore)
    refine ⟨⟨?_, (hcalled .prices).unpolled, fun feed => (hcalled feed).unpolled⟩, ?_⟩
    · exact Bool.or_eq_false_iff.mpr ⟨(hcalled .tokens).unpolled, (hcalled .pairs).unpolled⟩
    · intro id feed hr
      obtain ⟨t, due, ht, -, -, hfeed⟩ := receives?_eq_some_iff.mp hr
      exact ⟨t, ht, hfeed, (hcalled feed).calls id t ht hfeed⟩

def refreshed : List Event :=
  [.upstream [((Settings.brisk.feedRequest .pairs).url, .ok noPairs)] [], .call .tokens] ++
    List.replicate 4 (.move (.advance 0)) ++ [.collect 0, .call .pairs] ++
    List.replicate 4 (.move (.advance 1))

/-- Until the pairs are replaced nothing is polled, and then the prices are. -/
theorem leavesPolling_iff_refreshed :
    let settings : Settings := { Settings.brisk with isReplica := true }
    settings.isReplica = true ∧ LeavesPolling settings (initial (.fixed true [])) (refreshed.take 11) ∧
      ¬ LeavesPolling settings (initial (.fixed true [])) refreshed := by
  intro settings
  have hreplica : settings.isReplica = true := rfl
  have hbefore := (leavesPolling_iff settings hreplica (.fixed true []) (refreshed.take 11)).2
  have hafter := (leavesPolling_iff settings hreplica (.fixed true []) refreshed).2
  have hnone : (initial (.fixed true [])).installs settings (refreshed.take 11) = [] := by cbv
  have hsome : ((initial (.fixed true [])).installs settings refreshed).length = 1 := by cbv
  refine ⟨hreplica, hbefore.mpr hnone, fun hleaves => ?_⟩
  rw [hafter.mp hleaves] at hsome
  cases hsome

/-- A desk that leaves polling to others polls prices once it has been refreshed. -/
theorem not_leavesPolling : ¬ ∀ settings verifier es, settings.isReplica = true →
    LeavesPolling settings (initial verifier) es := by
  intro hleaves
  let settings : Settings := { Settings.brisk with isReplica := true }
  have hoff := (hleaves settings (.fixed true []) refreshed rfl refreshed [] (by simp)).1.2.1
  have hpolling : (((initial (.fixed true [])).run settings refreshed).desk
      settings).isPricesPolling = true := by cbv
  cases hoff.symm.trans hpolling

end Session
end QuoteDesk
