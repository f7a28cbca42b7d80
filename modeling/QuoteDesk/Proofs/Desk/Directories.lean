import QuoteDesk.Proofs.Desk.Handled
import QuoteDesk.Proofs.Listing.Valid
/-!
What cycles leave behind. A cycle whose request fails or whose payload is not valid changes no
directory, no key of the cache and no polling. The others replace a directory as a whole, so at any
moment of a run each directory is built from the latest valid payload of its feed alone.
-/
namespace QuoteDesk

inductive Settings.Fails (settings : Settings) (w : State) (feed : Feed) : CycleOutcome → Prop where
  | request {e} (h : w.maker.replyAt (settings.feedRequest feed).url = .error e) :
      Fails settings w feed .requestError
  | validation {body} (h : w.maker.replyAt (settings.feedRequest feed).url = .ok body)
      (hbad : ¬ Listing.IsValid body feed) : Fails settings w feed .validationError

theorem State.receive_of_fails {settings : Settings} {w : State} {feed : Feed}
    {outcome : CycleOutcome} (h : settings.Fails w feed outcome) :
    receive settings feed w = (outcome, [],
      { w with
        maker := (w.maker.answer (settings.feedRequest feed)).2
        metrics := w.metrics.countReply feed }) := by
  cases h with
  | request h => simp only [receive, ask, Maker.answer, h]
  | @validation body h hbad =>
    simp only [receive, ask, Maker.answer, h]
    split
    · rfl
    · next todo htodo =>
      exact absurd ((FeedAction.exists_ofBody_iff _ body feed).mp ⟨todo, htodo⟩) hbad

namespace Session

open Machine

variable {settings : Settings} {s : Session} {id : TaskId} {feed : Feed} {outcome : CycleOutcome}

theorem kept_run {t : Task FeedAction} {es : List Event} (hes : ∀ e ∈ es, e ≠ .move (.advance id))
    (ht : s.machine.task? id = some t) (hp : t.phase.InLine) :
    ∃ t', (s.run settings es).machine.task? id = some t' ∧ Kept t t' := by
  induction es generalizing s t with
  | nil => exact ⟨t, ht, .refl t⟩
  | cons e es ih =>
    obtain ⟨xs, hxs, hallows⟩ := exists_step_run settings s e
    have hstay : ∀ x ∈ xs, x ≠ .move (.advance id) := fun x hx heq =>
      hes e List.mem_cons_self ((hallows x hx).moves id heq)
    obtain ⟨t', ht', hkept⟩ := Machine.kept_run hstay ht hp
    obtain ⟨t'', ht'', hkept'⟩ := ih (s := s.step settings e)
      (fun x hx => hes x (List.mem_cons_of_mem e hx)) (hxs ▸ ht') (hkept.phase.symm ▸ hp)
    exact ⟨t'', ht'', hkept.trans hkept'⟩

/-- A cycle goes by and leaves nothing but its counters: the reply is timed, and the next step of the
task, whatever comes before it, counts the outcome. -/
structure PassesBy (settings : Settings) (s : Session) (id : TaskId) (feed : Feed)
    (outcome : CycleOutcome) : Prop where
  reply : (s.step settings (.move (.advance id))).machine.world =
    { s.machine.world with
      maker := (s.machine.world.maker.answer (settings.feedRequest feed)).2
      metrics := s.machine.world.metrics.countReply feed }
  polling : (s.step settings (.move (.advance id))).machine.live = s.machine.live
  close : ∀ since, (∀ e ∈ since, e ≠ .move (.advance id)) →
    let s' := (s.step settings (.move (.advance id))).run settings since
    (s'.step settings (.move (.advance id))).machine.world =
        { s'.machine.world with metrics := s'.machine.world.metrics.countCycle feed outcome } ∧
      (s'.step settings (.move (.advance id))).machine.live = s'.machine.live

theorem passesBy_of_fails (hr : s.machine.receives? id = some feed)
    (hfails : settings.Fails s.machine.world feed outcome) :
    s.PassesBy settings id feed outcome := by
  obtain ⟨t, ht, rfl, hstep⟩ := advance_of_receives (b := settings.behaviour) hr
  have hreceive : settings.behaviour.receive t.feed s.machine.world = _ :=
    State.receive_of_fails hfails
  rw [hreceive] at hstep
  change (s.step settings (.move (.advance id))).machine = _ at hstep
  refine ⟨by rw [hstep]; rfl, by rw [hstep]; rfl, ?_⟩
  intro since hsince s'
  have hat : (s.step settings (.move (.advance id))).machine.task? id =
      some { t with phase := .acting outcome s.machine.now [] } := by
    rw [hstep]
    exact task?_setPhase_self (m := s.machine.mapWorld _) ht _
  have hlater : ∃ t', s'.machine.task? id = some t' ∧ Kept _ t' := kept_run hsince hat trivial
  obtain ⟨t', ht', hkept⟩ := hlater
  have hdone : (s'.step settings (.move (.advance id))).machine =
      s'.machine.finish settings.behaviour t' outcome :=
    advance_of_done ht' hkept.phase
  have hfeed : t'.feed = t.feed := hkept.feed
  rw [hdone, ← hfeed]
  exact ⟨world_finish _ _ t' outcome, live_finish _ _ t' outcome⟩

theorem step_of_beforeRequest {t : Task FeedAction} (ht : s.machine.task? id = some t)
    (hp : t.phase.BeforeRequest) :
    (s.step settings (.move (.advance id))).machine.world = s.machine.world ∧
      (s.step settings (.move (.advance id))).machine.live = s.machine.live := by
  change (s.machine.advance settings.behaviour id).world = s.machine.world ∧
    (s.machine.advance settings.behaviour id).live = s.machine.live
  rcases advance_cases settings.behaviour s.machine id with hsame | ⟨t', ht', hstep⟩
  · rw [hsame]
    exact ⟨rfl, rfl⟩
  · obtain rfl := Option.some.inj (ht.symm.trans ht')
    generalize s.machine.advance settings.behaviour id = m' at hstep
    cases hstep with
    | join _ => exact ⟨rfl, rfl⟩
    | ask _ _ => exact ⟨rfl, rfl⟩
    | receive hphase | perform hphase | conclude hphase | rest hphase | quit hphase | leave hphase
    | again hphase =>
      rw [hphase] at hp
      exact hp.elim

end Session

def TokenDirectory.ofPayload? (body : Json) : Option TokenDirectory :=
  (Listing.tokens body).toOption.map fun t => .ofTable (t.mapValues TokenEntry.toToken)

def PairDirectory.ofPayload? (body : Json) : Option PairDirectory :=
  (Listing.pairs body).toOption.map (⟨·⟩)

/-- A kind of directory: the feed that brings it, how a payload builds it, the action that puts it in
place, and the place. -/
structure Shelf (D : Type) where
  feed : Feed
  ofPayload? : Json → Option D
  install : D → FeedAction
  view : State → D
  feed_install : ∀ d, (install d).feed = feed
  ofBody_eq : ∀ w body, (FeedAction.ofBody w body feed).toOption =
    (ofPayload? body).map fun d => [install d]
  view_install : ∀ settings d now w, view ((install d).perform settings now w) = d
  view_perform : ∀ settings a now w, (∀ d, a ≠ install d) → view (a.perform settings now w) = view w
  view_eq : ∀ w w' : State, w'.tokens = w.tokens → w'.pairs = w.pairs → view w' = view w

namespace Shelf

def tokens : Shelf TokenDirectory where
  feed := .tokens
  ofPayload? := TokenDirectory.ofPayload?
  install := .replaceTokens
  view := State.tokens
  feed_install _ := rfl
  ofBody_eq w body := by
    simp only [FeedAction.ofBody, TokenDirectory.ofPayload?]
    cases Listing.tokens body <;> rfl
  view_install _ _ _ _ := rfl
  view_perform settings a now w ha := by
    cases a with
    | replaceTokens d => exact absurd rfl (ha d)
    | _ => rfl
  view_eq w w' htokens _ := htokens

def pairs : Shelf PairDirectory where
  feed := .pairs
  ofPayload? := PairDirectory.ofPayload?
  install := .replacePairs
  view := State.pairs
  feed_install _ := rfl
  ofBody_eq w body := by
    simp only [FeedAction.ofBody, PairDirectory.ofPayload?]
    cases Listing.pairs body <;> rfl
  view_install _ _ _ _ := rfl
  view_perform settings a now w ha := by
    cases a with
    | replacePairs d => exact absurd rfl (ha d)
    | _ => rfl
  view_eq w w' _ hpairs := hpairs

variable {D : Type} {k : Shelf D}

theorem install_injective (k : Shelf D) {d d' : D} (h : k.install d = k.install d') :
    d = d' := by
  have hperform := k.view_install .brisk d 0 (.initial (.fixed true []))
  rw [h, k.view_install] at hperform
  exact hperform.symm

theorem isSome_ofPayload?_iff (k : Shelf D) (body : Json) :
    (k.ofPayload? body).isSome = true ↔ Listing.IsValid body k.feed := by
  have hsome : (k.ofPayload? body).isSome =
      (FeedAction.ofBody (.initial (.fixed true [])) body k.feed).toOption.isSome := by
    rw [k.ofBody_eq, Option.isSome_map]
  rw [← FeedAction.exists_ofBody_iff (.initial (.fixed true [])), hsome]
  cases FeedAction.ofBody (.initial (.fixed true [])) body k.feed with
  | error e => exact ⟨nofun, nofun⟩
  | ok todo => exact ⟨fun _ => ⟨todo, rfl⟩, fun _ => rfl⟩

theorem receive_todo (k : Shelf D) (settings : Settings) (w : State) :
    (State.receive settings k.feed w).2.1 =
      (((w.maker.replyAt (settings.feedRequest k.feed).url).toOption.bind k.ofPayload?).map
        k.install).toList := by
  simp only [State.receive, State.ask, Maker.answer]
  cases w.maker.replyAt (settings.feedRequest k.feed).url with
  | error e => rfl
  | ok body =>
    have hbody := k.ofBody_eq
      { w with
        maker := { w.maker with answered := settings.feedRequest k.feed :: w.maker.answered }
        metrics := w.metrics.countReply k.feed } body
    simp only [Except.toOption, Option.bind_some] at hbody ⊢
    cases hread : k.ofPayload? body with
    | none =>
      rw [hread] at hbody
      split at hbody
      · cases hbody
      · next hrefused => rw [hrefused]; rfl
    | some d =>
      rw [hread] at hbody
      split at hbody
      · next todo htodo =>
        rw [htodo]
        exact Option.some.inj hbody
      · cases hbody

end Shelf

namespace Session

open Machine

def payload? (settings : Settings) (feed : Feed) (s : Session) : Event → Option Json
  | .move (.advance id) =>
    if s.machine.receives? id = some feed then
      (s.machine.world.maker.replyAt (settings.feedRequest feed).url).toOption
    else none
  | _ => none

def payloads (settings : Settings) (feed : Feed) (s : Session) (es : List Event) : List Json :=
  s.log settings (payload? settings feed) es

/-- The latest of the directories that have come is in place, or its replacement is still to be done
and the one before it is in place. -/
structure IsLatest {D : Type} (come : List D) (awaits : D → Prop) (current empty : D) : Prop where
  settled : (∀ d, ¬ awaits d) → current = come.getLast?.getD empty
  awaiting : ∀ d, awaits d → ∃ earlier, come = earlier ++ [d] ∧
    current = earlier.getLast?.getD empty

/-- Where the directories of a kind stand between two steps: at most one task has one to put in place,
and nothing else to do. -/
inductive Stands {D : Type} (k : Shelf D) (empty : D) (come : List D)
    (m : Machine State FeedAction) : Prop where
  | settled (hnone : ∀ id d, k.install d ∉ m.todo id)
      (hview : k.view m.world = come.getLast?.getD empty)
  | awaiting {id d earlier} (htodo : m.todo id = [k.install d])
      (hothers : ∀ i, i ≠ id → ∀ x, k.install x ∉ m.todo i) (hcome : come = earlier ++ [d])
      (hview : k.view m.world = earlier.getLast?.getD empty)

variable {D : Type} {k : Shelf D} {empty : D} {come : List D} {m m' : Machine State FeedAction}
  {settings : Settings} {s : Session} {id : TaskId}

theorem Stands.isLatest (h : Stands k empty come m) :
    IsLatest come (fun d => ∃ id, k.install d ∈ m.todo id) (k.view m.world) empty := by
  cases h with
  | settled hnone hview =>
    exact ⟨fun _ => hview, fun d ⟨id, hd⟩ => absurd hd (hnone id d)⟩
  | @awaiting id d earlier htodo hothers hcome hview =>
    constructor
    · intro hnone
      exact absurd ⟨id, htodo ▸ List.mem_singleton_self _⟩ (hnone d)
    · rintro x ⟨i, hx⟩
      by_cases hi : i = id
      · rw [hi, htodo, List.mem_singleton] at hx
        obtain rfl := k.install_injective hx
        exact ⟨earlier, hcome, hview⟩
      · exact absurd hx (hothers i hi x)

theorem Stands.of_still (h : Stands k empty come m) (htodo : ∀ i, m'.todo i = m.todo i)
    (hview : k.view m'.world = k.view m.world) : Stands k empty come m' := by
  cases h with
  | settled hnone hcurrent =>
    exact .settled (fun i d => htodo i ▸ hnone i d) (hview.trans hcurrent)
  | @awaiting id d earlier hawaits hothers hcome hcurrent =>
    exact .awaiting ((htodo id).trans hawaits) (fun i hi x => htodo i ▸ hothers i hi x) hcome
      (hview.trans hcurrent)

/-- What a task does that has nothing of the kind to do before and after does not count. -/
theorem Stands.of_elsewhere (h : Stands k empty come m) (hbefore : ∀ d, k.install d ∉ m.todo id)
    (hafter : ∀ d, k.install d ∉ m'.todo id) (hothers : ∀ i, i ≠ id → m'.todo i = m.todo i)
    (hview : k.view m'.world = k.view m.world) : Stands k empty come m' := by
  have hinstall : ∀ i x, k.install x ∉ m.todo i → k.install x ∉ m'.todo i := by
    intro i x hx
    by_cases hi : i = id
    · exact hi ▸ hafter x
    · exact hothers i hi ▸ hx
  cases h with
  | settled hnone hcurrent =>
    exact .settled (fun i d => hinstall i d (hnone i d)) (hview.trans hcurrent)
  | @awaiting j d earlier hawaits hnone hcome hcurrent =>
    have hj : j ≠ id := by
      rintro rfl
      exact hbefore d (hawaits ▸ List.mem_singleton_self _)
    exact .awaiting ((hothers j hj).trans hawaits) (fun i hi x => hinstall i x (hnone i hi x)) hcome
      (hview.trans hcurrent)

/-- A task that has a directory to put in place has the turn of its feed. -/
theorem head?_of_install (hm : Consistent settings.behaviour m) {d : D}
    (hd : k.install d ∈ m.todo id) : (m.line.get k.feed).head? = some id := by
  cases ht : m.task? id with
  | none =>
    rw [todo_of_none ht] at hd
    cases hd
  | some t =>
    rw [todo_of_task? ht] at hd
    cases hp : t.phase with
    | acting outcome due todo =>
      rw [hp] at hd
      obtain ⟨w, hreceived⟩ := hm.todo_received id t outcome due todo ht hp _ hd
      have hfeed : k.feed = t.feed :=
        (k.feed_install d).symm.trans (State.feed_of_mem_receive hreceived)
      rw [hfeed]
      exact hm.cycle_first id t ht (by simp [hp, Phase.InCycle])
    | _ =>
      rw [hp] at hd
      cases hd

theorem head?_of_receives (hm : Consistent settings.behaviour m) {feed : Feed}
    (hr : m.receives? id = some feed) : (m.line.get feed).head? = some id := by
  obtain ⟨t, due, ht, hp, -, rfl⟩ := receives?_eq_some_iff.mp hr
  exact hm.cycle_first id t ht (by simp [hp, Phase.InCycle])

theorem Stands.received (h : Stands k empty come m) (hm : Consistent settings.behaviour m)
    (hr : m.receives? id = some k.feed) (hidle : m.todo id = []) {new : Option D}
    (htodo : m'.todo id = (new.map k.install).toList) (hothers : ∀ i, i ≠ id → m'.todo i = m.todo i)
    (hview : k.view m'.world = k.view m.world) : Stands k empty (come ++ new.toList) m' := by
  have hbefore : ∀ d, k.install d ∉ m.todo id := fun d => hidle ▸ List.not_mem_nil
  cases new with
  | none =>
    rw [Option.toList_none, List.append_nil]
    exact h.of_elsewhere hbefore (fun d => htodo ▸ List.not_mem_nil) hothers hview
  | some d =>
    cases h with
    | settled hnone hcurrent =>
      exact .awaiting htodo (fun i hi x => hothers i hi ▸ hnone i x) rfl (hview.trans hcurrent)
    | @awaiting j x earlier hawaits _ _ _ =>
      have hx : k.install x ∈ m.todo j := hawaits ▸ List.mem_singleton_self _
      have hturn := head?_of_install hm hx
      obtain rfl := Option.some.inj (hturn.symm.trans (head?_of_receives hm hr))
      exact absurd hx (hbefore x)

theorem Stands.installed (h : Stands k empty come m) {d : D}
    (htodo : m.todo id = k.install d :: m'.todo id) (hothers : ∀ i, i ≠ id → m'.todo i = m.todo i)
    (hview : k.view m'.world = d) : Stands k empty come m' := by
  have hmem : k.install d ∈ m.todo id := htodo ▸ List.mem_cons_self
  cases h with
  | settled hnone _ => exact absurd hmem (hnone id d)
  | @awaiting j x earlier hawaits hnone hcome _ =>
    obtain rfl : id = j := by
      by_contra hj
      exact hnone id hj d hmem
    obtain ⟨hsame, hrest⟩ := List.cons.inj (hawaits.symm.trans htodo)
    obtain rfl := k.install_injective hsame
    refine .settled (fun i y => ?_) (hview.trans (by simp [hcome]))
    by_cases hi : i = id
    · rw [hi, ← hrest]
      exact List.not_mem_nil
    · exact hothers i hi ▸ hnone i hi y

/-- A task whose next action puts nothing in place has nothing to put there later either. -/
theorem Stands.not_mem_todo (h : Stands k empty come m) {a : FeedAction} {rest : List FeedAction}
    (htodo : m.todo id = a :: rest) (ha : ∀ d, a ≠ k.install d) (d : D) :
    k.install d ∉ m.todo id := by
  cases h with
  | settled hnone _ => exact hnone id d
  | @awaiting j x earlier hawaits hnone _ _ =>
    by_cases hj : id = j
    · rw [hj, hawaits] at htodo
      exact absurd (List.cons.inj htodo).1.symm (ha x)
    · exact hnone id hj d

theorem Stands.performed (h : Stands k empty come m) {a : FeedAction} {now : Nat}
    (htodo : m.todo id = a :: m'.todo id) (hothers : ∀ i, i ≠ id → m'.todo i = m.todo i)
    (hview : k.view m'.world = k.view (a.perform settings now m.world)) :
    Stands k empty come m' := by
  by_cases ha : ∃ d, a = k.install d
  · obtain ⟨d, rfl⟩ := ha
    exact h.installed htodo hothers (hview.trans (k.view_install _ _ _ _))
  · have hother : ∀ d, a ≠ k.install d := fun d heq => ha ⟨d, heq⟩
    have hbefore := h.not_mem_todo htodo hother
    exact h.of_elsewhere hbefore (fun d hd => hbefore d (htodo ▸ List.mem_cons_of_mem a hd))
      hothers (hview.trans (k.view_perform settings a _ _ hother))

theorem Stands.advance (h : Stands k empty come s.machine)
    (hm : Consistent settings.behaviour s.machine) (id : TaskId) :
    Stands k empty
      (come ++ ((s.payload? settings k.feed (.move (.advance id))).bind k.ofPayload?).toList)
      (s.machine.advance settings.behaviour id) := by
  obtain ⟨hothers, heffect⟩ := advance_effect settings.behaviour s.machine id
  have silent : s.machine.receives? id ≠ some k.feed →
      come ++ ((s.payload? settings k.feed (.move (.advance id))).bind k.ofPayload?).toList =
        come := by
    intro hr
    simp [payload?, hr]
  have same_todo : (s.machine.advance settings.behaviour id).todo id = s.machine.todo id →
      ∀ i, (s.machine.advance settings.behaviour id).todo i = s.machine.todo i := by
    intro htodo i
    by_cases hi : i = id
    · exact hi ▸ htodo
    · exact hothers i hi
  cases heffect with
  | still hr htodo hworld =>
    rw [silent (by simp [hr])]
    exact h.of_still (same_todo htodo) (congrArg k.view hworld)
  | settled hr htodo hworld =>
    rw [silent (by simp [hr])]
    exact h.of_still (same_todo htodo)
      (k.view_eq _ _ (by rw [hworld]; rfl) (by rw [hworld]; rfl))
  | @received feed hr hidle htodo hworld =>
    obtain ⟨htokens, hpairs, -⟩ := State.receive_keeps settings feed s.machine.world
    have hview : k.view (s.machine.advance settings.behaviour id).world = k.view s.machine.world :=
      k.view_eq _ _ (by rw [hworld]; exact htokens) (by rw [hworld]; exact hpairs)
    by_cases hfeed : feed = k.feed
    · subst hfeed
      have hpayload : s.payload? settings k.feed (.move (.advance id)) =
          (s.machine.world.maker.replyAt (settings.feedRequest k.feed).url).toOption := if_pos hr
      rw [hpayload]
      exact h.received hm hr hidle (htodo.trans (k.receive_todo settings s.machine.world)) hothers
        hview
    · rw [silent (by simpa [hr] using hfeed)]
      refine h.of_elsewhere (fun d => hidle ▸ List.not_mem_nil) (fun d hd => hfeed ?_) hothers hview
      rw [htodo] at hd
      exact (State.feed_of_mem_receive hd).symm.trans (k.feed_install d)
  | @performed hr a htodo hworld =>
    rw [silent (by simp [hr])]
    exact h.performed htodo hothers (congrArg k.view hworld)

theorem Stands.step (h : Stands k empty come s.machine)
    (hm : Consistent settings.behaviour s.machine) (e : Event) :
    Stands k empty (come ++ ((s.payload? settings k.feed e).bind k.ofPayload?).toList)
      (s.step settings e).machine := by
  by_cases he : ∃ id, e = .move (.advance id)
  · obtain ⟨id, rfl⟩ := he
    exact h.advance hm id
  · have hother : ∀ id, e ≠ .move (.advance id) := fun id heq => he ⟨id, heq⟩
    have hnone : s.payload? settings k.feed e = none := by
      unfold payload?
      split
      · next id => exact absurd rfl (hother id)
      · rfl
    have haside := aside_step settings s e hother
    rw [hnone, Option.bind_none, Option.toList_none, List.append_nil]
    exact h.of_still haside.todo (k.view_eq _ _ haside.world.tokens haside.world.pairs)

theorem Stands.run (h : Stands k empty come s.machine)
    (hm : Consistent settings.behaviour s.machine) (es : List Event) :
    Stands k empty (come ++ (s.payloads settings k.feed es).filterMap k.ofPayload?)
      (s.run settings es).machine := by
  induction es generalizing s come with
  | nil => simpa [payloads, log] using h
  | cons e es ih =>
    have hrest := ih (h.step hm e) (consistent_step hm e)
    have hcons : s.payloads settings k.feed (e :: es) =
        (s.payload? settings k.feed e).toList ++ (s.step settings e).payloads settings k.feed es :=
      rfl
    have hfirst : (s.payload? settings k.feed e).toList.filterMap k.ofPayload? =
        ((s.payload? settings k.feed e).bind k.ofPayload?).toList := by
      cases s.payload? settings k.feed e with
      | none => rfl
      | some body => cases hbody : k.ofPayload? body <;> simp [hbody]
    rw [hcons, List.filterMap_append, hfirst, ← List.append_assoc]
    exact hrest

theorem stands_initial (k : Shelf D) (settings : Settings) (verifier : Verifier)
    (hempty : k.view (State.initial verifier) = empty) (es : List Event) :
    Stands k empty (((initial verifier).payloads settings k.feed es).filterMap k.ofPayload?)
      ((initial verifier).run settings es).machine := by
  have hstart : Stands k empty [] (initial verifier).machine :=
    .settled (fun _ _ => List.not_mem_nil) hempty
  simpa using hstart.run (.initial _) es

/-- At any moment of a run, in whatever order the feeds are polled and whatever the maker replies: no
cycle changes anything before its reply; one whose reply fails goes by and leaves nothing but its
counters; and either directory is the one that the latest valid payload of its feed builds, all others
forgotten. -/
theorem directories_of_payloads (settings : Settings) (verifier : Verifier) (es : List Event) :
    let s := (initial verifier).run settings es
    (∀ id t, s.machine.task? id = some t → t.phase.BeforeRequest →
      (s.step settings (.move (.advance id))).machine.world = s.machine.world ∧
        (s.step settings (.move (.advance id))).machine.live = s.machine.live) ∧
    (∀ id feed outcome, s.machine.receives? id = some feed →
      settings.Fails s.machine.world feed outcome → s.PassesBy settings id feed outcome) ∧
    (∀ body, (TokenDirectory.ofPayload? body).isSome = true ↔ Listing.IsValid body .tokens) ∧
    (∀ body, (PairDirectory.ofPayload? body).isSome = true ↔ Listing.IsValid body .pairs) ∧
    IsLatest (((initial verifier).payloads settings .tokens es).filterMap TokenDirectory.ofPayload?)
      (fun d => ∃ id, .replaceTokens d ∈ s.machine.todo id) s.machine.world.tokens .empty ∧
    IsLatest (((initial verifier).payloads settings .pairs es).filterMap PairDirectory.ofPayload?)
      (fun d => ∃ id, .replacePairs d ∈ s.machine.todo id) s.machine.world.pairs .empty := by
  intro s
  refine ⟨fun id t ht hp => step_of_beforeRequest ht hp,
    fun id feed outcome hr hfails => passesBy_of_fails hr hfails,
    Shelf.tokens.isSome_ofPayload?_iff, Shelf.pairs.isSome_ofPayload?_iff, ?_, ?_⟩
  · exact (stands_initial .tokens settings verifier rfl es).isLatest
  · exact (stands_initial .pairs settings verifier rfl es).isLatest

/-- One token of two has an address that is none. -/
def spoiltTokens : Json :=
  .object [("tokens", .object [listedToken "A" baseAddress, listedToken "C" "0x"])]

/-- A cycle of the tokens, and another one that has a spoilt payload before it. -/
def spoilt : List Event :=
  publication :: .call .tokens :: List.replicate 5 (.move (.advance 0)) ++
    .call .tokens :: List.replicate 2 (.move (.advance 1)) ++
    [.upstream [((Settings.brisk.feedRequest .tokens).url, .ok spoiltTokens)] []]

theorem fails_spoilt : Settings.brisk.Fails
    ((initial (.fixed true [])).run .brisk spoilt).machine.world .tokens .validationError := by
  have hreply : ((initial (.fixed true [])).run .brisk spoilt).machine.world.maker.replyAt
      (Settings.brisk.feedRequest .tokens).url = .ok spoiltTokens := by
    rw [spoilt, run_append]
    simp [step, withMachine, mapWorld, Maker.replyAt, Maker.lookup]
  refine .validation hreply fun hvalid => ?_
  obtain ⟨todo, htodo⟩ := (FeedAction.exists_ofBody_iff (.initial (.fixed true [])) _ _).mpr hvalid
  have hrefused : (FeedAction.ofBody (.initial (.fixed true [])) spoiltTokens
      .tokens).toOption.isNone = true := by decide +kernel
  rw [htodo] at hrefused
  cases hrefused

theorem directories_of_payloads_spoilt :
    let s := (initial (.fixed true [])).run .brisk spoilt
    s.machine.receives? 1 = some .tokens ∧
      Settings.brisk.Fails s.machine.world .tokens .validationError ∧
      s.PassesBy .brisk 1 .tokens .validationError ∧ s.machine.world.tokens.size = 2 := by
  intro s
  have hr : s.machine.receives? 1 = some .tokens := by decide +kernel
  obtain ⟨-, hpasses, -⟩ := directories_of_payloads .brisk (.fixed true []) spoilt
  exact ⟨hr, fails_spoilt, hpasses 1 .tokens .validationError hr fails_spoilt, by decide +kernel⟩

end Session
end QuoteDesk
