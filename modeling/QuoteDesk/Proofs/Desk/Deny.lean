import Mathlib
import QuoteDesk.Proofs.Desk.Session
import QuoteDesk.Proofs.Order.Effects
/-!
Who is denied. The deny set has two writers: cycles of the deny feed, which add the addresses of a
listing one by one, and preparations whose user the maker refuses as restricted. Whatever the order
of events, the set holds what they have reported and nothing else, up to letter case and blanks; it
never loses an address, and a denied user never reaches the maker again.
-/
namespace QuoteDesk

/-- The addresses of the deny listing that the maker publishes now, if it would be accepted. -/
def Settings.listed (settings : Settings) (w : State) : List String :=
  match w.maker.replyAt (settings.feedRequest .blacklist).url with
  | .error _ => []
  | .ok body =>
    match Listing.blacklist body with
    | .error _ => []
    | .ok addresses => addresses

def Pending.restricted (settings : Settings) (w : State) (p : Pending) : List String :=
  match w.maker.replyAt settings.firmUrl with
  | .error e => if PrepareError.isRestricted (.request e) then [p.swap.user] else []
  | .ok _ => []

def Denies (todo : List FeedAction) (address : String) : Prop :=
  ∃ x, FeedAction.deny x ∈ todo ∧ Text.normalize x = Text.normalize address

theorem not_denies_nil (address : String) : ¬ Denies [] address := nofun

theorem denies_cons_deny {x address : String} {todo : List FeedAction} :
    Denies (.deny x :: todo) address ↔ Covers [x] address ∨ Denies todo address := by
  simp only [Denies, List.mem_cons, FeedAction.deny.injEq, Covers, List.map_cons, List.map_nil,
    List.not_mem_nil, or_false]
  constructor
  · rintro ⟨y, rfl | hy, hn⟩
    · exact .inl hn.symm
    · exact .inr ⟨y, hy, hn⟩
  · rintro (hn | ⟨y, hy, hn⟩)
    · exact ⟨x, .inl rfl, hn.symm⟩
    · exact ⟨y, .inr hy, hn⟩

theorem denies_cons_other {a : FeedAction} {address : String} {todo : List FeedAction}
    (ha : ∀ x, a ≠ .deny x) : Denies (a :: todo) address ↔ Denies todo address := by
  simp [Denies, fun x => (ha x).symm]

namespace State

variable {settings : Settings} {w : State}

def SameDenied (settings : Settings) (w w' : State) : Prop :=
  w'.cache.slots.find? settings.scope.blacklistKey = w.cache.slots.find? settings.scope.blacklistKey

theorem SameDenied.names {w' : State} (h : SameDenied settings w w') :
    w'.deniedNames settings = w.deniedNames settings := Cache.memberNames_of_find?_eq h

theorem SameDenied.keeps {w' : State} (h : SameDenied settings w w')
    (hw : w.KeepsDenied settings) : w'.KeepsDenied settings := Cache.KeepsSet.of_find?_eq hw h

theorem deny_of_keeps (h : w.KeepsDenied settings) (now : Nat) (address : String) :
    ∃ w', w.deny now settings.scope address = (.ok (), w') ∧ w'.KeepsDenied settings ∧
      ∀ a, Covers (w'.deniedNames settings) a ↔
        Covers (w.deniedNames settings) a ∨ Covers [address] a := by
  obtain ⟨w', hdeny, heffect⟩ := effect_deny h now address
  exact ⟨w', hdeny, heffect.keeps h, heffect.covers_iff⟩

theorem sameDenied_readBook (now : Nat) (base quote : String) (side : BookSide) :
    SameDenied settings w
      { w with cache := (w.cache.readBook now settings.scope base quote side).2 } :=
  Cache.find?_get now (settings.scope.bookKey_ne_blacklistKey base quote side)

theorem sameDenied_prices (settings : Settings) (w : State) (now : Nat) (gasCost : UInt64)
    (src dest : String) (amounts : List Units) (side : SwapSide) (limit : Option (List String)) :
    SameDenied settings w { w with
      cache := (Market.prices ⟨settings.scope, gasCost, w.tokens, w.pairs⟩ w.cache now src dest
        amounts side limit).2 } := by
  unfold Market.prices
  split
  · exact rfl
  · split
    · exact sameDenied_readBook now _ _ _
    · exact rfl

theorem sameDenied_perform (settings : Settings) (w : State) {a : FeedAction}
    (ha : ∀ x, a ≠ .deny x) (now : Nat) :
    SameDenied settings w (a.perform settings now w) := by
  cases a with
  | replaceTokens d => exact rfl
  | replacePairs d => exact rfl
  | publish base quote side book =>
    exact Cache.find?_put now _ _ (settings.scope.bookKey_ne_blacklistKey base quote side)
  | deny x => exact absurd rfl (ha x)

theorem sameDenied_receive (settings : Settings) (feed : Feed) (w : State) :
    SameDenied settings w (receive settings feed w).2.2 := by
  simp only [receive]
  split
  · exact rfl
  · split <;> exact rfl

theorem denies_map_deny (addresses : List String) (address : String) :
    Denies (addresses.map .deny) address ↔ Covers addresses address := by
  simp [Denies, Covers]

theorem denies_receive (settings : Settings) (feed : Feed) (w : State) (address : String) :
    Denies (receive settings feed w).2.1 address ↔
      feed = .blacklist ∧ Covers (settings.listed w) address := by
  by_cases hfeed : feed = .blacklist
  · subst hfeed
    simp only [receive, ask, Maker.answer, true_and, Settings.listed]
    cases w.maker.replyAt (settings.feedRequest .blacklist).url with
    | error e => simp [not_denies_nil]
    | ok body =>
      simp only [FeedAction.ofBody]
      cases Listing.blacklist body with
      | error e => simp [Except.map, not_denies_nil]
      | ok addresses => exact denies_map_deny addresses address
  · have hnone : ¬ Denies (receive settings feed w).2.1 address := by
      rintro ⟨x, hx, -⟩
      exact hfeed (feed_of_mem_receive hx).symm
    simp only [hfeed, hnone, false_and]

/-- What is checked before the maker is asked leaves the deny set alone, and it stops a denied user
before the maker hears of it. -/
theorem start_of_keeps (h : w.KeepsDenied settings) (now : Nat) (swap : Swap) :
    SameDenied settings w (swap.start settings w now).2 ∧
      (Covers (w.deniedNames settings) swap.user →
        ((∃ x, (swap.start settings w now).1 = .error (.unknownToken x)) ∨
          (swap.start settings w now).1 = .error (.denied (Text.normalize swap.user))) ∧
        (swap.start settings w now).2.maker = w.maker) := by
  rcases start_cases h now swap with ⟨e, w', hstart, hstays, hstops, -⟩ | ⟨src, dest, hstart, hasks⟩
  · rw [hstart]
    refine ⟨by rw [SameDenied, hstays.cache], fun hcovers => ⟨?_, hstays.maker⟩⟩
    cases hstops with
    | unknown x => exact .inl ⟨x, rfl⟩
    | denied _ => exact .inr rfl
    | zero hfree => exact absurd hcovers hfree
  · rw [hstart]
    exact ⟨rfl, fun hcovers => absurd hcovers hasks.user⟩

theorem complete_of_keeps (h : w.KeepsDenied settings) (now : Nat) (clock : UInt64) (p : Pending) :
    (p.complete settings w now clock).2.KeepsDenied settings ∧
      ∀ a, Covers ((p.complete settings w now clock).2.deniedNames settings) a ↔
        Covers (w.deniedNames settings) a ∨ Covers (p.restricted settings w) a := by
  obtain ⟨r, -, hrefused, hother⟩ := completes h now clock p
  unfold Pending.restricted
  by_cases hrefuses : settings.Refuses w
  · have heffect := hrefused hrefuses
    obtain ⟨e, hreply, hmarker⟩ := hrefuses
    have hrestricted : PrepareError.isRestricted (.request e) = true := hmarker
    simp only [hreply, hrestricted, if_true]
    exact ⟨heffect.keeps h, heffect.covers_iff⟩
  · have hcache := (hother hrefuses).still rfl
    have hnone : p.restricted settings w = [] := by
      unfold Pending.restricted
      cases hreply : w.maker.replyAt settings.firmUrl with
      | error e => exact if_neg fun hmarker => hrefuses ⟨e, hreply, hmarker⟩
      | ok body => rfl
    rw [Pending.restricted] at hnone
    rw [hnone]
    exact ⟨(hother hrefuses).keeps h, fun a => by simp [deniedNames, hcache]⟩

end State

namespace Session

open Machine

variable {settings : Settings} {s s' s'' : Session} {names names' : List String}

def Merging (s : Session) (address : String) : Prop := ∃ id, Denies (s.machine.todo id) address

/-- The addresses that an event reports: those of a deny listing that is accepted, and the user whom
the maker refuses as restricted. -/
def reports (settings : Settings) (s : Session) : Event → List String
  | .move (.advance id) =>
    if s.machine.receives? id = some .blacklist then settings.listed s.machine.world else []
  | .reply n _ =>
    match s.pending[n]? with
    | none => []
    | some p => p.restricted settings s.machine.world
  | _ => []

def reported (settings : Settings) (s : Session) : List Event → List String
  | [] => []
  | e :: es => s.reports settings e ++ (s.step settings e).reported settings es

/-- Nothing leaves the deny set, and what enters it or is about to is what has been reported. -/
structure Admits (settings : Settings) (s s' : Session) (names : List String) : Prop where
  keeps : s'.machine.world.KeepsDenied settings
  grows : ∀ a, Covers (s.machine.world.deniedNames settings) a →
    Covers (s'.machine.world.deniedNames settings) a
  known : ∀ a, Covers (s'.machine.world.deniedNames settings) a ∨ s'.Merging a ↔
    (Covers (s.machine.world.deniedNames settings) a ∨ s.Merging a) ∨ Covers names a

theorem Admits.trans (h : Admits settings s s' names) (h' : Admits settings s' s'' names') :
    Admits settings s s'' (names ++ names') := by
  refine ⟨h'.keeps, fun a ha => h'.grows a (h.grows a ha), fun a => ?_⟩
  rw [h'.known, h.known, covers_append, or_assoc]

theorem admits_of_todo (hkeeps : s'.machine.world.KeepsDenied settings)
    (hnames : ∀ a, Covers (s'.machine.world.deniedNames settings) a ↔
      Covers (s.machine.world.deniedNames settings) a ∨ Covers names a)
    (htodo : ∀ k, s'.machine.todo k = s.machine.todo k) : Admits settings s s' names := by
  refine ⟨hkeeps, fun a ha => (hnames a).mpr (.inl ha), fun a => ?_⟩
  have hmerging : s'.Merging a ↔ s.Merging a := by simp only [Merging, htodo]
  rw [hnames, hmerging]
  exact or_right_comm

theorem admits_of_same (hkeeps : s.machine.world.KeepsDenied settings)
    (hsame : State.SameDenied settings s.machine.world s'.machine.world)
    (htodo : ∀ k, s'.machine.todo k = s.machine.todo k) : Admits settings s s' [] :=
  admits_of_todo (hsame.keeps hkeeps) (fun a => by simp [hsame.names]) htodo

theorem Admits.refl (hkeeps : s.machine.world.KeepsDenied settings) : Admits settings s s [] :=
  admits_of_same hkeeps rfl fun _ => rfl

theorem merging_iff (s : Session) (id : TaskId) (a : String) :
    s.Merging a ↔ Denies (s.machine.todo id) a ∨ ∃ k, k ≠ id ∧ Denies (s.machine.todo k) a := by
  constructor
  · rintro ⟨k, hk⟩
    by_cases hid : k = id
    · exact .inl (hid ▸ hk)
    · exact .inr ⟨k, hid, hk⟩
  · rintro (hid | ⟨k, _, hk⟩)
    · exact ⟨id, hid⟩
    · exact ⟨k, hk⟩

theorem admits_of_task {m' : Machine State FeedAction} {w' : State} (id : TaskId)
    (hworld : m'.world = w') (hkeeps : w'.KeepsDenied settings)
    (hothers : ∀ k, k ≠ id → m'.todo k = s.machine.todo k)
    (hgrows : ∀ a, Covers (s.machine.world.deniedNames settings) a →
      Covers (w'.deniedNames settings) a)
    (hself : ∀ a, Covers (w'.deniedNames settings) a ∨ Denies (m'.todo id) a ↔
      (Covers (s.machine.world.deniedNames settings) a ∨ Denies (s.machine.todo id) a) ∨
        Covers names a) : Admits settings s (s.withMachine m') names := by
  subst hworld
  refine ⟨hkeeps, hgrows, fun a => ?_⟩
  have hrest : (∃ k, k ≠ id ∧ Denies (m'.todo k) a) ↔
      ∃ k, k ≠ id ∧ Denies (s.machine.todo k) a :=
    exists_congr fun k => and_congr_right fun hk => by rw [hothers k hk]
  rw [merging_iff (s.withMachine m') id, merging_iff s id]
  change Covers (m'.world.deniedNames settings) a ∨ Denies (m'.todo id) a ∨
    (∃ k, k ≠ id ∧ Denies (m'.todo k) a) ↔ _
  rw [hrest, ← or_assoc, hself, ← or_assoc]
  exact or_right_comm

theorem admits_received {m' : Machine State FeedAction} {id : TaskId} {feed : Feed}
    (hkeeps : s.machine.world.KeepsDenied settings)
    (hothers : ∀ k, k ≠ id → m'.todo k = s.machine.todo k)
    (hr : s.machine.receives? id = some feed) (hidle : s.machine.todo id = [])
    (htodo : m'.todo id = (State.receive settings feed s.machine.world).2.1)
    (hworld : m'.world = (State.receive settings feed s.machine.world).2.2) :
    Admits settings s (s.withMachine m') (s.reports settings (.move (.advance id))) := by
  have hsame := State.sameDenied_receive settings feed s.machine.world
  have hlisted : ∀ a, Denies (m'.todo id) a ↔
      Covers (s.reports settings (.move (.advance id))) a := by
    intro a
    rw [htodo, State.denies_receive]
    simp only [reports, hr, Option.some.injEq]
    by_cases hfeed : feed = .blacklist <;> simp [hfeed]
  refine admits_of_task id hworld (hsame.keeps hkeeps) hothers (fun a ha => ?_) fun a => ?_
  · rw [hsame.names]
    exact ha
  · rw [hsame.names, hlisted, hidle]
    simp [not_denies_nil]

theorem admits_performed {m' : Machine State FeedAction} {id : TaskId} {action : FeedAction}
    (hkeeps : s.machine.world.KeepsDenied settings)
    (hothers : ∀ k, k ≠ id → m'.todo k = s.machine.todo k)
    (htodo : s.machine.todo id = action :: m'.todo id)
    (hworld : m'.world = action.perform settings s.machine.now s.machine.world) :
    Admits settings s (s.withMachine m') [] := by
  by_cases haction : ∃ x, action = .deny x
  · obtain ⟨x, rfl⟩ := haction
    obtain ⟨w', hdeny, hkeeps', hnames⟩ := State.deny_of_keeps hkeeps s.machine.now x
    rw [FeedAction.perform, hdeny] at hworld
    refine admits_of_task id hworld hkeeps' hothers (fun a ha => (hnames a).mpr (.inl ha))
      fun a => ?_
    rw [hnames, htodo, denies_cons_deny]
    simp [or_assoc]
  · have hother : ∀ x, action ≠ .deny x := fun x hx => haction ⟨x, hx⟩
    have hsame := State.sameDenied_perform settings s.machine.world hother s.machine.now
    refine admits_of_task id hworld (hsame.keeps hkeeps) hothers (fun a ha => ?_) fun a => ?_
    · rw [hsame.names]
      exact ha
    · rw [hsame.names, htodo, denies_cons_other hother]
      simp

theorem admits_advance (hkeeps : s.machine.world.KeepsDenied settings) (id : TaskId) :
    Admits settings s (s.step settings (.move (.advance id)))
      (s.reports settings (.move (.advance id))) := by
  have hsilent : s.machine.receives? id = none →
      s.reports settings (.move (.advance id)) = [] := fun hr => by simp [reports, hr]
  obtain ⟨hothers, heffect⟩ := advance_effect settings.behaviour s.machine id
  change Admits settings s (s.withMachine (s.machine.advance settings.behaviour id)) _
  generalize s.machine.advance settings.behaviour id = m' at hothers heffect
  have hall : m'.todo id = s.machine.todo id → ∀ k, m'.todo k = s.machine.todo k := by
    intro hid k
    by_cases hk : k = id
    · rw [hk, hid]
    · exact hothers k hk
  cases heffect with
  | still hr htodo hworld =>
    rw [hsilent hr]
    exact admits_of_same hkeeps (hworld ▸ rfl) (hall htodo)
  | settled hr htodo hworld =>
    rw [hsilent hr]
    exact admits_of_same hkeeps (hworld ▸ rfl) (hall htodo)
  | received hr hidle htodo hworld => exact admits_received hkeeps hothers hr hidle htodo hworld
  | performed hr htodo hworld =>
    rw [hsilent hr]
    exact admits_performed hkeeps hothers htodo hworld

theorem still_foldl {f : Machine State FeedAction → Feed → Machine State FeedAction}
    (hf : ∀ m feed, (f m feed).world = m.world ∧ ∀ k, (f m feed).todo k = m.todo k)
    (feeds : List Feed) (m : Machine State FeedAction) :
    (feeds.foldl f m).world = m.world ∧ ∀ k, (feeds.foldl f m).todo k = m.todo k := by
  induction feeds generalizing m with
  | nil => exact ⟨rfl, fun _ => rfl⟩
  | cons feed feeds ih =>
    obtain ⟨hworld, htodo⟩ := ih (f m feed)
    exact ⟨hworld.trans (hf m feed).1, fun k => (htodo k).trans ((hf m feed).2 k)⟩

theorem still_start (settings : Settings) (s : Session) :
    (s.step settings .start).machine.world = s.machine.world ∧
      ∀ k, (s.step settings .start).machine.todo k = s.machine.todo k := by
  change (s.desk settings).start.runner.machine.world = s.machine.world ∧
    ∀ k, (s.desk settings).start.runner.machine.todo k = s.machine.todo k
  unfold Desk.start
  split
  · exact ⟨rfl, fun _ => rfl⟩
  · exact still_foldl (fun m feed => ⟨world_start m feed, todo_start m feed⟩) _ s.machine

theorem still_stop (settings : Settings) (s : Session) :
    (s.step settings .stop).machine.world = s.machine.world ∧
      ∀ k, (s.step settings .stop).machine.todo k = s.machine.todo k :=
  still_foldl (fun m feed => ⟨world_stop m feed, todo_stop m feed⟩) settings.feeds s.machine

theorem admits_step (hkeeps : s.machine.world.KeepsDenied settings) (e : Event) :
    Admits settings s (s.step settings e) (s.reports settings e) := by
  cases e with
  | move v =>
    cases v with
    | advance id => exact admits_advance hkeeps id
    | beginAgain id =>
      obtain ⟨hworld, -, htodo⟩ := beginAgain_still s.machine id
      exact admits_of_same hkeeps (hworld ▸ rfl) htodo
    | elapse ms => exact admits_of_same hkeeps rfl fun _ => rfl
  | start =>
    obtain ⟨hworld, htodo⟩ := still_start settings s
    exact admits_of_same hkeeps (hworld ▸ rfl) htodo
  | stop =>
    obtain ⟨hworld, htodo⟩ := still_stop settings s
    exact admits_of_same hkeeps (hworld ▸ rfl) htodo
  | call feed => exact admits_of_same hkeeps rfl (todo_spawn s.machine feed false)
  | collect id =>
    exact admits_of_same hkeeps (world_collect s.machine id ▸ rfl) (todo_collect s.machine id)
  | upstream replies delays => exact admits_of_same hkeeps rfl fun _ => rfl
  | quote src dest amounts side limit =>
    have hsame := State.sameDenied_prices settings s.machine.world s.machine.now settings.gasCost
      src dest amounts side limit
    exact admits_of_same hkeeps hsame fun _ => rfl
  | look pair side =>
    have hsame : State.SameDenied settings s.machine.world
        ((s.desk settings).orderBook pair side).2.runner.machine.world := by
      unfold Desk.orderBook
      split
      · exact rfl
      · exact State.sameDenied_readBook _ _ _ side
    refine admits_of_same hkeeps hsame fun k => ?_
    change ((s.desk settings).orderBook pair side).2.runner.machine.todo k = s.machine.todo k
    unfold Desk.orderBook
    split <;> rfl
  | inquire address =>
    obtain ⟨verdict, hread, -⟩ := State.isDenied_of_keeps hkeeps s.machine.now address
    have hstep : s.step settings (.inquire address) = s := by
      change s.withState (s.machine.world.isDenied s.machine.now settings.scope address).2 = s
      rw [hread]
      rfl
    rw [hstep]
    exact .refl hkeeps
  | request swap =>
    have hsame := (State.start_of_keeps hkeeps s.machine.now swap).1
    cases hstart : swap.start settings s.machine.world s.machine.now with
    | mk answer w =>
      rw [hstart] at hsame
      cases answer with
      | error e =>
        rw [step_request_error hstart]
        exact admits_of_same hkeeps hsame fun _ => rfl
      | ok p =>
        rw [step_request_ok hstart]
        exact admits_of_same hkeeps hsame fun _ => rfl
  | reply n clock =>
    simp only [step, reports]
    cases s.pending[n]? with
    | none => exact .refl hkeeps
    | some p =>
      obtain ⟨hkeeps', hnames⟩ := State.complete_of_keeps hkeeps s.machine.now clock p
      exact admits_of_todo hkeeps' hnames fun _ => rfl

theorem admits_run (hkeeps : s.machine.world.KeepsDenied settings) (es : List Event) :
    Admits settings s (s.run settings es) (s.reported settings es) := by
  induction es generalizing s with
  | nil => exact .refl hkeeps
  | cons e es ih =>
    have hstep := admits_step hkeeps e
    exact hstep.trans (ih hstep.keeps)

theorem keepsDenied_initial (settings : Settings) (verifier : Verifier) :
    (initial verifier).machine.world.KeepsDenied settings :=
  Cache.keepsSet_empty _

theorem nothing_known (settings : Settings) (verifier : Verifier) (a : String) :
    ¬ (Covers ((initial verifier).machine.world.deniedNames settings) a ∨
      (initial verifier).Merging a) := by
  rintro (hnames | ⟨id, x, hx, -⟩)
  · exact covers_nil a hnames
  · cases hx

def Denied (settings : Settings) (s : Session) (address : String) : Prop :=
  ((s.desk settings).isDenied address).1 = .ok true

/-- A swap fails before the maker hears of it: a token is not known or the user is denied, and no
request is sent or on its way. -/
def TurnsAway (settings : Settings) (s : Session) (swap : Swap) (clock : UInt64) : Prop :=
  ((∃ x, ((s.desk settings).prepare swap clock).1 = .error (.unknownToken x)) ∨
    ((s.desk settings).prepare swap clock).1 = .error (.denied (Text.normalize swap.user))) ∧
  ((s.desk settings).prepare swap clock).2.state.maker = s.machine.world.maker ∧
  (s.step settings (.request swap)).machine.world.maker = s.machine.world.maker ∧
  (s.step settings (.request swap)).pending = s.pending

theorem isDenied_of_keeps (hkeeps : s.machine.world.KeepsDenied settings) (a : String) :
    ∃ verdict, ((s.desk settings).isDenied a).1 = .ok verdict ∧
      (verdict = true ↔ Covers (s.machine.world.deniedNames settings) a) := by
  obtain ⟨verdict, hread, hverdict⟩ := State.isDenied_of_keeps hkeeps s.machine.now a
  refine ⟨verdict, ?_, hverdict⟩
  change (s.machine.world.isDenied s.machine.now settings.scope a).1.mapError _ = _
  rw [hread]
  rfl

theorem denied_iff (hkeeps : s.machine.world.KeepsDenied settings) (a : String) :
    Denied settings s a ↔ Covers (s.machine.world.deniedNames settings) a := by
  obtain ⟨verdict, hread, hverdict⟩ := isDenied_of_keeps hkeeps a
  rw [Denied, hread, ← hverdict]
  exact ⟨Except.ok.inj, congrArg Except.ok⟩

theorem covers_of_normalize_eq {a b : String} (h : Text.normalize a = Text.normalize b)
    (hb : Covers names b) : Covers names a := by
  rw [Covers, h]
  exact hb

theorem turnsAway_of_covers (hkeeps : s.machine.world.KeepsDenied settings) {swap : Swap}
    (hcovers : Covers (s.machine.world.deniedNames settings) swap.user) (clock : UInt64) :
    TurnsAway settings s swap clock := by
  obtain ⟨hfails, hmaker⟩ := (State.start_of_keeps hkeeps s.machine.now swap).2 hcovers
  cases hstart : swap.start settings s.machine.world s.machine.now with
  | mk answer w =>
    rw [hstart] at hfails hmaker
    cases answer with
    | ok p => rcases hfails with ⟨x, hx⟩ | hx <;> cases hx
    | error e =>
      have hstart' : swap.start (s.desk settings).settings (s.desk settings).state
          (s.desk settings).now = (.error e, w) := hstart
      have hprepare : (s.desk settings).prepare swap clock =
          (.error e, (s.desk settings).withState w) := by
        unfold Desk.prepare
        rw [hstart']
      rw [TurnsAway, hprepare]
      refine ⟨?_, hmaker, ?_, ?_⟩
      · rcases hfails with ⟨x, hx⟩ | hx
        · exact .inl ⟨x, congrArg Except.error (Except.error.inj hx)⟩
        · exact .inr (congrArg Except.error (Except.error.inj hx))
      · rw [step_request_error hstart]
        exact hmaker
      · rw [step_request_error hstart]
        rfl

/-- The deny set answers at every moment of every session. It denies, in whatever letter case and
with whatever blanks, the addresses that have been reported and nobody else. An address of a listing
counts from when the listing is accepted, so the cycle may still have it to deny. Who is denied
stays denied and is turned away without a request, and neither order nor repetition of the reports
matters. -/
theorem denied_exactly (settings : Settings) (verifier : Verifier) (es : List Event) (a : String) :
    (∃ verdict, ((((initial verifier).run settings es).desk settings).isDenied a).1 = .ok verdict ∧
      (verdict = true ∨ ((initial verifier).run settings es).Merging a ↔
        Covers ((initial verifier).reported settings es) a)) ∧
    (Denied settings ((initial verifier).run settings es) a → ∀ later,
      Denied settings ((initial verifier).run settings (es ++ later)) a ∧
      ∀ swap clock, Text.normalize swap.user = Text.normalize a →
        TurnsAway settings ((initial verifier).run settings (es ++ later)) swap clock) ∧
    ∀ verifier' es',
      (∀ name, name ∈ ((initial verifier).reported settings es).map Text.normalize ↔
        name ∈ ((initial verifier').reported settings es').map Text.normalize) →
      ¬ ((initial verifier).run settings es).Merging a →
      ¬ ((initial verifier').run settings es').Merging a →
      (Denied settings ((initial verifier).run settings es) a ↔
        Denied settings ((initial verifier').run settings es') a) := by
  have hrun := fun v es => admits_run (keepsDenied_initial settings v) es
  have hknown : ∀ v es,
      Covers (((initial v).run settings es).machine.world.deniedNames settings) a ∨
        ((initial v).run settings es).Merging a ↔ Covers ((initial v).reported settings es) a := by
    intro v es
    rw [(hrun v es).known, or_iff_right (nothing_known settings v a)]
  refine ⟨?_, fun hdenied later => ?_, fun verifier' es' hsame hquiet hquiet' => ?_⟩
  · obtain ⟨verdict, hread, hverdict⟩ := isDenied_of_keeps (hrun verifier es).keeps a
    exact ⟨verdict, hread, by rw [hverdict, hknown]⟩
  · have hcovers := (denied_iff (hrun verifier es).keeps a).mp hdenied
    have hlater := admits_run (hrun verifier es).keeps later
    have hstays := hlater.grows a hcovers
    rw [run_append]
    refine ⟨(denied_iff hlater.keeps a).mpr hstays, fun swap clock huser => ?_⟩
    exact turnsAway_of_covers hlater.keeps (covers_of_normalize_eq huser hstays) clock
  · have hnames := hknown verifier es
    have hnames' := hknown verifier' es'
    rw [or_iff_left hquiet] at hnames
    rw [or_iff_left hquiet'] at hnames'
    rw [denied_iff (hrun verifier es).keeps, denied_iff (hrun verifier' es').keeps, hnames, hnames']
    exact hsame _

theorem not_merging_of_idle (h : s.machine.tasks.all (·.phase.todo.isEmpty) = true) (a : String) :
    ¬ s.Merging a := by
  rintro ⟨id, x, hx, -⟩
  cases ht : s.machine.task? id with
  | none =>
    rw [todo_of_none ht] at hx
    cases hx
  | some t =>
    have hempty := List.all_eq_true.mp h t (List.mem_of_find?_eq_some ht)
    rw [todo_of_task? ht, List.isEmpty_iff.mp hempty] at hx
    cases hx

def listing (address : String) : List Event :=
  .upstream [((Settings.brisk.feedRequest .blacklist).url,
      .ok (.object [("blacklist", .array [.string address])]))] [] ::
    .call .blacklist :: List.replicate 5 (.move (.advance 0))

/-- A listed address in other letters and with blanks, long after the listing; and one that was listed
in other letters and later. -/
theorem denied_exactly_listing :
    (Denied .brisk ((initial (.fixed true [])).run .brisk
        (listing "0xABABABABABABABABABABABABABABABABABABABAB" ++ [.move (.elapse 1000000000)]))
        " 0xabABABABABABABABABABABABABABABABABABABAB" ∧
      TurnsAway .brisk ((initial (.fixed true [])).run .brisk
        (listing "0xABABABABABABABABABABABABABABABABABABABAB" ++ [.move (.elapse 1000000000)]))
        ⟨"a", "b", .zero, .zero, .sell, "0xABababABABABABABABABABABABABABABABABABAB\n", .zero⟩ 0) ∧
    (Denied .brisk ((initial (.fixed true [])).run .brisk
        (listing "0xABABABABABABABABABABABABABABABABABABABAB"))
        " 0xabABABABABABABABABABABABABABABABABABABAB" ↔
      Denied .brisk ((initial (.fixed true [])).run .brisk
        (.move (.elapse 5) :: listing " 0xABABababABABABABABABABABABABABABABABABAB"))
        " 0xabABABABABABABABABABABABABABABABABABABAB") := by
  obtain ⟨-, hstays, hsame⟩ := denied_exactly .brisk (.fixed true [])
    (listing "0xABABABABABABABABABABABABABABABABABABABAB")
    " 0xabABABABABABABABABABABABABABABABABABABAB"
  have hdenied : Denied .brisk ((initial (.fixed true [])).run .brisk
      (listing "0xABABABABABABABABABABABABABABABABABABABAB"))
      " 0xabABABABABABABABABABABABABABABABABABABAB" := by cbv
  have huser : Text.normalize "0xABababABABABABABABABABABABABABABABABABAB\n" =
      Text.normalize " 0xabABABABABABABABABABABABABABABABABABABAB" := by cbv
  have hlater := hstays hdenied [.move (.elapse 1000000000)]
  refine ⟨⟨hlater.1, hlater.2 _ 0 huser⟩, hsame _ _ ?_ ?_ ?_⟩
  · have hnames : ((initial (.fixed true [])).reported .brisk
        (listing "0xABABABABABABABABABABABABABABABABABABABAB")).map Text.normalize =
        ["0xabababababababababababababababababababab"] := by cbv
    have hnames' : ((initial (.fixed true [])).reported .brisk
        (.move (.elapse 5) :: listing " 0xABABababABABABABABABABABABABABABABABABAB")).map
          Text.normalize = ["0xabababababababababababababababababababab"] := by cbv
    intro name
    rw [hnames, hnames']
  · exact not_merging_of_idle (by cbv) _
  · exact not_merging_of_idle (by cbv) _

end Session
end QuoteDesk
