import QuoteDesk.Proofs.Desk.Known
import QuoteDesk.Proofs.Desk.Handled
import QuoteDesk.Proofs.Feed.Balance
/-!
What the counters say. Cycles and firm quotes are counted apart from the requests that the maker has
answered, rejections and wrong signatures apart from the errors that are returned, written books apart
from the cache. Main statement: in every run of an application the counters agree with what has
happened, whatever the maker replies and however feeds and preparations meet.
-/
namespace QuoteDesk

theorem endpoint_inj {base r r' : String} : endpoint base r = endpoint base r' ↔ r = r' := by
  refine ⟨fun h => ?_, fun h => h ▸ rfl⟩
  have htext := congrArg String.toList h
  simp only [endpoint, String.toList_append, List.append_cancel_left_eq] at htext
  exact String.toList_inj.mp htext

theorem Settings.url_feedRequest (settings : Settings) (feed : Feed) :
    (settings.feedRequest feed).url = endpoint settings.apiUrl feed.name := by
  unfold Settings.feedRequest Request.withApiKey
  split <;> rfl

theorem Settings.method_feedRequest (settings : Settings) (feed : Feed) :
    (settings.feedRequest feed).method = "GET" := by
  unfold Settings.feedRequest Request.withApiKey
  split <;> rfl

theorem Settings.method_firmRequest (settings : Settings) (r : QuoteRequest) :
    (settings.firmRequest r).method = "POST" := by
  unfold Settings.firmRequest Request.withApiKey
  split <;> rfl

theorem Settings.url_feedRequest_inj (settings : Settings) {f g : Feed} :
    (settings.feedRequest f).url = (settings.feedRequest g).url ↔ f = g := by
  rw [url_feedRequest, url_feedRequest, endpoint_inj]
  cases f <;> cases g <;> decide

theorem Settings.url_feedRequest_ne_firmUrl (settings : Settings) (feed : Feed) :
    (settings.feedRequest feed).url ≠ settings.firmUrl := by
  rw [url_feedRequest, firmUrl, ne_eq, endpoint_inj]
  cases feed <;> decide

namespace Maker

theorem requestCount_of_answered {m m' : Maker} {asked : List Request}
    (h : m'.answered = asked ++ m.answered) (url : String) :
    m'.requestCount url = m.requestCount url + asked.countP (·.url = url) := by
  rw [requestCount, requestCount, h, List.filter_append, List.length_append, Nat.add_comm,
    List.countP_eq_length_filter]

def postCount (m : Maker) : Nat := m.answered.countP (·.method = "POST")

end Maker

namespace PrepareError

def isDenied : PrepareError → Bool
  | .denied _ => true
  | _ => false

def isBadSignature : PrepareError → Bool
  | .badSignature _ => true
  | _ => false

/-- Neither a rejected user nor a wrong signature. -/
def IsUncounted (e : PrepareError) : Prop := e.isDenied = false ∧ e.isBadSignature = false

def of? {α : Type} : Except PrepareError α → Option PrepareError
  | .error e => some e
  | .ok _ => none

end PrepareError

namespace Metrics

def written (m : Metrics) : BookSide → Nat
  | .bids => m.bidsWritten
  | .asks => m.asksWritten

def quotes (m : Metrics) : Nat := m.quotesOk + m.quotesRequestError + m.quotesInvalid

theorem quotes_countQuote (m : Metrics) (outcome : QuoteOutcome) :
    (m.countQuote outcome).quotes = m.quotes + 1 := by
  cases outcome <;> simp [countQuote, quotes] <;> omega

end Metrics

/-- What is counted: requests that the maker has answered, cycles that have ended, errors that
preparations have ended with, and sides of books that have been stored. -/
structure Deeds where
  asked : List Request := []
  ended : List Feed := []
  failed : List PrepareError := []
  stored : List BookSide := []

namespace State

variable {settings : Settings} {w w' w'' : State} {d d' : Deeds}

structure Sized (w : State) : Prop where
  tokens : ∀ n, w.metrics.tokenCount = some n → n = w.tokens.size
  pairs : ∀ n, w.metrics.pairCount = some n → n = w.pairs.size

structure Counts (d : Deeds) (w w' : State) : Prop where
  answered : w'.maker.answered = d.asked ++ w.maker.answered
  cycles : ∀ feed, (w'.metrics.cycles.get feed).total =
    (w.metrics.cycles.get feed).total + d.ended.count feed
  quotes : w'.metrics.quotes = w.metrics.quotes + d.asked.countP (·.method = "POST")
  rejections : w'.metrics.blacklistRejections =
    w.metrics.blacklistRejections + d.failed.countP (·.isDenied)
  mismatches : w'.metrics.signatureMismatches =
    w.metrics.signatureMismatches + d.failed.countP (·.isBadSignature)
  written : ∀ side, w'.metrics.written side = w.metrics.written side + d.stored.count side
  sized : w.Sized → w'.Sized

theorem counts_of_same (hanswered : w'.maker.answered = w.maker.answered)
    (hmetrics : w'.metrics = w.metrics) (htokens : w'.tokens = w.tokens)
    (hpairs : w'.pairs = w.pairs) : Counts {} w w' where
  answered := hanswered
  cycles _ := by rw [hmetrics]; rfl
  quotes := by rw [hmetrics]; rfl
  rejections := by rw [hmetrics]; rfl
  mismatches := by rw [hmetrics]; rfl
  written _ := by rw [hmetrics]; rfl
  sized hw := by
    constructor
    · rw [hmetrics, htokens]
      exact hw.tokens
    · rw [hmetrics, hpairs]
      exact hw.pairs

theorem Counts.refl (w : State) : Counts {} w w := counts_of_same rfl rfl rfl rfl

theorem Counts.trans (h : Counts d w w') (h' : Counts d' w' w'') :
    Counts ⟨d'.asked ++ d.asked, d.ended ++ d'.ended, d.failed ++ d'.failed, d.stored ++ d'.stored⟩
      w w'' where
  answered := by rw [h'.answered, h.answered, List.append_assoc]
  cycles feed := by rw [h'.cycles, h.cycles, List.count_append, Nat.add_assoc]
  quotes := by rw [h'.quotes, h.quotes, List.countP_append, Nat.add_assoc, Nat.add_comm (d'.asked.countP _)]
  rejections := by rw [h'.rejections, h.rejections, List.countP_append, Nat.add_assoc]
  mismatches := by rw [h'.mismatches, h.mismatches, List.countP_append, Nat.add_assoc]
  written side := by rw [h'.written, h.written, List.count_append, Nat.add_assoc]
  sized hw := h'.sized (h.sized hw)

theorem Counts.fail (h : Counts d w w') {e : PrepareError} (he : e.IsUncounted) :
    Counts { d with failed := d.failed ++ [e] } w w' where
  answered := h.answered
  cycles := h.cycles
  quotes := h.quotes
  rejections := by
    rw [h.rejections, List.countP_append, List.countP_singleton, he.1]
    rfl
  mismatches := by
    rw [h.mismatches, List.countP_append, List.countP_singleton, he.2]
    rfl
  written := h.written
  sized := h.sized

theorem counts_isDenied (w : State) (now : Nat) (scope : Scope) (address : String) :
    Counts {} w (w.isDenied now scope address).2 :=
  counts_of_same rfl rfl rfl rfl

theorem counts_deny (w : State) (now : Nat) (scope : Scope) (address : String) :
    Counts {} w (w.deny now scope address).2 :=
  counts_of_same rfl rfl rfl rfl

theorem Counts.reject (h : Counts {} w w') (user : String) :
    Counts { failed := [.denied user] } w { w' with metrics := w'.metrics.countRejection } where
  answered := h.answered
  cycles := h.cycles
  quotes := h.quotes
  rejections := congrArg (· + 1) h.rejections
  mismatches := h.mismatches
  written side := by rw [← h.written]; cases side <;> rfl
  sized hw := ⟨(h.sized hw).tokens, (h.sized hw).pairs⟩

theorem Counts.mismatch (h : Counts {} w w') (digest : Bytes) :
    Counts { failed := [.badSignature digest] } w
      { w' with metrics := w'.metrics.countMismatch } where
  answered := h.answered
  cycles := h.cycles
  quotes := h.quotes
  rejections := h.rejections
  mismatches := congrArg (· + 1) h.mismatches
  written side := by rw [← h.written]; cases side <;> rfl
  sized hw := ⟨(h.sized hw).tokens, (h.sized hw).pairs⟩

theorem counts_start (settings : Settings) (w : State) (now : Nat) (swap : Swap) :
    Counts { failed := (PrepareError.of? (swap.start settings w now).1).toList } w
      (swap.start settings w now).2 := by
  unfold Swap.start
  cases hlegs : swap.legs w.tokens with
  | error e =>
    have huncounted : e.IsUncounted := by
      unfold Swap.legs at hlegs
      split at hlegs
      · cases hlegs
        exact ⟨rfl, rfl⟩
      · split at hlegs <;> cases hlegs
        exact ⟨rfl, rfl⟩
    exact (Counts.refl w).fail huncounted
  | ok legs =>
    have hread := counts_isDenied w now settings.scope swap.user
    simp only [Swap.guardUser]
    generalize w.isDenied now settings.scope swap.user = answered at hread
    obtain ⟨answer, w'⟩ := answered
    cases answer with
    | error e => exact hread.fail ⟨rfl, rfl⟩
    | ok verdict =>
      cases verdict with
      | true => exact hread.reject _
      | false =>
        simp only
        split
        · exact hread.fail ⟨rfl, rfl⟩
        · exact hread

theorem counts_accept (settings : Settings) (w : State) (o : FirmOrder) (p : Pending)
    (clock : UInt64) :
    Counts { failed := (PrepareError.of? (o.accept settings w p clock).1).toList } w
      (o.accept settings w p clock).2 := by
  have haccount : ∀ t, FailsOnly PrepareError.IsUncounted (FirmOrder.tokenAccount t) :=
    fun t => .mapError fun _ _ => ⟨rfl, rfl⟩
  have hfields := FirmOrder.failsOnly_checkFields (fun _ _ _ => ⟨rfl, rfl⟩) o settings.contract
    (haccount p.src) (haccount p.dest)
  unfold FirmOrder.accept
  cases hchecked : o.checkFields settings.contract p with
  | error e => exact (Counts.refl w).fail (hfields e hchecked)
  | ok done =>
    simp only
    split
    · exact (Counts.refl w).fail ⟨rfl, rfl⟩
    · unfold FirmOrder.checkSignature
      generalize w.verifier.check (settings.domainOf.digest o) o.signature = checked
      obtain ⟨verdict, verifier⟩ := checked
      have hsame : Counts {} w { w with verifier } := counts_of_same rfl rfl rfl rfl
      cases verdict with
      | false => exact hsame.mismatch _
      | true =>
        simp only
        split
        · exact hsame.fail ⟨rfl, rfl⟩
        · exact hsame

theorem counts_refuse (settings : Settings) (w : State) (now : Nat) (p : Pending) (e : MakerError) :
    Counts { failed := [(p.refuse settings w now e).1] } w (p.refuse settings w now e).2 := by
  have hdeny := counts_deny w now settings.scope p.swap.user
  unfold Pending.refuse
  split
  · generalize w.deny now settings.scope p.swap.user = denied at hdeny
    obtain ⟨done, w'⟩ := denied
    cases done <;> exact hdeny.fail ⟨rfl, rfl⟩
  · exact (Counts.refl w).fail ⟨rfl, rfl⟩

/-- The one request of a preparation and the one outcome that it is counted under. -/
theorem counts_asked (settings : Settings) (w : State) (r : QuoteRequest) (outcome : QuoteOutcome) :
    Counts { asked := [settings.firmRequest r] } w { (w.ask (settings.firmRequest r)).2 with
      metrics := (w.ask (settings.firmRequest r)).2.metrics.countQuote outcome } where
  answered := rfl
  cycles _ := by cases outcome <;> rfl
  quotes := by
    rw [Metrics.quotes_countQuote, List.countP_singleton, settings.method_firmRequest r]
    rfl
  rejections := by cases outcome <;> rfl
  mismatches := by cases outcome <;> rfl
  written side := by cases outcome <;> cases side <;> rfl
  sized hw := by cases outcome <;> exact ⟨hw.tokens, hw.pairs⟩

theorem counts_complete (settings : Settings) (w : State) (now : Nat) (clock : UInt64) (p : Pending) :
    Counts ⟨[settings.firmRequest p.quote], [],
        (PrepareError.of? (p.complete settings w now clock).1).toList, []⟩ w
      (p.complete settings w now clock).2 := by
  have hasked := counts_asked settings w p.quote
  unfold Pending.complete
  generalize w.ask (settings.firmRequest p.quote) = asked at hasked
  obtain ⟨reply, asked⟩ := asked
  cases reply with
  | error e => exact (hasked .requestError).trans (counts_refuse settings _ now p e)
  | ok body =>
    simp only
    cases FirmOrder.ofReply body with
    | error e => exact (hasked .invalid).fail ⟨rfl, rfl⟩
    | ok order => exact (hasked .ok).trans (counts_accept settings _ order p clock)

theorem counts_receive (settings : Settings) (feed : Feed) (w : State) :
    Counts { asked := [settings.feedRequest feed] } w (receive settings feed w).2.2 := by
  have hasked : Counts { asked := [settings.feedRequest feed] } w
      { (w.ask (settings.feedRequest feed)).2 with metrics := w.metrics.countReply feed } :=
    { Counts.refl w with
      answered := rfl
      quotes := by
        rw [List.countP_singleton, settings.method_feedRequest feed]
        rfl
      sized := fun hw => ⟨hw.tokens, hw.pairs⟩ }
  simp only [receive]
  split
  · exact hasked
  · split <;> exact hasked

theorem counts_settle (feed : Feed) (outcome : CycleOutcome) (w : State) :
    Counts { ended := [feed] } w { w with metrics := w.metrics.countCycle feed outcome } :=
  { Counts.refl w with
    cycles := fun f => by
      simp only [Metrics.countCycle, PerFeed.modify, PerFeed.get_set, List.count_singleton]
      by_cases hf : feed = f <;> simp [hf]
    sized := fun hw => ⟨hw.tokens, hw.pairs⟩ }

theorem counts_publish (settings : Settings) (now : Nat) (w : State) (base quote : String)
    (side : BookSide) (book : Book) :
    Counts { stored := [side] } w (w.publish now settings base quote side book) where
  answered := rfl
  cycles _ := by cases side <;> rfl
  quotes := by cases side <;> rfl
  rejections := by cases side <;> rfl
  mismatches := by cases side <;> rfl
  written side' := by cases side <;> cases side' <;> rfl
  sized hw := by cases side <;> exact ⟨hw.tokens, hw.pairs⟩

end State

def FeedAction.side? : FeedAction → Option BookSide
  | .publish _ _ side _ => some side
  | _ => none

theorem FeedAction.counts_perform (settings : Settings) (a : FeedAction) (now : Nat) (w : State) :
    State.Counts { stored := a.side?.toList } w (a.perform settings now w) := by
  cases a with
  | replaceTokens d =>
    exact { State.Counts.refl w with
      sized := fun hw => ⟨fun _ hn => (Option.some.inj hn).symm, hw.pairs⟩ }
  | replacePairs d =>
    exact { State.Counts.refl w with
      sized := fun hw => ⟨hw.tokens, fun _ hn => (Option.some.inj hn).symm⟩ }
  | publish base quote side book => exact State.counts_publish settings now w base quote side book
  | deny address => exact State.counts_deny w now settings.scope address

def Settings.taken (settings : Settings) (feed : Feed) (w : State) : Nat :=
  w.maker.requestCount (settings.feedRequest feed).url

def State.ended (feed : Feed) (w : State) : Nat := (w.metrics.cycles.get feed).total

namespace State

variable {settings : Settings} {w w' : State} {d : Deeds}

theorem Counts.taken (h : Counts d w w') (settings : Settings) (feed : Feed) :
    settings.taken feed w' = settings.taken feed w +
      d.asked.countP (·.url = (settings.feedRequest feed).url) :=
  Maker.requestCount_of_answered h.answered _

/-- Requests for orders are none of a feed. -/
theorem Counts.taken_of_firm (h : Counts d w w') (hasked : ∀ r ∈ d.asked, r.url = settings.firmUrl)
    (feed : Feed) : settings.taken feed w' = settings.taken feed w := by
  have hnone : d.asked.countP (·.url = (settings.feedRequest feed).url) = 0 := by
    refine List.countP_eq_zero.mpr fun r hr => ?_
    rw [decide_eq_true_eq, hasked r hr]
    exact (settings.url_feedRequest_ne_firmUrl feed).symm
  rw [h.taken settings, hnone, Nat.add_zero]

end State

theorem Settings.tallies (settings : Settings) :
    settings.behaviour.Tallies settings.taken State.ended where
  receive feed w f := by
    have h := State.counts_receive settings feed w
    refine ⟨(h.taken settings f).trans ?_, h.cycles f⟩
    rw [List.countP_singleton]
    simp only [decide_eq_true_eq, settings.url_feedRequest_inj, @eq_comm _ f]
  perform a now w f := by
    have h := a.counts_perform settings now w
    exact ⟨h.taken settings f, h.cycles f⟩
  settle feed outcome w f := by
    have h := State.counts_settle feed outcome w
    refine ⟨h.taken settings f, (h.cycles f).trans ?_⟩
    rw [List.count_singleton]
    simp only [beq_iff_eq, @eq_comm _ f]
    rfl

namespace Session

open Machine

variable {settings : Settings} {s s' : Session} {e : Event}

def failure? (settings : Settings) (s : Session) : Event → Option PrepareError
  | .request swap => PrepareError.of? (swap.start settings s.machine.world s.machine.now).1
  | .reply n clock => s.pending[n]?.bind fun p =>
    PrepareError.of? (p.complete settings s.machine.world s.machine.now clock).1
  | _ => none

def stored? (s : Session) : Event → Option BookSide
  | .move (.advance id) => (s.machine.performs? id).bind FeedAction.side?
  | _ => none

theorem handles_beside (he : ∀ id, e ≠ .move (.advance id)) (feed : Feed) (k : TaskId) :
    (s.step settings e).machine.Handles feed k ↔ s.machine.Handles feed k := by
  obtain ⟨es, hes, hallows⟩ := exists_step_run settings s e
  rw [hes]
  exact handles_run fun x hx id hid => he id ((hallows x hx).moves id hid)

/-- What happens beside the steps of the feeds asks for orders at most. -/
theorem counts_beside (settings : Settings) (s : Session) (he : ∀ id, e ≠ .move (.advance id)) :
    ∃ asked, State.Counts ⟨asked, [], (s.failure? settings e).toList, (s.stored? e).toList⟩
        s.machine.world (s.step settings e).machine.world ∧
      ∀ r ∈ asked, r.url = settings.firmUrl := by
  have of_same : ∀ w : State, w.maker.answered = s.machine.world.maker.answered →
      w.metrics = s.machine.world.metrics → w.tokens = s.machine.world.tokens →
      w.pairs = s.machine.world.pairs → ∃ asked, State.Counts ⟨asked, [], [], []⟩ s.machine.world w ∧
        ∀ r ∈ asked, r.url = settings.firmUrl :=
    fun w ha hm ht hp => ⟨[], State.counts_of_same ha hm ht hp, nofun⟩
  have of_still : ∀ w : State, w = s.machine.world → ∃ asked,
      State.Counts ⟨asked, [], [], []⟩ s.machine.world w ∧ ∀ r ∈ asked, r.url = settings.firmUrl :=
    fun w hw => hw ▸ of_same _ rfl rfl rfl rfl
  cases e with
  | move v =>
    cases v with
    | advance id => exact absurd rfl (he id)
    | beginAgain id => exact of_still _ (beginAgain_still s.machine id).1
    | elapse ms => exact of_still _ rfl
  | start => exact of_still _ (still_start settings s).1
  | stop => exact of_still _ (still_stop settings s).1
  | call feed => exact of_still _ rfl
  | collect id => exact of_still _ (world_collect s.machine id)
  | upstream replies delays => exact of_same _ rfl rfl rfl rfl
  | quote src dest amounts side limit => exact of_same _ rfl rfl rfl rfl
  | look pair side =>
    change ∃ asked, State.Counts ⟨asked, [], [], []⟩ s.machine.world
      ((s.desk settings).orderBook pair side).2.runner.machine.world ∧ _
    unfold Desk.orderBook
    split
    · exact of_still _ rfl
    · exact of_same _ rfl rfl rfl rfl
  | inquire address => exact of_same _ rfl rfl rfl rfl
  | request swap =>
    have hstart := State.counts_start settings s.machine.world s.machine.now swap
    refine ⟨[], ?_, nofun⟩
    cases h : swap.start settings s.machine.world s.machine.now with
    | mk answer w =>
      rw [h] at hstart
      cases answer with
      | error e =>
        rw [step_request_error h, failure?, h]
        exact hstart
      | ok p =>
        rw [step_request_ok h, failure?, h]
        exact hstart
  | reply n clock =>
    simp only [step, failure?]
    cases s.pending[n]? with
    | none => exact of_still _ rfl
    | some p =>
      refine ⟨_, State.counts_complete settings s.machine.world s.machine.now clock p, ?_⟩
      rintro r hr
      rw [List.mem_singleton.mp hr, settings.url_firmRequest]

theorem counts_advance (settings : Settings) (s : Session) (id : TaskId) :
    ∃ asked ended, State.Counts ⟨asked, ended, [], (s.stored? (.move (.advance id))).toList⟩
      s.machine.world (s.step settings (.move (.advance id))).machine.world := by
  change ∃ asked ended, State.Counts ⟨asked, ended, [], (s.stored? (.move (.advance id))).toList⟩
    s.machine.world (s.machine.advance settings.behaviour id).world
  cases hperforms : s.machine.performs? id with
  | some a =>
    have hstored : s.stored? (.move (.advance id)) = a.side? := by rw [stored?, hperforms]; rfl
    rw [hstored, world_of_performs? hperforms]
    exact ⟨[], [], a.counts_perform settings _ _⟩
  | none =>
    have hstored : s.stored? (.move (.advance id)) = none := by rw [stored?, hperforms]; rfl
    rw [hstored]
    cases (advance_effect settings.behaviour s.machine id).2 with
    | still _ _ hworld =>
      rw [hworld]
      exact ⟨[], [], .refl _⟩
    | settled _ _ hworld =>
      rw [hworld]
      exact ⟨[], _, State.counts_settle _ _ _⟩
    | received _ _ _ hworld =>
      rw [hworld]
      exact ⟨_, [], State.counts_receive settings _ _⟩
    | performed _ htodo =>
      cases hperforms.symm.trans ((performs?_eq_some_iff_todo settings.behaviour).mpr htodo)

/-- The counters of an application in which some errors have been returned and some sides of books
stored. -/
structure Counted (settings : Settings) (s : Session) (failed : List PrepareError)
    (stored : List BookSide) : Prop where
  balanced : Balanced settings.taken State.ended s.machine
  quotes : s.machine.world.metrics.quotes = s.machine.world.maker.postCount
  rejections : s.machine.world.metrics.blacklistRejections = failed.countP (·.isDenied)
  mismatches : s.machine.world.metrics.signatureMismatches = failed.countP (·.isBadSignature)
  written : ∀ side, s.machine.world.metrics.written side = stored.count side
  sized : s.machine.world.Sized

variable {failed : List PrepareError} {stored : List BookSide}

theorem counted_initial (settings : Settings) (verifier : Verifier) :
    Counted settings (initial verifier) [] [] where
  balanced := balanced_initial fun feed => by cases feed <;> rfl
  quotes := rfl
  rejections := rfl
  mismatches := rfl
  written side := by cases side <;> rfl
  sized := ⟨nofun, nofun⟩

theorem Counted.next (h : Counted settings s failed stored) {d : Deeds}
    (hcounts : State.Counts d s.machine.world s'.machine.world)
    (hbalanced : Balanced settings.taken State.ended s'.machine) :
    Counted settings s' (failed ++ d.failed) (stored ++ d.stored) where
  balanced := hbalanced
  quotes := by
    rw [hcounts.quotes, h.quotes, Maker.postCount, Maker.postCount, hcounts.answered,
      List.countP_append, Nat.add_comm]
  rejections := by rw [hcounts.rejections, h.rejections, List.countP_append]
  mismatches := by rw [hcounts.mismatches, h.mismatches, List.countP_append]
  written side := by rw [hcounts.written, h.written, List.count_append]
  sized := hcounts.sized h.sized

theorem Counted.step (hm : Consistent settings.behaviour s.machine)
    (h : Counted settings s failed stored) (e : Event) :
    Counted settings (s.step settings e) (failed ++ (s.failure? settings e).toList)
      (stored ++ (s.stored? e).toList) := by
  by_cases he : ∃ id, e = .move (.advance id)
  · obtain ⟨id, rfl⟩ := he
    obtain ⟨asked, ended, hcounts⟩ := counts_advance settings s id
    have hbalanced : Balanced settings.taken State.ended
        (s.step settings (.move (.advance id))).machine :=
      h.balanced.advance settings.tallies hm id
    exact h.next hcounts hbalanced
  · have hbeside : ∀ id, e ≠ .move (.advance id) := fun id hid => he ⟨id, hid⟩
    obtain ⟨asked, hcounts, hasked⟩ := counts_beside settings s hbeside
    refine h.next hcounts (h.balanced.of_same (handles_beside hbeside) fun feed => ?_)
    exact ⟨hcounts.taken_of_firm hasked feed, hcounts.cycles feed⟩

theorem Counted.run (hm : Consistent settings.behaviour s.machine)
    (h : Counted settings s failed stored) (es : List Event) :
    Counted settings (s.run settings es) (failed ++ s.log settings (failure? settings) es)
      (stored ++ s.log settings stored? es) := by
  induction es generalizing s failed stored with
  | nil =>
    simp only [log, List.append_nil]
    exact h
  | cons e es ih =>
    simp only [log, ← List.append_assoc]
    exact ih (consistent_step hm e) (h.step hm e)

theorem log_failure?_moves (settings : Settings) (s : Session) (vs : List Machine.Move) :
    s.log settings (failure? settings) (vs.map .move) = [] := by
  induction vs generalizing s with
  | nil => rfl
  | cons v vs ih => exact ih _

end Session

/-- The error that a preparation of a desk ends with is the one that its session returns. -/
theorem Desk.failures_prepare (d : Desk) (swap : Swap) (clock : UInt64) :
    ∃ es, d.session.run d.settings es = (d.prepare swap clock).2.session ∧
      d.session.log d.settings (Session.failure? d.settings) es =
        (PrepareError.of? (d.prepare swap clock).1).toList := by
  unfold Desk.prepare
  cases hstart : swap.start d.settings d.state d.now with
  | mk answer w =>
    have hfailure : d.session.failure? d.settings (.request swap) = PrepareError.of? answer :=
      congrArg (fun started : Except PrepareError Pending × State => PrepareError.of? started.1)
        hstart
    cases answer with
    | error e =>
      refine ⟨[.request swap], Session.step_request_error hstart, ?_⟩
      rw [Session.log, hfailure]
      rfl
    | ok p =>
      let asked := (d.withState w).sleep (w.maker.delayAt d.settings.firmUrl)
      have hrequest : d.session.step d.settings (.request swap) =
          ⟨(d.withState w).runner.machine, [p]⟩ := Session.step_request_ok hstart
      obtain ⟨vs, hvs⟩ := Runner.sleep_moves d.settings.behaviour (d.withState w).runner
        (w.maker.delayAt d.settings.firmUrl)
      have hasked : Session.run d.settings ⟨(d.withState w).runner.machine, [p]⟩ (vs.map .move) =
          ⟨asked.runner.machine, [p]⟩ := by
        rw [Session.run_moves]
        exact congrArg (Session.mk · [p]) hvs
      refine ⟨.request swap :: (vs.map .move ++ [.reply 0 clock]), ?_, ?_⟩
      · rw [Session.run_cons, hrequest, Session.run_append, hasked]
        rfl
      · rw [Session.log, hfailure, hrequest, Session.log_append, Session.log_failure?_moves, hasked]
        exact List.append_nil _

namespace Session

open Machine

/-- The counters of every run of an application. A feed has ended as many cycles as the maker has
answered requests of it; while a task handles a reply that one is not counted yet, and there is one
such task at most. Firm quotes are counted once for each request that was posted, rejections and wrong
signatures once for each such error that a preparation has returned, books once for each side that was
stored. The sizes of the directories, once shown, are those of now. What one more preparation returns
is counted alike, whatever the feeds do while it waits. -/
theorem counters_of_run (settings : Settings) (verifier : Verifier) (es : List Event) :
    let s := (initial verifier).run settings es
    let w := s.machine.world
    let failed := (initial verifier).log settings (failure? settings) es
    let stored := (initial verifier).log settings stored? es
    (∀ feed, ((∀ id, ¬ s.machine.Handles feed id) → (w.metrics.cycles.get feed).total =
        w.maker.requestCount (settings.feedRequest feed).url) ∧
      ∀ id, s.machine.Handles feed id → (∀ k, s.machine.Handles feed k → k = id) ∧
        (w.metrics.cycles.get feed).total + 1 =
          w.maker.requestCount (settings.feedRequest feed).url) ∧
    w.metrics.quotesOk + w.metrics.quotesRequestError + w.metrics.quotesInvalid =
      w.maker.log.countP (·.method = "POST") ∧
    w.metrics.blacklistRejections = failed.countP (·.isDenied) ∧
    w.metrics.signatureMismatches = failed.countP (·.isBadSignature) ∧
    w.metrics.bidsWritten = stored.count .bids ∧ w.metrics.asksWritten = stored.count .asks ∧
    (∀ n, w.metrics.tokenCount = some n → n = w.tokens.size) ∧
    (∀ n, w.metrics.pairCount = some n → n = w.pairs.size) ∧
    ∀ swap clock, let prepared := (s.desk settings).prepare swap clock
      prepared.2.state.metrics.blacklistRejections =
          (failed ++ (PrepareError.of? prepared.1).toList).countP (·.isDenied) ∧
        prepared.2.state.metrics.signatureMismatches =
          (failed ++ (PrepareError.of? prepared.1).toList).countP (·.isBadSignature) := by
  intro s w failed stored
  have hm : Consistent settings.behaviour s.machine := consistent_initial settings verifier es
  have h : Counted settings s failed stored := (counted_initial settings verifier).run (.initial _) es
  refine ⟨fun feed => ⟨h.balanced.idle feed, fun id hid => ⟨?_, h.balanced.busy feed id hid⟩⟩, ?_,
    h.rejections, h.mismatches, h.written .bids, h.written .asks, h.sized.tokens, h.sized.pairs, ?_⟩
  · intro k hk
    exact hm.cycles_unique hk.cycles hid.cycles
  · rw [Maker.log, List.countP_reverse]
    exact h.quotes
  · intro swap clock prepared
    obtain ⟨fs, hrun, hlog⟩ := (s.desk settings).failures_prepare swap clock
    have hdesk : Counted settings (s.desk settings).session failed stored :=
      ⟨h.balanced, h.quotes, h.rejections, h.mismatches, h.written, h.sized⟩
    have hm' : Consistent settings.behaviour (s.desk settings).session.machine := hm
    have hprepared := hdesk.run hm' fs
    have hsettings : (s.desk settings).settings = settings := rfl
    rw [hsettings] at hrun hlog
    rw [hrun, hlog] at hprepared
    exact ⟨hprepared.rejections, hprepared.mismatches⟩

end Session
end QuoteDesk
