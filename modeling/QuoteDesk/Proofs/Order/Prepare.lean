import QuoteDesk.Desk.Basic
import QuoteDesk.Proofs.Cache.DenySet
import QuoteDesk.Proofs.Feed.Wait
/-!
What it takes to prepare an order. The checks are stated apart from the code that makes them, on the
state in which a swap comes in: nothing that feeds do while the maker is asked has a part in them.
Main statement: an order is prepared exactly if all checks are met, and otherwise the error is the one
of the first check that is not.
-/
namespace QuoteDesk

/-- The checks of a preparation, in the order in which they are made. -/
inductive Check where
  | source
  | destination
  | user
  | amount
  | reply
  | makerAsset
  | takerAsset
  | maker
  | fixedAmount
  | expiry
  | signature
  | slippage
  deriving DecidableEq

def Check.rank : Check → Nat
  | .source => 0
  | .destination => 1
  | .user => 2
  | .amount => 3
  | .reply => 4
  | .makerAsset => 5
  | .takerAsset => 6
  | .maker => 7
  | .fixedAmount => 8
  | .expiry => 9
  | .signature => 10
  | .slippage => 11

theorem Check.rank_injective {c c' : Check} (h : c.rank = c'.rank) : c = c' := by
  cases c <;> cases c' <;> first | rfl | cases h

theorem Check.rank_lt (c : Check) : c.rank < 12 := by
  cases c <;> decide

def Swap.shownAmount (s : Swap) : Units :=
  match s.side with
  | .sell => s.destAmount
  | .buy => s.srcAmount

def FirmOrder.fixedAmount (o : FirmOrder) : SwapSide → Word
  | .sell => o.takerAmount
  | .buy => o.makerAmount

/-- A signature counts if one of the accounts made it, or if the verdict is fixed. -/
def Verifier.Accepts (v : Verifier) (digest signature : Bytes) : Prop :=
  match v with
  | .signers authorized =>
    ∃ a, Secp256k1.recover? digest signature = some a ∧ a ∈ authorized.accounts
  | .fixed verdict _ => verdict = true

def Swap.slippageBound (s : Swap) : Nat :=
  s.shownAmount.val * s.slippage.coefficient.natAbs / s.slippage.unit

def Swap.Bounded (s : Swap) : Prop :=
  s.slippage.isNegative = false ∧
    s.shownAmount.val * s.slippage.coefficient.natAbs < Word.size

/-- Selling, the maker pays at least the bound; buying, the taker pays at most that. -/
def FirmOrder.Within (o : FirmOrder) (s : Swap) : Prop :=
  match s.side with
  | .sell => s.slippageBound ≤ o.makerAmount.val
  | .buy => o.takerAmount.val ≤ s.slippageBound

namespace Desk

def denySet (d : Desk) : Except CacheError (Table Unit) :=
  (d.state.denied d.now d.settings.scope).1

def firmReply (d : Desk) : Except MakerError Json := d.state.maker.replyAt d.settings.firmUrl

def Offers (d : Desk) (o : FirmOrder) : Prop :=
  ∃ body, d.firmReply = .ok body ∧ FirmOrder.ofReply body = .ok o

def Met (d : Desk) (s : Swap) (clock : UInt64) : Check → Prop
  | .source => ∃ t, d.state.tokens.ofAddress? s.src = some t
  | .destination => ∃ t, d.state.tokens.ofAddress? s.dest = some t
  | .user => ∃ set, d.denySet = .ok set ∧
      ∀ e ∈ set.entries, Text.normalize e.1 ≠ Text.normalize s.user
  | .amount => s.fixedAmount.val ≠ 0
  | .reply => ∃ o, d.Offers o
  | .makerAsset => ∃ o t, d.Offers o ∧ d.state.tokens.ofAddress? s.dest = some t ∧
      Address.read t.address = .ok o.makerAsset
  | .takerAsset => ∃ o t, d.Offers o ∧ d.state.tokens.ofAddress? s.src = some t ∧
      Address.read t.address = .ok o.takerAsset
  | .maker => ∃ o, d.Offers o ∧ o.maker = d.settings.contract
  | .fixedAmount => ∃ o, d.Offers o ∧ o.fixedAmount s.side = Word.ofUnits s.fixedAmount
  | .expiry => ∃ o, d.Offers o ∧ clock < o.expiry
  | .signature => ∃ o, d.Offers o ∧
      d.state.verifier.Accepts (d.settings.domainOf.digest o) o.signature
  | .slippage => ∃ o, d.Offers o ∧ s.Bounded ∧ o.Within s

inductive Reports (d : Desk) (s : Swap) (clock : UInt64) : Check → PrepareError → Prop where
  | source : Reports d s clock .source (.unknownToken (Text.normalize s.src))
  | destination : Reports d s clock .destination (.unknownToken (Text.normalize s.dest))
  | unreadable {e} (h : d.denySet = .error e) : Reports d s clock .user (.cache e)
  | denied {set} (h : d.denySet = .ok set) :
      Reports d s clock .user (.denied (Text.normalize s.user))
  | amount : Reports d s clock .amount .zeroAmount
  | refused {e} (h : d.firmReply = .error e) : Reports d s clock .reply (.request e)
  | malformed {body e} (h : d.firmReply = .ok body) (he : FirmOrder.ofReply body = .error e) :
      Reports d s clock .reply (.reply e)
  | badDestination {t cause} (ht : d.state.tokens.ofAddress? s.dest = some t)
      (h : Address.read t.address = .error cause) :
      Reports d s clock .makerAsset (.badTokenAddress t.address cause)
  | makerAsset {o t a} (ho : d.Offers o) (ht : d.state.tokens.ofAddress? s.dest = some t)
      (ha : Address.read t.address = .ok a) :
      Reports d s clock .makerAsset
        (.mismatch "makerAsset" (.address a) (.address o.makerAsset))
  | badSource {t cause} (ht : d.state.tokens.ofAddress? s.src = some t)
      (h : Address.read t.address = .error cause) :
      Reports d s clock .takerAsset (.badTokenAddress t.address cause)
  | takerAsset {o t a} (ho : d.Offers o) (ht : d.state.tokens.ofAddress? s.src = some t)
      (ha : Address.read t.address = .ok a) :
      Reports d s clock .takerAsset
        (.mismatch "takerAsset" (.address a) (.address o.takerAsset))
  | maker {o} (ho : d.Offers o) :
      Reports d s clock .maker
        (.mismatch "maker" (.address d.settings.contract) (.address o.maker))
  | fixedAmount {o} (ho : d.Offers o) :
      Reports d s clock .fixedAmount (.mismatch (QuoteRequest.amountField s.side)
        (.amount (Word.ofUnits s.fixedAmount)) (.amount (o.fixedAmount s.side)))
  | expiry {o} (ho : d.Offers o) : Reports d s clock .expiry (.expired o.expiry clock)
  | signature {o} (ho : d.Offers o) :
      Reports d s clock .signature (.badSignature (d.settings.domainOf.digest o))
  | negative (h : s.slippage.isNegative = true) :
      Reports d s clock .slippage (.slippage (.negativeFactor s.slippage))
  | overflow (h : s.slippage.isNegative = false) (hb : ¬ s.Bounded) :
      Reports d s clock .slippage (.slippage (.overflow s.shownAmount s.slippage))
  | paysTooLittle {o} (ho : d.Offers o) (hb : s.Bounded) (hside : s.side = .sell) :
      Reports d s clock .slippage
        (.slippage (.paysTooLittle o.makerAmount s.destAmount s.slippage))
  | takesTooMuch {o} (ho : d.Offers o) (hb : s.Bounded) (hside : s.side = .buy) :
      Reports d s clock .slippage
        (.slippage (.takesTooMuch o.takerAmount s.srcAmount s.slippage))

def Passed (d : Desk) (s : Swap) (clock : UInt64) (n : Nat) : Prop :=
  ∀ c, c.rank < n → d.Met s clock c

inductive Judged (d : Desk) (s : Swap) (clock : UInt64) :
    Except PrepareError PreparedOrder → Prop where
  | accepted {o} (ho : d.Offers o) (hmet : ∀ c, d.Met s clock c) :
      Judged d s clock (.ok ⟨o, d.settings.domainOf.digest o, o.expiry⟩)
  | refused {c e} (hpassed : d.Passed s clock c.rank) (hfails : ¬ d.Met s clock c)
      (hreports : d.Reports s clock c e) : Judged d s clock (.error e)

variable {d : Desk} {s : Swap} {clock : UInt64}

theorem passed_zero : d.Passed s clock 0 := fun _ h => absurd h (Nat.not_lt_zero _)

theorem Passed.next {n : Nat} (h : d.Passed s clock n) (c : Check) (hrank : c.rank = n)
    (hmet : d.Met s clock c) : d.Passed s clock (n + 1) := by
  intro c' hlt
  rcases Nat.lt_succ_iff_lt_or_eq.mp hlt with hlt | heq
  · exact h c' hlt
  · rw [Check.rank_injective (heq.trans hrank.symm)]
    exact hmet

theorem Passed.fails {n : Nat} {e : PrepareError} (h : d.Passed s clock n) (c : Check)
    (hrank : c.rank = n) (hfails : ¬ d.Met s clock c) (hreports : d.Reports s clock c e) :
    d.Judged s clock (.error e) :=
  .refused (hrank ▸ h) hfails hreports

theorem offers_unique {o o' : FirmOrder} (h : d.Offers o) (h' : d.Offers o') : o = o' := by
  obtain ⟨body, hbody, ho⟩ := h
  obtain ⟨body', hbody', ho'⟩ := h'
  obtain rfl := Except.ok.inj (hbody.symm.trans hbody')
  exact Except.ok.inj (ho.symm.trans ho')

theorem reports_unique {c : Check} {e e' : PrepareError} (h : d.Reports s clock c e)
    (h' : d.Reports s clock c e') : e = e' := by
  cases h with
  | source => cases h'; rfl
  | destination => cases h'; rfl
  | unreadable h =>
    cases h' with
    | unreadable h' => rw [Except.error.inj (h.symm.trans h')]
    | denied h' => cases h.symm.trans h'
  | denied h =>
    cases h' with
    | unreadable h' => cases h.symm.trans h'
    | denied h' => rfl
  | amount => cases h'; rfl
  | refused h =>
    cases h' with
    | refused h' => rw [Except.error.inj (h.symm.trans h')]
    | malformed h' _ => cases h.symm.trans h'
  | malformed h he =>
    cases h' with
    | refused h' => cases h.symm.trans h'
    | malformed h' he' =>
      obtain rfl := Except.ok.inj (h.symm.trans h')
      rw [Except.error.inj (he.symm.trans he')]
  | badDestination ht h =>
    cases h' with
    | badDestination ht' h' =>
      obtain rfl := Option.some.inj (ht.symm.trans ht')
      rw [Except.error.inj (h.symm.trans h')]
    | makerAsset _ ht' ha' =>
      obtain rfl := Option.some.inj (ht.symm.trans ht')
      cases h.symm.trans ha'
  | makerAsset ho ht ha =>
    cases h' with
    | badDestination ht' h' =>
      obtain rfl := Option.some.inj (ht.symm.trans ht')
      cases ha.symm.trans h'
    | makerAsset ho' ht' ha' =>
      obtain rfl := offers_unique ho ho'
      obtain rfl := Option.some.inj (ht.symm.trans ht')
      rw [Except.ok.inj (ha.symm.trans ha')]
  | badSource ht h =>
    cases h' with
    | badSource ht' h' =>
      obtain rfl := Option.some.inj (ht.symm.trans ht')
      rw [Except.error.inj (h.symm.trans h')]
    | takerAsset _ ht' ha' =>
      obtain rfl := Option.some.inj (ht.symm.trans ht')
      cases h.symm.trans ha'
  | takerAsset ho ht ha =>
    cases h' with
    | badSource ht' h' =>
      obtain rfl := Option.some.inj (ht.symm.trans ht')
      cases ha.symm.trans h'
    | takerAsset ho' ht' ha' =>
      obtain rfl := offers_unique ho ho'
      obtain rfl := Option.some.inj (ht.symm.trans ht')
      rw [Except.ok.inj (ha.symm.trans ha')]
  | maker ho =>
    cases h' with
    | maker ho' => rw [offers_unique ho ho']
  | fixedAmount ho =>
    cases h' with
    | fixedAmount ho' => rw [offers_unique ho ho']
  | expiry ho =>
    cases h' with
    | expiry ho' => rw [offers_unique ho ho']
  | signature ho =>
    cases h' with
    | signature ho' => rw [offers_unique ho ho']
  | negative h =>
    cases h' with
    | negative => rfl
    | overflow h' _ => cases h.symm.trans h'
    | paysTooLittle _ hb' _ => cases h.symm.trans hb'.1
    | takesTooMuch _ hb' _ => cases h.symm.trans hb'.1
  | overflow h hb =>
    cases h' with
    | negative h' => cases h.symm.trans h'
    | overflow => rfl
    | paysTooLittle _ hb' _ => exact absurd hb' hb
    | takesTooMuch _ hb' _ => exact absurd hb' hb
  | paysTooLittle ho hb hside =>
    cases h' with
    | negative h' => cases h'.symm.trans hb.1
    | overflow _ hb' => exact absurd hb hb'
    | paysTooLittle ho' _ _ => rw [offers_unique ho ho']
    | takesTooMuch _ _ hside' => cases hside.symm.trans hside'
  | takesTooMuch ho hb hside =>
    cases h' with
    | negative h' => cases h'.symm.trans hb.1
    | overflow _ hb' => exact absurd hb hb'
    | paysTooLittle _ _ hside' => cases hside.symm.trans hside'
    | takesTooMuch ho' _ _ => rw [offers_unique ho ho']

/-- A preparation is judged in one way only: the first check that fails is one. -/
theorem judged_unique {r r' : Except PrepareError PreparedOrder} (h : d.Judged s clock r)
    (h' : d.Judged s clock r') : r = r' := by
  cases h with
  | accepted ho hmet =>
    cases h' with
    | accepted ho' _ => rw [offers_unique ho ho']
    | refused _ hfails' _ => exact absurd (hmet _) hfails'
  | @refused c e hpassed hfails hreports =>
    cases h' with
    | accepted _ hmet' => exact absurd (hmet' _) hfails
    | @refused c' e' hpassed' hfails' hreports' =>
      have hle : c.rank ≤ c'.rank := Nat.le_of_not_lt fun hlt => hfails' (hpassed c' hlt)
      have hge : c'.rank ≤ c.rank := Nat.le_of_not_lt fun hlt => hfails (hpassed' c hlt)
      obtain rfl := Check.rank_injective (Nat.le_antisymm hle hge)
      rw [reports_unique hreports hreports']

end Desk

/-- What a preparation that waits for the maker relies on: the maker's replies, the verifier, and a
deny set that can be added to. -/
structure Steady (settings : Settings) (replies : List (String × Except MakerError Json))
    (verifier : Verifier) (w : State) : Prop where
  replies : w.maker.replies = replies
  verifier : w.verifier = verifier
  noText : w.cache.HoldsNoText settings.scope.blacklistKey

theorem Settings.preserves_steady (settings : Settings)
    (replies : List (String × Except MakerError Json)) (verifier : Verifier) :
    settings.behaviour.Preserves (Steady settings replies verifier) where
  receive feed w h := by
    change Steady settings replies verifier (State.receive settings feed w).2.2
    simp only [State.receive]
    split
    · exact ⟨h.replies, h.verifier, h.noText⟩
    · split
      · exact ⟨h.replies, h.verifier, h.noText⟩
      · exact ⟨h.replies, h.verifier, h.noText⟩
  perform a now w h := by
    cases a with
    | replaceTokens t => exact ⟨h.replies, h.verifier, h.noText⟩
    | replacePairs t => exact ⟨h.replies, h.verifier, h.noText⟩
    | publish base quote side book =>
      have hkey := settings.scope.bookKey_ne_blacklistKey base quote side
      exact ⟨h.replies, h.verifier, h.noText.of_find?_eq (Cache.find?_put now _ _ hkey)⟩
    | deny address => exact ⟨h.replies, h.verifier, (h.noText.add now _).2⟩
  settle feed outcome w h := ⟨h.replies, h.verifier, h.noText⟩

theorem Settings.url_firmRequest (settings : Settings) (r : QuoteRequest) :
    (settings.firmRequest r).url = settings.firmUrl := by
  unfold Settings.firmRequest Request.withApiKey
  split <;> rfl

namespace Desk

variable {d : Desk} {s : Swap} {clock : UInt64}

theorem start_judged (d : Desk) (s : Swap) (clock : UInt64) :
    (∃ e st, s.start d.settings d.state d.now = (.error e, st) ∧ d.Judged s clock (.error e)) ∨
    ∃ src dest st, s.start d.settings d.state d.now = (.ok ⟨s, src, dest⟩, st) ∧
      d.state.tokens.ofAddress? s.src = some src ∧
      d.state.tokens.ofAddress? s.dest = some dest ∧ d.Passed s clock 4 ∧
      Steady d.settings d.state.maker.replies d.state.verifier st := by
  have h0 : d.Passed s clock 0 := passed_zero
  unfold Swap.start Swap.legs
  cases hsrc : d.state.tokens.ofAddress? s.src with
  | none =>
    refine .inl ⟨_, _, rfl, h0.fails .source rfl ?_ .source⟩
    rintro ⟨t, ht⟩
    cases hsrc.symm.trans ht
  | some src =>
    have h1 := h0.next .source rfl ⟨src, hsrc⟩
    cases hdest : d.state.tokens.ofAddress? s.dest with
    | none =>
      refine .inl ⟨_, _, rfl, h1.fails .destination rfl ?_ .destination⟩
      rintro ⟨t, ht⟩
      cases hdest.symm.trans ht
    | some dest =>
      have h2 := h1.next .destination rfl ⟨dest, hdest⟩
      simp only [Swap.guardUser, State.isDenied]
      cases hset : d.denySet with
      | error e =>
        have hread : (d.state.denied d.now d.settings.scope).1 = .error e := hset
        simp only [hread, Except.map]
        refine .inl ⟨_, _, rfl, h2.fails .user rfl ?_ (.unreadable hset)⟩
        rintro ⟨set, hset', -⟩
        cases hset.symm.trans hset'
      | ok set =>
        have hread : (d.state.denied d.now d.settings.scope).1 = .ok set := hset
        have hsteady : Steady d.settings d.state.maker.replies d.state.verifier
            (d.state.denied d.now d.settings.scope).2 :=
          ⟨rfl, rfl, Cache.holdsNoText_members hset⟩
        simp only [hread, Except.map]
        by_cases hdenied : (set.entries.any fun e =>
            Text.normalize e.1 == Text.normalize s.user) = true
        · simp only [hdenied]
          refine .inl ⟨_, _, rfl, h2.fails .user rfl ?_ (.denied hset)⟩
          rintro ⟨set', hset', hnone⟩
          obtain rfl := Except.ok.inj (hset.symm.trans hset')
          obtain ⟨e, he, heq⟩ := List.any_eq_true.mp hdenied
          exact hnone e he (beq_iff_eq.mp heq)
        · have h3 := h2.next .user rfl ⟨set, hset, fun e he heq =>
            hdenied (List.any_eq_true.mpr ⟨e, he, beq_iff_eq.mpr heq⟩)⟩
          simp only [Bool.eq_false_iff.mpr hdenied]
          by_cases hzero : s.fixedAmount.val = 0
          · simp only [hzero, if_true]
            exact .inl ⟨_, _, rfl, h3.fails .amount rfl (fun hne => hne hzero) .amount⟩
          · simp only [hzero, if_false]
            exact .inr ⟨src, dest, _, rfl, rfl, rfl, h3.next .amount rfl hzero, hsteady⟩

theorem fields_judged {o : FirmOrder} {src dest : Token} (ho : d.Offers o)
    (hsrc : d.state.tokens.ofAddress? s.src = some src)
    (hdest : d.state.tokens.ofAddress? s.dest = some dest) (h5 : d.Passed s clock 5) :
    (∃ e, o.checkFields d.settings.contract ⟨s, src, dest⟩ = .error e ∧
      d.Judged s clock (.error e)) ∨
    o.checkFields d.settings.contract ⟨s, src, dest⟩ = .ok () ∧ d.Passed s clock 9 := by
  simp only [FirmOrder.checkFields, FirmOrder.tokenAccount, FirmOrder.expectAddress, bind,
    Except.bind]
  cases hmaker : Address.read dest.address with
  | error cause =>
    refine .inl ⟨_, rfl, h5.fails .makerAsset rfl ?_ (.badDestination hdest hmaker)⟩
    rintro ⟨o', t, -, ht, hread⟩
    obtain rfl := Option.some.inj (hdest.symm.trans ht)
    cases hmaker.symm.trans hread
  | ok makerAsset =>
    by_cases hmakerAsset : makerAsset = o.makerAsset
    · have h6 := h5.next .makerAsset rfl ⟨o, dest, ho, hdest, hmakerAsset ▸ hmaker⟩
      simp only [Except.mapError, hmakerAsset, if_true]
      cases htaker : Address.read src.address with
      | error cause =>
        refine .inl ⟨_, rfl, h6.fails .takerAsset rfl ?_ (.badSource hsrc htaker)⟩
        rintro ⟨o', t, -, ht, hread⟩
        obtain rfl := Option.some.inj (hsrc.symm.trans ht)
        cases htaker.symm.trans hread
      | ok takerAsset =>
        by_cases htakerAsset : takerAsset = o.takerAsset
        · have h7 := h6.next .takerAsset rfl ⟨o, src, ho, hsrc, htakerAsset ▸ htaker⟩
          simp only [htakerAsset, if_true]
          by_cases hcontract : d.settings.contract = o.maker
          · have h8 := h7.next .maker rfl ⟨o, ho, hcontract.symm⟩
            simp only [hcontract, if_true]
            by_cases hfixed : Word.ofUnits s.fixedAmount = o.fixedAmount s.side
            · refine .inr ⟨?_, h8.next .fixedAmount rfl ⟨o, ho, hfixed.symm⟩⟩
              cases hside : s.side <;>
                simp_all [Swap.fixedAmount, FirmOrder.fixedAmount, FirmOrder.expectAmount]
            · refine .inl ⟨_, ?_, h8.fails .fixedAmount rfl ?_ (.fixedAmount ho)⟩
              · cases hside : s.side <;>
                  simp_all [Swap.fixedAmount, FirmOrder.fixedAmount, FirmOrder.expectAmount,
                    QuoteRequest.amountField]
              · rintro ⟨o', ho', heq⟩
                obtain rfl := offers_unique ho ho'
                exact hfixed heq.symm
          · simp only [hcontract, if_false]
            refine .inl ⟨_, rfl, h7.fails .maker rfl ?_ (.maker ho)⟩
            rintro ⟨o', ho', heq⟩
            obtain rfl := offers_unique ho ho'
            exact hcontract heq.symm
        · simp only [htakerAsset, if_false]
          refine .inl ⟨_, rfl, h6.fails .takerAsset rfl ?_ (.takerAsset ho hsrc htaker)⟩
          rintro ⟨o', t, ho', ht, hread⟩
          obtain rfl := offers_unique ho ho'
          obtain rfl := Option.some.inj (hsrc.symm.trans ht)
          exact htakerAsset (Except.ok.inj (htaker.symm.trans hread))
    · simp only [Except.mapError, hmakerAsset, if_false]
      refine .inl ⟨_, rfl, h5.fails .makerAsset rfl ?_ (.makerAsset ho hdest hmaker)⟩
      rintro ⟨o', t, ho', ht, hread⟩
      obtain rfl := offers_unique ho ho'
      obtain rfl := Option.some.inj (hdest.symm.trans ht)
      exact hmakerAsset (Except.ok.inj (hmaker.symm.trans hread))

theorem slippage_judged {o : FirmOrder} (ho : d.Offers o) (h11 : d.Passed s clock 11) :
    (∃ fault, o.checkSlippage s.side s.srcAmount s.destAmount s.slippage = .error fault ∧
      d.Judged s clock (.error (.slippage fault))) ∨
    o.checkSlippage s.side s.srcAmount s.destAmount s.slippage = .ok () ∧
      d.Passed s clock 12 := by
  have hshown : o.checkSlippage s.side s.srcAmount s.destAmount s.slippage =
      (scaleAmount s.shownAmount s.slippage).bind fun bound =>
        match s.side with
        | .sell => if o.makerAmount.val < bound then
            .error (.paysTooLittle o.makerAmount s.destAmount s.slippage) else .ok ()
        | .buy => if bound < o.takerAmount.val then
            .error (.takesTooMuch o.takerAmount s.srcAmount s.slippage) else .ok () := by
    unfold FirmOrder.checkSlippage Swap.shownAmount
    cases s.side <;> rfl
  rw [hshown]
  cases hnegative : s.slippage.isNegative with
  | true =>
    refine .inl ⟨_, by simp only [scaleAmount, hnegative, if_true]; rfl,
      h11.fails .slippage rfl ?_ (.negative hnegative)⟩
    rintro ⟨-, -, hb, -⟩
    cases hnegative.symm.trans hb.1
  | false =>
    by_cases hlt : s.shownAmount.val * s.slippage.coefficient.natAbs < Word.size
    · have hb : s.Bounded := ⟨hnegative, hlt⟩
      have hscale : scaleAmount s.shownAmount s.slippage = .ok s.slippageBound := by
        simp only [scaleAmount, hnegative, Word.ofNat?, dif_pos hlt]
        rfl
      rw [hscale]
      change (∃ fault, (match s.side with
          | .sell => _
          | .buy => _) = Except.error fault ∧ _) ∨ (match s.side with
          | .sell => _
          | .buy => _) = Except.ok () ∧ _
      cases hside : s.side with
      | sell =>
        by_cases hless : o.makerAmount.val < s.slippageBound
        · refine .inl ⟨_, if_pos hless, h11.fails .slippage rfl ?_ (.paysTooLittle ho hb hside)⟩
          rintro ⟨o', ho', -, hwithin⟩
          obtain rfl := offers_unique ho ho'
          rw [FirmOrder.Within, hside] at hwithin
          exact Nat.not_le_of_lt hless hwithin
        · refine .inr ⟨if_neg hless, h11.next .slippage rfl ⟨o, ho, hb, ?_⟩⟩
          rw [FirmOrder.Within, hside]
          exact Nat.le_of_not_lt hless
      | buy =>
        by_cases hmore : s.slippageBound < o.takerAmount.val
        · refine .inl ⟨_, if_pos hmore, h11.fails .slippage rfl ?_ (.takesTooMuch ho hb hside)⟩
          rintro ⟨o', ho', -, hwithin⟩
          obtain rfl := offers_unique ho ho'
          rw [FirmOrder.Within, hside] at hwithin
          exact Nat.not_le_of_lt hmore hwithin
        · refine .inr ⟨if_neg hmore, h11.next .slippage rfl ⟨o, ho, hb, ?_⟩⟩
          rw [FirmOrder.Within, hside]
          exact Nat.le_of_not_lt hmore
    · have hb : ¬ s.Bounded := fun hb => hlt hb.2
      have hscale : scaleAmount s.shownAmount s.slippage =
          .error (.overflow s.shownAmount s.slippage) := by
        simp only [scaleAmount, hnegative, Word.ofNat?, dif_neg hlt]
        rfl
      rw [hscale]
      refine .inl ⟨_, rfl, h11.fails .slippage rfl ?_ (.overflow hnegative hb)⟩
      rintro ⟨-, -, hb', -⟩
      exact hb hb'

theorem accepts_iff {v : Verifier} {digest signature : Bytes} :
    (v.check digest signature).1 = true ↔ v.Accepts digest signature := by
  cases v with
  | fixed verdict asked => exact Iff.rfl
  | signers authorized =>
    simp only [Verifier.check, Verifier.Accepts, Signers.authorize]
    cases Secp256k1.recover? digest signature with
    | none => simp
    | some a => simp [Signers.contains]

theorem accept_judged {o : FirmOrder} {src dest : Token} {st : State} (ho : d.Offers o)
    (hsrc : d.state.tokens.ofAddress? s.src = some src)
    (hdest : d.state.tokens.ofAddress? s.dest = some dest) (h5 : d.Passed s clock 5)
    (hverifier : st.verifier = d.state.verifier) :
    d.Judged s clock (o.accept d.settings st ⟨s, src, dest⟩ clock).1 := by
  unfold FirmOrder.accept
  rcases fields_judged ho hsrc hdest h5 with ⟨e, herror, hjudged⟩ | ⟨hok, h9⟩
  · simp only [herror]
    exact hjudged
  · simp only [hok]
    by_cases hexpired : o.isExpired clock = true
    · simp only [hexpired, if_true]
      have hle : o.expiry ≤ clock := of_decide_eq_true hexpired
      refine h9.fails .expiry rfl ?_ (.expiry ho)
      rintro ⟨o', ho', hlt⟩
      obtain rfl := offers_unique ho ho'
      exact absurd hle (UInt64.not_le.mpr hlt)
    · simp only [hexpired]
      have hlt : clock < o.expiry := by
        refine UInt64.not_le.mp fun hle => hexpired ?_
        exact decide_eq_true hle
      have h10 := h9.next .expiry rfl ⟨o, ho, hlt⟩
      unfold FirmOrder.checkSignature
      rw [hverifier]
      cases hcheck : d.state.verifier.check (d.settings.domainOf.digest o) o.signature with
      | mk verdict verifier =>
        cases verdict with
        | false =>
          refine h10.fails .signature rfl ?_ (.signature ho)
          rintro ⟨o', ho', haccepts⟩
          obtain rfl := offers_unique ho ho'
          have := accepts_iff.mpr haccepts
          rw [hcheck] at this
          cases this
        | true =>
          have haccepts : d.state.verifier.Accepts (d.settings.domainOf.digest o) o.signature :=
            accepts_iff.mp (by rw [hcheck])
          have h11 := h10.next .signature rfl ⟨o, ho, haccepts⟩
          rcases slippage_judged ho h11 with ⟨fault, herror, hjudged⟩ | ⟨hok, h12⟩
          · simp only [herror]
            exact hjudged
          · simp only [hok]
            exact .accepted ho fun c => h12 c c.rank_lt

/-- A maker that refuses a user as restricted leaves its own error, since the user can be denied. -/
theorem refuse_error (st : State) (now : Nat) (p : Pending) (e : MakerError)
    (hnoText : st.cache.HoldsNoText d.settings.scope.blacklistKey) :
    (p.refuse d.settings st now e).1 = .request e := by
  unfold Pending.refuse
  split
  · have hadd := (hnoText.add now (Text.normalize p.swap.user)).1
    simp only [State.deny, hadd]
  · rfl

theorem complete_judged {src dest : Token} {st : State} (now : Nat)
    (hsrc : d.state.tokens.ofAddress? s.src = some src)
    (hdest : d.state.tokens.ofAddress? s.dest = some dest) (h4 : d.Passed s clock 4)
    (hst : Steady d.settings d.state.maker.replies d.state.verifier st) :
    d.Judged s clock
      (Pending.complete d.settings st now clock ⟨s, src, dest⟩).1 := by
  have hreply : (st.ask (d.settings.firmRequest (Pending.quote ⟨s, src, dest⟩))).1 =
      d.firmReply := by
    change st.maker.replyAt _ = d.state.maker.replyAt _
    rw [Settings.url_firmRequest, Maker.replyAt, Maker.replyAt, hst.replies]
  unfold Pending.complete
  cases hask : st.ask (d.settings.firmRequest (Pending.quote ⟨s, src, dest⟩)) with
  | mk reply after =>
    have hafter : after.verifier = st.verifier ∧ after.cache = st.cache := by
      obtain rfl := congrArg Prod.snd hask
      exact ⟨rfl, rfl⟩
    rw [hask] at hreply
    cases reply with
    | error e =>
      have hnoText : after.cache.HoldsNoText d.settings.scope.blacklistKey := by
        rw [hafter.2]
        exact hst.noText
      simp only [refuse_error { after with metrics := after.metrics.countQuote .requestError } now _ e
        hnoText]
      refine h4.fails .reply rfl ?_ (.refused hreply.symm)
      rintro ⟨o, body, hbody, -⟩
      cases hreply.trans hbody
    | ok body =>
      cases hread : FirmOrder.ofReply body with
      | error e =>
        simp only [hread]
        refine h4.fails .reply rfl ?_ (.malformed hreply.symm hread)
        rintro ⟨o, body', hbody, hread'⟩
        obtain rfl := Except.ok.inj (hreply.trans hbody)
        cases hread.symm.trans hread'
      | ok o =>
        have ho : d.Offers o := ⟨body, hreply.symm, hread⟩
        simp only [hread]
        exact accept_judged ho hsrc hdest (h4.next .reply rfl ⟨o, ho⟩)
          (hafter.1.trans hst.verifier)

theorem prepare_judged (d : Desk) (s : Swap) (clock : UInt64) :
    d.Judged s clock (d.prepare s clock).1 := by
  unfold Desk.prepare
  rcases start_judged d s clock with ⟨e, st, hstart, hjudged⟩ |
    ⟨src, dest, st, hstart, hsrc, hdest, h4, hst⟩
  · simp only [hstart]
    exact hjudged
  · simp only [hstart]
    have hmoves := Runner.sleep_moves d.settings.behaviour (d.withState st).runner
      (st.maker.delayAt d.settings.firmUrl)
    have hwaited := hmoves.preserves (d.settings.preserves_steady _ _) hst
    exact complete_judged _ hsrc hdest h4 hwaited

/-- An order is prepared exactly if every check is met; then it is the one that the maker offers, with
its digest and its expiry. Otherwise the error is the one of the first check that is not met. -/
theorem prepare_result_iff (d : Desk) (s : Swap) (clock : UInt64) :
    (∀ p, (d.prepare s clock).1 = .ok p ↔ (∀ c, d.Met s clock c) ∧
      ∃ o, d.Offers o ∧ p = ⟨o, d.settings.domainOf.digest o, o.expiry⟩) ∧
    (∀ e, (d.prepare s clock).1 = .error e ↔
      ∃ c, (∀ c', c'.rank < c.rank → d.Met s clock c') ∧ ¬ d.Met s clock c ∧
        d.Reports s clock c e) := by
  have hjudged := prepare_judged d s clock
  refine ⟨fun p => ⟨fun hp => ?_, ?_⟩, fun e => ⟨fun he => ?_, ?_⟩⟩
  · rw [hp] at hjudged
    cases hjudged with
    | accepted ho hmet => exact ⟨hmet, _, ho, rfl⟩
  · rintro ⟨hmet, o, ho, rfl⟩
    exact judged_unique hjudged (.accepted ho hmet)
  · rw [he] at hjudged
    cases hjudged with
    | refused hpassed hfails hreports => exact ⟨_, hpassed, hfails, hreports⟩
  · rintro ⟨c, hpassed, hfails, hreports⟩
    exact judged_unique hjudged (.refused hpassed hfails hreports)

end Desk
end QuoteDesk
