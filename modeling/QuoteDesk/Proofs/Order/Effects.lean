import QuoteDesk.Proofs.Cache.DenySet
import QuoteDesk.Proofs.Order.Fields
import QuoteDesk.Proofs.Order.Prepare
/-!
What a preparation does to the world. Before it asks the maker it changes nothing but counters, and it
asks exactly if nothing stands against it. What follows on the reply adds the one request to those the
maker has answered and at most one address to the deny set; directories and books stay as they are.
-/
namespace QuoteDesk

/-- An address is one of some names, in whatever letter case and with whatever blanks around it. -/
def Covers (names : List String) (address : String) : Prop :=
  Text.normalize address ∈ names.map Text.normalize

@[simp] theorem covers_nil (address : String) : ¬ Covers [] address := List.not_mem_nil

theorem covers_append {names names' : List String} {address : String} :
    Covers (names ++ names') address ↔ Covers names address ∨ Covers names' address := by
  simp [Covers]

theorem covers_of_normal {names names' : List String} {added : String}
    (h : ∀ name, name ∈ names' ↔ name = Text.normalize added ∨ name ∈ names) (address : String) :
    Covers names' address ↔ Covers names address ∨ Covers [added] address := by
  simp [Covers, h, or_comm, eq_comm]

def Swap.firmFields (s : Swap) (src dest : Token) : List (String × Json) :=
  match s.side with
  | .sell =>
    [("makerAsset", .string dest.address), ("takerAsset", .string src.address),
      ("takerAmount", .string (Text.decimal s.srcAmount.val)), ("userAddress", .string s.user)]
  | .buy =>
    [("makerAsset", .string dest.address), ("takerAsset", .string src.address),
      ("makerAmount", .string (Text.decimal s.destAmount.val)), ("userAddress", .string s.user)]

structure Request.IsFirm (settings : Settings) (swap : Swap) (src dest : Token) (r : Request) :
    Prop where
  method : r.method = "POST"
  url : r.url = endpoint settings.apiUrl "firm"
  headers : r.headers = if settings.apiKey.isEmpty then [] else [("api_key", settings.apiKey)]
  body : r.body = some (.object (swap.firmFields src dest))

theorem Settings.isFirm_firmRequest (settings : Settings) (p : Pending) :
    (settings.firmRequest p.quote).IsFirm settings p.swap p.src p.dest := by
  have hbody : p.quote.toJson = .object (p.swap.firmFields p.src p.dest) := by
    unfold Pending.quote QuoteRequest.ofSwap QuoteRequest.toJson Swap.fixedAmount Swap.firmFields
    cases p.swap.side <;> rfl
  unfold Settings.firmRequest Request.withApiKey
  by_cases hkey : settings.apiKey.isEmpty = true
  · rw [if_pos hkey]
    exact ⟨rfl, rfl, (if_pos hkey).symm, congrArg some hbody⟩
  · rw [if_neg hkey]
    exact ⟨rfl, rfl, (if_neg hkey).symm, congrArg some hbody⟩

def Settings.Refuses (settings : Settings) (w : State) : Prop :=
  ∃ e, w.maker.replyAt settings.firmUrl = .error e ∧
    Text.contains e.message "User is restricted from using Dexalot" = true

namespace FirmOrder

variable {P : PrepareError → Prop} (hmismatch : ∀ field x y, P (.mismatch field x y))
include hmismatch

theorem failsOnly_expectAddress (field : String) (expected actual : Address) :
    FailsOnly P (expectAddress field expected actual) := by
  unfold expectAddress
  split
  · nofun
  · exact failsOnly_error (hmismatch _ _ _)

theorem failsOnly_expectAmount (field : String) (expected actual : Word) :
    FailsOnly P (expectAmount field expected actual) := by
  unfold expectAmount
  split
  · nofun
  · exact failsOnly_error (hmismatch _ _ _)

theorem failsOnly_checkFields (o : FirmOrder) (contract : Address) {p : Pending}
    (hsrc : FailsOnly P (tokenAccount p.src)) (hdest : FailsOnly P (tokenAccount p.dest)) :
    FailsOnly P (o.checkFields contract p) := by
  unfold checkFields
  refine hdest.bind fun dest => ?_
  refine (failsOnly_expectAddress hmismatch _ _ _).bind fun _ => ?_
  refine hsrc.bind fun src => ?_
  refine (failsOnly_expectAddress hmismatch _ _ _).bind fun _ => ?_
  refine (failsOnly_expectAddress hmismatch _ _ _).bind fun _ => ?_
  split <;> exact failsOnly_expectAmount hmismatch _ _ _

end FirmOrder

namespace State

def deniedNames (settings : Settings) (w : State) : List String :=
  w.cache.memberNames settings.scope.blacklistKey

def KeepsDenied (settings : Settings) (w : State) : Prop :=
  w.cache.KeepsSet settings.scope.blacklistKey

/-- Only the counters and the verifier may differ. -/
structure Stays (w w' : State) : Prop where
  maker : w'.maker = w.maker
  tokens : w'.tokens = w.tokens
  pairs : w'.pairs = w.pairs
  cache : w'.cache = w.cache

/-- All that differs between two states, counters and the verifier apart: requests that the maker has
answered, the latest first, and addresses that are denied. -/
structure Effect (settings : Settings) (sent : List Request) (denied : List String)
    (w w' : State) : Prop where
  maker : w'.maker = { w.maker with answered := sent ++ w.maker.answered }
  tokens : w'.tokens = w.tokens
  pairs : w'.pairs = w.pairs
  books : ∀ key, key ≠ settings.scope.blacklistKey →
    w'.cache.slots.find? key = w.cache.slots.find? key
  keeps : w.KeepsDenied settings → w'.KeepsDenied settings
  names : ∀ name, name ∈ w'.deniedNames settings ↔ name ∈ denied ∨ name ∈ w.deniedNames settings
  still : denied = [] → w'.cache = w.cache

/-- What it takes to ask the maker: both tokens known, the user not denied and the amount not zero. -/
structure Asks (settings : Settings) (w : State) (swap : Swap) (src dest : Token) : Prop where
  src : w.tokens.ofAddress? swap.src = some src
  dest : w.tokens.ofAddress? swap.dest = some dest
  user : ¬ Covers (w.deniedNames settings) swap.user
  amount : swap.fixedAmount.val ≠ 0

def Completes (settings : Settings) (swap : Swap) (src dest : Token) (w w' : State) : Prop :=
  ∃ r : Request, r.IsFirm settings swap src dest ∧
    (settings.Refuses w → Effect settings [r] [Text.normalize swap.user] w w') ∧
    (¬ settings.Refuses w → Effect settings [r] [] w w')

variable {settings : Settings} {w w' : State} {swap : Swap} {src dest : Token}
  {sent : List Request} {denied : List String}

theorem Stays.refl (w : State) : Stays w w := ⟨rfl, rfl, rfl, rfl⟩

theorem Stays.effect (h : Stays w w') : Effect settings [] [] w w' where
  maker := h.maker
  tokens := h.tokens
  pairs := h.pairs
  books key _ := by rw [h.cache]
  keeps hkeeps := by rwa [KeepsDenied, h.cache]
  names name := by simp [deniedNames, h.cache]
  still _ := h.cache

theorem Effect.log (h : Effect settings sent denied w w') :
    w'.maker.log = w.maker.log ++ sent.reverse := by
  simp [Maker.log, h.maker]

theorem Effect.covers_iff {user : String}
    (h : Effect settings sent [Text.normalize user] w w') (a : String) :
    Covers (w'.deniedNames settings) a ↔ Covers (w.deniedNames settings) a ∨ Covers [user] a :=
  covers_of_normal (fun name => by rw [h.names, List.mem_singleton]) a

theorem isDenied_of_keeps (h : w.KeepsDenied settings) (now : Nat) (address : String) :
    ∃ verdict, w.isDenied now settings.scope address = (.ok verdict, w) ∧
      (verdict = true ↔ Covers (w.deniedNames settings) address) := by
  obtain ⟨set, hread, hnames⟩ := Cache.KeepsSet.members h now
  refine ⟨_, by simp only [isDenied, State.denied, hread]; rfl, ?_⟩
  simp only [List.any_eq_true, beq_iff_eq, Covers, deniedNames, ← hnames, List.map_map,
    List.mem_map, Function.comp_apply]

/-- Why a preparation ends before the maker hears of it. -/
inductive Stops (settings : Settings) (w : State) (swap : Swap) : PrepareError → Prop where
  | unknown (address : String) : Stops settings w swap (.unknownToken address)
  | denied (h : Covers (w.deniedNames settings) swap.user) :
      Stops settings w swap (.denied (Text.normalize swap.user))
  | zero (h : ¬ Covers (w.deniedNames settings) swap.user) : Stops settings w swap .zeroAmount

/-- Before the maker is asked nothing changes, and it is asked exactly if nothing stands against it. -/
theorem start_cases (h : w.KeepsDenied settings) (now : Nat) (swap : Swap) :
    (∃ e w', swap.start settings w now = (.error e, w') ∧ Stays w w' ∧ Stops settings w swap e ∧
      ∀ src dest, ¬ w.Asks settings swap src dest) ∨
    ∃ src dest, swap.start settings w now = (.ok ⟨swap, src, dest⟩, w) ∧
      w.Asks settings swap src dest := by
  obtain ⟨verdict, hread, hverdict⟩ := isDenied_of_keeps h now swap.user
  unfold Swap.start Swap.legs Swap.guardUser
  cases hsrc : w.tokens.ofAddress? swap.src with
  | none =>
    refine .inl ⟨_, w, rfl, .refl w, .unknown _, ?_⟩
    intro src dest hasks
    cases hsrc.symm.trans hasks.src
  | some src =>
    cases hdest : w.tokens.ofAddress? swap.dest with
    | none =>
      refine .inl ⟨_, w, rfl, .refl w, .unknown _, ?_⟩
      intro src dest hasks
      cases hdest.symm.trans hasks.dest
    | some dest =>
      simp only [hread]
      cases verdict with
      | true =>
        have hcovers := hverdict.mp rfl
        refine .inl ⟨_, _, rfl, ⟨rfl, rfl, rfl, rfl⟩, .denied hcovers, ?_⟩
        intro src dest hasks
        exact hasks.user hcovers
      | false =>
        have hfree : ¬ Covers (w.deniedNames settings) swap.user := by
          intro hcovers
          cases hverdict.mpr hcovers
        by_cases hzero : swap.fixedAmount.val = 0
        · refine .inl ⟨_, w, if_pos hzero, .refl w, .zero hfree, ?_⟩
          intro src dest hasks
          exact hasks.amount hzero
        · exact .inr ⟨src, dest, if_neg hzero, hsrc, hdest, hfree, hzero⟩

theorem Asks.unique {src' dest' : Token} (h : w.Asks settings swap src dest)
    (h' : w.Asks settings swap src' dest') : src = src' ∧ dest = dest' :=
  ⟨Option.some.inj (h.src.symm.trans h'.src), Option.some.inj (h.dest.symm.trans h'.dest)⟩

theorem Asks.not_mem (h : w.Asks settings swap src dest) :
    Text.normalize swap.user ∉ w.deniedNames settings := by
  intro hmem
  refine h.user (List.mem_map.mpr ⟨_, hmem, ?_⟩)
  exact Text.normalize_normalize swap.user

theorem stays_checkSignature (w : State) (o : FirmOrder) (digest : Bytes) :
    Stays w (o.checkSignature digest w).2 := by
  unfold FirmOrder.checkSignature
  split <;> exact ⟨rfl, rfl, rfl, rfl⟩

theorem stays_accept (settings : Settings) (w : State) (o : FirmOrder) (p : Pending)
    (clock : UInt64) : Stays w (o.accept settings w p clock).2 := by
  unfold FirmOrder.accept
  cases o.checkFields settings.contract p with
  | error e => exact .refl w
  | ok done =>
    simp only
    split
    · exact .refl w
    · have hsigned := stays_checkSignature w o (settings.domainOf.digest o)
      generalize o.checkSignature (settings.domainOf.digest o) w = checked at hsigned
      obtain ⟨verdict, w'⟩ := checked
      cases verdict with
      | error e => exact hsigned
      | ok done =>
        simp only
        split <;> exact hsigned

theorem effect_deny (h : w.KeepsDenied settings) (now : Nat) (address : String) :
    ∃ w', w.deny now settings.scope address = (.ok (), w') ∧
      Effect settings [] [Text.normalize address] w w' := by
  obtain ⟨c, hadd, hkeeps, hnames⟩ := Cache.KeepsSet.add h now (Text.normalize address)
  refine ⟨{ w with cache := c }, by simp only [deny, hadd], rfl, rfl, rfl, ?_, fun _ => hkeeps, ?_,
    nofun⟩
  · intro key hkey
    have hother := Cache.find?_add w.cache now hkey (Text.normalize address)
    rwa [hadd] at hother
  · intro name
    rw [List.mem_singleton]
    exact hnames name

theorem effect_refuse (h : w.KeepsDenied settings) (now : Nat) (p : Pending) (e : MakerError) :
    Effect settings []
      (if PrepareError.isRestricted (.request e) then [Text.normalize p.swap.user] else []) w
      (p.refuse settings w now e).2 := by
  unfold Pending.refuse
  split
  · obtain ⟨w', hdeny, heffect⟩ := effect_deny h now p.swap.user
    simp only [hdeny]
    exact heffect
  · exact (Stays.refl w).effect

/-- The request comes before what follows from its reply. -/
theorem Effect.of_asked {r : Request} {metrics : Metrics}
    (h : Effect settings [] denied { (w.ask r).2 with metrics := metrics } w') :
    Effect settings [r] denied w w' :=
  ⟨h.maker, h.tokens, h.pairs, h.books, h.keeps, h.names, h.still⟩

theorem completes (h : w.KeepsDenied settings) (now : Nat) (clock : UInt64) (p : Pending) :
    Completes settings p.swap p.src p.dest w (p.complete settings w now clock).2 := by
  let r := settings.firmRequest p.quote
  have hask : w.ask r = (w.maker.replyAt settings.firmUrl, (w.ask r).2) := by
    simp only [r, ask, Maker.answer, Settings.url_firmRequest]
  have hrefuse := fun e => effect_refuse (w := { (w.ask r).2 with
    metrics := (w.ask r).2.metrics.countQuote .requestError }) h now p e
  refine ⟨r, settings.isFirm_firmRequest p, ?_, ?_⟩
  · rintro ⟨e, hreply, hmarker⟩
    have hrestricted : PrepareError.isRestricted (.request e) = true := hmarker
    have heffect := hrefuse e
    rw [if_pos hrestricted] at heffect
    unfold Pending.complete
    rw [hask, hreply]
    exact heffect.of_asked
  · intro hrefuses
    unfold Pending.complete
    rw [hask]
    cases hreply : w.maker.replyAt settings.firmUrl with
    | error e =>
      have hother : ¬ PrepareError.isRestricted (.request e) = true := by
        intro hmarker
        exact hrefuses ⟨e, hreply, hmarker⟩
      have heffect := hrefuse e
      rw [if_neg hother] at heffect
      exact heffect.of_asked
    | ok body =>
      simp only
      split
      · exact (Stays.refl _).effect.of_asked
      · next order _ => exact (stays_accept settings _ order p clock).effect.of_asked

end State
end QuoteDesk
