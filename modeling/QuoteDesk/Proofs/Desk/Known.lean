import QuoteDesk.Proofs.Desk.Cached
import QuoteDesk.Proofs.Listing.Addresses
import QuoteDesk.Proofs.Order.Fields
/-!
What a desk knows of tokens. Directories come from accepted listings only, so every token that a
preparation starts with has an address that names an account; the check of an order against it can
always be made. Main statement: in every state of an application, whatever the maker publishes and
replies, no preparation ends because the address of a token cannot be read.
-/
namespace QuoteDesk

namespace PrepareError

def invalidField? : PrepareError → Option String
  | .reply (.invalid field _) => some field
  | .badTokenAddress _ _ => some "token address"
  | _ => none

theorem message_reply (e : ReplyError) : (PrepareError.reply e).message = e.message := rfl

theorem message_badTokenAddress (address : String) (cause : Address.ReadError) :
    (PrepareError.badTokenAddress address cause).message =
      "Firm quote has invalid token address: " ++ address ++ ": " ++ cause.message := rfl

theorem message_mismatch (field : String) (expected actual : Address) :
    (PrepareError.mismatch field (.address expected) (.address actual)).message =
      "Firm quote " ++ field ++ " is " ++ actual.print ++ ", expected " ++ expected.print := rfl

theorem message_of_invalidField? {e : PrepareError} {field : String}
    (h : e.invalidField? = some field) :
    ∃ reason, e.message = "Firm quote has invalid " ++ field ++ ": " ++ reason := by
  cases e with
  | reply e =>
    cases e with
    | missing field' => cases h
    | invalid field' fault =>
      obtain rfl := Option.some.inj h
      exact ⟨fault.message, message_reply _⟩
  | badTokenAddress address cause =>
    obtain rfl := Option.some.inj h
    have hlead : "Firm quote has invalid token address: " =
        "Firm quote has invalid " ++ "token address" ++ ": " := by decide
    refine ⟨address ++ ": " ++ cause.message, ?_⟩
    rw [message_badTokenAddress, hlead]
    simp only [String.append_assoc]
  | _ => cases h

/-- What is called invalid is the reply's order or a field of it, nothing of the desk's own. -/
def BlamesReply (e : PrepareError) : Prop :=
  ∀ field, e.invalidField? = some field → field = "order" ∨ field ∈ FirmOrder.fieldNames

variable {e : PrepareError}

theorem blamesReply_of_none (h : e.invalidField? = none) : e.BlamesReply := by
  intro field hfield
  cases h.symm.trans hfield

theorem blamesReply_reply {e : ReplyError} (h : e.field = "order" ∨ e.field ∈ FirmOrder.fieldNames) :
    (PrepareError.reply e).BlamesReply := by
  intro field hfield
  cases e with
  | missing field' => cases hfield
  | invalid field' fault =>
    obtain rfl := Option.some.inj hfield
    exact h

theorem BlamesReply.ne_tokenAddress (h : e.BlamesReply) :
    e.invalidField? ≠ some "token address" := by
  intro hfield
  exact absurd (h _ hfield) (by decide)

end PrepareError

open PrepareError (BlamesReply blamesReply_of_none blamesReply_reply)

namespace Swap

theorem failsOnly_start (settings : Settings) (w : State) (now : Nat) (s : Swap) :
    FailsOnly BlamesReply (s.start settings w now).1 := by
  unfold start legs guardUser
  split
  · next e hlegs =>
    refine failsOnly_error (blamesReply_of_none ?_)
    split at hlegs
    · cases hlegs
      rfl
    · split at hlegs <;> cases hlegs
      rfl
  · split
    · next e w' hguard =>
      refine failsOnly_error (blamesReply_of_none ?_)
      split at hguard <;> cases hguard <;> rfl
    · split
      · exact failsOnly_error (blamesReply_of_none rfl)
      · nofun

end Swap

/-- A preparation between two listed tokens. -/
structure Pending.IsListed (p : Pending) : Prop where
  src : p.src.IsListed
  dest : p.dest.IsListed

theorem Swap.isListed_of_start {settings : Settings} {w w' : State} {now : Nat} {s : Swap} {p : Pending}
    (hw : w.tokens.IsListed) (h : s.start settings w now = (.ok p, w')) : p.IsListed := by
  unfold start at h
  split at h
  · cases h
  · next src dest hlegs =>
    have hlisted : src.IsListed ∧ dest.IsListed := by
      unfold legs at hlegs
      split at hlegs
      · cases hlegs
      · next src' hsrc =>
        split at hlegs
        · cases hlegs
        · next dest' hdest =>
          cases hlegs
          exact ⟨hw.ofAddress? hsrc, hw.ofAddress? hdest⟩
    split at h
    · cases h
    · split at h
      · cases h
      · cases h
        exact ⟨hlisted.1, hlisted.2⟩

namespace FirmOrder

theorem failsOnly_tokenAccount {t : Token} (h : t.IsListed) :
    FailsOnly BlamesReply (tokenAccount t) := by
  obtain ⟨a, ha⟩ := h.exists_read
  rw [tokenAccount, ha]
  intro e he
  cases he

variable {p : Pending}

theorem failsOnly_accept (o : FirmOrder) (settings : Settings) (w : State) (hp : p.IsListed)
    (clock : UInt64) : FailsOnly BlamesReply (o.accept settings w p clock).1 := by
  unfold accept checkSignature
  have hfields := failsOnly_checkFields (fun _ _ _ => blamesReply_of_none rfl) o settings.contract
    (failsOnly_tokenAccount hp.src) (failsOnly_tokenAccount hp.dest)
  split
  · next e he => exact failsOnly_error (hfields e he)
  · split
    · exact failsOnly_error (blamesReply_of_none rfl)
    · simp only
      split
      · next e w' hsigned =>
        refine failsOnly_error (blamesReply_of_none ?_)
        split at hsigned <;> cases hsigned
        rfl
      · split
        · exact failsOnly_error (blamesReply_of_none rfl)
        · nofun

end FirmOrder

namespace Pending

variable {p : Pending}

theorem invalidField?_refuse (settings : Settings) (w : State) (now : Nat) (p : Pending)
    (e : MakerError) : (p.refuse settings w now e).1.invalidField? = none := by
  unfold refuse
  split
  · split <;> rfl
  · rfl

theorem failsOnly_complete (settings : Settings) (w : State) (now : Nat) (clock : UInt64)
    (hp : p.IsListed) : FailsOnly BlamesReply (p.complete settings w now clock).1 := by
  unfold complete
  split
  · next e w' _ =>
    exact failsOnly_error (blamesReply_of_none (invalidField?_refuse settings _ now p e))
  · split
    · next e he => exact failsOnly_error (blamesReply_reply (FirmOrder.field_of_ofReply he))
    · exact FirmOrder.failsOnly_accept _ settings _ hp clock

end Pending

namespace Session

variable {settings : Settings} {s : Session}

theorem maintains_isListed (settings : Settings) :
    Maintains settings fun w => w.tokens.IsListed where
  aside haside h := haside.tokens ▸ h
  perform {feed w' a} ha now w h := by
    cases a with
    | replaceTokens d =>
      obtain ⟨body, t, hbody, rfl⟩ := State.exists_of_replaceTokens ha
      exact TokenDirectory.isListed_ofTable hbody
    | replacePairs d => exact h
    | publish base quote side b => exact h
    | deny address => exact h

/-- Preparations that wait for their replies are between listed tokens, even of a directory that has
been replaced since. -/
theorem isListed_pending_step (hw : s.machine.world.tokens.IsListed)
    (h : ∀ p ∈ s.pending, p.IsListed) (e : Event) :
    ∀ p ∈ (s.step settings e).pending, p.IsListed := by
  cases e with
  | request swap =>
    simp only [step]
    split
    · exact h
    · next p w hstart =>
      intro q hq
      rcases List.mem_append.mp hq with hq | hq
      · exact h q hq
      · obtain rfl := List.mem_singleton.mp hq
        exact Swap.isListed_of_start hw hstart
  | reply n clock =>
    simp only [step]
    split
    · exact h
    · exact fun q hq => h q (List.mem_of_mem_eraseIdx hq)
  | _ => exact h

theorem isListed_initial (settings : Settings) (verifier : Verifier) (es : List Event) :
    ((initial verifier).run settings es).machine.world.tokens.IsListed :=
  (maintains_isListed settings).run (.initial _) TokenDirectory.isListed_empty es

theorem isListed_pending (settings : Settings) (verifier : Verifier) (es : List Event) :
    ∀ p ∈ ((initial verifier).run settings es).pending, p.IsListed := by
  induction es using List.reverseRecOn with
  | nil => nofun
  | append_singleton es e ih =>
    rw [run_append]
    exact isListed_pending_step (isListed_initial settings verifier es) ih e

theorem failsOnly_prepare (hw : s.machine.world.tokens.IsListed) (swap : Swap) (clock : UInt64) :
    FailsOnly BlamesReply ((s.desk settings).prepare swap clock).1 := by
  have hstart := Swap.failsOnly_start settings s.machine.world s.machine.now swap
  unfold Desk.prepare
  split
  · next e w h =>
    have hfail : swap.start settings s.machine.world s.machine.now = (.error e, w) := h
    exact failsOnly_error (hstart e (congrArg Prod.fst hfail))
  · next p w h =>
    exact Pending.failsOnly_complete _ _ _ clock (Swap.isListed_of_start hw h)

/-- In every state of an application each token has a symbol and an address of the mark `0x` and forty
digits without capital letters, in the index by symbol and in the index by address, in whatever order
that was built. All spellings of an address are looked up alike, and no preparation ends because the
address of a token cannot be read: neither a new one nor one that waits for its reply, whatever the
maker has published in between. -/
theorem tokens_known_of_reachable (h : Reachable settings s) :
    let d := s.machine.world.tokens
    (∀ symbol t, d.ofSymbol? symbol = some t → Address.IsPlain t.address ∧ t.symbol ≠ "") ∧
    d.addresses = TokenDirectory.addressIndex d.tokens.entries ∧
    (∀ order, order.Perm d.tokens.entries → ∀ address t,
      (TokenDirectory.addressIndex order).find? address = some t →
      t.address = address ∧ Address.IsPlain address ∧ t.symbol ≠ "") ∧
    (∀ address a b, Text.Respells a address → Text.Respells b address →
      d.ofAddress? a = d.ofAddress? b) ∧
    (∀ swap clock e, ((s.desk settings).prepare swap clock).1 = .error e →
      e.invalidField? ≠ some "token address") ∧
    ∀ p ∈ s.pending, ∀ clock e,
      (p.complete settings s.machine.world s.machine.now clock).1 = .error e →
      e.invalidField? ≠ some "token address" := by
  intro d
  obtain ⟨verifier, es, rfl⟩ := h
  have hlisted := isListed_initial settings verifier es
  have hpending := isListed_pending settings verifier es
  refine ⟨fun symbol t ht => ?_, d.addresses_eq, fun order hperm address t ht => ?_,
    fun address a b ha hb => d.ofAddress?_respelled ha hb, fun swap clock e he => ?_,
    fun p hp clock e he => ?_⟩
  · have ht := hlisted symbol t ht
    exact ⟨ht.canonical.isPlain, ht.symbol⟩
  · obtain ⟨hlisted, rfl⟩ := hlisted.addressIndex hperm ht
    exact ⟨rfl, hlisted.canonical.isPlain, hlisted.symbol⟩
  · exact (failsOnly_prepare hlisted swap clock e he).ne_tokenAddress
  · exact (Pending.failsOnly_complete settings _ _ clock (hpending p hp) e he).ne_tokenAddress

/-- A token that the maker publishes in capital letters and between blanks, and an order for it. -/
def loudTokens : List Event :=
  .upstream
    [((Settings.brisk.feedRequest .tokens).url, .ok (.object [("tokens",
      .object [listedToken "A" "\u2003 0XABCDEFABCDEFABCDEFABCDEFABCDEFABCDEFABCD\t",
        listedToken "B" quoteAddress])])),
    (Settings.brisk.firmUrl, .ok (.object [("order", .object
      [("nonceAndMeta", .string "0x01"), ("expiry", .ofNat 1700000000),
        ("makerAsset", .string baseAddress), ("takerAsset", .string baseAddress),
        ("maker", .string baseAddress), ("taker", .string baseAddress),
        ("makerAmount", .ofNat 7), ("takerAmount", .ofNat 5), ("signature", .string "0x01")])]))] [] ::
    .call .tokens :: List.replicate 5 (.move (.advance 0))

def loudSale : Swap :=
  { smallSale with src := quoteAddress, dest := " 0xABCDEFabcdefABCDEFabcdefABCDEFabcdefABCD" }

/-- A token that was published loudly, and a purchase of it for which the maker signs another one: the
two addresses are compared, and it is the maker's that is wrong. -/
theorem tokens_known_of_reachable_loud :
    let s := (initial (.fixed true [])).run .brisk loudTokens
    Reachable .brisk s ∧
    (∃ t, s.machine.world.tokens.ofSymbol? "A" = some t ∧
      t.address = "0xabcdefabcdefabcdefabcdefabcdefabcdefabcd" ∧ Address.IsPlain t.address) ∧
    ∃ e, ((s.desk .brisk).prepare loudSale 0).1 = .error e ∧
      e.message = "Firm quote makerAsset is 0x1111111111111111111111111111111111111111, expected " ++
        "0xABcdEFABcdEFabcdEfAbCdefabcdeFABcDEFabCD" ∧
      e.invalidField? ≠ some "token address" := by
  intro s
  have hreachable : Reachable .brisk s := ⟨_, _, rfl⟩
  obtain ⟨hplain, -, -, -, hprepare, -⟩ := tokens_known_of_reachable hreachable
  have hlisted : (s.machine.world.tokens.ofSymbol? "A").map (·.address) =
      some "0xabcdefabcdefabcdefabcdefabcdefabcdefabcd" := by
    decide +kernel
  obtain ⟨t, ht, haddress⟩ := Option.map_eq_some_iff.mp hlisted
  obtain ⟨expected, actual, hanswer, hexpected, hactual⟩ : ∃ expected actual,
      ((s.desk .brisk).prepare loudSale 0).1 =
        .error (.mismatch "makerAsset" (.address expected) (.address actual)) ∧
      expected.print = "0xABcdEFABcdEFabcdEfAbCdefabcdeFABcDEFabCD" ∧
      actual.print = "0x1111111111111111111111111111111111111111" := by
    refine ⟨.ofNat 0xabcdefabcdefabcdefabcdefabcdefabcdefabcd,
      .ofNat 0x1111111111111111111111111111111111111111, ?_, by decide +kernel, by decide +kernel⟩
    have hmismatch : (match ((s.desk .brisk).prepare loudSale 0).1 with
        | .error (.mismatch field expected actual) =>
          (field, expected, actual) == ("makerAsset",
            .address (.ofNat 0xabcdefabcdefabcdefabcdefabcdefabcdefabcd),
            .address (.ofNat 0x1111111111111111111111111111111111111111))
        | _ => false) = true := by
      decide +kernel
    split at hmismatch
    · next he =>
      cases eq_of_beq hmismatch
      exact he
    · cases hmismatch
  refine ⟨hreachable, ⟨t, ht, haddress, (hplain "A" t ht).1⟩, _, hanswer, ?_,
    hprepare loudSale 0 _ hanswer⟩
  rw [PrepareError.message_mismatch, hactual, hexpected]
  decide +kernel

end Session
end QuoteDesk
