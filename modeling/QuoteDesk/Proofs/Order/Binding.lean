import QuoteDesk.Order.Digest
/-!
What a digest fixes. The encodings of a domain and of an order are words of one width after hashes of
one width, so they can be read back. Main statement: one digest of two orders under two domains means
one domain and one set of signed fields, or a collision of the hash function that is there to be seen
among the encodings. The signature is no part of the digest.
-/
namespace QuoteDesk

/-- Two different byte sequences with one hash. -/
def Keccak.Collision (x y : Bytes) : Prop := x ≠ y ∧ hash x = hash y

theorem Keccak.eq_or_collision {x y : Bytes} (h : hash x = hash y) : x = y ∨ Collision x y := by
  by_cases hxy : x = y
  · exact .inl hxy
  · exact .inr ⟨hxy, h⟩

theorem Word.ext_val {v w : Word} (h : v.val = w.val) : v = w := by
  cases v
  cases w
  cases h
  rfl

theorem Address.ext_val {a b : Address} (h : a.val = b.val) : a = b := by
  cases a
  cases b
  cases h
  rfl

@[simp] theorem Word.length_toBytes (w : Word) : w.toBytes.length = 32 := Bytes.length_ofNat 32 w.val

theorem Word.toNat_toBytes (w : Word) : Bytes.toNat w.toBytes = w.val := by
  have hsize : Nat.pow 256 32 = Word.size := by decide
  rw [toBytes, Bytes.toNat_ofNat, hsize, Nat.mod_eq_of_lt w.val_lt]

theorem Word.toBytes_injective {v w : Word} (h : v.toBytes = w.toBytes) : v = w := by
  apply Word.ext_val
  rw [← v.toNat_toBytes, ← w.toNat_toBytes, h]

theorem Word.flatMap_toBytes_injective {vs ws : List Word} (hlen : vs.length = ws.length)
    (h : vs.flatMap toBytes = ws.flatMap toBytes) : vs = ws := by
  induction vs generalizing ws with
  | nil => exact (List.length_eq_zero_iff.mp hlen.symm).symm
  | cons v vs ih =>
    cases ws with
    | nil => cases hlen
    | cons w ws =>
      rw [List.flatMap_cons, List.flatMap_cons] at h
      obtain ⟨hhead, htail⟩ := List.append_inj h (by simp)
      rw [toBytes_injective hhead, ih (Nat.succ.inj hlen) htail]

theorem Word.ofUInt64_injective {m n : UInt64} (h : ofUInt64 m = ofUInt64 n) : m = n := by
  apply UInt64.toNat_inj.mp
  exact congrArg Word.val h

theorem Address.toWord_injective {a b : Address} (h : a.toWord = b.toWord) : a = b := by
  apply Address.ext_val
  exact congrArg Word.val h

theorem Domain.encode_injective {d d' : Domain} (h : d.encode = d'.encode) : d = d' := by
  unfold encode at h
  obtain ⟨h, hcontract⟩ := List.append_inj' h (by simp)
  obtain ⟨-, hchain⟩ := List.append_inj' h (by simp)
  have hchainId : d.chainId = d'.chainId := Word.ofUInt64_injective (Word.toBytes_injective hchain)
  have hcontract' : d.contract = d'.contract :=
    Address.toWord_injective (Word.toBytes_injective hcontract)
  cases d
  cases d'
  cases hchainId
  cases hcontract'
  rfl

/-- All that the maker signs is the same in two orders. -/
structure FirmOrder.SameTerms (o o' : FirmOrder) : Prop where
  nonceAndMeta : o.nonceAndMeta = o'.nonceAndMeta
  expiry : o.expiry = o'.expiry
  makerAsset : o.makerAsset = o'.makerAsset
  takerAsset : o.takerAsset = o'.takerAsset
  maker : o.maker = o'.maker
  taker : o.taker = o'.taker
  makerAmount : o.makerAmount = o'.makerAmount
  takerAmount : o.takerAmount = o'.takerAmount

namespace FirmOrder

variable {o o' : FirmOrder}

theorem sameTerms_of_words (h : o.words = o'.words) : o.SameTerms o' := by
  unfold words at h
  simp only [List.cons.injEq, and_true] at h
  obtain ⟨hnonce, hexpiry, hmakerAsset, htakerAsset, hmaker, htaker, hmakerAmount, htakerAmount⟩ := h
  exact ⟨hnonce, Word.ofUInt64_injective hexpiry, Address.toWord_injective hmakerAsset,
    Address.toWord_injective htakerAsset, Address.toWord_injective hmaker,
    Address.toWord_injective htaker, hmakerAmount, htakerAmount⟩

theorem sameTerms_of_encode (h : o.encode = o'.encode) : o.SameTerms o' := by
  obtain ⟨-, hwords⟩ := List.append_inj h rfl
  have hlen : o.words.length = o'.words.length := rfl
  exact sameTerms_of_words (Word.flatMap_toBytes_injective hlen hwords)

theorem SameTerms.encode_eq (h : o.SameTerms o') : o.encode = o'.encode := by
  obtain ⟨hnonce, hexpiry, hmakerAsset, htakerAsset, hmaker, htaker, hmakerAmount, htakerAmount⟩ := h
  unfold encode words
  rw [hnonce, hexpiry, hmakerAsset, htakerAsset, hmaker, htaker, hmakerAmount, htakerAmount]

end FirmOrder

namespace Domain

theorem hashes_of_preimage {d d' : Domain} {o o' : FirmOrder} (h : d.preimage o = d'.preimage o') :
    Keccak.hash d.encode = Keccak.hash d'.encode ∧
      Keccak.hash o.encode = Keccak.hash o'.encode := by
  have hlen : ∀ x y : Bytes, (Keccak.hash x).length = (Keccak.hash y).length := by
    intro x y
    rw [Keccak.length_hash, Keccak.length_hash]
  obtain ⟨h, hstruct⟩ := List.append_inj' h (hlen _ _)
  obtain ⟨-, hseparator⟩ := List.append_inj' h (hlen _ _)
  exact ⟨hseparator, hstruct⟩

/-- One digest means one chain, one contract and one value of each signed field, unless two different
encodings of domains, of orders or of both have one hash. In turn these fix the digest, whatever the
signatures are. -/
theorem digest_binds (d d' : Domain) (o o' : FirmOrder) :
    (d.digest o = d'.digest o' →
      (d.chainId = d'.chainId ∧ d.contract = d'.contract ∧ o.SameTerms o') ∨
        Keccak.Collision d.encode d'.encode ∨ Keccak.Collision o.encode o'.encode ∨
          Keccak.Collision (d.preimage o) (d'.preimage o')) ∧
    (d.chainId = d'.chainId → d.contract = d'.contract → o.SameTerms o' →
      d.digest o = d'.digest o') ∧
    ∀ signature, d.digest { o with signature } = d.digest o := by
  refine ⟨?_, ?_, fun signature => rfl⟩
  · intro h
    rcases Keccak.eq_or_collision h with hpreimage | hcollision
    · obtain ⟨hseparator, hstruct⟩ := hashes_of_preimage hpreimage
      rcases Keccak.eq_or_collision hseparator with hdomain | hcollision
      · rcases Keccak.eq_or_collision hstruct with horder | hcollision
        · left
          have hd : d = d' := encode_injective hdomain
          exact ⟨congrArg chainId hd, congrArg contract hd, FirmOrder.sameTerms_of_encode horder⟩
        · exact .inr (.inr (.inl hcollision))
      · exact .inr (.inl hcollision)
    · exact .inr (.inr (.inr hcollision))
  · intro hchain hcontract hterms
    have hdomain : d.encode = d'.encode := by
      unfold encode
      rw [hchain, hcontract]
    unfold digest preimage separator FirmOrder.structHash
    rw [hdomain, hterms.encode_eq]

/-- An order that is signed anew keeps its digest. -/
theorem digest_binds_resigned :
    let o : FirmOrder := ⟨Word.zero, 7, .ofNat 1, .ofNat 2, .ofNat 3, .ofNat 4, .zero, .zero, [1]⟩
    let o' : FirmOrder := { o with signature := [2] }
    let d : Domain := ⟨43114, .ofNat 3⟩
    o ≠ o' ∧ d.digest o = d.digest o' ∧
      ((d.chainId = d.chainId ∧ d.contract = d.contract ∧ o.SameTerms o') ∨
        Keccak.Collision d.encode d.encode ∨ Keccak.Collision o.encode o'.encode ∨
          Keccak.Collision (d.preimage o) (d.preimage o')) := by
  intro o o' d
  obtain ⟨hbinds, -, hresigned⟩ := digest_binds d d o o'
  have hdigest : d.digest o = d.digest o' := (hresigned [2]).symm
  exact ⟨by decide, hdigest, hbinds hdigest⟩

end Domain
end QuoteDesk
