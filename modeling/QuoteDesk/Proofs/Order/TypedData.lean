import Mathlib
import QuoteDesk.Order.Digest
/-!
Signing of typed records, for any schema. A schema gives a record a name and its members a type and a
name each; every member is encoded as one word of 32 bytes. Members that are records or arrays
themselves are left out. Main statement: the digest of an order is what this general scheme gives for
the schemas of the order and of its domain.
-/
namespace QuoteDesk

namespace TypedData

inductive MemberType where
  | uint (bits : Nat)
  | int (bits : Nat)
  | bool
  | address
  | fixedBytes (size : Nat)
  | bytes
  | string

namespace MemberType

def text : MemberType → String
  | .uint bits => "uint" ++ Text.decimal bits
  | .int bits => "int" ++ Text.decimal bits
  | .bool => "bool"
  | .address => "address"
  | .fixedBytes size => "bytes" ++ Text.decimal size
  | .bytes => "bytes"
  | .string => "string"

abbrev Value : MemberType → Type
  | .uint bits => Fin (2 ^ bits)
  | .int bits => { i : Int // -2 ^ (bits - 1) ≤ i ∧ i < 2 ^ (bits - 1) }
  | .bool => Bool
  | .address => Address
  | .fixedBytes size => Vector UInt8 size
  | .bytes => Bytes
  | .string => String

end MemberType

def word (n : Nat) : Bytes := (List.range 32).map fun i => UInt8.ofNat (n / 256 ^ (31 - i) % 256)

/-- Numbers are right-aligned, negative ones as their two's complement; bytes of a fixed number are
left-aligned; what has no fixed length is hashed. -/
def encodeValue : (t : MemberType) → t.Value → Bytes
  | .uint _, n => word n.val
  | .int _, i => word (i.val % 2 ^ 256).toNat
  | .bool, b => word b.toNat
  | .address, a => word a.val
  | .fixedBytes size, v => v.toList ++ List.replicate (32 - size) 0
  | .bytes, bs => Keccak.hash bs
  | .string, s => Keccak.hash (Text.bytes s)

structure Member where
  type : MemberType
  name : String

structure Schema where
  name : String
  members : List Member

def Values : List Member → Type
  | [] => Unit
  | m :: ms => m.type.Value × Values ms

def encodeValues : (ms : List Member) → Values ms → Bytes
  | [], _ => []
  | m :: ms, (v, vs) => encodeValue m.type v ++ encodeValues ms vs

namespace Schema

def typeText (s : Schema) : String :=
  s.name ++ "(" ++ ",".intercalate (s.members.map fun m => m.type.text ++ " " ++ m.name) ++ ")"

def typeHash (s : Schema) : Bytes := Keccak.hash (Text.bytes s.typeText)

def hashRecord (s : Schema) (vs : Values s.members) : Bytes :=
  Keccak.hash (s.typeHash ++ encodeValues s.members vs)

end Schema

/-- What is signed of a record under a domain, which is a record itself. -/
def signingHash (domain : Schema) (ds : Values domain.members) (record : Schema)
    (vs : Values record.members) : Bytes :=
  Keccak.hash ([0x19, 0x01] ++ domain.hashRecord ds ++ record.hashRecord vs)

def domainSchema : Schema where
  name := "EIP712Domain"
  members :=
    [⟨.string, "name"⟩, ⟨.string, "version"⟩, ⟨.uint 256, "chainId"⟩,
     ⟨.address, "verifyingContract"⟩]

def orderSchema : Schema where
  name := "Order"
  members :=
    [⟨.uint 256, "nonceAndMeta"⟩, ⟨.uint 128, "expiry"⟩, ⟨.address, "makerAsset"⟩,
     ⟨.address, "takerAsset"⟩, ⟨.address, "maker"⟩, ⟨.address, "taker"⟩,
     ⟨.uint 256, "makerAmount"⟩, ⟨.uint 256, "takerAmount"⟩]

/-- A number of 64 bits as a member of at least as many. -/
def uintOf {bits : Nat} (h : 64 ≤ bits) (n : UInt64) : Fin (2 ^ bits) :=
  ⟨n.toNat, Nat.lt_of_lt_of_le n.toNat_lt (Nat.pow_le_pow_right (by decide) h)⟩

def domainValues (d : Domain) : Values domainSchema.members :=
  ("Dexalot", "1", uintOf (by decide) d.chainId, d.contract, ())

def orderValues (o : FirmOrder) : Values orderSchema.members :=
  (⟨o.nonceAndMeta.val, o.nonceAndMeta.val_lt⟩, uintOf (by decide) o.expiry, o.makerAsset,
   o.takerAsset, o.maker, o.taker, ⟨o.makerAmount.val, o.makerAmount.val_lt⟩,
   ⟨o.takerAmount.val, o.takerAmount.val_lt⟩, ())

theorem ofNat_eq_places (width n : Nat) :
    Bytes.ofNat width n =
      (List.range width).map fun i => UInt8.ofNat (n / 256 ^ (width - 1 - i) % 256) := by
  induction width generalizing n with
  | zero => rfl
  | succ width ih =>
    rw [Bytes.ofNat, ih, List.range_succ, List.map_append]
    congr 1
    · apply List.map_congr_left
      intro i hi
      have hlt : i < width := List.mem_range.mp hi
      have hplace : width + 1 - 1 - i = (width - 1 - i) + 1 := by omega
      rw [hplace, Nat.pow_succ', Nat.div_div_eq_div_mul]
    · simp

theorem toBytes_eq_word (w : Word) : w.toBytes = word w.val := ofNat_eq_places 32 w.val

theorem typeText_domain : domainSchema.typeText = Domain.typeText := by cbv

theorem typeText_order : orderSchema.typeText = FirmOrder.typeText := by cbv

theorem hashRecord_domain (d : Domain) : domainSchema.hashRecord (domainValues d) = d.separator := by
  have htype : domainSchema.typeHash = textHash Domain.typeText := by
    rw [Schema.typeHash, typeText_domain]
    rfl
  have hwords : encodeValues domainSchema.members (domainValues d) =
      textHash "Dexalot" ++ (textHash "1" ++ (word d.chainId.toNat ++ (word d.contract.val ++ []))) :=
    rfl
  rw [Schema.hashRecord, htype, hwords, List.append_nil]
  unfold Domain.separator Domain.encode
  simp only [toBytes_eq_word, List.append_assoc]
  rfl

theorem hashRecord_order (o : FirmOrder) :
    orderSchema.hashRecord (orderValues o) = o.structHash := by
  have htype : orderSchema.typeHash = textHash FirmOrder.typeText := by
    rw [Schema.typeHash, typeText_order]
    rfl
  have hwords : encodeValues orderSchema.members (orderValues o) =
      (o.words.map Word.val).flatMap word := rfl
  have hbytes : o.words.flatMap Word.toBytes = (o.words.map Word.val).flatMap word := by
    rw [List.flatMap_map]
    exact congrArg (fun f => o.words.flatMap f) (funext toBytes_eq_word)
  rw [Schema.hashRecord, htype, hwords, ← hbytes]
  rfl

/-- Whatever the chain, the contract and the order, the digest is the one that the general scheme gives
for the schemas of the domain and of the order. -/
theorem digest_eq_signingHash (d : Domain) (o : FirmOrder) :
    d.digest o = signingHash domainSchema (domainValues d) orderSchema (orderValues o) := by
  calc d.digest o
      = Keccak.hash ([0x19, 0x01] ++ d.separator ++ o.structHash) := rfl
    _ = signingHash domainSchema (domainValues d) orderSchema (orderValues o) := by
      rw [signingHash, hashRecord_domain, hashRecord_order]

end TypedData
end QuoteDesk
