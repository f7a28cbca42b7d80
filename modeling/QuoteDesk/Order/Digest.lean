import QuoteDesk.Order.Basic
/-!
The digest that the maker signs.

An order is encoded as the hash of its type followed by one word of 32 bytes for each signed field;
the signature is left out. The domain, which names a chain and the contract that settles the order,
is encoded the same way. The digest is the hash of the bytes 0x19 and 0x01 and both hashes.
-/
namespace QuoteDesk

structure Domain where
  chainId : UInt64
  contract : Address
  deriving DecidableEq

def textHash (s : String) : Bytes := Keccak.hash (Text.bytes s)

def Address.toWord (a : Address) : Word := ⟨a.val, Nat.lt_trans a.val_lt (by decide)⟩

namespace Domain

def typeText : String :=
  "EIP712Domain(string name,string version,uint256 chainId,address verifyingContract)"

def name : String := "Dexalot"

def version : String := "1"

def encode (d : Domain) : Bytes :=
  textHash typeText ++ textHash name ++ textHash version ++ (Word.ofUInt64 d.chainId).toBytes ++
    d.contract.toWord.toBytes

def separator (d : Domain) : Bytes := Keccak.hash d.encode

end Domain

namespace FirmOrder

def typeText : String :=
  "Order(uint256 nonceAndMeta,uint128 expiry,address makerAsset,address takerAsset,address maker,address taker,uint256 makerAmount,uint256 takerAmount)"

def words (o : FirmOrder) : List Word :=
  [o.nonceAndMeta, Word.ofUInt64 o.expiry, o.makerAsset.toWord, o.takerAsset.toWord,
   o.maker.toWord, o.taker.toWord, o.makerAmount, o.takerAmount]

def encode (o : FirmOrder) : Bytes :=
  textHash typeText ++ o.words.flatMap Word.toBytes

def structHash (o : FirmOrder) : Bytes := Keccak.hash o.encode

end FirmOrder

namespace Domain

def preimage (d : Domain) (o : FirmOrder) : Bytes :=
  [0x19, 0x01] ++ d.separator ++ o.structHash

def digest (d : Domain) (o : FirmOrder) : Bytes := Keccak.hash (d.preimage o)

end Domain
end QuoteDesk
