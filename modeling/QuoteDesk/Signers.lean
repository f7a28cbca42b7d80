import QuoteDesk.Secp256k1
/-!
Who may sign orders, and the check of a signature.
-/
namespace QuoteDesk

structure Signers where
  accounts : List Address
  deriving DecidableEq

namespace Signers

def ofList (accounts : List Address) : Signers := ⟨accounts.eraseDups⟩

def contains (s : Signers) (a : Address) : Bool := s.accounts.contains a

def size (s : Signers) : Nat := s.accounts.length

def authorize (s : Signers) (digest signature : Bytes) : Bool :=
  match Secp256k1.recover? digest signature with
  | some a => s.contains a
  | none => false

end Signers

/-- What decides whether a signature counts: the signers, or a fixed verdict that notes the digests it
was asked about. -/
inductive Verifier where
  | signers (authorized : Signers)
  | fixed (verdict : Bool) (asked : List Bytes)
  deriving DecidableEq

namespace Verifier

def check (v : Verifier) (digest signature : Bytes) : Bool × Verifier :=
  match v with
  | .signers authorized => (authorized.authorize digest signature, v)
  | .fixed verdict asked => (verdict, .fixed verdict (asked ++ [digest]))

end Verifier
end QuoteDesk
