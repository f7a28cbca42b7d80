import QuoteDesk.Hex
/-!
The hash function Keccak-256.

The state is 25 lanes of 64 bits, the lane in column x and row y at index x + 5 y. A message is padded
with 0x01, zeros and a last bit 0x80 to whole blocks of 136 bytes. The digest has 32 bytes.
-/
namespace QuoteDesk.Keccak

abbrev Lanes := Vector UInt64 25

/-- The lane in a column and a row, both taken modulo 5. -/
def lane (a : Lanes) (x y : Nat) : UInt64 :=
  a.get ⟨x % 5 + 5 * (y % 5), by omega⟩

def build (f : Nat → Nat → UInt64) : Lanes :=
  Vector.ofFn fun i : Fin 25 => f (i.val % 5) (i.val / 5)

def rotate (w : UInt64) (n : Nat) : UInt64 :=
  if n % 64 = 0 then w
  else (w <<< UInt64.ofNat (n % 64)) ||| (w >>> UInt64.ofNat (64 - n % 64))

def rotations : Vector Nat 25 :=
  #v[0, 1, 62, 28, 27, 36, 44, 6, 55, 20, 3, 10, 43, 25, 39, 41, 45, 15, 21, 8, 18, 2, 61, 56, 14]

def roundConstants : List UInt64 :=
  [0x0000000000000001, 0x0000000000008082, 0x800000000000808A, 0x8000000080008000,
   0x000000000000808B, 0x0000000080000001, 0x8000000080008081, 0x8000000000008009,
   0x000000000000008A, 0x0000000000000088, 0x0000000080008009, 0x000000008000000A,
   0x000000008000808B, 0x800000000000008B, 0x8000000000008089, 0x8000000000008003,
   0x8000000000008002, 0x8000000000000080, 0x000000000000800A, 0x800000008000000A,
   0x8000000080008081, 0x8000000000008080, 0x0000000080000001, 0x8000000080008008]

def theta (a : Lanes) : Lanes :=
  let parity : Vector UInt64 5 := Vector.ofFn fun x : Fin 5 =>
    lane a x 0 ^^^ lane a x 1 ^^^ lane a x 2 ^^^ lane a x 3 ^^^ lane a x 4
  let column (x : Nat) : UInt64 := parity.get ⟨x % 5, by omega⟩
  build fun x y => lane a x y ^^^ column (x + 4) ^^^ rotate (column (x + 1)) 1

def rhoPi (a : Lanes) : Lanes :=
  build fun x y =>
    let source := (x + 3 * y) % 5
    rotate (lane a source x) (rotations.get ⟨source + 5 * (x % 5), by omega⟩)

def chi (a : Lanes) : Lanes :=
  build fun x y => lane a x y ^^^ (~~~(lane a (x + 1) y) &&& lane a (x + 2) y)

def iota (c : UInt64) (a : Lanes) : Lanes :=
  build fun x y => if x = 0 ∧ y = 0 then lane a 0 0 ^^^ c else lane a x y

def permute (a : Lanes) : Lanes :=
  roundConstants.foldl (fun a c => iota c (chi (rhoPi (theta a)))) a

def rate : Nat := 136

def pad (message : Bytes) : Bytes :=
  let free := rate - message.length % rate
  if free = 1 then message ++ [0x81]
  else message ++ 0x01 :: (List.replicate (free - 2) 0 ++ [0x80])

/-- Eight bytes as a lane, the first byte counting least. -/
def laneOf (bs : Bytes) : UInt64 :=
  bs.foldr (fun b w => (w <<< 8) ||| b.toUInt64) 0

def laneBytes (w : UInt64) : Bytes :=
  (List.range 8).map fun i => (w >>> UInt64.ofNat (8 * i)).toUInt8

def absorbBlock (a : Lanes) (block : Bytes) : Lanes :=
  permute <| build fun x y =>
    let i := x + 5 * y
    if 8 * i < rate then lane a x y ^^^ laneOf ((block.drop (8 * i)).take 8) else lane a x y

/-- Absorbs `count` blocks. -/
def absorb : Nat → Bytes → Lanes → Lanes
  | 0, _, a => a
  | count + 1, bs, a => absorb count (bs.drop rate) (absorbBlock a (bs.take rate))

def hash (message : Bytes) : Bytes :=
  let padded := pad message
  let a := absorb (padded.length / rate) padded (build fun _ _ => 0)
  laneBytes (lane a 0 0) ++ laneBytes (lane a 1 0) ++ laneBytes (lane a 2 0) ++ laneBytes (lane a 3 0)

theorem length_hash (message : Bytes) : (hash message).length = 32 := by
  simp [hash, laneBytes]

end QuoteDesk.Keccak
