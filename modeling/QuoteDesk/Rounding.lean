/-!
Powers of ten, and rounding a quotient to an integer.
-/
namespace QuoteDesk

def pow10 (n : Nat) : Nat := Nat.pow 10 n

theorem pow10_zero : pow10 0 = 1 := rfl

theorem pow10_succ (n : Nat) : pow10 (n + 1) = 10 * pow10 n :=
  Nat.mul_comm (Nat.pow 10 n) 10

theorem pow10_add (m n : Nat) : pow10 (m + n) = pow10 m * pow10 n :=
  Nat.pow_add 10 m n

theorem pow10_pos (n : Nat) : 0 < pow10 n :=
  Nat.pow_pos (by decide)

/-- The integer nearest to `num / den`, the even one of two that are equally near. -/
def roundHalfEven (num : Int) (den : Nat) : Int :=
  let q := num / (den : Int)
  let r := num % (den : Int)
  if 2 * r < den then q
  else if 2 * r > den then q + 1
  else if q % 2 = 0 then q else q + 1

end QuoteDesk
