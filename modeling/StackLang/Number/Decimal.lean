import StackLang.Number.Binary64

namespace StackLang.Number

open Nat (pow)

/-- The number `digits * 10 ^ exponent`. -/
structure Decimal where
  digits : Nat
  exponent : Int
deriving DecidableEq, Repr

namespace Decimal

/-- The pattern nearest to a decimal. Exponents far outside the range are decided by size, so
that no huge power is formed. -/
def pattern (d : Decimal) : Nat :=
  if d.digits = 0 then 0
  else match d.exponent with
    | .ofNat e =>
      if 309 ≤ e then infinity else ofUnits (d.digits * pow 10 e * pow 2 1074) 1
    | .negSucc e =>
      if d.digits.log2 + 1100 < 3 * e then 0
      else ofUnits (d.digits * pow 2 1074) (pow 10 (e + 1))

/-- Of the two neighbours of a magnitude of `u` units on the grid of multiples of `10 ^ p`, the
nearer one that reads back as `b`. A tie goes up. -/
def onGrid? (b u : Nat) (p : Int) : Option Decimal :=
  let a := u * pow 10 (-p).toNat
  let d := pow 2 1074 * pow 10 p.toNat
  let low : Decimal := ⟨a / d, p⟩
  let high : Decimal := ⟨a / d + 1, p⟩
  (if 2 * (a % d) < d then [low, high] else [high, low]).find? (·.pattern = b)

/-- The number of decimal digits of `n`, estimated from its binary digits and then corrected. -/
def decimalLength (n : Nat) : Nat :=
  let k := (n.log2 + 1) * 301029995 / pow 10 9
  if n < pow 10 k then k else k + 1

/-- The exponent `k` with `10 ^ (k - 1) ≤ x < 10 ^ k`, for `x` of `u` units. -/
def magnitude (u : Nat) : Int := decimalLength (u * pow 10 400 / pow 2 1074) - 400

/-- All digits of a magnitude of `u` units. -/
def exact (u : Nat) : Decimal := ⟨u * pow 5 1074, -1074⟩

/-- The decimal with the fewest digits that reads back as `b`. Seventeen digits always do. -/
def shortest (b : Nat) : Decimal :=
  if b = 0 then ⟨0, 0⟩
  else
    let u := units b
    let top := magnitude u
    ((List.range 18).findSome? fun (n : Nat) => onGrid? b u (top - n)).getD (exact u)

end Decimal

end StackLang.Number
