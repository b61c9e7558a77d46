/-! Binary64 numbers through their bit patterns. A finite magnitude is a natural number of
units of 2^-1074, so rounding and the remainder are exact arithmetic on `Nat`. -/
namespace StackLang.Number

open Nat (pow)

/-- The pattern of positive infinity. Every smaller pattern is a finite magnitude. -/
def infinity : Nat := 2047 * pow 2 52

/-- The magnitude with pattern `b`, counted in units of 2^-1074. -/
def units (b : Nat) : Nat :=
  if b < pow 2 52 then b else (pow 2 52 + b % pow 2 52) * pow 2 (b / pow 2 52 - 1)

/-- The integer nearest to `a / d`; a half goes to the even neighbour. -/
def nearest (a d : Nat) : Nat :=
  if 2 * (a % d) < d then a / d
  else if d < 2 * (a % d) then a / d + 1
  else a / d + a / d % 2

/-- The pattern nearest to `a / d` units. A significand that rounds up to 2^53 carries into
the exponent field, which is the next binade's first pattern. -/
def ofUnits (a d : Nat) : Nat :=
  let shift := (a / d).log2 - 52
  min infinity (shift * pow 2 52 + nearest a (d * pow 2 shift))

def isNegative (x : Float) : Bool := pow 2 63 ≤ x.toBits.toNat

/-- The pattern of the magnitude of `x`: its bits without the sign. -/
def pattern (x : Float) : Nat := x.toBits.toNat % pow 2 63

def ofPattern (negative : Bool) (b : Nat) : Float :=
  .ofBits (.ofNat (if negative then pow 2 63 + b else b))

def nan : Float := ofPattern false (infinity + pow 2 51)

/-- The remainder of the division that truncates its quotient. It takes the sign of `x`. -/
def remainder (x y : Float) : Float :=
  let a := pattern x
  let b := pattern y
  if infinity ≤ a ∨ b = 0 ∨ infinity < b then nan
  else if b = infinity then x
  else ofPattern (isNegative x) (ofUnits (units a % units b) 1)

end StackLang.Number
