import StackLang.Number.Decimal

/-! The text of a number: positional, without an exponent, with the fewest digits that read
back. Reading also takes a sign, an exponent and the names of the special values. -/
namespace StackLang.Number

open Nat (pow)

/-- The last `k` decimal digits of `n`, leading zeros included. -/
def paddedDigits (k n : Nat) : List Char :=
  let ds := Nat.toDigits 10 n
  List.replicate (k - ds.length) '0' ++ ds

/-- A decimal in positional form. -/
def Decimal.chars (d : Decimal) : List Char :=
  match d.exponent with
  | .ofNat e => Nat.toDigits 10 (d.digits * pow 10 e)
  | .negSucc e =>
    Nat.toDigits 10 (d.digits / pow 10 (e + 1)) ++
      '.' :: paddedDigits (e + 1) (d.digits % pow 10 (e + 1))

def chars (x : Float) : List Char :=
  let b := pattern x
  if infinity < b then "NaN".toList
  else
    let body := if b = infinity then "inf".toList else (Decimal.shortest b).chars
    if isNegative x then '-' :: body else body

def text (x : Float) : String := .ofList (chars x)

/-- Whether a sign is a minus, and what follows it. -/
def readSign : List Char → Bool × List Char
  | '-' :: cs => (true, cs)
  | '+' :: cs => (false, cs)
  | cs => (false, cs)

def digitsValue (ds : List Char) : Nat := Nat.ofDigitChars 10 ds 0

/-- The exponent part that ends a decimal; there may be none. -/
def readExponent? : List Char → Option Int
  | [] => some 0
  | c :: cs =>
    if c = 'e' ∨ c = 'E' then
      let (negative, ds) := readSign cs
      if ds.isEmpty || !ds.all Char.isDigit then none
      else some (if negative then -(digitsValue ds : Int) else digitsValue ds)
    else none

/-- A decimal without a sign. There is a digit on at least one side of its point. -/
def readDecimal? (cs : List Char) : Option Decimal := do
  let whole := cs.takeWhile Char.isDigit
  let (fraction, rest) := match cs.dropWhile Char.isDigit with
    | '.' :: rest => (rest.takeWhile Char.isDigit, rest.dropWhile Char.isDigit)
    | rest => ([], rest)
  guard !(whole ++ fraction).isEmpty
  let exponent ← readExponent? rest
  return ⟨digitsValue (whole ++ fraction), exponent - fraction.length⟩

/-- The pattern of an unsigned number or special value. -/
def readPattern? (cs : List Char) : Option Nat :=
  let name := cs.map Char.toLower
  if name = "nan".toList then some (pattern nan)
  else if name = "inf".toList ∨ name = "infinity".toList then some infinity
  else (readDecimal? cs).map Decimal.pattern

/-- Reads a number and rounds it to the nearest binary64 value. -/
def ofText? (s : String) : Option Float :=
  let (negative, cs) := readSign s.toList
  (readPattern? cs).map (ofPattern negative)

end StackLang.Number
