import StackLang.Number.Binary64

/-! The operators of expressions: their symbols and what they compute. Truth values are the
numbers 1 and 0, and every number other than zero counts as true. -/
namespace StackLang

inductive BinaryOp where
  | add | sub | mul | div | mod | pow
  | eq | ne | lt | le | gt | ge
  | and | or
deriving DecidableEq, Repr

inductive UnaryOp where
  | neg | not
deriving DecidableEq, Repr

namespace Number

def ofBool (b : Bool) : Float := if b then 1 else 0

/-- A NaN is true: it differs from zero. -/
def isTrue (x : Float) : Bool := x != 0

end Number

namespace BinaryOp

def symbol : BinaryOp → String
  | add => "+"
  | sub => "-"
  | mul => "*"
  | div => "/"
  | mod => "%"
  | pow => "^"
  | eq => "=="
  | ne => "!="
  | lt => "<"
  | le => "<="
  | gt => ">"
  | ge => ">="
  | and => "&&"
  | or => "||"

/-- The value of an operation. Only a division by zero has none. -/
def eval? (op : BinaryOp) (x y : Float) : Option Float :=
  match op with
  | add => some (x + y)
  | sub => some (x - y)
  | mul => some (x * y)
  | div => if y == 0 then none else some (x / y)
  | mod => some (Number.remainder x y)
  | pow => some (x ^ y)
  | eq => some (Number.ofBool (x == y))
  | ne => some (Number.ofBool (x != y))
  | lt => some (Number.ofBool (x < y))
  | le => some (Number.ofBool (x ≤ y))
  | gt => some (Number.ofBool (y < x))
  | ge => some (Number.ofBool (y ≤ x))
  | and => some (Number.ofBool (Number.isTrue x && Number.isTrue y))
  | or => some (Number.ofBool (Number.isTrue x || Number.isTrue y))

end BinaryOp

namespace UnaryOp

def symbol : UnaryOp → String
  | neg => "-"
  | not => "!"

def eval (op : UnaryOp) (x : Float) : Float :=
  match op with
  | neg => -x
  | not => Number.ofBool (x == 0)

end UnaryOp

end StackLang
