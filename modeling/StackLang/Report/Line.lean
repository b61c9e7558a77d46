/-! The lines of a source text as a report counts them. Unlike positions of tokens, these are
counted in characters, and every kind of line break counts. -/
namespace StackLang.Report

structure Line where
  /-- Counted from 0. -/
  index : Nat
  /-- The number of characters before the line. -/
  offset : Nat
  /-- The characters with the line break that ends them. -/
  chars : List Char
deriving DecidableEq, Repr

def isBreak (c : Char) : Bool :=
  c = '\n' || c = '\r' || c = '\x0b' || c = '\x0c' || c = '\u0085' || c = '\u2028' ||
    c = '\u2029'

/-- Splits a text after each line break; a carriage return and a line feed are one break.
`current` holds the line so far, its last character first. -/
def split (current : List Char) : List Char → List (List Char)
  | [] => if current.isEmpty then [] else [current.reverse]
  | '\r' :: '\n' :: cs => ('\n' :: '\r' :: current).reverse :: split [] cs
  | c :: cs => if isBreak c then (c :: current).reverse :: split [] cs else split (c :: current) cs

def number (index offset : Nat) : List (List Char) → List Line
  | [] => []
  | l :: ls => ⟨index, offset, l⟩ :: number (index + 1) (offset + l.length) ls

/-- There is always a line, and none after a final line break. -/
def lines (source : List Char) : List Line :=
  number 0 0 (if source.isEmpty then [[]] else split [] source)

/-- The line of a character offset. The end of the text belongs to the last line. -/
def lineAt? (source : List Char) (offset : Nat) : Option Line :=
  if source.length < offset then none
  else ((lines source).filter (·.offset ≤ offset)).getLast?

end StackLang.Report
