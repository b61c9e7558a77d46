import StackLang.Token

namespace StackLang

/-- What starts at a place, with its length in characters. -/
inductive Lexeme where
  /-- White space or a comment. -/
  | blank (length : Nat)
  | token (kind : Kind) (length : Nat)
  /-- The start of a block comment that is never closed. -/
  | openComment
  | unexpected
deriving DecidableEq, Repr

namespace Lexeme

def isBlank (c : Char) : Bool :=
  c = ' ' || c = '\t' || c = '\r' || c = '\n' || c = '\x0c'

def isNameChar (c : Char) : Bool := c.isAlphanum || c = '_'

/-- The number of characters up to the end of the first `*/`. -/
def closing? : List Char → Option Nat
  | '*' :: '/' :: _ => some 2
  | _ :: cs => (closing? cs).map (· + 1)
  | [] => none

/-- The length of the number that starts `cs`. A point belongs to it only between digits. -/
def numberLength (cs : List Char) : Nat :=
  let whole := (cs.takeWhile Char.isDigit).length
  match cs.dropWhile Char.isDigit with
  | '.' :: rest =>
    let fraction := (rest.takeWhile Char.isDigit).length
    if fraction = 0 then whole else whole + 1 + fraction
  | _ => whole

def wordKind (word : List Char) : Kind :=
  if word = "if".toList then .ifWord
  else if word = "else".toList then .elseWord
  else if word = "true".toList ∨ word = "false".toList then .boolean
  else .identifier

/-- Operators and punctuation. A sign comes before the signs that start it, so that the first
match is the longest. -/
def symbols : List (List Char × Kind) :=
  [(['*', '*'], .sign .starStar), (['=', '='], .sign .eqEq), (['!', '='], .sign .bangEq),
    (['<', '='], .sign .ltEq), (['>', '='], .sign .gtEq), (['&', '&'], .sign .andAnd),
    (['|', '|'], .sign .orOr), (['='], .assign), ([';'], .semicolon), (['('], .lparen),
    ([')'], .rparen), (['\x7b'], .lbrace), (['\x7d'], .rbrace), (['+'], .sign .plus),
    (['-'], .sign .minus), (['*'], .sign .star), (['/'], .sign .slash),
    (['%'], .sign .percent), (['^'], .sign .caret), (['<'], .sign .lt), (['>'], .sign .gt),
    (['!'], .sign .bang)]

/-- The comment that starts `cs`, if one does. -/
def comment? : List Char → Option Lexeme
  | '/' :: '/' :: cs => some (.blank (2 + (cs.takeWhile (· ≠ '\n')).length))
  | '/' :: '*' :: cs =>
    some (match closing? cs with
      | some n => .blank (2 + n)
      | none => .openComment)
  | _ => none

/-- The token that starts `cs`, if one does: the longest match of any rule. -/
def token? (cs : List Char) : Option Lexeme :=
  match cs with
  | [] => none
  | c :: rest =>
    if c.isDigit then some (.token .number (numberLength cs))
    else if c.isAlpha then
      let word := c :: rest.takeWhile isNameChar
      some (.token (wordKind word) word.length)
    else (symbols.find? (·.1.isPrefixOf cs)).map fun (s, k) => .token k s.length

/-- What starts the text `c :: cs`. -/
def start (c : Char) (cs : List Char) : Lexeme :=
  if isBlank c then .blank 1
  else (comment? (c :: cs)).getD ((token? (c :: cs)).getD .unexpected)

end Lexeme

end StackLang
