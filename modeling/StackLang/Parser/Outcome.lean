import StackLang.Parser.Rule

/-! Parsing whole programs. After a malformed statement the parser goes on at the next statement
boundary, so that one run reports every malformed statement. -/
namespace StackLang

/-- The statements that were read, and one error for each that was not. -/
structure Outcome where
  statements : List Tree
  errors : List SyntaxError
deriving Repr

namespace Cursor

def statement (c : Cursor) : EStateM.Result SyntaxError Cursor Tree :=
  Parser.phrase c.ahead.length .statement c

def expression (c : Cursor) : EStateM.Result SyntaxError Cursor Tree :=
  Parser.phrase c.ahead.length .expression c

/-- The number of tokens up to the next boundary: after a semicolon or before a token that
starts a statement. -/
def toBoundary (previous : Option Token) : List Token → Nat
  | [] => 0
  | t :: ts =>
    if previous.any (·.kind = .semicolon) || t.kind.startsStatement then 0
    else toBoundary (some t) ts + 1

def advanceBy (c : Cursor) : Nat → Cursor
  | 0 => c
  | n + 1 => c.advance.advanceBy n

/-- Goes on after a failure in a statement that started at index `start`. A failure that passed
no token passes one now. -/
def recover (start : Nat) (c : Cursor) : Cursor :=
  let c := if c.index = start then c.advance else c
  c.advanceBy (toBoundary c.previous c.ahead)

/-- Parses statements where at most `n` tokens are ahead. Semicolons between them are dropped. -/
def statementsWithin : Nat → Cursor → Outcome × Cursor
  | 0, c => (⟨[], []⟩, c)
  | n + 1, c =>
    match c.ahead with
    | [] => (⟨[], []⟩, c)
    | t :: _ =>
      if t.kind = .semicolon then statementsWithin n c.advance
      else match c.statement with
        | .ok s d =>
          let (o, d) := statementsWithin n d
          ({ o with statements := s :: o.statements }, d)
        | .error e d =>
          let (o, d) := statementsWithin n (d.recover c.index)
          ({ o with errors := e :: o.errors }, d)

def statements (c : Cursor) : Outcome × Cursor := statementsWithin c.ahead.length c

end Cursor

namespace Outcome

def isOk (o : Outcome) : Bool := o.errors.isEmpty

def program (o : Outcome) : Tree := .program o.statements

end Outcome

/-- The nesting limit of a parser that is given none. -/
def defaultNesting : Nat := 256

def parse (limit : Nat) (tokens : List Token) : Outcome :=
  (Cursor.ofTokens limit tokens).statements.1

end StackLang
