import StackLang.Parser.Error

namespace StackLang

/-- The tokens still ahead, up to the first end mark, the place of that mark, and the nesting
depth reached. -/
structure Cursor where
  index : Nat
  previous : Option Token
  ahead : List Token
  mark : Place
  depth : Nat
  limit : Nat
deriving Repr

namespace Cursor

/-- Where an end mark is supplied: right after the last token. -/
def placeAfter (tokens : List Token) : Place :=
  match tokens.getLast? with
  | none => Position.start.place []
  | some t =>
    let stop := t.place.span.stop
    ⟨⟨stop, stop⟩, t.place.line, t.place.column + t.lexeme.length⟩

/-- Where the end mark of a sequence stands, or is supplied if it is missing. -/
def markOf (tokens : List Token) : Place :=
  match tokens.find? (·.kind = .endMark) with
  | some mark => mark.place
  | none => placeAfter tokens

def ofTokens (limit : Nat) (tokens : List Token) : Cursor where
  index := 0
  previous := none
  ahead := tokens.takeWhile (·.kind ≠ .endMark)
  mark := markOf tokens
  depth := 0
  limit := limit

def current (c : Cursor) : Token := c.ahead.head?.getD (.endMark c.mark)

/-- Passes one token. The end mark is never passed. -/
def advance (c : Cursor) : Cursor :=
  match c.ahead with
  | [] => c
  | t :: ts => { c with index := c.index + 1, previous := some t, ahead := ts }

end Cursor

/-- A parser moves a cursor and gives a value or an error; the cursor stays where it stopped. -/
abbrev Parser := EStateM SyntaxError Cursor

namespace Parser

variable {α : Type}

def fail (cause : SyntaxCause) : Parser α := fun c =>
  .error ⟨cause, c.index, c.current.place⟩ c

def unexpected (expected : Expectation) : Parser α := fun c =>
  fail (.unexpectedToken expected c.current.description) c

def peek : Parser Token := fun c => .ok c.current c

def advance : Parser Unit := fun c => .ok () c.advance

def expect (kind : Kind) (expected : Expectation) : Parser Token := do
  let t ← peek
  if t.kind = kind then
    advance
    return t
  else unexpected expected

/-- Passes a token of the given kind if it comes next. -/
def eat (kind : Kind) : Parser Bool := do
  let t ← peek
  if t.kind = kind then
    advance
    return true
  else return false

/-- Passes one of the given operators if it comes next. -/
def eatSign {op : Type} (signs : List (Sign × op)) : Parser (Option op) := do
  match (← peek).kind with
  | .sign s =>
    match signs.lookup s with
    | some o =>
      advance
      return some o
    | none => return none
  | _ => return none

/-- Runs `p` one level deeper; the limit bounds the levels that are open at once. -/
def nested (p : Parser α) : Parser α := fun c =>
  if c.limit ≤ c.depth then fail (.tooDeep c.limit) c
  else match p { c with depth := c.depth + 1 } with
    | .ok a d => .ok a { d with depth := d.depth - 1 }
    | .error e d => .error e { d with depth := d.depth - 1 }

end Parser

end StackLang
