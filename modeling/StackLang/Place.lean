/-! Places in a source text. Offsets count the bytes of its UTF-8 form, columns count
characters, and lines and columns start at 1. -/
namespace StackLang

/-- The bytes from `start` up to but not including `stop`. -/
structure Span where
  start : Nat
  stop : Nat
deriving DecidableEq, Repr

/-- A span together with the line and column of its start. -/
structure Place where
  span : Span
  line : Nat
  column : Nat
deriving DecidableEq, Repr

/-- A point between two characters. -/
structure Position where
  offset : Nat
  line : Nat
  column : Nat
deriving DecidableEq, Repr

namespace Position

def start : Position := ⟨0, 1, 1⟩

/-- The point after the character `c`. -/
def advance (p : Position) (c : Char) : Position :=
  if c = '\n' then ⟨p.offset + c.utf8Size, p.line + 1, 1⟩
  else ⟨p.offset + c.utf8Size, p.line, p.column + 1⟩

def advanceBy (p : Position) (cs : List Char) : Position := cs.foldl advance p

/-- The place of the characters `cs` that start at `p`. -/
def place (p : Position) (cs : List Char) : Place :=
  ⟨⟨p.offset, (p.advanceBy cs).offset⟩, p.line, p.column⟩

end Position

end StackLang
