import StackLang.Text.Width

namespace StackLang.Text

/-- What a terminal is sent: a character, or a whole control sequence. -/
inductive Signal where
  | character (c : Char)
  | sequence (cs : List Char)
deriving DecidableEq, Repr

namespace Signal

def chars : Signal → List Char
  | character c => [c]
  | sequence cs => cs

/-- A control has no columns. -/
def columns : Signal → Nat
  | character c => if isControl c then 0 else width c
  | sequence _ => 0

/-- The length of a title command after its first two characters. It ends with a bell, or with an
escape and a backslash; `escaped` says that an escape came last. -/
def titleLength (escaped : Bool) : List Char → Nat
  | [] => 0
  | c :: cs =>
    if c = '\x07' || (escaped && c = '\\') then 1 else titleLength (c = '\x1b') cs + 1

/-- The length of a style command after its first two characters. It ends with a character from
`@` to `~`. -/
def styleLength : List Char → Nat
  | [] => 0
  | c :: cs => if '@' ≤ c ∧ c ≤ '~' then 1 else styleLength cs + 1

/-- The length of what belongs to an escape character, given what follows it. -/
def sequenceLength : List Char → Nat
  | [] => 0
  | '[' :: cs => styleLength cs + 1
  | ']' :: cs => titleLength false cs + 1
  | _ :: _ => 1

/-- Reads a text whose first `skip` characters belong to the sequence before it. -/
def read (skip : Nat) : List Char → List Signal
  | [] => []
  | c :: cs =>
    match skip with
    | n + 1 => read n cs
    | 0 =>
      if c = '\x1b' then
        let n := sequenceLength cs
        sequence (c :: cs.take n) :: read n cs
      else character c :: read 0 cs

def ofChars (cs : List Char) : List Signal := read 0 cs

end Signal

/-- The columns that a text takes. -/
def columns (cs : List Char) : Nat :=
  (Signal.ofChars cs).foldl (fun n s => n + s.columns) 0

end StackLang.Text
