import StackLang.Token.Lexeme

namespace StackLang

inductive LexCause where
  | unexpectedCharacter (c : Char)
  | unterminatedComment
deriving DecidableEq, Repr

structure LexError where
  cause : LexCause
  place : Place
deriving DecidableEq, Repr

def LexCause.message : LexCause → String
  | unexpectedCharacter c => s!"unexpected character '{c}'"
  | unterminatedComment => "unterminated block comment"

def LexError.message (e : LexError) : String :=
  s!"{e.cause.message} at line {e.place.line}, column {e.place.column}"

/-- The tokens of a text and what stopped the scan: the end mark or an error. -/
structure Scan where
  tokens : List Token
  last : Except LexError Token

namespace Scan

def push (t : Token) (s : Scan) : Scan := { s with tokens := t :: s.tokens }

/-- Scans the text that starts at `p`; its first `skip` characters belong to what was found
before. -/
def run (p : Position) (skip : Nat) : List Char → Scan
  | [] => ⟨[], .ok (.endMark (p.place []))⟩
  | c :: cs =>
    match skip with
    | k + 1 => run (p.advance c) k cs
    | 0 =>
      match Lexeme.start c cs with
      | .blank n => run (p.advance c) (n - 1) cs
      | .token kind n =>
        let word := (c :: cs).take n
        push ⟨kind, .ofList word, p.place word⟩ (run (p.advance c) (n - 1) cs)
      | .openComment => ⟨[], .error ⟨.unterminatedComment, p.place ((c :: cs).take 2)⟩⟩
      | .unexpected => ⟨[], .error ⟨.unexpectedCharacter c, p.place [c]⟩⟩

end Scan

def scan (source : String) : Scan := .run .start 0 source.toList

/-- All tokens of a text with the end mark, or its first error. -/
def tokenize (source : String) : Except LexError (List Token) :=
  let s := scan source
  s.last.map fun mark => s.tokens ++ [mark]

end StackLang
