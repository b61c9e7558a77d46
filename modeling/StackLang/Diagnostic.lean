import StackLang.Token.Scan
import StackLang.Parser.Error

namespace StackLang

inductive Severity where
  | error | warning | info
deriving DecidableEq, Repr

def Severity.text : Severity → String
  | error => "error"
  | warning => "warning"
  | info => "info"

structure Diagnostic where
  severity : Severity
  message : String
  span : Span
  help : Option String
  code : Option String
deriving DecidableEq, Repr

def Diagnostic.text (d : Diagnostic) : String :=
  let code := match d.code with
    | some c => s!" [{c}]"
    | none => ""
  let help := match d.help with
    | some h => s!"\nhelp: {h}"
    | none => ""
  s!"{d.severity.text}: {d.message}{code}{help}"

namespace LexCause

def code : LexCause → String
  | unexpectedCharacter _ => "L001"
  | unterminatedComment => "L002"

def help : LexCause → Option String
  | unexpectedCharacter '&' => some "logical and is written '&&'"
  | unexpectedCharacter '|' => some "logical or is written '||'"
  | unexpectedCharacter '.' => some "numbers need digits on both sides of '.'"
  | unexpectedCharacter _ => none
  | unterminatedComment => some "close the comment with '*/'"

end LexCause

def LexError.diagnostic (e : LexError) : Diagnostic :=
  ⟨.error, e.cause.message, e.place.span, e.cause.help, some e.cause.code⟩

namespace SyntaxCause

def code : SyntaxCause → String
  | unexpectedToken .. => "P001"
  | invalidNumber _ => "P002"
  | tooDeep _ => "P003"

def help : SyntaxCause → Option String
  | unexpectedToken .assign _ => some "a statement is either `name = expression;` or an `if`"
  | unexpectedToken .. => none
  | invalidNumber _ => some "Check the number format"
  | tooDeep _ => some "Reduce nesting or simplify the expression"

end SyntaxCause

def SyntaxError.diagnostic (e : SyntaxError) : Diagnostic :=
  ⟨.error, e.cause.message, e.place.span, e.cause.help, some e.cause.code⟩

end StackLang
