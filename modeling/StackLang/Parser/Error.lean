import StackLang.Token

namespace StackLang

/-- What a rule of the grammar was looking for. -/
inductive Expectation where
  | statement | assign | ifWord | conditionStart | conditionStop | groupStop | expression
deriving DecidableEq, Repr

def Expectation.text : Expectation → String
  | statement => "statement"
  | assign => "'='"
  | ifWord => "'if'"
  | conditionStart => "'(' after 'if'"
  | conditionStop => "')' after condition"
  | groupStop => "')' after expression"
  | expression => "expression"

inductive SyntaxCause where
  | unexpectedToken (expected : Expectation) (found : String)
  | invalidNumber (text : String)
  | tooDeep (limit : Nat)
deriving DecidableEq, Repr

/-- A fault at the token with the given index and place. -/
structure SyntaxError where
  cause : SyntaxCause
  index : Nat
  place : Place
deriving DecidableEq, Repr

def SyntaxCause.message : SyntaxCause → String
  | unexpectedToken expected found => s!"expected {expected.text}, found {found}"
  | invalidNumber text => s!"invalid number literal '{text}'"
  | tooDeep limit => s!"nesting depth exceeds maximum of {limit} levels"

def SyntaxError.message (e : SyntaxError) : String :=
  s!"{e.cause.message} at line {e.place.line}, column {e.place.column}"

end StackLang
