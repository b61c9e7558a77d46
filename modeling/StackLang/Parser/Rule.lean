import StackLang.Tree
import StackLang.Parser.Cursor

/-! The grammar, loosest rule first:

    statement  := 'if' '(' expression ')' statement ('else' statement)?
                | identifier '=' expression ';'?
    expression := left-associative levels `||`, `&&`, comparisons, `+ -`, `* / %` over unary
    unary      := ('-' | '!') unary | power
    power      := primary (('^' | '**') power)?
    primary    := number | identifier | boolean | '(' expression ')'

A rule is given the parser for the smaller phrases inside it. These always start after the
rule's first token, so the number of tokens ahead bounds the recursion. -/
namespace StackLang.Parser

/-- The phrases that occur inside other phrases. -/
inductive Phrase where
  | statement | expression | unary | power
deriving DecidableEq, Repr

def Phrase.expectation : Phrase → Expectation
  | statement => .statement
  | _ => .expression

/-- The binary operators by level, loosest first. -/
def levels : List (List (Sign × BinaryOp)) :=
  [[(.orOr, .or)],
    [(.andAnd, .and)],
    [(.eqEq, .eq), (.bangEq, .ne), (.lt, .lt), (.ltEq, .le), (.gt, .gt), (.gtEq, .ge)],
    [(.plus, .add), (.minus, .sub)],
    [(.star, .mul), (.slash, .div), (.percent, .mod)]]

def unarySigns : List (Sign × UnaryOp) := [(.minus, .neg), (.bang, .not)]

def powerSigns : List (Sign × BinaryOp) := [(.caret, .pow), (.starStar, .pow)]

/-- The rest of one left-associative level, of at most `n` operators, after `left`. -/
def chain (signs : List (Sign × BinaryOp)) (operand : Parser Tree) : Nat → Tree → Parser Tree
  | 0, left => return left
  | n + 1, left => do
    match ← eatSign signs with
    | none => return left
    | some op => chain signs operand n (.binary op left (← operand))

def level (n : Nat) (signs : List (Sign × BinaryOp)) (operand : Parser Tree) : Parser Tree := do
  chain signs operand n (← operand)

/-- A number token holds a finite number. -/
def number : Parser Tree := do
  let t ← peek
  match (Number.ofText? t.lexeme).filter Float.isFinite with
  | some x =>
    advance
    return .number x
  | none => fail (.invalidNumber t.lexeme)

variable (inner : Phrase → Parser Tree)

def primary : Parser Tree := do
  let t ← peek
  match t.kind with
  | .number => number
  | .identifier =>
    advance
    return .var t.lexeme
  | .boolean =>
    advance
    return .boolean (t.lexeme = "true")
  | .lparen =>
    advance
    let e ← nested (inner .expression)
    let _ ← expect .rparen .groupStop
    return e
  | _ => unexpected .expression

def power : Parser Tree := do
  let base ← primary inner
  match ← eatSign powerSigns with
  | some op => return .binary op base (← nested (inner .power))
  | none => return base

def unary : Parser Tree := do
  match ← eatSign unarySigns with
  | some op => return .unary op (← nested (inner .unary))
  | none => power inner

def expression (n : Nat) : Parser Tree := levels.foldr (level n) (unary inner)

def assignment : Parser Tree := do
  let name ← expect .identifier .statement
  let _ ← expect .assign .assign
  let e ← inner .expression
  let _ ← eat .semicolon
  return .assign name.lexeme e

/-- An `else` belongs to the nearest `if` that has none. -/
def conditional : Parser Tree := do
  let _ ← expect .ifWord .ifWord
  let _ ← expect .lparen .conditionStart
  let c ← inner .expression
  let _ ← expect .rparen .conditionStop
  let s ← inner .statement
  if ← eat .elseWord then return .ifElse c s (← inner .statement)
  else return .ifThen c s

def statement : Parser Tree := do
  if (← peek).kind = .ifWord then nested (conditional inner) else assignment inner

/-- The rule of a phrase with at most `n` tokens. -/
def rule (n : Nat) : Phrase → Parser Tree
  | .statement => statement inner
  | .expression => expression inner n
  | .unary => unary inner
  | .power => power inner

/-- Parses a phrase where at most `n` tokens are ahead. No phrase is empty. -/
def phrase : Nat → Phrase → Parser Tree
  | 0, p => unexpected p.expectation
  | n + 1, p => rule (phrase n) (n + 1) p

end StackLang.Parser
