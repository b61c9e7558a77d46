import StackLang.Tree
import StackLang.Store
import StackLang.Event

/-! Running trees directly. Each tree that is entered takes one level of depth, and a limit
bounds the levels that are open at once. -/
namespace StackLang

inductive EvalError where
  | undefinedVariable (name : String)
  | divisionByZero
  | tooDeep (depth limit : Nat)
  | notAnExpression (form : String)
deriving DecidableEq, Repr

def EvalError.message : EvalError → String
  | undefinedVariable x => s!"variable '{x}' is not defined"
  | divisionByZero => "division by zero"
  | tooDeep depth limit => s!"evaluation depth {depth} exceeds maximum of {limit}"
  | notAnExpression form => s!"{form} does not produce a value"

structure EvalOptions where
  /-- Whether a variable that was never assigned reads as zero. -/
  lenient : Bool
  limit : Nat
deriving DecidableEq, Repr

/-- The depth limit of an evaluator that is given none. -/
def defaultDepth : Nat := 1000

/-- An evaluator between two statements. -/
structure Session where
  store : Store
  depth : Nat
  /-- The latest event first. -/
  log : List Event

namespace Session

def start : Session := ⟨∅, 0, []⟩

def note (e : Event) (s : Session) : Session := { s with log := e :: s.log }

end Session

/-- An evaluation changes a session and gives a value or an error. What it did before an error
stays done. -/
abbrev Evaluation := EStateM EvalError Session

namespace Evaluation

variable {α : Type} (o : EvalOptions)

/-- Runs `p` one level deeper. -/
def nested (p : Evaluation α) : Evaluation α := fun s =>
  if o.limit ≤ s.depth then .error (.tooDeep s.depth o.limit) s
  else match p { s with depth := s.depth + 1 } with
    | .ok a t => .ok a { t with depth := t.depth - 1 }
    | .error e t => .error e { t with depth := t.depth - 1 }

def read (x : String) : Evaluation Float := do
  match (← get).store[x]? with
  | some v => return v
  | none =>
    if o.lenient then
      modify (·.note (.assumedZero x))
      return 0
    else throw (.undefinedVariable x)

def write (x : String) (v : Float) : Evaluation Unit :=
  modify fun s => { s with store := s.store.insert x v }

/-- The value of an expression. Both operands of `&&` and `||` are evaluated. -/
def value : Tree → Evaluation Float
  | .number x => nested o (pure x)
  | .var x => nested o (read o x)
  | .boolean b => nested o (pure (Number.ofBool b))
  | .unary op e => nested o do return op.eval (← value e)
  | .binary op l r => nested o do
    let x ← value l
    let y ← value r
    match op.eval? x y with
    | some z => return z
    | none => throw .divisionByZero
  | .assign x e => nested o (throw (.notAnExpression (Tree.assign x e).form))
  | .ifThen c s => nested o (throw (.notAnExpression (Tree.ifThen c s).form))
  | .ifElse c s t => nested o (throw (.notAnExpression (Tree.ifElse c s t).form))
  | .program ss => nested o (throw (.notAnExpression (Tree.program ss).form))

mutual

/-- Runs a statement. An expression in its place is evaluated and its value dropped. -/
def exec : Tree → Evaluation Unit
  | .assign x e => nested o do write x (← value o e)
  | .ifThen c s => nested o do
    if Number.isTrue (← value o c) then exec s
  | .ifElse c s t => nested o do
    if Number.isTrue (← value o c) then exec s else exec t
  | .program ss => nested o (execAll ss)
  | e => nested o do let _ ← value o e

def execAll : List Tree → Evaluation Unit
  | [] => return
  | s :: ss => do
    exec s
    execAll ss

end

/-- Runs a whole program on an empty store and takes the store out of the session, which is left
empty whether the program fails or not. -/
def program (ss : List Tree) : Evaluation Store := fun s =>
  match execAll o ss { s with store := ∅, depth := 0 } with
  | .ok () t => .ok t.store ({ t with store := ∅ }.note (.evaluated t.store.size))
  | .error e t => .error e { t with store := ∅ }

end Evaluation

end StackLang
