import StackLang.Parser.Outcome
import StackLang.Tree.Graph
import StackLang.Code.Lowering
import StackLang.Machine
import StackLang.Evaluation
import StackLang.Diagnostic

namespace StackLang

/-- A program that compiled. -/
structure Program where
  source : String
  statements : List Tree
  code : Code
deriving Repr

/-- Why there is no result. -/
inductive Failure where
  | compilation (diagnostics : List Diagnostic)
  | lowering (underflow : Underflow)
  | runtime (fault : Fault)
  | evaluation (error : EvalError)
deriving DecidableEq, Repr

namespace Failure

def message : Failure → String
  | compilation ds =>
    let count := (ds.filter (·.severity = .error)).length
    s!"Compilation failed with {count} error(s)"
  | lowering u => u.message
  | runtime f => s!"Runtime error: {f.message}"
  | evaluation e => s!"Evaluation error: {e.message}"

/-- The message of the error underneath. -/
def cause? : Failure → Option String
  | compilation _ | lowering _ => none
  | runtime f => some f.message
  | evaluation e => some e.message

end Failure

namespace Program

/-- Compiles a source text. A word that cannot be read hides the faults after it; of the
statements, every malformed one is reported. -/
def compile (limit : Nat) (source : String) : Except Failure Program :=
  match tokenize source with
  | .error e => .error (.compilation [e.diagnostic])
  | .ok tokens =>
    let outcome := parse limit tokens
    if outcome.isOk then
      match Code.compile outcome.statements with
      | .ok code => .ok ⟨source, outcome.statements, code⟩
      | .error u => .error (.lowering u)
    else .error (.compilation (outcome.errors.map SyntaxError.diagnostic))

/-- Runs the code. Its jumps all lead forward, so it halts within as many steps as it has
instructions. -/
def run (p : Program) : Machine.Progress :=
  Machine.execute p.code.instructions.length p.code.instructions

def evaluate (o : EvalOptions) (p : Program) : Except EvalError Store :=
  match Evaluation.program o p.statements .start with
  | .ok store _ => .ok store
  | .error e _ => .error e

def dot (p : Program) : String := (Tree.program p.statements).dot

end Program

end StackLang
