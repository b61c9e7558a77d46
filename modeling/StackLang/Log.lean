import StackLang.Program

namespace StackLang

namespace Event

def ofTokenize (result : Except LexError (List Token)) : List Event :=
  match result with
  | .ok tokens => [.tokenized tokens.length]
  | .error _ => []

def ofOutcome (o : Outcome) : List Event :=
  o.errors.map .recovered ++ [.parsed o.statements.length o.errors.length]

def ofCompile (result : Except Underflow Code) : List Event :=
  match result with
  | .ok code => [.compiled code.instructions.length code.maxStack]
  | .error _ => []

/-- The events of a run of at most `n` instructions. -/
def ofExecute (n : Nat) (is : List Instruction) : List Event :=
  match Machine.load is with
  | .error _ => []
  | .ok m =>
    let steps := (m.visited n .start).filterMap fun s =>
      (m.code[s.pc]?).map (.stepped · s.pc s.stack.length)
    let finish := match m.runFor n .start with
      | .halted store => [.finished is.length store.size]
      | _ => []
    .resolved m.labels.length :: (steps ++ finish)

/-- The events of compiling a source text. -/
def ofSource (limit : Nat) (source : String) : List Event :=
  let tokens := tokenize source
  ofTokenize tokens ++ match tokens with
    | .error _ => []
    | .ok tokens =>
      let outcome := parse limit tokens
      ofOutcome outcome ++
        if outcome.isOk then ofCompile (Code.compile outcome.statements) else []

def ofRun (p : Program) : List Event :=
  ofExecute p.code.instructions.length p.code.instructions

def ofEvaluate (o : EvalOptions) (p : Program) : List Event :=
  match Evaluation.program o p.statements .start with
  | .ok _ s | .error _ s => s.log.reverse

end Event

end StackLang
