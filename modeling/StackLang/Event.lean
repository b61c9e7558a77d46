import StackLang.Parser.Error
import StackLang.Instruction
import StackLang.Text.Quoted

namespace StackLang

/-- What happens on the way from a source text to its variables. -/
inductive Event where
  | tokenized (count : Nat)
  | recovered (error : SyntaxError)
  | parsed (statements errors : Nat)
  | compiled (instructions maxStack : Nat)
  | resolved (labels : Nat)
  | stepped (instruction : Instruction) (pc depth : Nat)
  | finished (instructions stored : Nat)
  | assumedZero (name : String)
  | evaluated (stored : Nat)
deriving DecidableEq, Repr

def Event.text : Event → String
  | tokenized count => s!"DEBUG tokenized source count={count}"
  | recovered e =>
    s!"DEBUG recovered from syntax error: {e.cause.message} " ++
      s!"line={e.place.line} column={e.place.column}"
  | parsed statements errors => s!"DEBUG parsed program statements={statements} errors={errors}"
  | compiled instructions maxStack =>
    s!"DEBUG compiled program instructions={instructions} max_stack_size={maxStack}"
  | resolved labels => s!"DEBUG resolved labels labels={labels}"
  | stepped i pc depth => s!"TRACE {i.text} pc={pc} depth={depth}"
  | finished instructions stored =>
    s!"DEBUG execution finished instructions={instructions} variables={stored}"
  | assumedZero x => s!"WARN undefined variable read as 0 variable={Text.quote x}"
  | evaluated stored => s!"DEBUG evaluated program variables={stored}"

end StackLang
