import StackLang.Operator
import StackLang.Number.Text

namespace StackLang

/-- Expressions and statements share one type, so that a tree can also be built by hand; the
parser puts each only where it belongs. -/
inductive Tree where
  | number (value : Float)
  | var (name : String)
  | boolean (value : Bool)
  | unary (op : UnaryOp) (operand : Tree)
  | binary (op : BinaryOp) (left right : Tree)
  | assign (target : String) (value : Tree)
  | ifThen (condition body : Tree)
  | ifElse (condition body alternative : Tree)
  | program (statements : List Tree)
deriving Repr, Inhabited

namespace Tree

/-- The name of a tree's outermost form. -/
def form : Tree → String
  | number _ => "Number"
  | var _ => "Identifier"
  | boolean _ => "Boolean"
  | unary .. => "UnaryOp"
  | binary .. => "BinaryOp"
  | assign .. => "Assign"
  | ifThen .. | ifElse .. => "If"
  | program _ => "Program"

def boolText (b : Bool) : String := if b then "true" else "false"

mutual

/-- The tree as source text. Every compound expression is parenthesised. -/
def text : Tree → String
  | number x => Number.text x
  | var x => x
  | boolean b => boolText b
  | unary op e => s!"({op.symbol}{e.text})"
  | binary op l r => s!"({l.text} {op.symbol} {r.text})"
  | assign x e => s!"{x} = {e.text};"
  | ifThen c s => s!"if ({c.text}) {s.text}"
  | ifElse c s t => s!"if ({c.text}) {s.text} else {t.text}"
  | program ss => "\n".intercalate (texts ss)

def texts : List Tree → List String
  | [] => []
  | s :: ss => s.text :: texts ss

end

end Tree

end StackLang
