import StackLang.Operator
import StackLang.Number.Text

namespace StackLang

inductive Instruction where
  | push (value : Float)
  | load (name : String)
  | store (name : String)
  | unary (op : UnaryOp)
  | binary (op : BinaryOp)
  | jump (label : String)
  | jumpIfFalse (label : String)
  | label (name : String)
deriving DecidableEq, Repr

def UnaryOp.opcode : UnaryOp → String
  | neg => "NEG"
  | not => "NOT"

def BinaryOp.opcode : BinaryOp → String
  | add => "ADD"
  | sub => "SUB"
  | mul => "MUL"
  | div => "DIV"
  | mod => "MOD"
  | pow => "POW"
  | eq => "EQ"
  | ne => "NEQ"
  | lt => "LT"
  | le => "LTE"
  | gt => "GT"
  | ge => "GTE"
  | and => "AND"
  | or => "OR"

namespace Instruction

def opcode : Instruction → String
  | push _ => "PUSH_NUMBER"
  | load _ => "PUSH_VAR"
  | store _ => "STORE"
  | unary op => op.opcode
  | binary op => op.opcode
  | jump _ => "JUMP"
  | jumpIfFalse _ => "JUMP_IF_FALSE"
  | label _ => "LABEL"

def operand? : Instruction → Option String
  | push x => some (Number.text x)
  | load x | store x | jump x | jumpIfFalse x | label x => some x
  | unary _ | binary _ => none

def text (i : Instruction) : String :=
  match i.operand? with
  | some x => s!"{i.opcode} {x}"
  | none => i.opcode

/-- How many values the instruction takes from the stack. -/
def pops : Instruction → Nat
  | push _ | load _ | jump _ | label _ => 0
  | store _ | unary _ | jumpIfFalse _ => 1
  | binary _ => 2

/-- How many values the instruction puts on the stack. -/
def pushes : Instruction → Nat
  | push _ | load _ | unary _ | binary _ => 1
  | store _ | jump _ | jumpIfFalse _ | label _ => 0

def binaryOp? : Instruction → Option BinaryOp
  | binary op => some op
  | _ => none

def target? : Instruction → Option String
  | jump l | jumpIfFalse l => some l
  | _ => none

end Instruction

end StackLang
