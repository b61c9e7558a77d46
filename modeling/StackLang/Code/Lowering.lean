import StackLang.Tree
import StackLang.Code

/-! Trees as stack code, in post-order. Each `if` takes the next number for its two labels
before anything inside it does. -/
namespace StackLang

namespace Tree

mutual

/-- The number of `if` forms in a tree. -/
def branches : Tree → Nat
  | number _ | var _ | boolean _ => 0
  | unary _ e | assign _ e => e.branches
  | binary _ l r => l.branches + r.branches
  | ifThen c s => c.branches + s.branches + 1
  | ifElse c s t => c.branches + s.branches + t.branches + 1
  | program ss => branchesAll ss

def branchesAll : List Tree → Nat
  | [] => 0
  | s :: ss => s.branches + branchesAll ss

end

def elseLabel (n : Nat) : String := s!"else_{n}"

def endLabel (n : Nat) : String := s!"end_{n}"

mutual

/-- The code of a tree whose labels are numbered from `n`. -/
def lower (n : Nat) : Tree → List Instruction
  | number x => [.push x]
  | var x => [.load x]
  | boolean b => [.push (Number.ofBool b)]
  | unary op e => e.lower n ++ [.unary op]
  | binary op l r => l.lower n ++ r.lower (n + l.branches) ++ [.binary op]
  | assign x e => e.lower n ++ [.store x]
  | ifThen c s =>
    c.lower (n + 1) ++ .jumpIfFalse (elseLabel n) ::
      (s.lower (n + 1 + c.branches) ++
        [.jump (endLabel n), .label (elseLabel n), .label (endLabel n)])
  | ifElse c s t =>
    c.lower (n + 1) ++ .jumpIfFalse (elseLabel n) ::
      (s.lower (n + 1 + c.branches) ++ .jump (endLabel n) :: .label (elseLabel n) ::
        (t.lower (n + 1 + c.branches + s.branches) ++ [.label (endLabel n)]))
  | program ss => lowerAll n ss

def lowerAll (n : Nat) : List Tree → List Instruction
  | [] => []
  | s :: ss => s.lower n ++ lowerAll (n + s.branches) ss

end

/-- The code of each tree of a list; the labels are numbered on from one to the next. -/
def lowerEach (n : Nat) : List Tree → List (List Instruction)
  | [] => []
  | s :: ss => s.lower n :: lowerEach (n + s.branches) ss

end Tree

/-- An instruction that would take more values than a straight pass has put on the stack. -/
structure Underflow where
  pops : Nat
  depth : Nat
deriving DecidableEq, Repr

def Underflow.message (u : Underflow) : String :=
  s!"Stack underflow: trying to pop {u.pops} but depth is {u.depth}"

namespace Code

/-- The deepest stack of a straight pass that starts at `depth`, if no instruction on the way
lacks operands. -/
def deepest? (depth : Nat) : List Instruction → Except Underflow Nat
  | [] => .ok depth
  | i :: is =>
    if depth < i.pops then .error ⟨i.pops, depth⟩
    else (deepest? (depth - i.pops + i.pushes) is).map (max depth)

/-- The code of a list of statements. It fails only for trees with a statement in place of an
expression. -/
def compile (statements : List Tree) : Except Underflow Code :=
  let is := Tree.lowerAll 0 statements
  (deepest? 0 is).map (⟨is, ·⟩)

end Code

end StackLang
