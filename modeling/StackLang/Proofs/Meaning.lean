import StackLang.Evaluation
import StackLang.Proofs.TreeShape

namespace StackLang

/-- The value of an operation, or the error of one that has none. -/
def BinaryOp.outcome (op : BinaryOp) (x y : Float) : Except EvalError Float :=
  match op.eval? x y with
  | some z => .ok z
  | none => .error .divisionByZero

namespace Tree

/-- The value of an expression over a store. -/
def meaning (lenient : Bool) (store : Store) : Tree → Except EvalError Float
  | number x => .ok x
  | var x =>
    match store[x]? with
    | some v => .ok v
    | none => if lenient then .ok 0 else .error (.undefinedVariable x)
  | boolean b => .ok (Number.ofBool b)
  | unary op e => return op.eval (← e.meaning lenient store)
  | binary op l r => do
    let x ← l.meaning lenient store
    let y ← r.meaning lenient store
    op.outcome x y
  | t => throw (.notAnExpression t.form)

mutual

/-- The store after a statement. -/
def effect (lenient : Bool) (store : Store) : Tree → Except EvalError Store
  | assign x e => return store.insert x (← e.meaning lenient store)
  | ifThen c s => do
    if Number.isTrue (← c.meaning lenient store) then s.effect lenient store else return store
  | ifElse c s t => do
    if Number.isTrue (← c.meaning lenient store) then s.effect lenient store
    else t.effect lenient store
  | program ss => effects lenient store ss
  | e => do
    let _ ← e.meaning lenient store
    return store

/-- The store after statements that run one after the other. -/
def effects (lenient : Bool) (store : Store) : List Tree → Except EvalError Store
  | [] => return store
  | s :: ss => do effects lenient (← s.effect lenient store) ss

end

theorem effect_expression (lenient : Bool) (store : Store) {e : Tree} (he : e.IsExpression) :
    e.effect lenient store = (e.meaning lenient store).map fun _ => store := by
  cases he <;> simp only [effect] <;> cases meaning .. <;> rfl

end Tree

end StackLang
