import StackLang.Tree
import StackLang.Token.Lexeme

namespace StackLang

/-- A letter followed by letters, digits and underscores, and none of the four reserved words. -/
structure IsName (name : String) : Prop where
  shape : ∃ c cs, name.toList = c :: cs ∧ c.isAlpha ∧ ∀ d ∈ cs, Lexeme.isNameChar d
  not_reserved : name ≠ "if" ∧ name ≠ "else" ∧ name ≠ "true" ∧ name ≠ "false"

/-- A number that source text can hold: finite and with a positive sign. -/
structure IsLiteral (x : Float) : Prop where
  finite : x.isFinite
  not_negative : Number.isNegative x = false

namespace Tree

/-- The trees that have a value. -/
inductive IsExpression : Tree → Prop where
  | number (x : Float) : IsExpression (.number x)
  | var (x : String) : IsExpression (.var x)
  | boolean (b : Bool) : IsExpression (.boolean b)
  | unary (op : UnaryOp) {e : Tree} : IsExpression e → IsExpression (.unary op e)
  | binary (op : BinaryOp) {l r : Tree} :
    IsExpression l → IsExpression r → IsExpression (.binary op l r)

/-- The trees that can be run: every operand, assigned value and condition has a value. -/
inductive IsStatement : Tree → Prop where
  | expression {e : Tree} : IsExpression e → IsStatement e
  | assign (x : String) {e : Tree} : IsExpression e → IsStatement (.assign x e)
  | ifThen {c s : Tree} : IsExpression c → IsStatement s → IsStatement (.ifThen c s)
  | ifElse {c s t : Tree} :
    IsExpression c → IsStatement s → IsStatement t → IsStatement (.ifElse c s t)
  | program {ss : List Tree} : (∀ s ∈ ss, IsStatement s) → IsStatement (.program ss)

/-- Whether a following `else` would belong to the statement. -/
def isOpen : Tree → Bool
  | ifThen _ _ => true
  | ifElse _ _ t => t.isOpen
  | _ => false

/-- The expressions that source text can hold. -/
inductive IsWritten : Tree → Prop where
  | number {x : Float} : IsLiteral x → IsWritten (.number x)
  | var {x : String} : IsName x → IsWritten (.var x)
  | boolean (b : Bool) : IsWritten (.boolean b)
  | unary (op : UnaryOp) {e : Tree} : IsWritten e → IsWritten (.unary op e)
  | binary (op : BinaryOp) {l r : Tree} :
    IsWritten l → IsWritten r → IsWritten (.binary op l r)

/-- The statements that source text can hold: assignments and conditionals only, and no `else`
after a branch that would take it. -/
inductive ParserShaped : Tree → Prop where
  | assign {x : String} {e : Tree} : IsName x → IsWritten e → ParserShaped (.assign x e)
  | ifThen {c s : Tree} : IsWritten c → ParserShaped s → ParserShaped (.ifThen c s)
  | ifElse {c s t : Tree} :
    IsWritten c → ParserShaped s → s.isOpen = false → ParserShaped t →
      ParserShaped (.ifElse c s t)

theorem IsWritten.isExpression {e : Tree} (h : e.IsWritten) : e.IsExpression := by
  induction h with
  | number => exact .number _
  | var => exact .var _
  | boolean b => exact .boolean b
  | unary op _ ih => exact .unary op ih
  | binary op _ _ ihl ihr => exact .binary op ihl ihr

theorem ParserShaped.isStatement {s : Tree} (h : s.ParserShaped) : s.IsStatement := by
  induction h with
  | assign _ he => exact .assign _ he.isExpression
  | ifThen hc _ ih => exact .ifThen hc.isExpression ih
  | ifElse hc _ _ _ ihs iht => exact .ifElse hc.isExpression ihs iht

/-- Induction over trees, with the statements of a program taken one by one. -/
@[induction_eliminator, elab_as_elim]
theorem induction {P : Tree → Prop} (number : ∀ x, P (.number x)) (var : ∀ x, P (.var x))
    (boolean : ∀ b, P (.boolean b)) (unary : ∀ op e, P e → P (.unary op e))
    (binary : ∀ op l r, P l → P r → P (.binary op l r)) (assign : ∀ x e, P e → P (.assign x e))
    (ifThen : ∀ c s, P c → P s → P (.ifThen c s))
    (ifElse : ∀ c s t, P c → P s → P t → P (.ifElse c s t))
    (program : ∀ ss, (∀ s ∈ ss, P s) → P (.program ss)) (t : Tree) : P t := by
  refine Tree.rec number var boolean unary binary assign ifThen ifElse program ?_ ?_ t
  · intro s hs
    simp at hs
  · intro s ss hs hss u hu
    rcases List.mem_cons.mp hu with rfl | hu
    · exact hs
    · exact hss u hu

end Tree

end StackLang
