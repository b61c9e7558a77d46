import StackLang.Token
import StackLang.Proofs.TreeShape

/-! The grammar as a relation between token sequences and trees, with the nesting of each
derivation: how many parentheses, unary operators, exponents and conditionals are open at once. -/
namespace StackLang.Grammar

/-- The left-associative levels of binary operators, loosest first. -/
inductive Level where
  | or | and | comparison | sum | product
deriving DecidableEq, Repr

/-- The kinds of expressions, loosest first. -/
inductive Category where
  | level (l : Level)
  | unary | exponent | primary
deriving DecidableEq, Repr

/-- Every expression is one of the loosest level. -/
abbrev expression : Category := .level .or

namespace Level

/-- The operands of a level are expressions of the next one. -/
def operand : Level → Category
  | or => .level and
  | and => .level comparison
  | comparison => .level sum
  | sum => .level product
  | product => .unary

/-- The operator that a sign stands for at a level. -/
def operator? : Level → Sign → Option BinaryOp
  | or, .orOr => some .or
  | and, .andAnd => some .and
  | comparison, .eqEq => some .eq
  | comparison, .bangEq => some .ne
  | comparison, .lt => some .lt
  | comparison, .ltEq => some .le
  | comparison, .gt => some .gt
  | comparison, .gtEq => some .ge
  | sum, .plus => some .add
  | sum, .minus => some .sub
  | product, .star => some .mul
  | product, .slash => some .div
  | product, .percent => some .mod
  | _, _ => none

end Level

def unaryOperator? : Sign → Option UnaryOp
  | .minus => some .neg
  | .bang => some .not
  | _ => none

def isPower : Sign → Bool
  | .caret | .starStar => true
  | _ => false

/-- `DerivesExpression C ts e k`: the tokens `ts` are an expression of kind `C` with the tree `e`,
derived with nesting `k`. -/
inductive DerivesExpression : Category → List Token → Tree → Nat → Prop where
  | number {t : Token} {x : Float} : t.kind = .number → Number.ofText? t.lexeme = some x →
    x.isFinite → DerivesExpression .primary [t] (.number x) 0
  | var {t : Token} : t.kind = .identifier → DerivesExpression .primary [t] (.var t.lexeme) 0
  | boolean {t : Token} : t.kind = .boolean →
    DerivesExpression .primary [t] (.boolean (t.lexeme = "true")) 0
  | group {t u : Token} {ts : List Token} {e : Tree} {k : Nat} : t.kind = .lparen →
    DerivesExpression expression ts e k → u.kind = .rparen →
      DerivesExpression .primary (t :: (ts ++ [u])) e (k + 1)
  | base {ts : List Token} {e : Tree} {k : Nat} :
    DerivesExpression .primary ts e k → DerivesExpression .exponent ts e k
  | power {t : Token} {s : Sign} {ts us : List Token} {e f : Tree} {k j : Nat} :
    DerivesExpression .primary ts e k → t.kind = .sign s → isPower s →
      DerivesExpression .exponent us f j →
        DerivesExpression .exponent (ts ++ t :: us) (.binary .pow e f) (max k (j + 1))
  | unsigned {ts : List Token} {e : Tree} {k : Nat} :
    DerivesExpression .exponent ts e k → DerivesExpression .unary ts e k
  | signed {t : Token} {s : Sign} {op : UnaryOp} {ts : List Token} {e : Tree} {k : Nat} :
    t.kind = .sign s → unaryOperator? s = some op → DerivesExpression .unary ts e k →
      DerivesExpression .unary (t :: ts) (.unary op e) (k + 1)
  | operand {l : Level} {ts : List Token} {e : Tree} {k : Nat} :
    DerivesExpression l.operand ts e k → DerivesExpression (.level l) ts e k
  | chain {l : Level} {t : Token} {s : Sign} {op : BinaryOp} {ts us : List Token} {e f : Tree}
    {k j : Nat} :
    DerivesExpression (.level l) ts e k → t.kind = .sign s → l.operator? s = some op →
      DerivesExpression l.operand us f j →
        DerivesExpression (.level l) (ts ++ t :: us) (.binary op e f) (max k j)

/-- The optional semicolon after an assignment. -/
def IsEnding (ts : List Token) : Prop := ts = [] ∨ ∃ t : Token, t.kind = .semicolon ∧ ts = [t]

/-- `DerivesStatement ts s k`: the tokens `ts` are a statement with the tree `s`. An `else`
belongs to the nearest conditional that can take it, so none comes after an open branch. -/
inductive DerivesStatement : List Token → Tree → Nat → Prop where
  | assign {t u : Token} {ts stop : List Token} {e : Tree} {k : Nat} :
    t.kind = .identifier → u.kind = .assign → DerivesExpression expression ts e k →
      IsEnding stop → DerivesStatement (t :: u :: (ts ++ stop)) (.assign t.lexeme e) k
  | ifThen {t u v : Token} {ts us : List Token} {c s : Tree} {k j : Nat} :
    t.kind = .ifWord → u.kind = .lparen → DerivesExpression expression ts c k →
      v.kind = .rparen → DerivesStatement us s j →
        DerivesStatement (t :: u :: (ts ++ v :: us)) (.ifThen c s) (max k j + 1)
  | ifElse {t u v w : Token} {ts us vs : List Token} {c s r : Tree} {k j i : Nat} :
    t.kind = .ifWord → u.kind = .lparen → DerivesExpression expression ts c k →
      v.kind = .rparen → DerivesStatement us s j → s.isOpen = false → w.kind = .elseWord →
        DerivesStatement vs r i →
          DerivesStatement (t :: u :: (ts ++ v :: (us ++ w :: vs))) (.ifElse c s r)
            (max k (max j i) + 1)

/-- `DerivesProgram ts ss k`: the tokens `ts` are the statements `ss`, with semicolons between
them where one likes. -/
inductive DerivesProgram : List Token → List Tree → Nat → Prop where
  | nil : DerivesProgram [] [] 0
  | semicolon {t : Token} {ts : List Token} {ss : List Tree} {k : Nat} : t.kind = .semicolon →
    DerivesProgram ts ss k → DerivesProgram (t :: ts) ss k
  | statement {ts us : List Token} {s : Tree} {ss : List Tree} {k j : Nat} :
    DerivesStatement ts s k → DerivesProgram us ss j →
      DerivesProgram (ts ++ us) (s :: ss) (max k j)

theorem DerivesExpression.ne_nil {C : Category} {ts : List Token} {e : Tree} {k : Nat}
    (h : DerivesExpression C ts e k) : ts ≠ [] := by
  induction h with
  | base _ ih => exact ih
  | unsigned _ ih => exact ih
  | operand _ ih => exact ih
  | _ => simp

theorem DerivesExpression.first_not_sign {ts : List Token} {e : Tree} {k : Nat}
    (h : DerivesExpression .exponent ts e k) : ∃ t us, ts = t :: us ∧ ∀ s, t.kind ≠ .sign s := by
  have hprimary {ts : List Token} {e : Tree} {k : Nat} (h : DerivesExpression .primary ts e k) :
      ∃ t us, ts = t :: us ∧ ∀ s, t.kind ≠ .sign s := by
    cases h with
    | number ht _ _ => exact ⟨_, _, rfl, by rw [ht]; exact nofun⟩
    | var ht => exact ⟨_, _, rfl, by rw [ht]; exact nofun⟩
    | boolean ht => exact ⟨_, _, rfl, by rw [ht]; exact nofun⟩
    | group ht _ _ => exact ⟨_, _, rfl, by rw [ht]; exact nofun⟩
  cases h with
  | base h => exact hprimary h
  | power h _ _ _ =>
    obtain ⟨t, us, rfl, ht⟩ := hprimary h
    exact ⟨t, _, rfl, ht⟩

/-- A statement starts with a token that starts no expression and ends none. -/
theorem DerivesStatement.first {ts : List Token} {s : Tree} {k : Nat}
    (h : DerivesStatement ts s k) : ∃ t us, ts = t :: us ∧ t.kind.startsStatement = true := by
  cases h with
  | assign ht _ _ _ => exact ⟨_, _, rfl, by rw [ht]; rfl⟩
  | ifThen ht _ _ _ _ => exact ⟨_, _, rfl, by rw [ht]; rfl⟩
  | ifElse ht _ _ _ _ _ _ _ => exact ⟨_, _, rfl, by rw [ht]; rfl⟩

/-- The end mark is no part of a phrase. -/
theorem DerivesExpression.not_endMark {C : Category} {ts : List Token} {e : Tree} {k : Nat}
    (h : DerivesExpression C ts e k) : ∀ t ∈ ts, t.kind ≠ .endMark := by
  induction h with
  | number ht _ _ => simp [ht]
  | var ht => simp [ht]
  | boolean ht => simp [ht]
  | group ht _ hu ih => simp_all [or_imp]
  | base _ ih => exact ih
  | power _ ht _ _ ih ihf => simp_all [or_imp]
  | unsigned _ ih => exact ih
  | signed ht _ _ ih => simp_all
  | operand _ ih => exact ih
  | chain _ ht _ _ ih ihf => simp_all [or_imp]

theorem DerivesStatement.not_endMark {ts : List Token} {s : Tree} {k : Nat}
    (h : DerivesStatement ts s k) : ∀ t ∈ ts, t.kind ≠ .endMark := by
  induction h with
  | assign ht hu he hstop =>
    have hts := he.not_endMark
    rcases hstop with rfl | ⟨v, hv, rfl⟩ <;> simp_all [or_imp]
  | ifThen ht hu he hv _ ih =>
    have hts := he.not_endMark
    simp_all [or_imp]
  | ifElse ht hu he hv _ _ hw _ ih ihr =>
    have hts := he.not_endMark
    simp_all [or_imp]

theorem DerivesProgram.not_endMark {ts : List Token} {ss : List Tree} {k : Nat}
    (h : DerivesProgram ts ss k) : ∀ t ∈ ts, t.kind ≠ .endMark := by
  induction h with
  | nil => simp
  | semicolon ht _ ih => simp_all
  | statement hs _ ih =>
    have hts := hs.not_endMark
    simp_all [or_imp]

end StackLang.Grammar
