import StackLang.Proofs.Grammar
import StackLang.Proofs.ParserSteps

namespace StackLang.Grammar

open StackLang.Parser

namespace Level

/-- The place of a level in the parser's table. -/
def index : Level → Nat
  | or => 0
  | and => 1
  | comparison => 2
  | sum => 3
  | product => 4

def signs (l : Level) : List (Sign × BinaryOp) := levels.getD l.index []

theorem lookup_signs (l : Level) (s : Sign) : l.signs.lookup s = l.operator? s := by
  cases l <;> cases s <;> rfl

end Level

theorem lookup_unarySigns (s : Sign) : unarySigns.lookup s = unaryOperator? s := by
  cases s <;> rfl

theorem lookup_powerSigns (s : Sign) :
    powerSigns.lookup s = if isPower s then some .pow else none := by
  cases s <;> rfl

theorem lookup_powerSigns_eq_some {s : Sign} {op : BinaryOp}
    (h : powerSigns.lookup s = some op) : isPower s ∧ op = .pow := by
  rw [lookup_powerSigns] at h
  split at h
  · next hs => exact ⟨hs, (Option.some.inj h).symm⟩
  · cases h

/-- The parser for expressions of one kind. -/
def Category.parser (inner : Phrase → Parser Tree) (n : Nat) : Category → Parser Tree
  | .level l => (levels.drop l.index).foldr (Parser.level n) (Parser.unary inner)
  | .unary => Parser.unary inner
  | .exponent => Parser.power inner
  | .primary => Parser.primary inner

theorem Level.parser_eq (inner : Phrase → Parser Tree) (n : Nat) (l : Level) :
    (Category.level l).parser inner n = Parser.level n l.signs (l.operand.parser inner n) := by
  cases l <;> rfl

/-- What `p` gives, at any cursor, is the tree of the tokens that it passes. -/
def Reads (p : Parser Tree) (C : Category) : Prop :=
  ∀ c e d, p c = .ok e d → ∃ ts k, DerivesExpression C ts e k ∧ c.Moves ts d ∧ k ≤ c.room

/-- The same for statements. No `else` is left behind that would belong to the statement. -/
def ReadsStatement (p : Parser Tree) : Prop :=
  ∀ c s d, p c = .ok s d → ∃ ts k, DerivesStatement ts s k ∧ c.Moves ts d ∧ k ≤ c.room ∧
    (s.isOpen = true → d.current.kind ≠ .elseWord)

/-- The parsers for the smaller phrases read what they should. -/
structure Sound (inner : Phrase → Parser Tree) : Prop where
  expression : Reads (inner .expression) expression
  unary : Reads (inner .unary) .unary
  power : Reads (inner .power) .exponent
  statement : ReadsStatement (inner .statement)

theorem Reads.nested {p : Parser Tree} {C : Category} (hp : Reads p C) {c d : Cursor} {e : Tree}
    (h : nested p c = .ok e d) :
    ∃ ts k, DerivesExpression C ts e k ∧ c.Moves ts d ∧ k + 1 ≤ c.room := by
  obtain ⟨hr, d', h, _, hback⟩ := nested_eq_ok h
  obtain ⟨ts, k, hts, hm, hk⟩ := hp _ _ _ h
  rw [Cursor.room_deeper] at hk
  exact ⟨ts, k, hts, hback ts hm, by omega⟩

theorem number_reads {c d : Cursor} {e : Tree} (hk : c.current.kind = .number)
    (h : number c = .ok e d) : ∃ x, e = .number x ∧ d = c.advance ∧
      DerivesExpression .primary [c.current] (.number x) 0 := by
  rw [number, bind_of_ok (peek_eq c)] at h
  cases hx : (Number.ofText? c.current.lexeme).filter Float.isFinite with
  | none =>
    simp only [hx] at h
    cases h
  | some x =>
    simp only [hx] at h
    cases h
    obtain ⟨hx, hf⟩ := Option.filter_eq_some_iff.mp hx
    exact ⟨x, rfl, rfl, .number hk hx hf⟩

variable {inner : Phrase → Parser Tree}

theorem primary_reads (hi : Sound inner) : Reads (primary inner) .primary := by
  intro c e d h
  rw [primary, bind_of_ok (peek_eq c)] at h
  cases hk : c.current.kind with
  | number =>
    simp only [hk] at h
    obtain ⟨x, rfl, rfl, hx⟩ := number_reads hk h
    exact ⟨_, 0, hx, .next hk nofun, Nat.zero_le _⟩
  | identifier =>
    simp only [hk] at h
    cases h
    exact ⟨_, 0, .var hk, .next hk nofun, Nat.zero_le _⟩
  | boolean =>
    simp only [hk] at h
    cases h
    exact ⟨_, 0, .boolean hk, .next hk nofun, Nat.zero_le _⟩
  | lparen =>
    simp only [hk] at h
    rw [bind_of_ok (advance_eq c)] at h
    obtain ⟨e', c₁, h₁, h⟩ := bind_eq_ok h
    obtain ⟨u, c₂, h₂, h⟩ := bind_eq_ok h
    cases h
    obtain ⟨ts, k, hts, hm, hle⟩ := hi.expression.nested h₁
    obtain ⟨hu, rfl, rfl⟩ := expect_eq_ok h₂
    rw [Cursor.room_advance] at hle
    exact ⟨_, k + 1, .group hk hts hu,
      (Cursor.Moves.next hk nofun).trans (hm.trans (.next hu nofun)), hle⟩
  | _ =>
    simp only [hk] at h
    cases h

theorem power_reads (hi : Sound inner) : Reads (power inner) .exponent := by
  intro c e d h
  obtain ⟨base, c₁, hbase, h₁⟩ := bind_eq_ok h
  obtain ⟨r, c₂, hsign, h₂⟩ := bind_eq_ok h₁
  obtain ⟨ts, k, hts, hm, hk⟩ := primary_reads hi _ _ _ hbase
  rcases eatSign_eq_ok hsign with ⟨s, op, hs, hop, rfl, rfl⟩ | ⟨rfl, rfl⟩
  · obtain ⟨f, c₃, hexp, h₃⟩ := bind_eq_ok h₂
    cases h₃
    obtain ⟨us, j, hus, hm', hj⟩ := hi.power.nested hexp
    rw [Cursor.room_advance, hm.room_eq] at hj
    obtain ⟨hp, rfl⟩ := lookup_powerSigns_eq_some hop
    exact ⟨_, max k (j + 1), .power hts hs hp hus,
      hm.trans ((Cursor.Moves.next hs nofun).trans hm'), Nat.max_le.mpr ⟨hk, hj⟩⟩
  · cases h₂
    exact ⟨ts, k, .base hts, hm, hk⟩

theorem unary_reads (hi : Sound inner) : Reads (Parser.unary inner) .unary := by
  intro c e d h
  obtain ⟨r, c₁, hsign, h₁⟩ := bind_eq_ok h
  rcases eatSign_eq_ok hsign with ⟨s, op, hs, hop, rfl, rfl⟩ | ⟨rfl, rfl⟩
  · obtain ⟨f, c₂, hf, h₂⟩ := bind_eq_ok h₁
    cases h₂
    obtain ⟨ts, k, hts, hm, hk⟩ := hi.unary.nested hf
    rw [lookup_unarySigns] at hop
    rw [Cursor.room_advance] at hk
    exact ⟨_, k + 1, .signed hs hop hts, (Cursor.Moves.next hs nofun).trans hm, hk⟩
  · obtain ⟨ts, k, hts, hm, hk⟩ := power_reads hi _ _ _ h₁
    exact ⟨ts, k, .unsigned hts, hm, hk⟩

/-- The loop extends the expression that was read before it by one operand after the other. -/
theorem chain_reads {l : Level} {p : Parser Tree} (hp : Reads p l.operand) {c₀ c d : Cursor}
    {us : List Token} {left e : Tree} {j n : Nat} (hus : DerivesExpression (.level l) us left j)
    (hm : c₀.Moves us c) (hj : j ≤ c₀.room) (h : chain l.signs p n left c = .ok e d) :
    ∃ ts k, DerivesExpression (.level l) ts e k ∧ c₀.Moves ts d ∧ k ≤ c₀.room := by
  induction n generalizing us left j c with
  | zero =>
    cases h
    exact ⟨us, j, hus, hm, hj⟩
  | succ n ih =>
    rw [chain] at h
    obtain ⟨r, c₁, hsign, h₁⟩ := bind_eq_ok h
    rcases eatSign_eq_ok hsign with ⟨s, op, hs, hop, rfl, rfl⟩ | ⟨rfl, rfl⟩
    · obtain ⟨f, c₂, hf, h₂⟩ := bind_eq_ok h₁
      obtain ⟨ts, k, hts, hm', hk⟩ := hp _ _ _ hf
      rw [l.lookup_signs] at hop
      rw [Cursor.room_advance, hm.room_eq] at hk
      exact ih (.chain hus hs hop hts) (hm.trans ((Cursor.Moves.next hs nofun).trans hm'))
        (Nat.max_le.mpr ⟨hj, hk⟩) h₂
    · cases h₁
      exact ⟨us, j, hus, hm, hj⟩

theorem level_reads {l : Level} {p : Parser Tree} (hp : Reads p l.operand) (n : Nat) :
    Reads (Parser.level n l.signs p) (.level l) := by
  intro c e d h
  obtain ⟨left, c₁, hleft, h₁⟩ := bind_eq_ok h
  obtain ⟨ts, k, hts, hm, hk⟩ := hp _ _ _ hleft
  exact chain_reads hp (.operand hts) hm hk h₁

theorem expression_reads (hi : Sound inner) (n : Nat) :
    Reads (Parser.expression inner n) expression := by
  have hlevel (l : Level) (h : Reads (l.operand.parser inner n) l.operand) :
      Reads ((Category.level l).parser inner n) (.level l) := by
    rw [l.parser_eq]
    exact level_reads h n
  exact hlevel .or (hlevel .and (hlevel .comparison (hlevel .sum (hlevel .product
    (unary_reads hi)))))

theorem ending_of_eat {c d : Cursor} {b : Bool} (h : eat .semicolon c = .ok b d) :
    ∃ stop, IsEnding stop ∧ c.Moves stop d := by
  by_cases hk : c.current.kind = .semicolon
  · rw [eat_of_kind hk] at h
    cases h
    exact ⟨[c.current], .inr ⟨_, hk, rfl⟩, .next hk nofun⟩
  · rw [eat_of_ne hk] at h
    cases h
    exact ⟨[], .inl rfl, .nil c⟩

theorem assignment_reads (hi : Sound inner) : ReadsStatement (assignment inner) := by
  intro c s d h
  obtain ⟨name, c₁, gname, h₁⟩ := bind_eq_ok h
  obtain ⟨u, c₂, gu, h₂⟩ := bind_eq_ok h₁
  obtain ⟨e, c₃, he, h₃⟩ := bind_eq_ok h₂
  obtain ⟨b, c₄, gstop, h₄⟩ := bind_eq_ok h₃
  cases h₄
  obtain ⟨hname, rfl, rfl⟩ := expect_eq_ok gname
  obtain ⟨hu, rfl, rfl⟩ := expect_eq_ok gu
  obtain ⟨ts, k, hts, hm, hk⟩ := hi.expression _ _ _ he
  obtain ⟨stop, hstop, hm'⟩ := ending_of_eat gstop
  rw [Cursor.room_advance, Cursor.room_advance] at hk
  refine ⟨_, k, .assign hname hu hts hstop, ?_, hk, by simp [Tree.isOpen]⟩
  exact (Cursor.Moves.next hname nofun).trans ((Cursor.Moves.next hu nofun).trans (hm.trans hm'))

/-- A conditional is derived with one level more than its parts, which are read in the room
that the level leaves. -/
theorem conditional_reads (hi : Sound inner) {c d : Cursor} {s : Tree}
    (h : conditional inner c = .ok s d) :
    ∃ ts k, DerivesStatement ts s (k + 1) ∧ c.Moves ts d ∧ k ≤ c.room ∧
      (s.isOpen = true → d.current.kind ≠ .elseWord) := by
  obtain ⟨t, c₁, gt, h₁⟩ := bind_eq_ok h
  obtain ⟨u, c₂, gu, h₂⟩ := bind_eq_ok h₁
  obtain ⟨e, c₃, he, h₃⟩ := bind_eq_ok h₂
  obtain ⟨v, c₄, gv, h₄⟩ := bind_eq_ok h₃
  obtain ⟨body, c₅, hbody, h₅⟩ := bind_eq_ok h₄
  obtain ⟨ht, rfl, rfl⟩ := expect_eq_ok gt
  obtain ⟨hu, rfl, rfl⟩ := expect_eq_ok gu
  obtain ⟨ts, k, hts, hm, hk⟩ := hi.expression _ _ _ he
  obtain ⟨hv, rfl, rfl⟩ := expect_eq_ok gv
  obtain ⟨us, j, hus, hm', hj, hopen⟩ := hi.statement _ _ _ hbody
  have hhead : c.Moves (c.current :: c.advance.current :: (ts ++ [c₃.current])) c₃.advance :=
    (Cursor.Moves.next ht nofun).trans ((Cursor.Moves.next hu nofun).trans
      (hm.trans (.next hv nofun)))
  rw [hhead.room_eq] at hj
  rw [Cursor.room_advance, Cursor.room_advance] at hk
  by_cases hw : c₅.current.kind = .elseWord
  · rw [bind_of_ok (eat_of_kind hw)] at h₅
    obtain ⟨other, c₆, hother, h₆⟩ := bind_eq_ok h₅
    cases h₆
    obtain ⟨vs, i, hvs, hm'', hi, hopen'⟩ := hi.statement _ _ _ hother
    rw [Cursor.room_advance, hm'.room_eq, hhead.room_eq] at hi
    -- An open branch would have taken the `else` itself.
    have hclosed : body.isOpen = false := by
      cases hb : body.isOpen with
      | false => rfl
      | true => exact absurd hw (hopen hb)
    refine ⟨_, _, .ifElse ht hu hts hv hus hclosed hw hvs, ?_, by omega, hopen'⟩
    simpa using hhead.trans (hm'.trans ((Cursor.Moves.next hw nofun).trans hm''))
  · rw [bind_of_ok (eat_of_ne hw)] at h₅
    cases h₅
    refine ⟨_, _, .ifThen ht hu hts hv hus, ?_, by omega, fun _ => hw⟩
    simpa using hhead.trans hm'

theorem statement_reads (hi : Sound inner) : ReadsStatement (Parser.statement inner) := by
  intro c s d h
  rw [Parser.statement, bind_of_ok (peek_eq c)] at h
  by_cases hk : c.current.kind = .ifWord
  · rw [if_pos hk] at h
    obtain ⟨hr, d', h', hcur, hback⟩ := nested_eq_ok h
    obtain ⟨ts, k, hts, hm, hk, hopen⟩ := conditional_reads hi h'
    rw [Cursor.room_deeper] at hk
    exact ⟨ts, k + 1, hts, hback ts hm, by omega, hcur ▸ hopen⟩
  · rw [if_neg hk] at h
    exact assignment_reads hi _ _ _ h

/-- No number of tokens makes the parser read anything that is not derived. -/
theorem phrase_sound (n : Nat) : Sound (phrase n) := by
  induction n with
  | zero => constructor <;> intro c e d h <;> cases h
  | succ n ih =>
    exact ⟨expression_reads ih (n + 1), unary_reads ih, power_reads ih, statement_reads ih⟩

/-- When no statement fails, all the tokens ahead are one program. -/
theorem statementsWithin_derives {n : Nat} {c : Cursor} (hn : c.ahead.length ≤ n)
    (hok : (c.statementsWithin n).1.errors = []) :
    ∃ k ≤ c.room, DerivesProgram c.ahead (c.statementsWithin n).1.statements k := by
  induction n generalizing c with
  | zero =>
    have ha : c.ahead = [] := List.length_eq_zero_iff.mp (Nat.le_zero.mp hn)
    rw [ha]
    exact ⟨0, Nat.zero_le _, .nil⟩
  | succ n ih =>
    cases ha : c.ahead with
    | nil =>
      rw [Cursor.statementsWithin_of_nil (n + 1) ha]
      exact ⟨0, Nat.zero_le _, .nil⟩
    | cons t rest =>
      rw [ha, List.length_cons] at hn
      by_cases ht : t.kind = .semicolon
      · rw [Cursor.statementsWithin_of_semicolon n ha ht] at hok ⊢
        have hrest : c.advance.ahead = rest := by rw [Cursor.advance_of_ahead ha]
        obtain ⟨k, hk, hd⟩ := ih (by rw [hrest]; omega) hok
        rw [Cursor.room_advance] at hk
        rw [hrest] at hd
        exact ⟨k, hk, .semicolon ht hd⟩
      · cases h : c.statement with
        | error e d =>
          rw [Cursor.statementsWithin_of_error n ha ht h] at hok
          cases hok
        | ok s d =>
          rw [Cursor.statementsWithin_of_ok n ha ht h] at hok ⊢
          obtain ⟨ts, k, hts, hm, hk, _⟩ := (phrase_sound _).statement _ _ _ h
          -- No statement is empty, so the bound is enough for the tokens that are left.
          obtain ⟨u, us, rfl, _⟩ := hts.first
          have hlen := hm.length_eq
          rw [ha, List.length_cons, List.length_cons] at hlen
          obtain ⟨j, hj, hd⟩ := ih (by omega) hok
          rw [hm.room_eq] at hj
          rw [← ha, hm.ahead_eq]
          exact ⟨max k j, Nat.max_le.mpr ⟨hk, hj⟩, .statement hts hd⟩

end StackLang.Grammar
