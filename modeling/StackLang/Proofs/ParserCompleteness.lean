import StackLang.Proofs.ParserSoundness

/-! What the grammar derives, the parser reads. The parser is greedy, so each statement here says
which tokens may follow the phrase: none that would extend it. -/
namespace StackLang.Grammar

open StackLang.Parser

/-- How tightly a sign binds what stands before it. The sign `!` extends nothing. -/
def tightness : Sign → Nat
  | .bang => 0
  | .orOr => 1
  | .andAnd => 2
  | .eqEq | .bangEq | .lt | .ltEq | .gt | .gtEq => 3
  | .plus | .minus => 4
  | .star | .slash | .percent => 5
  | .caret | .starStar => 7

namespace Category

/-- The least tightness of a sign that an expression of this kind takes. -/
def rank : Category → Nat
  | .level l => l.index + 1
  | .unary => 6
  | .exponent => 7
  | .primary => 8

/-- A token of this kind does not extend an expression. -/
def Stops (C : Category) (kind : Kind) : Prop := ∀ s, kind = .sign s → tightness s < C.rank

theorem stops_of_not_sign (C : Category) {kind : Kind} (h : ∀ s, kind ≠ .sign s) :
    C.Stops kind := fun s hs => absurd hs (h s)

theorem stops_primary (kind : Kind) : primary.Stops kind := by
  intro s _
  cases s <;> decide

end Category

namespace Level

variable {l : Level} {s : Sign}

theorem tightness_of_operator {op : BinaryOp} (h : l.operator? s = some op) :
    tightness s = (Category.level l).rank := by
  cases l <;> cases s <;> cases h <;> rfl

theorem rank_lt_operand (l : Level) : (Category.level l).rank < l.operand.rank := by
  cases l <;> decide

theorem stops_operand {kind : Kind} (h : (Category.level l).Stops kind) :
    l.operand.Stops kind :=
  fun s hs => Nat.lt_trans (h s hs) l.rank_lt_operand

theorem lookup_signs_of_stops {kind : Kind} (h : (Category.level l).Stops kind) (s : Sign)
    (hs : kind = .sign s) : l.signs.lookup s = none := by
  rw [l.lookup_signs]
  cases ho : l.operator? s with
  | none => rfl
  | some op => exact absurd (tightness_of_operator ho) (Nat.ne_of_lt (h s hs))

end Level

theorem lookup_powerSigns_of_stops {kind : Kind} (h : Category.exponent.Stops kind) (s : Sign)
    (hs : kind = .sign s) : powerSigns.lookup s = none := by
  have hlt := h s hs
  revert hlt
  cases s <;> decide

/-- The parser for expressions of kind `C` reads the tokens `ts` as the tree `e`. -/
def Accepts (C : Category) (ts : List Token) (e : Tree) (k : Nat) : Prop :=
  ∀ n c d, Cursor.Moves c ts d → k ≤ c.room → c.ahead.length ≤ n + 1 →
    C.Stops d.current.kind → C.parser (phrase n) (n + 1) c = .ok e d

/-- The parser of a level, once it has read `ts` as `e`, looks for the next operator. -/
def Loops (l : Level) (ts : List Token) (e : Tree) (k : Nat) : Prop :=
  ∀ n c d, Cursor.Moves c ts d → k ≤ c.room → c.ahead.length ≤ n + 1 →
    l.operand.Stops d.current.kind → ∃ m, d.ahead.length ≤ m ∧
      (Category.level l).parser (phrase n) (n + 1) c =
        chain l.signs (l.operand.parser (phrase n) (n + 1)) m e d

/-- What a derivation promises: a level may go on after its last operand, the other kinds of
expressions are complete. -/
def Parses : Category → List Token → Tree → Nat → Prop
  | .level l => Loops l
  | C => Accepts C

section Expressions

variable {C : Category} {l : Level} {t u : Token} {s : Sign} {ts us : List Token} {e f : Tree}
  {k j : Nat}

theorem chain_of_stops {p : Parser Tree} {d : Cursor} (m : Nat) (e : Tree)
    (h : (Category.level l).Stops d.current.kind) : chain l.signs p m e d = .ok e d := by
  cases m with
  | zero => rfl
  | succ m =>
    rw [chain, bind_of_ok (eatSign_of_none (Level.lookup_signs_of_stops h))]
    rfl

theorem Loops.accepts (h : Loops l ts e k) : Accepts (.level l) ts e k := by
  intro n c d hm hk hn hs
  obtain ⟨m, _, hrun⟩ := h n c d hm hk hn (Level.stops_operand hs)
  rw [hrun, chain_of_stops m e hs]

theorem Parses.accepts (h : Parses C ts e k) : Accepts C ts e k := by
  cases C with
  | level l => exact Loops.accepts h
  | _ => exact h

theorem Accepts.loops (h : Accepts l.operand ts e k) : Loops l ts e k := by
  intro n c d hm hk hn hs
  have hlen := hm.length_eq
  refine ⟨n + 1, by omega, ?_⟩
  rw [l.parser_eq, Parser.level, bind_of_ok (h n c d hm hk hn hs)]

theorem Loops.chain {op : BinaryOp} (h : Loops l ts e k) (ht : t.kind = .sign s)
    (hop : l.operator? s = some op) (hf : Accepts l.operand us f j) :
    Loops l (ts ++ t :: us) (.binary op e f) (max k j) := by
  intro n c d hm hk hn hs
  obtain ⟨hk, hj⟩ := Nat.max_le.mp hk
  obtain ⟨c₁, hm₁, hm₂⟩ := hm.split
  obtain ⟨rfl, hm₃⟩ := hm₂.uncons
  have hstop : l.operand.Stops c₁.current.kind := by
    intro s' hs'
    cases ht.symm.trans hs'
    rw [Level.tightness_of_operator hop]
    exact l.rank_lt_operand
  obtain ⟨m, hlen, hrun⟩ := h n c c₁ hm₁ hk hn hstop
  have hlen₁ := hm₁.length_eq
  have hlen₂ := hm₂.length_eq
  have hlen₃ := hm₃.length_eq
  rw [List.length_cons] at hlen₂
  -- Each operator takes one unit of the bound and at least one token.
  obtain ⟨m, rfl⟩ : ∃ i, m = i + 1 := ⟨m - 1, by omega⟩
  refine ⟨m, by omega, ?_⟩
  have hop' : l.signs.lookup s = some op := (l.lookup_signs s).trans hop
  have hright : l.operand.parser (phrase n) (n + 1) c₁.advance = .ok f d :=
    hf n _ d hm₃ (by rw [Cursor.room_advance, hm₁.room_eq]; exact hj) (by omega) hs
  rw [hrun, Parser.chain, bind_of_ok (eatSign_of_some ht hop')]
  exact bind_of_ok hright _

/-- A smaller phrase is read where one token less may be ahead. -/
theorem Accepts.phrase {p : Phrase} (h : Accepts C ts e k) (hne : ts ≠ [])
    (hp : ∀ inner n, rule inner n p = C.parser inner n) {n : Nat} {c d : Cursor}
    (hm : c.Moves ts d) (hk : k ≤ c.room) (hn : c.ahead.length ≤ n)
    (hs : C.Stops d.current.kind) : phrase n p c = .ok e d := by
  have hlen := hm.length_eq
  have hpos := List.length_pos_iff.mpr hne
  obtain ⟨n, rfl⟩ : ∃ i, n = i + 1 := ⟨n - 1, by omega⟩
  rw [Parser.phrase, hp]
  exact h n c d hm hk hn hs

theorem Accepts.nested {p : Phrase} (h : Accepts C ts e k) (hne : ts ≠ [])
    (hp : ∀ inner n, rule inner n p = C.parser inner n) {n : Nat} {c d : Cursor}
    (hm : c.Moves ts d) (hk : k + 1 ≤ c.room) (hn : c.ahead.length ≤ n)
    (hs : C.Stops d.current.kind) : nested (Parser.phrase n p) c = .ok e d := by
  refine nested_of_ok (by omega) (h.phrase hne hp hm.deeper ?_ hn hs)
  rw [Cursor.room_deeper]
  omega

theorem accepts_number {x : Float} (ht : t.kind = .number)
    (hx : Number.ofText? t.lexeme = some x) (hf : x.isFinite) :
    Accepts .primary [t] (.number x) 0 := by
  intro n c d hm _ _ _
  obtain ⟨rfl, rfl⟩ := hm.single
  have hread : (Number.ofText? c.current.lexeme).filter Float.isFinite = some x :=
    Option.filter_eq_some_iff.mpr ⟨hx, hf⟩
  change primary (Parser.phrase n) c = _
  rw [primary, bind_of_ok (peek_eq c)]
  simp only [ht]
  rw [number, bind_of_ok (peek_eq c)]
  simp only [hread]
  rfl

theorem accepts_var (ht : t.kind = .identifier) : Accepts .primary [t] (.var t.lexeme) 0 := by
  intro n c d hm _ _ _
  obtain ⟨rfl, rfl⟩ := hm.single
  change primary (Parser.phrase n) c = _
  rw [primary, bind_of_ok (peek_eq c)]
  simp only [ht]
  rfl

theorem accepts_boolean (ht : t.kind = .boolean) :
    Accepts .primary [t] (.boolean (t.lexeme = "true")) 0 := by
  intro n c d hm _ _ _
  obtain ⟨rfl, rfl⟩ := hm.single
  change primary (Parser.phrase n) c = _
  rw [primary, bind_of_ok (peek_eq c)]
  simp only [ht]
  rfl

theorem accepts_group (ht : t.kind = .lparen) (h : Accepts expression ts e k) (hne : ts ≠ [])
    (hu : u.kind = .rparen) : Accepts .primary (t :: (ts ++ [u])) e (k + 1) := by
  intro n c d hm hk hn _
  have hlen := hm.length_eq
  obtain ⟨rfl, hm'⟩ := hm.uncons
  have hlen' := hm'.length_eq
  obtain ⟨c₁, hm₁, hm₂⟩ := hm'.split
  obtain ⟨rfl, rfl⟩ := hm₂.single
  have hstop : expression.Stops c₁.current.kind :=
    Category.stops_of_not_sign _ (by rw [hu]; exact nofun)
  have hbody : Parser.nested (Parser.phrase n .expression) c.advance = .ok e c₁ :=
    h.nested hne (fun _ _ => rfl) hm₁ (by rw [Cursor.room_advance]; exact hk)
      (by rw [List.length_cons] at hlen; omega) hstop
  change primary (Parser.phrase n) c = _
  rw [primary, bind_of_ok (peek_eq c)]
  simp only [ht]
  rw [bind_of_ok (advance_eq c), bind_of_ok hbody, bind_of_ok (expect_of_kind _ hu)]
  rfl

theorem accepts_base (h : Accepts .primary ts e k) : Accepts .exponent ts e k := by
  intro n c d hm hk hn hs
  change power (Parser.phrase n) c = _
  have hbase : primary (Parser.phrase n) c = .ok e d :=
    h n c d hm hk hn (Category.stops_primary _)
  rw [power, bind_of_ok hbase, bind_of_ok (eatSign_of_none (lookup_powerSigns_of_stops hs))]
  rfl

theorem accepts_power (h : Accepts .primary ts e k) (ht : t.kind = .sign s) (hs : isPower s)
    (hf : Accepts .exponent us f j) (hne : us ≠ []) :
    Accepts .exponent (ts ++ t :: us) (.binary .pow e f) (max k (j + 1)) := by
  intro n c d hm hk hn hstop
  obtain ⟨hk, hj⟩ := Nat.max_le.mp hk
  obtain ⟨c₁, hm₁, hm₂⟩ := hm.split
  have hlen₁ := hm₁.length_eq
  have hlen₂ := hm₂.length_eq
  obtain ⟨rfl, hm₃⟩ := hm₂.uncons
  have hlen₃ := hm₃.length_eq
  have hbase : primary (Parser.phrase n) c = .ok e c₁ :=
    h n c c₁ hm₁ hk hn (Category.stops_primary _)
  have hpow : powerSigns.lookup s = some .pow := by rw [lookup_powerSigns, if_pos hs]
  have hexp : Parser.nested (Parser.phrase n .power) c₁.advance = .ok f d :=
    hf.nested hne (fun _ _ => rfl) hm₃ (by rw [Cursor.room_advance, hm₁.room_eq]; exact hj)
      (by rw [List.length_cons] at hlen₂; omega) hstop
  change power (Parser.phrase n) c = _
  rw [power, bind_of_ok hbase, bind_of_ok (eatSign_of_some ht hpow)]
  exact bind_of_ok hexp _

theorem accepts_unsigned (h : Accepts .exponent ts e k)
    (hfirst : ∃ t us, ts = t :: us ∧ ∀ s, t.kind ≠ .sign s) : Accepts .unary ts e k := by
  intro n c d hm hk hn hs
  obtain ⟨t, us, rfl, ht⟩ := hfirst
  have hcur : c.current = t := hm.uncons.1
  have hnone : eatSign unarySigns c = .ok none c :=
    eatSign_of_none (fun s hsign => absurd hsign (hcur ▸ ht s))
  change Parser.unary (Parser.phrase n) c = _
  rw [Parser.unary, bind_of_ok hnone]
  exact h n c d hm hk hn (fun s hsign => Nat.lt_succ_of_lt (hs s hsign))

theorem accepts_signed {op : UnaryOp} (ht : t.kind = .sign s) (hop : unaryOperator? s = some op)
    (h : Accepts .unary ts e k) (hne : ts ≠ []) :
    Accepts .unary (t :: ts) (.unary op e) (k + 1) := by
  intro n c d hm hk hn hs
  have hlen := hm.length_eq
  obtain ⟨rfl, hm'⟩ := hm.uncons
  have hlen' := hm'.length_eq
  have hop' : unarySigns.lookup s = some op := (lookup_unarySigns s).trans hop
  have harg : Parser.nested (Parser.phrase n .unary) c.advance = .ok e d :=
    h.nested hne (fun _ _ => rfl) hm' (by rw [Cursor.room_advance]; exact hk)
      (by rw [List.length_cons] at hlen; omega) hs
  change Parser.unary (Parser.phrase n) c = _
  rw [Parser.unary, bind_of_ok (eatSign_of_some ht hop')]
  exact bind_of_ok harg _

theorem DerivesExpression.parses (h : DerivesExpression C ts e k) : Parses C ts e k := by
  induction h with
  | number ht hx hf => exact accepts_number ht hx hf
  | var ht => exact accepts_var ht
  | boolean ht => exact accepts_boolean ht
  | group ht h hu ih => exact accepts_group ht ih.accepts h.ne_nil hu
  | base _ ih => exact accepts_base ih.accepts
  | power _ ht hs hf ih ihf => exact accepts_power ih.accepts ht hs ihf.accepts hf.ne_nil
  | unsigned h ih => exact accepts_unsigned ih.accepts h.first_not_sign
  | signed ht hop h ih => exact accepts_signed ht hop ih.accepts h.ne_nil
  | operand _ ih => exact ih.accepts.loops
  | chain _ ht hop _ ih ihf => exact Loops.chain ih ht hop ihf.accepts

theorem DerivesExpression.accepts_phrase (h : DerivesExpression expression ts e k) {n : Nat}
    {c d : Cursor} (hm : c.Moves ts d) (hk : k ≤ c.room) (hn : c.ahead.length ≤ n)
    (hs : ∀ s, d.current.kind ≠ .sign s) : phrase n .expression c = .ok e d :=
  h.parses.accepts.phrase h.ne_nil (fun _ _ => rfl) hm hk hn (Category.stops_of_not_sign _ hs)

end Expressions

/-- At `d`, and after a semicolon that stands there, nothing extends the statement `s`. -/
structure Ends (s : Tree) (d : Cursor) : Prop where
  not_sign : ∀ sign, d.current.kind ≠ .sign sign
  not_else : s.isOpen = true → ∀ stop d', IsEnding stop → d.Moves stop d' →
    d'.current.kind ≠ .elseWord

/-- The parser `p` reads the tokens `ts` as the statement `s`. It also takes a semicolon that
comes after an assignment, even one that the derivation left out. -/
def AcceptsStatement (p : (Phrase → Parser Tree) → Parser Tree) (ts : List Token) (s : Tree)
    (k : Nat) : Prop :=
  ∀ n c d, Cursor.Moves c ts d → k ≤ c.room → c.ahead.length ≤ n + 1 → Ends s d →
    ∃ stop d', IsEnding stop ∧ d.Moves stop d' ∧ p (phrase n) c = .ok s d'

section Statements

variable {t u v w : Token} {ts us vs stop : List Token} {e s r : Tree} {k j i n : Nat}
  {c d : Cursor}

theorem eat_of_ending (hstop : IsEnding stop) (hm : c.Moves stop d) :
    ∃ b stop' d', IsEnding stop' ∧ d.Moves stop' d' ∧ eat .semicolon c = .ok b d' := by
  rcases hstop with rfl | ⟨t, ht, rfl⟩
  · cases hm
    by_cases hk : c.current.kind = .semicolon
    · exact ⟨_, _, _, .inr ⟨_, hk, rfl⟩, .next hk nofun, eat_of_kind hk⟩
    · exact ⟨_, _, _, .inl rfl, .nil c, eat_of_ne hk⟩
  · obtain ⟨rfl, rfl⟩ := hm.single
    exact ⟨_, _, _, .inl rfl, .nil _, eat_of_kind ht⟩

theorem accepts_assign (ht : t.kind = .identifier) (hu : u.kind = .assign)
    (he : DerivesExpression expression ts e k) (hstop : IsEnding stop) :
    AcceptsStatement assignment (t :: u :: (ts ++ stop)) (.assign t.lexeme e) k := by
  intro n c d hm hk hn hends
  have hlen := hm.length_eq
  obtain ⟨rfl, hm₁⟩ := hm.uncons
  obtain ⟨rfl, hm₂⟩ := hm₁.uncons
  have hlen₂ := hm₂.length_eq
  obtain ⟨c₁, hts, hm₃⟩ := hm₂.split
  have hnext : ∀ s, c₁.current.kind ≠ .sign s := by
    rcases hstop with rfl | ⟨t, ht, rfl⟩
    · cases hm₃
      exact hends.not_sign
    · rw [hm₃.single.1, ht]
      exact nofun
  have hvalue : phrase n .expression c.advance.advance = .ok e c₁ := by
    refine he.accepts_phrase hts ?_ ?_ hnext
    · rw [Cursor.room_advance, Cursor.room_advance]
      exact hk
    · simp only [List.length_cons] at hlen
      omega
  obtain ⟨b, stop', d', hstop', hm', heat⟩ := eat_of_ending hstop hm₃
  refine ⟨stop', d', hstop', hm', ?_⟩
  rw [assignment, bind_of_ok (expect_of_kind _ ht), bind_of_ok (expect_of_kind _ hu),
    bind_of_ok hvalue, bind_of_ok heat]
  rfl

/-- What is left of a conditional after its condition. -/
def branches (inner : Phrase → Parser Tree) (e : Tree) : Parser Tree := do
  let s ← inner .statement
  if ← eat .elseWord then return .ifElse e s (← inner .statement)
  else return .ifThen e s

theorem conditional_of_condition (ht : t.kind = .ifWord) (hu : u.kind = .lparen)
    (he : DerivesExpression expression ts e k) (hv : v.kind = .rparen)
    (hm : c.Moves (t :: u :: (ts ++ v :: us)) d) (hk : k ≤ c.room)
    (hn : c.ahead.length ≤ n + 1) :
    ∃ c₁ : Cursor, c₁.Moves us d ∧ c₁.room = c.room ∧ c₁.ahead.length ≤ n ∧
      conditional (phrase n) c = branches (phrase n) e c₁ := by
  have hlen := hm.length_eq
  obtain ⟨rfl, hm₁⟩ := hm.uncons
  obtain ⟨rfl, hm₂⟩ := hm₁.uncons
  have hlen₂ := hm₂.length_eq
  obtain ⟨c₁, hts, hm₃⟩ := hm₂.split
  obtain ⟨rfl, hus⟩ := hm₃.uncons
  have hlen₃ := hus.length_eq
  simp only [List.length_cons, List.length_append] at hlen hlen₂
  have hroom : c₁.room = c.room := by
    rw [hts.room_eq, Cursor.room_advance, Cursor.room_advance]
  have hcond : phrase n .expression c.advance.advance = .ok e c₁ := by
    refine he.accepts_phrase hts ?_ (by omega) (by rw [hv]; exact nofun)
    rw [Cursor.room_advance, Cursor.room_advance]
    exact hk
  refine ⟨c₁.advance, hus, by rw [Cursor.room_advance, hroom], by omega, ?_⟩
  rw [conditional, bind_of_ok (expect_of_kind _ ht), bind_of_ok (expect_of_kind _ hu),
    bind_of_ok hcond, bind_of_ok (expect_of_kind _ hv)]
  rfl

theorem AcceptsStatement.phrase (h : AcceptsStatement Parser.statement ts s k) (hne : ts ≠ [])
    (hm : c.Moves ts d) (hk : k ≤ c.room) (hn : c.ahead.length ≤ n) (hends : Ends s d) :
    ∃ stop d', IsEnding stop ∧ d.Moves stop d' ∧ phrase n .statement c = .ok s d' := by
  have hlen := hm.length_eq
  have hpos := List.length_pos_iff.mpr hne
  obtain ⟨n, rfl⟩ : ∃ i, n = i + 1 := ⟨n - 1, by omega⟩
  exact h n c d hm hk hn hends

theorem accepts_ifThen (ht : t.kind = .ifWord) (hu : u.kind = .lparen)
    (he : DerivesExpression expression ts e k) (hv : v.kind = .rparen)
    (h : AcceptsStatement Parser.statement us s j) (hne : us ≠ []) :
    AcceptsStatement conditional (t :: u :: (ts ++ v :: us)) (.ifThen e s) (max k j) := by
  intro n c d hm hk hn hends
  obtain ⟨hk, hj⟩ := Nat.max_le.mp hk
  obtain ⟨c₁, hus, hroom, hlen, hrun⟩ := conditional_of_condition ht hu he hv hm hk hn
  have hbody : Ends s d := ⟨hends.not_sign, fun _ => hends.not_else rfl⟩
  obtain ⟨stop, d', hstop, hm', hs⟩ := h.phrase hne hus (hroom ▸ hj) hlen hbody
  refine ⟨stop, d', hstop, hm', ?_⟩
  have helse := hends.not_else rfl stop d' hstop hm'
  rw [hrun, branches, bind_of_ok hs, bind_of_ok (eat_of_ne helse)]
  rfl

theorem accepts_ifElse (ht : t.kind = .ifWord) (hu : u.kind = .lparen)
    (he : DerivesExpression expression ts e k) (hv : v.kind = .rparen)
    (h : AcceptsStatement Parser.statement us s j) (hne : us ≠ []) (hclosed : s.isOpen = false)
    (hw : w.kind = .elseWord) (hr : AcceptsStatement Parser.statement vs r i) (hne' : vs ≠ []) :
    AcceptsStatement conditional (t :: u :: (ts ++ v :: (us ++ w :: vs))) (.ifElse e s r)
      (max k (max j i)) := by
  intro n c d hm hk hn hends
  obtain ⟨hk, hji⟩ := Nat.max_le.mp hk
  obtain ⟨hj, hi⟩ := Nat.max_le.mp hji
  obtain ⟨c₁, hm₁, hroom, hlen, hrun⟩ := conditional_of_condition ht hu he hv hm hk hn
  obtain ⟨c₂, hus, hm₂⟩ := hm₁.split
  obtain ⟨rfl, hvs⟩ := hm₂.uncons
  have hlen₁ := hus.length_eq
  have hlen₂ := hm₂.length_eq
  have hlen₃ := hvs.length_eq
  rw [List.length_cons] at hlen₂
  have hbody : Ends s c₂ := ⟨by rw [hw]; exact nofun, fun hopen => by simp [hclosed] at hopen⟩
  obtain ⟨stop, d₁, hstop, hm₃, hs⟩ := h.phrase hne hus (hroom ▸ hj) hlen hbody
  -- The `else` comes right after the branch, so the branch took no semicolon.
  have hd₁ : d₁ = c₂ := by
    rcases hstop with rfl | ⟨t, ht, rfl⟩
    · cases hm₃
      rfl
    · rw [← hm₃.single.1, hw] at ht
      cases ht
  subst hd₁
  have hother : Ends r d := ⟨hends.not_sign, hends.not_else⟩
  have hroom₂ : i ≤ d₁.advance.room := by
    rw [Cursor.room_advance, hus.room_eq, hroom]
    exact hi
  have hn₂ : d₁.advance.ahead.length ≤ n := by omega
  obtain ⟨stop', d', hstop', hm', hr'⟩ := hr.phrase hne' hvs hroom₂ hn₂ hother
  refine ⟨stop', d', hstop', hm', ?_⟩
  rw [hrun, branches, bind_of_ok hs, bind_of_ok (eat_of_kind hw)]
  exact bind_of_ok hr' _

theorem AcceptsStatement.of_assignment (h : AcceptsStatement assignment (t :: ts) s k)
    (ht : t.kind = .identifier) : AcceptsStatement Parser.statement (t :: ts) s k := by
  intro n c d hm hk hn hends
  obtain ⟨stop, d', hstop, hm', hrun⟩ := h n c d hm hk hn hends
  refine ⟨stop, d', hstop, hm', ?_⟩
  have hne : c.current.kind ≠ .ifWord := by
    rw [hm.uncons.1, ht]
    exact nofun
  rw [Parser.statement, bind_of_ok (peek_eq c), if_neg hne]
  exact hrun

theorem AcceptsStatement.of_conditional (h : AcceptsStatement conditional (t :: ts) s k)
    (ht : t.kind = .ifWord) : AcceptsStatement Parser.statement (t :: ts) s (k + 1) := by
  intro n c d hm hk hn hends
  -- The level that is opened does not change which tokens are next.
  have hdeep : Ends s d.deeper := by
    refine ⟨hends.not_sign, ?_⟩
    intro hopen stop d' hstop hm'
    obtain ⟨d₁, rfl, hm₁⟩ := hm'.of_deeper
    exact hends.not_else hopen stop d₁ hstop hm₁
  obtain ⟨stop, d', hstop, hm', hrun⟩ :=
    h n c.deeper d.deeper hm.deeper (by rw [Cursor.room_deeper]; omega) hn hdeep
  obtain ⟨d₁, rfl, hm₁⟩ := hm'.of_deeper
  refine ⟨stop, d₁, hstop, hm₁, ?_⟩
  have hif : c.current.kind = .ifWord := by rw [hm.uncons.1, ht]
  rw [Parser.statement, bind_of_ok (peek_eq c), if_pos hif]
  exact nested_of_ok (by omega) hrun

theorem DerivesStatement.ne_nil (h : DerivesStatement ts s k) : ts ≠ [] := by
  obtain ⟨t, us, rfl, _⟩ := h.first
  exact List.cons_ne_nil t us

theorem DerivesStatement.accepts (h : DerivesStatement ts s k) :
    AcceptsStatement Parser.statement ts s k := by
  induction h with
  | assign ht hu he hstop => exact (accepts_assign ht hu he hstop).of_assignment ht
  | ifThen ht hu he hv h ih => exact (accepts_ifThen ht hu he hv ih h.ne_nil).of_conditional ht
  | ifElse ht hu he hv h hclosed hw hr ih ihr =>
    exact (accepts_ifElse ht hu he hv ih h.ne_nil hclosed hw ihr hr.ne_nil).of_conditional ht

end Statements

theorem not_extending {kind : Kind}
    (h : kind = .endMark ∨ kind = .semicolon ∨ kind.startsStatement = true) :
    (∀ s, kind ≠ .sign s) ∧ kind ≠ .elseWord := by
  cases kind <;> simp [Kind.startsStatement] at h ⊢

namespace DerivesProgram

variable {ts stop : List Token} {ss : List Tree} {k : Nat} {c d : Cursor}

theorem eq_nil (h : DerivesProgram [] ss k) : ss = [] := by
  generalize hts : ([] : List Token) = ts at h
  cases h with
  | nil => rfl
  | semicolon => cases hts
  | statement hs =>
    obtain ⟨t, us, rfl, _⟩ := hs.first
    cases hts

/-- A semicolon in front of a program can be dropped. -/
theorem of_semicolon {t : Token} (h : DerivesProgram (t :: ts) ss k) (ht : t.kind = .semicolon) :
    DerivesProgram ts ss k := by
  generalize hts : t :: ts = us at h
  cases h with
  | nil => cases hts
  | semicolon _ h =>
    cases hts
    exact h
  | statement hs =>
    obtain ⟨u, us, rfl, hu⟩ := hs.first
    cases hts
    rw [ht] at hu
    cases hu

theorem after_ending (h : DerivesProgram c.ahead ss k) (hstop : IsEnding stop)
    (hm : c.Moves stop d) : DerivesProgram d.ahead ss k := by
  rw [hm.ahead_eq] at h
  rcases hstop with rfl | ⟨t, ht, rfl⟩
  · exact h
  · exact h.of_semicolon ht

/-- No program starts with a token that would extend the statement before it. -/
theorem current (h : DerivesProgram c.ahead ss k) :
    (∀ s, c.current.kind ≠ .sign s) ∧ c.current.kind ≠ .elseWord := by
  apply not_extending
  generalize ha : c.ahead = ts at h
  cases h with
  | nil => exact .inl (by simp only [Cursor.current, ha]; rfl)
  | semicolon ht _ => exact .inr (.inl (by rw [Cursor.current_of_ahead ha, ht]))
  | statement hs _ =>
    obtain ⟨t, us, rfl, ht⟩ := hs.first
    exact .inr (.inr (by rw [Cursor.current_of_ahead ha, ht]))

/-- The parser reads a whole program and reports nothing. -/
theorem statementsWithin {n : Nat} (h : DerivesProgram c.ahead ss k) (hk : k ≤ c.room)
    (hn : c.ahead.length ≤ n) : (c.statementsWithin n).1 = ⟨ss, []⟩ := by
  induction n generalizing c ss k with
  | zero =>
    rw [List.length_eq_zero_iff.mp (Nat.le_zero.mp hn)] at h
    rw [h.eq_nil]
    rfl
  | succ n ih =>
    generalize ha : c.ahead = ts at h
    cases h with
    | nil => rw [Cursor.statementsWithin_of_nil (n + 1) ha]
    | semicolon ht h =>
      have hrest := congrArg Cursor.ahead (Cursor.advance_of_ahead ha)
      rw [Cursor.statementsWithin_of_semicolon n ha ht]
      refine ih (by rw [hrest]; exact h) (by rw [Cursor.room_advance]; exact hk) ?_
      rw [ha, List.length_cons] at hn
      rw [hrest]
      exact Nat.le_of_succ_le_succ hn
    | @statement _ _ s _ _ _ hs h =>
      obtain ⟨hk, hj⟩ := Nat.max_le.mp hk
      obtain ⟨d, hm, rfl⟩ := Cursor.Moves.of_ahead ha
      -- What follows is a program, and no program starts with a sign or an `else`.
      have hends : Ends s d :=
        ⟨h.current.1, fun _ _ _ hstop hm => (h.after_ending hstop hm).current.2⟩
      obtain ⟨stop, d', hstop, hm', hok⟩ :=
        hs.accepts.phrase hs.ne_nil hm hk (Nat.le_refl _) hends
      obtain ⟨t, us, rfl, ht⟩ := hs.first
      have hlen := hm.length_eq
      have hlen' := hm'.length_eq
      rw [List.length_cons] at hlen
      have hsemi : t.kind ≠ .semicolon := fun hk => by
        rw [hk] at ht
        cases ht
      have hrest := ih (h.after_ending hstop hm')
        (by rw [hm'.room_eq, hm.room_eq]; exact hj) (by omega)
      rw [Cursor.statementsWithin_of_ok n ha hsemi hok, hrest]

end DerivesProgram

/-- An end mark that can only come last closes what the cursor sees. -/
theorem takeWhile_eq_filter {tokens : List Token}
    (h : ∀ t ∈ tokens.dropLast, t.kind ≠ .endMark) :
    tokens.takeWhile (·.kind ≠ .endMark) = tokens.filter (·.kind ≠ .endMark) := by
  induction tokens with
  | nil => rfl
  | cons t ts ih =>
    cases ts with
    | nil => by_cases ht : t.kind = .endMark <;> simp [ht]
    | cons u us =>
      have ht : t.kind ≠ .endMark := h t (by simp)
      have hrest := ih fun v hv => h v (by simp [hv])
      rw [List.takeWhile_cons_of_pos (by simpa using ht),
        List.filter_cons_of_pos (by simpa using ht), hrest]

/-- The parser accepts exactly the programs of the grammar whose nesting is within the limit, and
gives the trees that they derive. -/
theorem parse_iff_derives (limit : Nat) {tokens : List Token} (ss : List Tree)
    (h : ∀ t ∈ tokens.dropLast, t.kind ≠ .endMark) :
    parse limit tokens = ⟨ss, []⟩ ↔
      ∃ k ≤ limit, DerivesProgram (tokens.filter (·.kind ≠ .endMark)) ss k := by
  have ha : (Cursor.ofTokens limit tokens).ahead = tokens.filter (·.kind ≠ .endMark) :=
    takeWhile_eq_filter h
  have hroom : (Cursor.ofTokens limit tokens).room = limit := rfl
  rw [← ha]
  constructor
  · intro hp
    have hd : ∃ k ≤ limit, DerivesProgram (Cursor.ofTokens limit tokens).ahead
        (parse limit tokens).statements k :=
      statementsWithin_derives (Nat.le_refl _) (congrArg Outcome.errors hp)
    rw [hp] at hd
    exact hd
  · rintro ⟨k, hk, hd⟩
    exact hd.statementsWithin (hroom ▸ hk) (Nat.le_refl _)

/-- The tokens of `x = -y ^ z if (x) w = true; else x = w`, with an end mark. -/
def negatedPower : List Token :=
  [(.identifier, "x"), (.assign, "="), (.sign .minus, "-"), (.identifier, "y"),
    (.sign .caret, "^"), (.identifier, "z"), (.ifWord, "if"), (.lparen, "("), (.identifier, "x"),
    (.rparen, ")"), (.identifier, "w"), (.assign, "="), (.boolean, "true"), (.semicolon, ";"),
    (.elseWord, "else"), (.identifier, "x"), (.assign, "="), (.identifier, "w"),
    (.endMark, "")].map fun (kind, lexeme) => ⟨kind, lexeme, ⟨⟨0, 0⟩, 1, 1⟩⟩

def negatedPowerTrees : List Tree :=
  [.assign "x" (.unary .neg (.binary .pow (.var "y") (.var "z"))),
    .ifElse (.var "x") (.assign "w" (.boolean true)) (.assign "x" (.var "w"))]

/-- The power is inside the negation, so two levels are needed and two are enough. -/
theorem negatedPower_derives_within :
    (∀ t ∈ negatedPower.dropLast, t.kind ≠ .endMark) ∧
      (∃ k ≤ 2, DerivesProgram (negatedPower.filter (·.kind ≠ .endMark)) negatedPowerTrees k) ∧
      ¬ ∃ k ≤ 1, DerivesProgram (negatedPower.filter (·.kind ≠ .endMark)) negatedPowerTrees k := by
  have hmark : ∀ t ∈ negatedPower.dropLast, t.kind ≠ .endMark := by decide
  refine ⟨hmark, (parse_iff_derives 2 negatedPowerTrees hmark).mp rfl, ?_⟩
  intro hd
  have hp := (parse_iff_derives 1 negatedPowerTrees hmark).mpr hd
  exact absurd (congrArg (fun o => o.errors.length) hp) (by decide)

end StackLang.Grammar
