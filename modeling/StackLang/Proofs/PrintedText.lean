import StackLang.Proofs.ParserCompleteness
import StackLang.Proofs.ScanText

namespace StackLang

namespace Tree

mutual

/-- The number of steps from a tree down to its farthest leaf. -/
def height : Tree → Nat
  | number _ | var _ | boolean _ => 0
  | unary _ e | assign _ e => e.height + 1
  | binary _ l r => max l.height r.height + 1
  | ifThen c s => max c.height s.height + 1
  | ifElse c s t => max c.height (max s.height t.height) + 1
  | program ss => heights ss

def heights : List Tree → Nat
  | [] => 0
  | s :: ss => max (s.height + 1) (heights ss)

end

end Tree

namespace Grammar

def unarySign : UnaryOp → Sign
  | .neg => .minus
  | .not => .bang

def binarySign : BinaryOp → Sign
  | .add => .plus
  | .sub => .minus
  | .mul => .star
  | .div => .slash
  | .mod => .percent
  | .pow => .caret
  | .eq => .eqEq
  | .ne => .bangEq
  | .lt => .lt
  | .le => .ltEq
  | .gt => .gt
  | .ge => .gtEq
  | .and => .andAnd
  | .or => .orOr

theorem unaryOperator?_unarySign (op : UnaryOp) : unaryOperator? (unarySign op) = some op := by
  cases op <;> rfl

/-- Every operator but the power belongs to a level. -/
theorem exists_level {op : BinaryOp} (h : op ≠ .pow) :
    ∃ l : Level, l.operator? (binarySign op) = some op := by
  cases op with
  | pow => exact absurd rfl h
  | or => exact ⟨.or, rfl⟩
  | and => exact ⟨.and, rfl⟩
  | eq | ne | lt | le | gt | ge => exact ⟨.comparison, rfl⟩
  | add | sub => exact ⟨.sum, rfl⟩
  | mul | div | mod => exact ⟨.product, rfl⟩

namespace DerivesExpression

variable {C : Category} {l : Level} {ts us : List Token} {e f : Tree} {k j : Nat}

theorem of_level (h : DerivesExpression (.level l) ts e k) :
    DerivesExpression expression ts e k := by
  cases l with
  | or => exact h
  | and => exact .operand h
  | comparison => exact .operand (.operand h)
  | sum => exact .operand (.operand (.operand h))
  | product => exact .operand (.operand (.operand (.operand h)))

theorem of_primary (h : DerivesExpression .primary ts e k) (C : Category) :
    DerivesExpression C ts e k := by
  have hunary : DerivesExpression .unary ts e k := .unsigned (.base h)
  have hproduct : DerivesExpression (.level .product) ts e k := .operand hunary
  have hsum : DerivesExpression (.level .sum) ts e k := .operand hproduct
  have hcomparison : DerivesExpression (.level .comparison) ts e k := .operand hsum
  have hand : DerivesExpression (.level .and) ts e k := .operand hcomparison
  cases C with
  | primary => exact h
  | exponent => exact .base h
  | unary => exact hunary
  | level l =>
    cases l with
    | or => exact .operand hand
    | and => exact hand
    | comparison => exact hcomparison
    | sum => exact hsum
    | product => exact hproduct

/-- Two parenthesised operands with any operator between them. -/
theorem binary {t : Token} {op : BinaryOp} (hl : DerivesExpression .primary ts e k)
    (ht : t.kind = .sign (binarySign op)) (hr : DerivesExpression .primary us f j) :
    ∃ i ≤ max k (j + 1),
      DerivesExpression expression (ts ++ t :: us) (.binary op e f) i := by
  by_cases hop : op = .pow
  · subst hop
    have hpow : DerivesExpression .exponent (ts ++ t :: us) (.binary .pow e f) (max k (j + 1)) :=
      .power hl ht rfl (.base hr)
    have hproduct : DerivesExpression (.level .product) (ts ++ t :: us) (.binary .pow e f)
        (max k (j + 1)) := .operand (.unsigned hpow)
    exact ⟨_, Nat.le_refl _, hproduct.of_level⟩
  · obtain ⟨l, hl'⟩ := exists_level hop
    have hchain : DerivesExpression (.level l) (ts ++ t :: us) (.binary op e f) (max k j) :=
      .chain (hl.of_primary _) ht hl' (hr.of_primary _)
    exact ⟨_, by omega, hchain.of_level⟩

end DerivesExpression

end Grammar

namespace Tree

open Scan Grammar

section Layout

variable (rest : List Char)

theorem toList_unary (op : UnaryOp) (e : Tree) : (unary op e).text.toList ++ rest =
    '(' :: (op.symbol.toList ++ (e.text.toList ++ ')' :: rest)) := by
  rw [text]
  simp [toString]

theorem toList_binary (op : BinaryOp) (l r : Tree) : (binary op l r).text.toList ++ rest =
    '(' :: (l.text.toList ++
      ' ' :: (op.symbol.toList ++ ' ' :: (r.text.toList ++ ')' :: rest))) := by
  rw [text]
  simp [toString]

theorem toList_assign (x : String) (e : Tree) : (assign x e).text.toList ++ rest =
    x.toList ++ ' ' :: '=' :: ' ' :: (e.text.toList ++ ';' :: rest) := by
  rw [text]
  simp [toString]

theorem toList_ifThen (c s : Tree) : (ifThen c s).text.toList ++ rest =
    'i' :: 'f' :: ' ' :: '(' :: (c.text.toList ++ ')' :: ' ' :: (s.text.toList ++ rest)) := by
  rw [text]
  simp [toString]

theorem toList_ifElse (c s t : Tree) : (ifElse c s t).text.toList ++ rest =
    'i' :: 'f' :: ' ' :: '(' :: (c.text.toList ++ ')' :: ' ' :: (s.text.toList ++
      ' ' :: 'e' :: 'l' :: 's' :: 'e' :: ' ' :: (t.text.toList ++ rest))) := by
  rw [text]
  simp [toString]

end Layout

section Words

variable (p : Position) {rest : List Char}

theorem run_name {x : String} (hx : IsName x) (hrest : Lexeme.Breaks rest) :
    ∃ t q, t.kind = .identifier ∧ t.lexeme = x ∧
      run p 0 (x.toList ++ rest) = push t (run q 0 rest) := by
  obtain ⟨c, cs, hshape, hc, hcs⟩ := hx.shape
  have hkind : Lexeme.wordKind (c :: cs) = .identifier := by
    obtain ⟨hif, helse, htrue, hfalse⟩ := hx.not_reserved
    have hne {y : String} (hy : x ≠ y) : c :: cs ≠ y.toList := by
      rw [← hshape]
      exact fun h => hy (String.toList_inj.mp h)
    rw [Lexeme.wordKind, if_neg (hne hif), if_neg (hne helse),
      if_neg (not_or.mpr ⟨hne htrue, hne hfalse⟩)]
  obtain ⟨t, q, ht, hlex, hrun⟩ := run_token p (Lexeme.start_word hc hcs hrest)
  refine ⟨t, q, ht.trans hkind, ?_, ?_⟩
  · rw [hlex, ← hshape, String.ofList_toList]
  · rw [hshape]
    exact hrun

theorem run_boolean (b : Bool) (hrest : Lexeme.Breaks rest) :
    ∃ t q, t.kind = .boolean ∧ t.lexeme = boolText b ∧
      run p 0 ((boolText b).toList ++ rest) = push t (run q 0 rest) := by
  cases b with
  | true =>
    have hstart : Lexeme.start 't' (['r', 'u', 'e'] ++ rest) = .token .boolean 4 :=
      Lexeme.start_word rfl (List.all_eq_true.mp rfl) hrest
    exact run_token p hstart
  | false =>
    have hstart : Lexeme.start 'f' (['a', 'l', 's', 'e'] ++ rest) = .token .boolean 5 :=
      Lexeme.start_word rfl (List.all_eq_true.mp rfl) hrest
    exact run_token p hstart

theorem run_number {x : Float} (hx : IsLiteral x) (hrest : Lexeme.Breaks rest) :
    ∃ t q, t.kind = .number ∧ t.lexeme = Number.text x ∧
      run p 0 ((Number.text x).toList ++ rest) = push t (run q 0 rest) := by
  have hnum := Number.isNumeral_text hx
  obtain ⟨c, cs, hcs, _⟩ := hnum.first
  rw [hcs] at hnum
  obtain ⟨t, q, ht, hlex, hrun⟩ := run_token p (Lexeme.start_number hnum hrest)
  refine ⟨t, q, ht, ?_, ?_⟩
  · rw [hlex, ← hcs, String.ofList_toList]
  · rw [hcs]
    exact hrun

theorem run_unary (op : UnaryOp) (hrest : ∃ c cs, rest = c :: cs ∧ c ≠ '=') :
    ∃ t q, t.kind = .sign (unarySign op) ∧
      run p 0 (op.symbol.toList ++ rest) = push t (run q 0 rest) := by
  obtain ⟨c, cs, rfl, hc⟩ := hrest
  cases op with
  | neg => exact run_symbol p rfl
  | not => exact run_symbol p (Lexeme.start_bang hc cs)

theorem run_binary (op : BinaryOp) (rest : List Char) :
    ∃ t q, t.kind = .sign (binarySign op) ∧
      run p 0 (' ' :: (op.symbol.toList ++ ' ' :: rest)) = push t (run q 0 rest) := by
  have hstart : ∃ d ds, op.symbol.toList = d :: ds ∧ Lexeme.start d (ds ++ ' ' :: rest) =
      .token (.sign (binarySign op)) (ds.length + 1) := by
    cases op <;> exact ⟨_, _, rfl, rfl⟩
  obtain ⟨d, ds, hsym, hstart⟩ := hstart
  obtain ⟨t, q, ht, _, hrun⟩ := run_token (p.advance ' ') hstart
  refine ⟨t, q.advance ' ', ht, ?_⟩
  rw [run_blank p rfl, hsym, List.cons_append, hrun, run_blank q rfl]

theorem run_lparen (rest : List Char) :
    ∃ t q, t.kind = .lparen ∧ run p 0 ('(' :: rest) = push t (run q 0 rest) := run_symbol p rfl

theorem run_rparen (rest : List Char) :
    ∃ t q, t.kind = .rparen ∧ run p 0 (')' :: rest) = push t (run q 0 rest) := run_symbol p rfl

end Words

/-- No expression starts with a sign that could merge with an operator before it. -/
theorem IsWritten.first {e : Tree} (h : e.IsWritten) :
    ∃ c cs, e.text.toList = c :: cs ∧ c ≠ '=' := by
  cases h with
  | number hx =>
    obtain ⟨c, cs, hcs, hc⟩ := (Number.isNumeral_text hx).first
    rw [text]
    exact ⟨c, cs, hcs, Number.ne_of_isDigit hc rfl⟩
  | var hx =>
    obtain ⟨c, cs, hcs, hc, _⟩ := hx.shape
    rw [text]
    refine ⟨c, cs, hcs, ?_⟩
    rintro rfl
    cases hc
  | boolean b => cases b <;> exact ⟨_, _, rfl, by decide⟩
  | unary op =>
    have htext := toList_unary [] op ‹Tree›
    rw [List.append_nil] at htext
    exact ⟨_, _, htext, by decide⟩
  | @binary op l r =>
    have htext := toList_binary [] op l r
    rw [List.append_nil] at htext
    exact ⟨_, _, htext, by decide⟩

/-- The text of an expression scans as tokens that derive it. Each step down the tree opens at
most two levels: its parentheses, and a sign or an exponent inside them. -/
theorem IsWritten.gives {e : Tree} (h : e.IsWritten) {rest : List Char}
    (hrest : Lexeme.Breaks rest) : Gives (e.text.toList ++ rest) rest fun ts =>
      ∃ k ≤ 2 * e.height, DerivesExpression .primary ts e k := by
  induction h generalizing rest with
  | number hx =>
    intro p
    rw [text]
    obtain ⟨t, q, ht, hlex, hrun⟩ := run_number p hx hrest
    have hread := Number.ofText?_text hx
    rw [← hlex] at hread
    exact ⟨[t], q, ⟨0, Nat.zero_le _, .number ht hread hx.finite⟩, hrun⟩
  | var hx =>
    intro p
    rw [text]
    obtain ⟨t, q, ht, rfl, hrun⟩ := run_name p hx hrest
    exact ⟨[t], q, ⟨0, Nat.zero_le _, .var ht⟩, hrun⟩
  | boolean b =>
    intro p
    rw [text]
    obtain ⟨t, q, ht, hlex, hrun⟩ := run_boolean p b hrest
    have hvalue : decide (t.lexeme = "true") = b := by
      rw [hlex]
      cases b <;> decide
    have hd := DerivesExpression.boolean ht
    rw [hvalue] at hd
    exact ⟨[t], q, ⟨0, Nat.zero_le _, hd⟩, hrun⟩
  | @unary op e he ih =>
    intro p
    have hclose : Lexeme.Breaks (')' :: rest) := Lexeme.breaks_cons rest rfl (by decide)
    -- With a `=` after it, the sign `!` would be another sign.
    have hfirst : ∃ c cs, e.text.toList ++ ')' :: rest = c :: cs ∧ c ≠ '=' := by
      obtain ⟨c, cs, hcs, hc⟩ := he.first
      exact ⟨c, cs ++ ')' :: rest, by rw [hcs, List.cons_append], hc⟩
    obtain ⟨t, p₁, ht, h₁⟩ := run_lparen p (op.symbol.toList ++ (e.text.toList ++ ')' :: rest))
    obtain ⟨u, p₂, hu, h₂⟩ := run_unary p₁ op hfirst
    obtain ⟨ts, p₃, ⟨k, hk, hts⟩, h₃⟩ := ih hclose p₂
    obtain ⟨v, p₄, hv, h₄⟩ := run_rparen p₃ rest
    have hsigned : DerivesExpression .unary (u :: ts) (.unary op e) (k + 1) :=
      .signed hu (unaryOperator?_unarySign op) (hts.of_primary .unary)
    have hproduct : DerivesExpression (.level .product) (u :: ts) (.unary op e) (k + 1) :=
      .operand hsigned
    refine ⟨t :: (u :: ts ++ [v]), p₄, ⟨k + 1 + 1, ?_, .group ht hproduct.of_level hv⟩, ?_⟩
    · rw [height]
      omega
    · rw [toList_unary, h₁, h₂, h₃, h₄, prepend_cons, prepend_append]
      rfl
  | @binary op l r _ _ ihl ihr =>
    intro p
    have hclose : Lexeme.Breaks (')' :: rest) := Lexeme.breaks_cons rest rfl (by decide)
    have hblank : Lexeme.Breaks
        (' ' :: (op.symbol.toList ++ ' ' :: (r.text.toList ++ ')' :: rest))) :=
      Lexeme.breaks_cons _ rfl (by decide)
    obtain ⟨t, p₁, ht, h₁⟩ := run_lparen p (l.text.toList ++
      ' ' :: (op.symbol.toList ++ ' ' :: (r.text.toList ++ ')' :: rest)))
    obtain ⟨ts, p₂, ⟨k, hk, hts⟩, h₂⟩ := ihl hblank p₁
    obtain ⟨u, p₃, hu, h₃⟩ := run_binary p₂ op (r.text.toList ++ ')' :: rest)
    obtain ⟨us, p₄, ⟨j, hj, hus⟩, h₄⟩ := ihr hclose p₃
    obtain ⟨v, p₅, hv, h₅⟩ := run_rparen p₄ rest
    obtain ⟨i, hi, hbin⟩ := hts.binary hu hus
    refine ⟨t :: (ts ++ u :: us ++ [v]), p₅, ⟨i + 1, ?_, .group ht hbin hv⟩, ?_⟩
    · rw [height]
      omega
    · rw [toList_binary, h₁, h₂, h₃, h₄, h₅, prepend_cons, prepend_append, prepend_append,
        prepend_cons]
      rfl

/-- The part of a conditional before its first branch. -/
theorem IsWritten.run_condition {c : Tree} (h : c.IsWritten) (p : Position) (rest : List Char) :
    ∃ t u ts v q k, t.kind = .ifWord ∧ u.kind = .lparen ∧ k ≤ 2 * c.height ∧
      DerivesExpression expression ts c k ∧ v.kind = .rparen ∧
        run p 0 ('i' :: 'f' :: ' ' :: '(' :: (c.text.toList ++ ')' :: ' ' :: rest)) =
          prepend (t :: u :: (ts ++ [v])) (run q 0 rest) := by
  have hclose : Lexeme.Breaks (')' :: ' ' :: rest) := Lexeme.breaks_cons _ rfl (by decide)
  have hif : Lexeme.start 'i' (['f'] ++ ' ' :: '(' :: (c.text.toList ++ ')' :: ' ' :: rest)) =
      .token .ifWord 2 := rfl
  obtain ⟨t, p₁, ht, _, h₁⟩ := run_token p hif
  obtain ⟨u, p₂, hu, h₂⟩ := run_lparen (p₁.advance ' ') (c.text.toList ++ ')' :: ' ' :: rest)
  obtain ⟨ts, p₃, ⟨k, hk, hts⟩, h₃⟩ := h.gives hclose p₂
  obtain ⟨v, p₄, hv, h₄⟩ := run_rparen p₃ (' ' :: rest)
  refine ⟨t, u, ts, v, p₄.advance ' ', k, ht, hu, hk, hts.of_primary _, hv, ?_⟩
  refine h₁.trans ?_
  rw [run_blank p₁ rfl, h₂, h₃, h₄, run_blank p₄ rfl, prepend_cons, prepend_cons, prepend_append]
  rfl

/-- The text of a statement scans as tokens that derive it, whatever follows: a statement ends
with a semicolon. -/
theorem ParserShaped.gives {s : Tree} (h : s.ParserShaped) (rest : List Char) :
    Gives (s.text.toList ++ rest) rest fun ts => ∃ k ≤ 2 * s.height, DerivesStatement ts s k := by
  induction h generalizing rest with
  | @assign x e hx he =>
    intro p
    have hblank : Lexeme.Breaks (' ' :: '=' :: ' ' :: (e.text.toList ++ ';' :: rest)) :=
      Lexeme.breaks_cons _ rfl (by decide)
    have hstop : Lexeme.Breaks (';' :: rest) := Lexeme.breaks_cons rest rfl (by decide)
    have heq : Lexeme.start '=' (' ' :: (e.text.toList ++ ';' :: rest)) = .token .assign 1 := rfl
    have hsemi : Lexeme.start ';' rest = .token .semicolon 1 := rfl
    obtain ⟨t, p₁, ht, rfl, h₁⟩ := run_name p hx hblank
    obtain ⟨u, p₂, hu, h₂⟩ := run_symbol (p₁.advance ' ') heq
    obtain ⟨ts, p₃, ⟨k, hk, hts⟩, h₃⟩ := he.gives hstop (p₂.advance ' ')
    obtain ⟨v, p₄, hv, h₄⟩ := run_symbol p₃ hsemi
    refine ⟨t :: u :: (ts ++ [v]), p₄,
      ⟨k, ?_, .assign ht hu (hts.of_primary _) (.inr ⟨v, hv, rfl⟩)⟩, ?_⟩
    · rw [height]
      omega
    · rw [toList_assign, h₁, run_blank p₁ rfl, h₂, run_blank p₂ rfl, h₃, h₄, prepend_cons,
        prepend_cons, prepend_append]
      rfl
  | @ifThen c s hc _ ih =>
    intro p
    obtain ⟨t, u, ts, v, p₁, k, ht, hu, hk, hts, hv, h₁⟩ :=
      hc.run_condition p (s.text.toList ++ rest)
    obtain ⟨us, p₂, ⟨j, hj, hus⟩, h₂⟩ := ih rest p₁
    refine ⟨t :: u :: (ts ++ v :: us), p₂, ⟨max k j + 1, ?_, .ifThen ht hu hts hv hus⟩, ?_⟩
    · rw [height]
      omega
    · rw [toList_ifThen, h₁, h₂, ← prepend_append]
      simp
  | @ifElse c s r hc _ hclosed _ ih ihr =>
    intro p
    obtain ⟨t, u, ts, v, p₁, k, ht, hu, hk, hts, hv, h₁⟩ := hc.run_condition p (s.text.toList ++
      ' ' :: 'e' :: 'l' :: 's' :: 'e' :: ' ' :: (r.text.toList ++ rest))
    obtain ⟨us, p₂, ⟨j, hj, hus⟩, h₂⟩ :=
      ih (' ' :: 'e' :: 'l' :: 's' :: 'e' :: ' ' :: (r.text.toList ++ rest)) p₁
    have helse : Lexeme.start 'e' (['l', 's', 'e'] ++ ' ' :: (r.text.toList ++ rest)) =
        .token .elseWord 4 := rfl
    obtain ⟨w, p₃, hw, _, h₃⟩ := run_token (p₂.advance ' ') helse
    obtain ⟨vs, p₄, ⟨i, hi, hvs⟩, h₄⟩ := ihr rest (p₃.advance ' ')
    refine ⟨t :: u :: (ts ++ v :: (us ++ w :: vs)), p₄, ⟨max k (max j i) + 1, ?_,
      .ifElse ht hu hts hv hus hclosed hw hvs⟩, ?_⟩
    · rw [height]
      omega
    · simp only [List.cons_append, List.nil_append] at h₃
      rw [toList_ifElse, h₁, h₂, run_blank p₂ rfl, h₃, run_blank p₃ rfl, h₄, ← prepend_cons,
        ← prepend_append, ← prepend_append]
      simp

/-- A line break is all that stands between two statements. -/
theorem gives_program {ss : List Tree} (hs : ∀ s ∈ ss, s.ParserShaped) {limit : Nat}
    (hl : ∀ s ∈ ss, 2 * s.height ≤ limit) :
    Gives (program ss).text.toList [] fun ts => ∃ k ≤ limit, DerivesProgram ts ss k := by
  rw [text]
  induction ss with
  | nil => exact fun p => ⟨[], p, ⟨0, Nat.zero_le _, .nil⟩, rfl⟩
  | cons s ss ih =>
    intro p
    have hhead := hs s List.mem_cons_self
    have hlimit := hl s List.mem_cons_self
    have htail := ih (fun s h => hs s (List.mem_cons_of_mem _ h))
      (fun s h => hl s (List.mem_cons_of_mem _ h))
    cases ss with
    | nil =>
      -- No line break comes after the last statement.
      obtain ⟨ts, q, ⟨k, hk, hts⟩, hrun⟩ := hhead.gives [] p
      refine ⟨ts ++ [], q, ⟨max k 0, by omega, .statement hts .nil⟩, ?_⟩
      rw [texts, texts, String.intercalate_singleton, List.append_nil]
      rwa [List.append_nil] at hrun
    | cons r ss =>
      obtain ⟨ts, p₁, ⟨k, hk, hts⟩, h₁⟩ :=
        hhead.gives ('\n' :: ("\n".intercalate (texts (r :: ss))).toList) p
      obtain ⟨us, p₂, ⟨j, hj, hus⟩, h₂⟩ := htail (p₁.advance '\n')
      refine ⟨ts ++ us, p₂, ⟨max k j, by omega, .statement hts hus⟩, ?_⟩
      have htext : ("\n".intercalate (texts (s :: r :: ss))).toList = s.text.toList ++
          '\n' :: ("\n".intercalate (texts (r :: ss))).toList := by
        rw [texts, texts, String.intercalate_cons_cons]
        simp
      rw [htext, h₁, run_blank p₁ rfl, h₂, prepend_append]

end Tree

/-- Statements that source text can hold are what their text is read as. -/
theorem parse_text_program {ss : List Tree} (hs : ∀ s ∈ ss, s.ParserShaped) {limit : Nat}
    (hl : ∀ s ∈ ss, 2 * s.height ≤ limit) :
    ∃ tokens, tokenize (Tree.program ss).text = .ok tokens ∧ parse limit tokens = ⟨ss, []⟩ := by
  obtain ⟨ts, q, ⟨k, hk, hd⟩, hrun⟩ := Tree.gives_program hs hl .start
  have hscan : scan (Tree.program ss).text = ⟨ts ++ [], .ok (.endMark (q.place []))⟩ := hrun
  refine ⟨ts ++ [.endMark (q.place [])], ?_, ?_⟩
  · simp only [tokenize, hscan, List.append_nil]
    rfl
  · have ha : (Cursor.ofTokens limit (ts ++ [.endMark (q.place [])])).ahead = ts := by
      refine (List.takeWhile_append_of_pos fun t ht => ?_).trans (List.append_nil ts)
      exact decide_eq_true (hd.not_endMark t ht)
    rw [← ha] at hd
    exact hd.statementsWithin hk (Nat.le_refl _)

/-- A conditional whose `else` branch is open, after an assignment with a power of a power. -/
def openAlternative : List Tree :=
  [.assign "x1" (.binary .pow (.number 0.1)
      (.binary .pow (.unary .not (.boolean true)) (.number 2))),
    .ifElse (.binary .le (.unary .neg (.var "x1")) (.var "y_"))
      (.assign "y_" (.var "x1")) (.ifThen (.var "x1") (.assign "y_" (.number 0)))]

theorem openAlternative_parserShaped : ∀ s ∈ openAlternative, s.ParserShaped := by
  have hx : IsName "x1" := ⟨⟨'x', ['1'], rfl, rfl, List.all_eq_true.mp rfl⟩, by decide⟩
  have hy : IsName "y_" := ⟨⟨'y', ['_'], rfl, rfl, List.all_eq_true.mp rfl⟩, by decide⟩
  have hzero : IsLiteral 0 := ⟨by decide +kernel, by decide +kernel⟩
  have htenth : IsLiteral 0.1 := ⟨by decide +kernel, by decide +kernel⟩
  have htwo : IsLiteral 2 := ⟨by decide +kernel, by decide +kernel⟩
  simp only [openAlternative, List.forall_mem_cons, List.not_mem_nil, false_implies, implies_true,
    and_true]
  exact ⟨.assign hx (.binary _ (.number htenth) (.binary _ (.unary _ (.boolean _)) (.number htwo))),
    .ifElse (.binary _ (.unary _ (.var hx)) (.var hy)) (.assign hy (.var hx)) rfl
      (.ifThen (.var hx) (.assign hy (.number hzero)))⟩

theorem parse_text_openAlternative :
    (∀ s ∈ openAlternative, s.ParserShaped) ∧ (∀ s ∈ openAlternative, 2 * s.height ≤ 8) ∧
      ∃ tokens, tokenize (Tree.program openAlternative).text = .ok tokens ∧
        parse 8 tokens = ⟨openAlternative, []⟩ := by
  have hl : ∀ s ∈ openAlternative, 2 * s.height ≤ 8 := by
    simp [openAlternative, Tree.height]
  exact ⟨openAlternative_parserShaped, hl, parse_text_program openAlternative_parserShaped hl⟩

end StackLang
