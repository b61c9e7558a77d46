import StackLang.Proofs.Recovery

/-! What a run of the parser depends on. No parser looks past a semicolon before it has finished a
statement, no error depends on where a sequence starts but for its index, and levels that are not
needed change nothing. So a run is compared here with one that has more of all three. -/
namespace StackLang

/-- The same error in a sequence with `k` more tokens in front. -/
def SyntaxError.shift (k : Nat) (e : SyntaxError) : SyntaxError := { e with index := e.index + k }

/-- A semicolon ends the tokens. -/
def Ended (ts : List Token) : Prop := ∃ us t, ts = us ++ [t] ∧ t.kind = .semicolon

/-- The semicolon is still ahead after one token, unless it was that token. -/
theorem Ended.tail_or_nil {t : Token} {ts : List Token} (h : Ended (t :: ts)) :
    Ended ts ∨ ts = [] ∧ t.kind = .semicolon := by
  obtain ⟨us, u, he, hu⟩ := h
  cases us with
  | nil =>
    cases he
    exact .inr ⟨rfl, hu⟩
  | cons v us =>
    cases he
    exact .inl ⟨us, u, rfl, hu⟩

theorem Ended.tail {t : Token} {ts : List Token} (h : Ended (t :: ts)) (ht : t.kind ≠ .semicolon) :
    Ended ts :=
  h.tail_or_nil.resolve_right fun hnil => ht hnil.2

theorem not_ended_nil : ¬ Ended [] := by
  rintro ⟨us, u, he, _⟩
  simp at he

/-- What the second of two runs has more than the first: tokens passed before the start, tokens
after those of the first run, and levels that it may open. -/
structure Surplus where
  passed : Nat
  rest : List Token
  levels : Nat

namespace Cursor

/-- Two cursors before the same tokens. -/
structure Aligned (x : Surplus) (c d : Cursor) : Prop where
  ahead : d.ahead = c.ahead ++ x.rest
  index : d.index = c.index + x.passed
  previous : c.previous = none ∨ d.previous = c.previous
  depth : d.depth = c.depth
  limit : d.limit = c.limit + x.levels
  mark : x.rest = [] → d.mark = c.mark

/-- Inside a statement: a semicolon still stands before what only the second run has. -/
structure Beside (x : Surplus) (c d : Cursor) : Prop extends Aligned x c d where
  guarded : x.rest = [] ∨ Ended c.ahead

/-- Between statements: that semicolon may have been passed. -/
structure Parted (x : Surplus) (c d : Cursor) : Prop extends Aligned x c d where
  guarded : x.rest = [] ∨ Ended c.ahead ∨ c.ahead = []

variable {x : Surplus} {c d : Cursor}

theorem Beside.parted (h : Beside x c d) : Parted x c d :=
  ⟨h.toAligned, h.guarded.imp_right .inl⟩

theorem Aligned.advance {t : Token} {ts : List Token} (h : Aligned x c d)
    (ha : c.ahead = t :: ts) : Aligned x c.advance d.advance := by
  have hd : d.ahead = t :: (ts ++ x.rest) := by rw [h.ahead, ha, List.cons_append]
  rw [advance_of_ahead ha, advance_of_ahead hd]
  refine ⟨rfl, ?_, .inr rfl, h.depth, h.limit, h.mark⟩
  have hi := h.index
  dsimp only
  omega

/-- With no semicolon left, nothing follows. -/
theorem Beside.rest_eq_nil (h : Beside x c d) (ha : c.ahead = []) : x.rest = [] := by
  rcases h.guarded with hr | he
  · exact hr
  · rw [ha] at he
    exact absurd he not_ended_nil

/-- Both cursors stand before the same token. -/
theorem Beside.current_eq (h : Beside x c d) : d.current = c.current := by
  have hd := h.ahead
  cases ha : c.ahead with
  | cons t ts =>
    rw [ha, List.cons_append] at hd
    rw [current_of_ahead ha, current_of_ahead hd]
  | nil =>
    have hr := h.rest_eq_nil ha
    rw [ha, hr] at hd
    simp only [current, hd, ha, h.mark hr, List.append_nil]

/-- Passing anything but a semicolon leads further into the statement. -/
theorem Beside.advance {t : Token} {ts : List Token} (h : Beside x c d)
    (ha : c.ahead = t :: ts) (ht : t.kind ≠ .semicolon) : Beside x c.advance d.advance := by
  refine ⟨h.toAligned.advance ha, ?_⟩
  rw [advance_of_ahead ha]
  rcases h.guarded with hr | he
  · exact .inl hr
  · rw [ha] at he
    exact .inr (he.tail ht)

theorem Parted.advance {t : Token} {ts : List Token} (h : Parted x c d)
    (ha : c.ahead = t :: ts) : Parted x c.advance d.advance := by
  refine ⟨h.toAligned.advance ha, ?_⟩
  rw [advance_of_ahead ha]
  rcases h.guarded with hr | he | hn
  · exact .inl hr
  · rw [ha] at he
    exact .inr (he.tail_or_nil.imp_right And.left)
  · rw [ha] at hn
    cases hn

/-- The same place one level higher. -/
def shallower (c : Cursor) : Cursor := { c with depth := c.depth - 1 }

theorem Aligned.shallower (h : Aligned x c d) : Aligned x c.shallower d.shallower :=
  ⟨h.ahead, h.index, h.previous, congrArg (· - 1) h.depth, h.limit, h.mark⟩

theorem Beside.deeper (h : Beside x c d) : Beside x c.deeper d.deeper :=
  ⟨⟨h.ahead, h.index, h.previous, congrArg (· + 1) h.depth, h.limit, h.mark⟩, h.guarded⟩

/-- At most `n` tokens are ahead of cursors of which `R` holds. -/
def Bounded (n : Nat) (R : Cursor → Cursor → Prop) (c d : Cursor) : Prop :=
  c.ahead.length ≤ n ∧ R c d

theorem Bounded.mono {m n : Nat} {R : Cursor → Cursor → Prop} (h : Bounded m R c d)
    (hmn : m ≤ n) : Bounded n R c d :=
  ⟨Nat.le_trans h.1 hmn, h.2⟩

theorem bounded_advance {n : Nat} {kind : Kind} (h : Bounded (n + 1) (Beside x) c d)
    (hk : c.current.kind = kind) (hmark : kind ≠ .endMark) (hsemi : kind ≠ .semicolon) :
    Bounded n (Beside x) c.advance d.advance := by
  obtain ⟨ts, ha⟩ := ahead_of_current hk hmark
  have hlen := h.1
  rw [ha, List.length_cons] at hlen
  refine ⟨?_, h.2.advance ha (hk ▸ hsemi)⟩
  rw [advance_of_ahead ha]
  exact Nat.le_of_succ_le_succ hlen

end Cursor

namespace Parser

open Cursor

variable {α β : Type}

/-- Two results of the same kind: one value, with cursors of which `R` holds, or one error inside
a statement. With more levels, a run need not be cut off where the other one is. -/
inductive Matches (x : Surplus) (R : Cursor → Cursor → Prop) :
    EStateM.Result SyntaxError Cursor α → EStateM.Result SyntaxError Cursor α → Prop where
  | ok {a : α} {c d : Cursor} : R c d → Matches x R (.ok a c) (.ok a d)
  | error {e : SyntaxError} {c d : Cursor} : Beside x c d →
    Matches x R (.error e c) (.error (e.shift x.passed) d)
  | cut {e : SyntaxError} {limit : Nat} {c : Cursor}
    {r : EStateM.Result SyntaxError Cursor α} : 0 < x.levels → e.cause = .tooDeep limit →
      Matches x R (.error e c) r

variable {x : Surplus} {c d : Cursor} {R S : Cursor → Cursor → Prop}

theorem Matches.mono {m n : Nat} {r r' : EStateM.Result SyntaxError Cursor α}
    (h : Matches x (Bounded m R) r r') (hmn : m ≤ n) : Matches x (Bounded n R) r r' := by
  cases h with
  | ok hr => exact .ok (hr.mono hmn)
  | error hb => exact .error hb
  | cut hl he => exact .cut hl he

theorem matches_fail (h : Beside x c d) (cause : SyntaxCause) :
    Matches x R (fail cause c : EStateM.Result _ _ α) (fail cause d) := by
  have he : (⟨cause, d.index, d.current.place⟩ : SyntaxError) =
      SyntaxError.shift x.passed ⟨cause, c.index, c.current.place⟩ := by
    rw [h.current_eq, h.index]
    rfl
  unfold fail
  rw [he]
  exact .error h

theorem matches_unexpected (h : Beside x c d) (expected : Expectation) :
    Matches x R (unexpected expected c : EStateM.Result _ _ α) (unexpected expected d) := by
  unfold unexpected
  rw [h.current_eq]
  exact matches_fail h _

theorem matches_bind {p q : Parser α} {f g : α → Parser β} (hp : Matches x R (p c) (q d))
    (hf : ∀ a c' d', p c = .ok a c' → R c' d' → Matches x S (f a c') (g a d')) :
    Matches x S ((p >>= f) c) ((q >>= g) d) := by
  generalize hc : p c = r at hp
  generalize hd : q d = r' at hp
  cases hp with
  | ok hr =>
    rw [bind_of_ok hc, bind_of_ok hd]
    exact hf _ _ _ hc hr
  | error hb =>
    rw [bind_of_error hc, bind_of_error hd]
    exact .error hb
  | cut hl he =>
    rw [bind_of_error hc]
    exact .cut hl he

variable {n : Nat} {inner inner' : Phrase → Parser Tree}

theorem matches_expect {kind : Kind} (h : Bounded (n + 1) (Beside x) c d)
    (expected : Expectation) (hmark : kind ≠ .endMark) (hsemi : kind ≠ .semicolon) :
    Matches x (Bounded n (Beside x)) (expect kind expected c)
      (expect kind expected d) := by
  have hcur := h.2.current_eq
  by_cases hk : c.current.kind = kind
  · rw [expect_of_kind expected hk, expect_of_kind expected (hcur ▸ hk), hcur]
    exact .ok (bounded_advance h hk hmark hsemi)
  · have hd : ¬ d.current.kind = kind := by rwa [hcur]
    rw [expect, bind_of_ok (peek_eq c), bind_of_ok (peek_eq d), if_neg hk, if_neg hd]
    exact matches_unexpected h.2 expected

/-- Both sides pass the same sign, or neither passes one. -/
theorem eatSign_cases {op : Type} (signs : List (Sign × op))
    (h : Bounded (n + 1) (Beside x) c d) :
    (∃ o, eatSign signs c = .ok (some o) c.advance ∧ eatSign signs d = .ok (some o) d.advance ∧
      Bounded n (Beside x) c.advance d.advance) ∨
    (eatSign signs c = .ok none c ∧ eatSign signs d = .ok none d) := by
  have hcur := h.2.current_eq
  by_cases hs : ∃ s o, c.current.kind = .sign s ∧ signs.lookup s = some o
  · obtain ⟨s, o, hk, ho⟩ := hs
    exact .inl ⟨o, eatSign_of_some hk ho, eatSign_of_some (hcur ▸ hk) ho,
      bounded_advance h hk nofun nofun⟩
  · have hn : ∀ s, c.current.kind = .sign s → signs.lookup s = none := by
      intro s hk
      cases ho : signs.lookup s with
      | none => rfl
      | some o => exact absurd ⟨s, o, hk, ho⟩ hs
    exact .inr ⟨eatSign_of_none hn, eatSign_of_none (hcur ▸ hn)⟩

theorem nested_eq (p : Parser α) (c : Cursor) :
    nested p c = if c.limit ≤ c.depth then fail (.tooDeep c.limit) c
      else match p c.deeper with
        | .ok a d => .ok a d.shallower
        | .error e d => .error e d.shallower := rfl

/-- The level that is opened on both sides is closed on both sides. -/
theorem matches_nested {p q : Parser α} (h : Beside x c d)
    (hR : ∀ c d, R c d → R c.shallower d.shallower)
    (hp : Matches x R (p c.deeper) (q d.deeper)) :
    Matches x R (nested p c) (nested q d) := by
  rw [nested_eq, nested_eq, h.depth, h.limit]
  by_cases hc : c.limit ≤ c.depth
  · rw [if_pos hc]
    rcases Nat.eq_zero_or_pos x.levels with hl | hl
    · rw [hl, Nat.add_zero, if_pos hc]
      exact matches_fail h _
    · exact .cut hl rfl
  · have hd : ¬ c.limit + x.levels ≤ c.depth := by omega
    rw [if_neg hc, if_neg hd]
    generalize p c.deeper = r at hp
    generalize q d.deeper = r' at hp
    cases hp with
    | ok hr => exact .ok (hR _ _ hr)
    | error hb => exact .error ⟨hb.toAligned.shallower, hb.guarded⟩
    | cut hl he => exact .cut hl he

/-- Where a phrase leaves the cursors. Only a statement takes the semicolon that ends it. -/
def Phrase.Leaves (x : Surplus) : Phrase → Cursor → Cursor → Prop
  | .statement => Parted x
  | _ => Beside x

/-- The parsers for the smaller phrases, from cursors with at most `n` tokens ahead. -/
def Follow (x : Surplus) (n : Nat) (inner inner' : Phrase → Parser Tree) : Prop :=
  ∀ p c d, Bounded n (Beside x) c d →
    Matches x (Bounded n (p.Leaves x)) (inner p c) (inner' p d)

theorem Follow.nested (hi : Follow x n inner inner') (p : Phrase)
    (h : Bounded n (Beside x) c d) :
    Matches x (Bounded n (p.Leaves x)) (nested (inner p) c) (nested (inner' p) d) := by
  refine matches_nested h.2 ?_ (hi p _ _ ⟨h.1, h.2.deeper⟩)
  intro c d hr
  refine ⟨hr.1, ?_⟩
  have hr := hr.2
  cases p with
  | statement => exact ⟨hr.toAligned.shallower, hr.guarded⟩
  | expression | unary | power => exact ⟨hr.toAligned.shallower, hr.guarded⟩

theorem matches_number (h : Bounded (n + 1) (Beside x) c d) (hk : c.current.kind = .number) :
    Matches x (Bounded n (Beside x)) (number c) (number d) := by
  rw [number, bind_of_ok (peek_eq c), bind_of_ok (peek_eq d), h.2.current_eq]
  cases (Number.ofText? c.current.lexeme).filter Float.isFinite with
  | some x => exact .ok (bounded_advance h hk (by decide) (by decide))
  | none => exact matches_fail h.2 _

/-- A primary passes a token before anything inside it is read. -/
theorem matches_primary (hi : Follow x n inner inner')
    (h : Bounded (n + 1) (Beside x) c d) :
    Matches x (Bounded n (Beside x)) (primary inner c) (primary inner' d) := by
  rw [primary, primary, bind_of_ok (peek_eq c), bind_of_ok (peek_eq d), h.2.current_eq]
  cases hk : c.current.kind with
  | number => exact matches_number h hk
  | identifier => exact .ok (bounded_advance h hk (by decide) (by decide))
  | boolean => exact .ok (bounded_advance h hk (by decide) (by decide))
  | lparen =>
    dsimp only
    rw [bind_of_ok (advance_eq c), bind_of_ok (advance_eq d)]
    have hinner := bounded_advance h hk (by decide) (by decide)
    refine matches_bind (hi.nested .expression hinner) ?_
    intro e c₁ d₁ _ h₁
    refine matches_bind (matches_expect (h₁.mono (Nat.le_succ n)) _ (by decide) (by decide)) ?_
    intro _ c₂ d₂ _ h₂
    exact .ok h₂
  | _ => exact matches_unexpected h.2 .expression

theorem matches_power (hi : Follow x n inner inner')
    (h : Bounded (n + 1) (Beside x) c d) :
    Matches x (Bounded n (Beside x)) (power inner c) (power inner' d) := by
  refine matches_bind (matches_primary hi h) ?_
  intro base c₁ d₁ _ h₁
  rcases eatSign_cases powerSigns (h₁.mono (Nat.le_succ n)) with ⟨op, hc, hd, h₂⟩ | ⟨hc, hd⟩
  · rw [bind_of_ok hc, bind_of_ok hd]
    refine matches_bind (hi.nested .power h₂) ?_
    intro e _ _ _ h₃
    exact .ok h₃
  · rw [bind_of_ok hc, bind_of_ok hd]
    exact .ok h₁

theorem matches_unary (hi : Follow x n inner inner')
    (h : Bounded (n + 1) (Beside x) c d) :
    Matches x (Bounded n (Beside x)) (unary inner c) (unary inner' d) := by
  unfold unary
  rcases eatSign_cases unarySigns h with ⟨op, hc, hd, h₁⟩ | ⟨hc, hd⟩
  · rw [bind_of_ok hc, bind_of_ok hd]
    refine matches_bind (hi.nested .unary h₁) ?_
    intro e _ _ _ h₂
    exact .ok h₂
  · rw [bind_of_ok hc, bind_of_ok hd]
    exact matches_power hi h

/-- The loop of a level makes the same turns on both sides. Where the bound of the shorter one is
used up nothing is ahead, so both bounds are the same. -/
theorem matches_chain (signs : List (Sign × BinaryOp)) {p q : Parser Tree} (hadv : Advances p)
    (hp : ∀ c d, Bounded (n + 1) (Beside x) c d →
      Matches x (Bounded n (Beside x)) (p c) (q d))
    {m : Nat} (hm : m ≤ n + 1) (hlen : c.ahead.length ≤ m) (left : Tree)
    (h : Bounded n (Beside x) c d) :
    Matches x (Bounded n (Beside x)) (chain signs p m left c)
      (chain signs q (m + x.rest.length) left d) := by
  induction m generalizing c d left with
  | zero =>
    have ha : c.ahead = [] := List.length_eq_zero_iff.mp (Nat.le_zero.mp hlen)
    rw [h.2.rest_eq_nil ha]
    exact .ok h
  | succ m ih =>
    rw [Nat.succ_add, chain, chain]
    rcases eatSign_cases signs ⟨hlen, h.2⟩ with ⟨op, hc, hd, h₁⟩ | ⟨hc, hd⟩
    · rw [bind_of_ok hc, bind_of_ok hd]
      refine matches_bind (hp _ _ (h₁.mono (by omega))) ?_
      intro right c₂ d₂ hr h₂
      -- Reading an operand adds no token, so one turn less is enough for those that are left.
      obtain ⟨ts, hts⟩ := hadv c.advance
      rw [hr] at hts
      have hle := hts.length_eq
      have hone := h₁.1
      simp only [stop] at hle
      exact ih (by omega) (by omega) _ h₂
    · rw [bind_of_ok hc, bind_of_ok hd]
      exact .ok h

theorem matches_expression (hi : Follow x n inner inner') (hadv : ∀ p, Advances (inner p))
    (h : Bounded (n + 1) (Beside x) c d) :
    Matches x (Bounded n (Beside x)) (expression inner (n + 1) c)
      (expression inner' (n + 1 + x.rest.length) d) := by
  -- The induction is on the table of levels, whose operands are the levels after them.
  suffices hboth : ∀ table : List (List (Sign × BinaryOp)),
      Advances (table.foldr (level (n + 1)) (unary inner)) ∧
      ∀ c d, Bounded (n + 1) (Beside x) c d → Matches x (Bounded n (Beside x))
        (table.foldr (level (n + 1)) (unary inner) c)
        (table.foldr (level (n + 1 + x.rest.length)) (unary inner') d) from
    (hboth levels).2 c d h
  intro table
  induction table with
  | nil => exact ⟨closed_advances.unary hadv, fun c d h => matches_unary hi h⟩
  | cons signs table ih =>
    obtain ⟨hadv', hp⟩ := ih
    refine ⟨advances_bind hadv' (closed_advances.chain signs hadv' (n + 1)), ?_⟩
    intro c d h
    refine matches_bind (hp c d h) ?_
    intro left c₁ d₁ _ h₁
    exact matches_chain signs hadv' hp (Nat.le_refl _) (Nat.le_succ_of_le h₁.1) left h₁

/-- Passing the semicolon of a statement, or not, leads out of it. -/
theorem matches_eat_semicolon (h : Bounded n (Beside x) c d) :
    Matches x (Bounded n (Parted x)) (eat .semicolon c) (eat .semicolon d) := by
  have hcur := h.2.current_eq
  by_cases hk : c.current.kind = .semicolon
  · obtain ⟨ts, ha⟩ := ahead_of_current hk nofun
    have hlen := h.1
    rw [ha, List.length_cons] at hlen
    rw [eat_of_kind hk, eat_of_kind (hcur ▸ hk)]
    refine .ok ⟨?_, h.2.parted.advance ha⟩
    rw [advance_of_ahead ha]
    exact Nat.le_of_succ_le hlen
  · have hd : d.current.kind ≠ .semicolon := by rwa [hcur]
    rw [eat_of_ne hk, eat_of_ne hd]
    exact .ok ⟨h.1, h.2.parted⟩

theorem matches_assignment (hi : Follow x n inner inner')
    (h : Bounded (n + 1) (Beside x) c d) :
    Matches x (Bounded n (Parted x)) (assignment inner c) (assignment inner' d) := by
  refine matches_bind (matches_expect h _ nofun nofun) ?_
  intro name c₁ d₁ _ h₁
  refine matches_bind (matches_expect (h₁.mono (Nat.le_succ n)) _ nofun nofun) ?_
  intro _ c₂ d₂ _ h₂
  refine matches_bind (hi .expression c₂ d₂ h₂) ?_
  intro e c₃ d₃ _ h₃
  refine matches_bind (matches_eat_semicolon h₃) ?_
  intro _ c₄ d₄ _ h₄
  exact .ok h₄

/-- After a branch both sides see the same `else`, or neither sees one: `rest` starts with none,
and before `rest` both see the same token. -/
theorem eat_else_cases (helse : ∀ t ∈ x.rest.head?, t.kind ≠ .elseWord)
    (h : Bounded n (Parted x) c d) :
    (eat .elseWord c = .ok true c.advance ∧ eat .elseWord d = .ok true d.advance ∧
      Bounded n (Beside x) c.advance d.advance) ∨
    (eat .elseWord c = .ok false c ∧ eat .elseWord d = .ok false d) := by
  by_cases hb : x.rest = [] ∨ Ended c.ahead
  · have hbeside : Beside x c d := ⟨h.2.toAligned, hb⟩
    have hcur := hbeside.current_eq
    by_cases hk : c.current.kind = .elseWord
    · have h' := bounded_advance ⟨Nat.le_succ_of_le h.1, hbeside⟩ hk (by decide) (by decide)
      exact .inl ⟨eat_of_kind hk, eat_of_kind (hcur ▸ hk), h'⟩
    · have hd : d.current.kind ≠ .elseWord := by rwa [hcur]
      exact .inr ⟨eat_of_ne hk, eat_of_ne hd⟩
  · have ha : c.ahead = [] := by
      rcases h.2.guarded with hr | he | ha
      · exact absurd (.inl hr) hb
      · exact absurd (.inr he) hb
      · exact ha
    have hd := h.2.ahead
    rw [ha, List.nil_append] at hd
    refine .inr ⟨eat_of_ne ?_, eat_of_ne ?_⟩
    · simp only [current, ha]
      intro hk
      cases hk
    · obtain ⟨t, ts, hr⟩ := List.exists_cons_of_ne_nil fun hr => hb (.inl hr)
      rw [current_of_ahead (hd.trans hr)]
      exact helse t (by rw [hr]; rfl)

theorem matches_conditional (helse : ∀ t ∈ x.rest.head?, t.kind ≠ .elseWord)
    (hi : Follow x n inner inner') (h : Bounded (n + 1) (Beside x) c d) :
    Matches x (Bounded n (Parted x)) (conditional inner c) (conditional inner' d) := by
  refine matches_bind (matches_expect h _ nofun nofun) ?_
  intro _ c₁ d₁ _ h₁
  refine matches_bind (matches_expect (h₁.mono (Nat.le_succ n)) _ nofun nofun) ?_
  intro _ c₂ d₂ _ h₂
  refine matches_bind (hi .expression c₂ d₂ h₂) ?_
  intro e c₃ d₃ _ h₃
  refine matches_bind (matches_expect (h₃.mono (Nat.le_succ n)) _ nofun nofun) ?_
  intro _ c₄ d₄ _ h₄
  refine matches_bind (hi .statement c₄ d₄ h₄) ?_
  intro s c₅ d₅ _ h₅
  rcases eat_else_cases helse h₅ with ⟨hc, hd, h₆⟩ | ⟨hc, hd⟩
  · rw [bind_of_ok hc, bind_of_ok hd]
    refine matches_bind (hi .statement _ _ h₆) ?_
    intro t c₇ d₇ _ h₇
    exact .ok h₇
  · rw [bind_of_ok hc, bind_of_ok hd]
    exact .ok h₅

theorem matches_statement (helse : ∀ t ∈ x.rest.head?, t.kind ≠ .elseWord)
    (hi : Follow x n inner inner') (h : Bounded (n + 1) (Beside x) c d) :
    Matches x (Bounded n (Parted x)) (statement inner c) (statement inner' d) := by
  rw [statement, statement, bind_of_ok (peek_eq c), bind_of_ok (peek_eq d), h.2.current_eq]
  by_cases hk : c.current.kind = .ifWord
  · rw [if_pos hk, if_pos hk]
    refine matches_nested h.2 ?_ (matches_conditional helse hi ⟨h.1, h.2.deeper⟩)
    intro c d hr
    exact ⟨hr.1, hr.2.toAligned.shallower, hr.2.guarded⟩
  · rw [if_neg hk, if_neg hk]
    exact matches_assignment hi h

/-- Whatever follows a semicolon, a phrase before it is parsed as if it were alone. -/
theorem follow_phrase (helse : ∀ t ∈ x.rest.head?, t.kind ≠ .elseWord) (n : Nat) :
    Follow x n (phrase n) (phrase (n + x.rest.length)) := by
  induction n with
  | zero =>
    intro p c d h
    have ha : c.ahead = [] := List.length_eq_zero_iff.mp (Nat.le_zero.mp h.1)
    rw [h.2.rest_eq_nil ha]
    exact matches_unexpected h.2 p.expectation
  | succ n ih =>
    intro p c d h
    have hadv (p : Phrase) : Advances (phrase n p) := advances_phrase n p
    rw [Nat.succ_add]
    cases p with
    | statement => exact (matches_statement helse ih h).mono (Nat.le_succ n)
    | expression =>
      have hexp := matches_expression ih hadv h
      rw [Nat.succ_add] at hexp
      exact hexp.mono (Nat.le_succ n)
    | unary => exact (matches_unary ih h).mono (Nat.le_succ n)
    | power => exact (matches_power ih h).mono (Nat.le_succ n)

end Parser

end StackLang
