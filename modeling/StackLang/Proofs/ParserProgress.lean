import StackLang.Proofs.ParserSoundness

namespace StackLang

theorem Cursor.moves_advance (c : Cursor) : ∃ ts, c.Moves ts c.advance := by
  cases ha : c.ahead with
  | nil =>
    have hc : c.advance = c := by simp only [Cursor.advance, ha]
    rw [hc]
    exact ⟨[], .nil c⟩
  | cons t rest => exact ⟨[t], .cons ha (.nil _)⟩

namespace Parser

open Cursor

variable {α β : Type} {inner : Phrase → Parser Tree}

/-- A property that the steps of a parser have and that parsers built from them keep. -/
structure Closed (Q : ∀ α : Type, Parser α → Prop) : Prop where
  pure : ∀ {α : Type} (a : α), Q α (Pure.pure a)
  fail : ∀ {α : Type} (cause : SyntaxCause), Q α (fail cause)
  peek : Q Token peek
  advance : Q Unit advance
  bind : ∀ {α β : Type} {p : Parser α} {f : α → Parser β}, Q α p → (∀ a, Q β (f a)) → Q β (p >>= f)
  nested : ∀ {α : Type} {p : Parser α}, Q α p → Q α (nested p)

namespace Closed

variable {Q : ∀ α : Type, Parser α → Prop}

theorem ite {P : Prop} [Decidable P] {p q : Parser α} (hp : Q α p) (hq : Q α q) :
    Q α (if P then p else q) := by
  by_cases h : P
  · rwa [if_pos h]
  · rwa [if_neg h]

variable (hQ : Closed Q)
include hQ

theorem unexpected (expected : Expectation) : Q α (unexpected expected) :=
  hQ.bind hQ.peek fun t => hQ.fail (.unexpectedToken expected t.description)

theorem expect (kind : Kind) (expected : Expectation) : Q Token (expect kind expected) :=
  hQ.bind hQ.peek fun t =>
    ite (hQ.bind hQ.advance fun _ => hQ.pure t) (hQ.unexpected expected)

theorem eat (kind : Kind) : Q Bool (eat kind) :=
  hQ.bind hQ.peek fun _ => ite (hQ.bind hQ.advance fun _ => hQ.pure true) (hQ.pure false)

theorem eatSign {op : Type} (signs : List (Sign × op)) : Q (Option op) (eatSign signs) := by
  refine hQ.bind hQ.peek ?_
  intro t
  cases t.kind with
  | sign s =>
    cases ho : signs.lookup s with
    | some o =>
      simp only [ho]
      exact hQ.bind hQ.advance fun _ => hQ.pure (some o)
    | none =>
      simp only [ho]
      exact hQ.pure none
  | _ => exact hQ.pure none

theorem chain (signs : List (Sign × BinaryOp)) {p : Parser Tree} (hp : Q Tree p) (n : Nat)
    (left : Tree) : Q Tree (chain signs p n left) := by
  induction n generalizing left with
  | zero => exact hQ.pure left
  | succ n ih =>
    refine hQ.bind (hQ.eatSign signs) ?_
    intro r
    cases r with
    | none => exact hQ.pure left
    | some op => exact hQ.bind hp fun right => ih (.binary op left right)

theorem number : Q Tree number := by
  refine hQ.bind hQ.peek ?_
  intro t
  cases (Number.ofText? t.lexeme).filter Float.isFinite with
  | some x => exact hQ.bind hQ.advance fun _ => hQ.pure (Tree.number x)
  | none => exact hQ.fail (.invalidNumber t.lexeme)

variable (hi : ∀ p, Q Tree (inner p))
include hi

theorem primary : Q Tree (primary inner) := by
  refine hQ.bind hQ.peek ?_
  intro t
  cases t.kind with
  | number => exact hQ.number
  | identifier => exact hQ.bind hQ.advance fun _ => hQ.pure _
  | boolean => exact hQ.bind hQ.advance fun _ => hQ.pure _
  | lparen =>
    refine hQ.bind hQ.advance fun _ => ?_
    refine hQ.bind (hQ.nested (hi .expression)) fun e => ?_
    exact hQ.bind (hQ.expect _ _) fun _ => hQ.pure e
  | _ => exact hQ.unexpected .expression

theorem power : Q Tree (power inner) := by
  refine hQ.bind (hQ.primary hi) fun base => ?_
  refine hQ.bind (hQ.eatSign powerSigns) ?_
  intro r
  cases r with
  | none => exact hQ.pure base
  | some op => exact hQ.bind (hQ.nested (hi .power)) fun e => hQ.pure _

theorem unary : Q Tree (unary inner) := by
  refine hQ.bind (hQ.eatSign unarySigns) ?_
  intro r
  cases r with
  | none => exact hQ.power hi
  | some op => exact hQ.bind (hQ.nested (hi .unary)) fun e => hQ.pure _

theorem expression (n : Nat) : Q Tree (expression inner n) := by
  have hlevel (signs : List (Sign × BinaryOp)) {p : Parser Tree} (hp : Q Tree p) :
      Q Tree (level n signs p) :=
    hQ.bind hp (hQ.chain signs hp n)
  unfold Parser.expression
  induction levels with
  | nil => exact hQ.unary hi
  | cons signs rest ih => exact hlevel signs ih

theorem assignment : Q Tree (assignment inner) := by
  refine hQ.bind (hQ.expect _ _) fun name => ?_
  refine hQ.bind (hQ.expect _ _) fun _ => ?_
  refine hQ.bind (hi .expression) fun e => ?_
  exact hQ.bind (hQ.eat _) fun _ => hQ.pure _

theorem conditional : Q Tree (conditional inner) := by
  refine hQ.bind (hQ.expect _ _) fun _ => ?_
  refine hQ.bind (hQ.expect _ _) fun _ => ?_
  refine hQ.bind (hi .expression) fun c => ?_
  refine hQ.bind (hQ.expect _ _) fun _ => ?_
  refine hQ.bind (hi .statement) fun s => ?_
  refine hQ.bind (hQ.eat _) fun b => ?_
  exact ite (hQ.bind (hi .statement) fun t => hQ.pure _) (hQ.pure _)

theorem statement : Q Tree (statement inner) :=
  hQ.bind hQ.peek fun _ => ite (hQ.nested (hQ.conditional hi)) (hQ.assignment hi)

omit hi

/-- Every phrase is built from the steps, so it has the property. -/
theorem phrase (n : Nat) (p : Phrase) : Q Tree (phrase n p) := by
  induction n generalizing p with
  | zero => exact hQ.unexpected p.expectation
  | succ n ih =>
    cases p with
    | statement => exact hQ.statement ih
    | expression => exact hQ.expression ih (n + 1)
    | unary => exact hQ.unary ih
    | power => exact hQ.power ih

end Closed

/-- The cursor where a parser stopped. -/
def stop : EStateM.Result SyntaxError Cursor α → Cursor
  | .ok _ d => d
  | .error _ d => d

/-- Wherever it stops, with a value or an error, `p` has passed some tokens and done nothing
else. -/
def Advances (p : Parser α) : Prop := ∀ c : Cursor, ∃ ts, c.Moves ts (stop (p c))

theorem advances_of_stays {p : Parser α} (h : ∀ c, stop (p c) = c) : Advances p := by
  intro c
  rw [h]
  exact ⟨[], .nil c⟩

theorem advances_bind {p : Parser α} {f : α → Parser β} (hp : Advances p)
    (hf : ∀ a, Advances (f a)) : Advances (p >>= f) := by
  intro c
  obtain ⟨ts, hts⟩ := hp c
  cases hr : p c with
  | ok a d =>
    rw [hr] at hts
    obtain ⟨us, hus⟩ := hf a d
    rw [bind_of_ok hr]
    exact ⟨ts ++ us, hts.trans hus⟩
  | error e d =>
    rw [hr] at hts
    rw [bind_of_error hr]
    exact ⟨ts, hts⟩

/-- The level that is opened is closed again, also after a failure. -/
theorem advances_nested {p : Parser α} (hp : Advances p) : Advances (nested p) := by
  intro c
  by_cases hd : c.limit ≤ c.depth
  · rw [nested, if_pos hd]
    exact ⟨[], .nil c⟩
  · rw [nested, if_neg hd]
    obtain ⟨ts, hts⟩ := hp { c with depth := c.depth + 1 }
    obtain ⟨e, he, hm⟩ := Moves.of_deeper (c := c) hts
    refine ⟨ts, ?_⟩
    cases hr : p { c with depth := c.depth + 1 } with
    | ok a d | error a d =>
      rw [hr] at he
      cases he
      exact hm

theorem closed_advances : Closed fun _ p => Advances p where
  pure _ := advances_of_stays fun _ => rfl
  fail _ := advances_of_stays fun _ => rfl
  peek := advances_of_stays fun _ => rfl
  advance := moves_advance
  bind := advances_bind
  nested := advances_nested

/-- No phrase that is asked for adds a token or leaves a level open. -/
theorem advances_phrase (n : Nat) (p : Phrase) : Advances (phrase n p) := closed_advances.phrase n p

end Parser

namespace Cursor

theorem moves_advanceBy (c : Cursor) (n : Nat) : ∃ ts, c.Moves ts (c.advanceBy n) := by
  induction n generalizing c with
  | zero => exact ⟨[], .nil c⟩
  | succ n ih =>
    obtain ⟨ts, hts⟩ := moves_advance c
    obtain ⟨us, hus⟩ := ih c.advance
    exact ⟨ts ++ us, hts.trans hus⟩

theorem moves_recover (start : Nat) (c : Cursor) : ∃ ts, c.Moves ts (c.recover start) := by
  unfold recover
  by_cases h : c.index = start
  · rw [if_pos h]
    obtain ⟨ts, hts⟩ := moves_advance c
    obtain ⟨us, hus⟩ := moves_advanceBy c.advance _
    exact ⟨ts ++ us, hts.trans hus⟩
  · rw [if_neg h]
    exact moves_advanceBy c _

/-- Every statement that is read, before a failure or after it, is derived from tokens in a
row. -/
theorem statementsWithin_infix {n : Nat} {c : Cursor} {s : Tree}
    (hs : s ∈ (c.statementsWithin n).1.statements) :
    ∃ ts k, Grammar.DerivesStatement ts s k ∧ ts <:+: c.ahead := by
  induction n generalizing c with
  | zero => cases hs
  | succ n ih =>
    -- What is read further on is read from tokens that are ahead here too.
    have hlater {d : Cursor} (hm : ∃ us, c.Moves us d)
        (hd : s ∈ (d.statementsWithin n).1.statements) :
        ∃ ts k, Grammar.DerivesStatement ts s k ∧ ts <:+: c.ahead := by
      obtain ⟨us, hus⟩ := hm
      obtain ⟨ts, k, hts, hin⟩ := ih hd
      have hsuffix : d.ahead <:+ c.ahead := ⟨us, hus.ahead_eq.symm⟩
      exact ⟨ts, k, hts, hin.trans hsuffix.isInfix⟩
    cases ha : c.ahead with
    | nil =>
      rw [statementsWithin_of_nil (n + 1) ha] at hs
      cases hs
    | cons t rest =>
      rw [← ha]
      by_cases ht : t.kind = .semicolon
      · rw [statementsWithin_of_semicolon n ha ht] at hs
        exact hlater (moves_advance c) hs
      · cases hr : c.statement with
        | ok u d =>
          rw [statementsWithin_of_ok n ha ht hr] at hs
          obtain ⟨ts, k, hts, hm, _⟩ := (Grammar.phrase_sound _).statement _ _ _ hr
          rcases List.mem_cons.mp hs with rfl | hs
          · exact ⟨ts, k, hts, ⟨[], d.ahead, hm.ahead_eq.symm⟩⟩
          · exact hlater ⟨ts, hm⟩ hs
        | error e d =>
          rw [statementsWithin_of_error n ha ht hr] at hs
          obtain ⟨ts, hts⟩ := Parser.advances_phrase c.ahead.length .statement c
          have hstop : c.Moves ts d := by
            have hphrase : Parser.phrase c.ahead.length .statement c = .error e d := hr
            rwa [hphrase] at hts
          obtain ⟨us, hus⟩ := moves_recover c.index d
          exact hlater ⟨ts ++ us, hstop.trans hus⟩ hs

end Cursor

end StackLang
