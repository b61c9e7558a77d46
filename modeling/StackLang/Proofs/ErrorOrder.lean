import StackLang.Proofs.ErrorIsolation
import StackLang.Proofs.ErrorPlaces

/-! The order of errors. Every turn of the loop over statements passes a token, so the loop comes to
the end mark; and where it goes on after a failure, nothing fails at the same token again, provided
that one level may be opened. -/
namespace StackLang

namespace Cursor

/-- If tokens were passed on the way from `c` to `d`, the last of them is no semicolon. -/
def Inside (c d : Cursor) : Prop :=
  (d.index = c.index ∧ d.previous = c.previous) ∨ ∃ t, d.previous = some t ∧ t.kind ≠ .semicolon

theorem Inside.refl (c : Cursor) : Inside c c := .inl ⟨rfl, rfl⟩

theorem Inside.trans {c d e : Cursor} (h : Inside c d) (h' : Inside d e) : Inside c e := by
  rcases h' with ⟨hindex, hprevious⟩ | h'
  · unfold Inside
    rwa [hindex, hprevious]
  · exact .inr h'

theorem inside_advance {c : Cursor} (h : c.current.kind ≠ .semicolon) : Inside c c.advance := by
  cases ha : c.ahead with
  | nil =>
    have hstay : c.advance = c := by simp only [advance, ha]
    rw [hstay]
    exact .refl c
  | cons t rest =>
    rw [current_of_ahead ha] at h
    right
    rw [advance_of_ahead ha]
    exact ⟨t, rfl, h⟩

end Cursor

namespace Parser

open Cursor

variable {α β : Type} {c d : Cursor} {inner : Phrase → Parser Tree}

/-- Wherever it stops, `p` has not just passed a semicolon. -/
def StaysInside (p : Parser α) : Prop := ∀ c, Inside c (stop (p c))

/-- Wherever it fails, `p` has not just passed a semicolon. -/
def FailsInside (p : Parser α) : Prop := ∀ c e d, p c = .error e d → Inside c d

theorem StaysInside.fails {p : Parser α} (hp : StaysInside p) : FailsInside p := by
  intro c e d h
  have hc := hp c
  rwa [h] at hc

theorem staysInside_pure (a : α) : StaysInside (pure a) := Inside.refl

theorem inside_bind {p : Parser α} {f : α → Parser β} (hp : Inside c (stop (p c)))
    (hf : ∀ a, StaysInside (f a)) : Inside c (stop ((p >>= f) c)) := by
  cases hr : p c with
  | ok a d =>
    rw [hr] at hp
    rw [bind_of_ok hr]
    exact hp.trans (hf a d)
  | error e d =>
    rw [hr] at hp
    rw [bind_of_error hr]
    exact hp

theorem staysInside_bind {p : Parser α} {f : α → Parser β} (hp : StaysInside p)
    (hf : ∀ a, StaysInside (f a)) : StaysInside (p >>= f) :=
  fun c => inside_bind (hp c) hf

/-- Only what fails last need not stay inside. -/
theorem failsInside_bind {p : Parser α} {f : α → Parser β} (hp : StaysInside p)
    (hf : ∀ a, FailsInside (f a)) : FailsInside (p >>= f) := by
  intro c e d h
  have hc := hp c
  cases hr : p c with
  | ok a c₁ =>
    rw [hr] at hc
    rw [bind_of_ok hr] at h
    exact hc.trans (hf a c₁ e d h)
  | error e₁ c₁ =>
    rw [hr] at hc
    rw [bind_of_error hr] at h
    cases h
    exact hc

theorem staysInside_nested {p : Parser α} (hp : StaysInside p) : StaysInside (nested p) := by
  intro c
  have hc := hp c.deeper
  rw [nested_eq]
  split
  · exact Inside.refl c
  · cases hr : p c.deeper with
    | ok a d | error a d =>
      rw [hr] at hc
      exact hc

theorem failsInside_nested {p : Parser α} (hp : FailsInside p) : FailsInside (nested p) := by
  intro c e d h
  rw [nested_eq] at h
  split at h
  · cases h
    exact Inside.refl c
  · split at h
    · cases h
    · next e₁ d₁ hr =>
      cases h
      exact hp c.deeper e d₁ hr

theorem staysInside_expect (kind : Kind) (expected : Expectation) (hk : kind ≠ .semicolon) :
    StaysInside (expect kind expected) := by
  intro c
  by_cases h : c.current.kind = kind
  · rw [expect_of_kind expected h]
    exact inside_advance (h ▸ hk)
  · rw [expect, bind_of_ok (peek_eq c), if_neg h]
    exact Inside.refl c

theorem staysInside_eatSign {op : Type} (signs : List (Sign × op)) :
    StaysInside (eatSign signs) := by
  intro c
  rw [eatSign, bind_of_ok (peek_eq c)]
  cases hk : c.current.kind with
  | sign s =>
    cases ho : signs.lookup s with
    | some o =>
      simp only [ho]
      apply inside_advance
      simp [hk]
    | none =>
      simp only [ho]
      exact Inside.refl c
  | _ => exact Inside.refl c

theorem staysInside_chain (signs : List (Sign × BinaryOp)) {p : Parser Tree} (hp : StaysInside p)
    (n : Nat) (left : Tree) : StaysInside (chain signs p n left) := by
  induction n generalizing left with
  | zero => exact staysInside_pure left
  | succ n ih =>
    refine staysInside_bind (staysInside_eatSign signs) ?_
    intro r
    cases r with
    | none => exact staysInside_pure left
    | some op => exact staysInside_bind hp fun right => ih (.binary op left right)

section Rules

variable (hi : ∀ p, p ≠ .statement → StaysInside (inner p))
include hi

/-- Whatever a primary passes, it has looked at its kind before. -/
theorem staysInside_primary : StaysInside (primary inner) := by
  intro c
  rw [primary, bind_of_ok (peek_eq c)]
  cases hk : c.current.kind with
  | number =>
    have hadvance : Inside c c.advance := inside_advance (by simp [hk])
    dsimp only
    rw [number, bind_of_ok (peek_eq c)]
    cases (Number.ofText? c.current.lexeme).filter Float.isFinite with
    | some x => exact hadvance
    | none => exact Inside.refl c
  | identifier => exact inside_advance (by simp [hk])
  | boolean => exact inside_advance (by simp [hk])
  | lparen =>
    have hadvance : Inside c (stop (advance c)) := inside_advance (by simp [hk])
    apply inside_bind hadvance
    intro _
    refine staysInside_bind (staysInside_nested (hi .expression (by decide))) fun e => ?_
    exact staysInside_bind (staysInside_expect _ _ (by decide)) fun _ => staysInside_pure e
  | _ => exact Inside.refl c

theorem staysInside_power : StaysInside (power inner) := by
  refine staysInside_bind (staysInside_primary hi) fun base => ?_
  refine staysInside_bind (staysInside_eatSign powerSigns) ?_
  intro r
  cases r with
  | none => exact staysInside_pure base
  | some op =>
    exact staysInside_bind (staysInside_nested (hi .power (by decide))) fun e => staysInside_pure _

theorem staysInside_unary : StaysInside (unary inner) := by
  refine staysInside_bind (staysInside_eatSign unarySigns) ?_
  intro r
  cases r with
  | none => exact staysInside_power hi
  | some op =>
    exact staysInside_bind (staysInside_nested (hi .unary (by decide))) fun e => staysInside_pure _

theorem staysInside_expression (n : Nat) : StaysInside (expression inner n) := by
  unfold expression
  induction levels with
  | nil => exact staysInside_unary hi
  | cons signs rest ih => exact staysInside_bind ih (staysInside_chain signs ih n)

/-- The semicolon of an assignment is the last thing it looks for. -/
theorem failsInside_assignment : FailsInside (assignment inner) := by
  refine failsInside_bind (staysInside_expect _ _ (by decide)) fun name => ?_
  refine failsInside_bind (staysInside_expect _ _ (by decide)) fun _ => ?_
  refine failsInside_bind (hi .expression (by decide)) fun e => ?_
  intro c e d h
  by_cases hk : c.current.kind = .semicolon
  · rw [bind_of_ok (eat_of_kind hk)] at h
    cases h
  · rw [bind_of_ok (eat_of_ne hk)] at h
    cases h

variable (hs : FailsInside (inner .statement))
include hs

/-- A branch may end with a semicolon, but then only an `else` leads on to something that fails. -/
theorem failsInside_conditional : FailsInside (conditional inner) := by
  refine failsInside_bind (staysInside_expect _ _ (by decide)) fun _ => ?_
  refine failsInside_bind (staysInside_expect _ _ (by decide)) fun _ => ?_
  refine failsInside_bind (hi .expression (by decide)) fun c => ?_
  refine failsInside_bind (staysInside_expect _ _ (by decide)) fun _ => ?_
  intro c e d h
  cases hr : inner .statement c with
  | error e₁ c₁ =>
    rw [bind_of_error hr] at h
    cases h
    exact hs c e d hr
  | ok s c₁ =>
    rw [bind_of_ok hr] at h
    by_cases hk : c₁.current.kind = .elseWord
    · rw [bind_of_ok (eat_of_kind hk), if_pos rfl] at h
      cases hr' : inner .statement c₁.advance with
      | ok t c₂ =>
        rw [bind_of_ok hr'] at h
        cases h
      | error e₂ c₂ =>
        rw [bind_of_error hr'] at h
        cases h
        -- Where the second branch starts, the `else` was passed last.
        obtain ⟨rest, ha⟩ := ahead_of_current hk (by decide)
        have helse : c₁.advance.previous = some c₁.current := by rw [advance_of_ahead ha]
        rcases hs _ _ _ hr' with ⟨-, hsame⟩ | hother
        · right
          rw [hsame, helse]
          exact ⟨_, rfl, by simp [hk]⟩
        · exact .inr hother
    · rw [bind_of_ok (eat_of_ne hk)] at h
      cases h

theorem failsInside_statement : FailsInside (statement inner) := by
  intro c e d h
  rw [statement, bind_of_ok (peek_eq c)] at h
  by_cases hk : c.current.kind = .ifWord
  · rw [if_pos hk] at h
    exact failsInside_nested (failsInside_conditional hi hs) c e d h
  · rw [if_neg hk] at h
    exact failsInside_assignment hi c e d h

end Rules

/-- Only a statement can end with a semicolon, and no failing one does. -/
theorem inside_phrase (n : Nat) :
    (∀ p, p ≠ .statement → StaysInside (phrase n p)) ∧ FailsInside (phrase n .statement) := by
  induction n with
  | zero =>
    have hstays (p : Phrase) : StaysInside (phrase 0 p) := Inside.refl
    exact ⟨fun p _ => hstays p, (hstays .statement).fails⟩
  | succ n ih =>
    obtain ⟨hi, hs⟩ := ih
    refine ⟨?_, failsInside_statement hi hs⟩
    intro p hp
    cases p with
    | statement => exact absurd rfl hp
    | expression => exact staysInside_expression hi (n + 1)
    | unary => exact staysInside_unary hi
    | power => exact staysInside_power hi

/-- A parser that finds the token it starts with stops after it. -/
theorem lt_index_of_expect {kind : Kind} {expected : Expectation} {f : Token → Parser α}
    {e : SyntaxError} (hk : c.current.kind = kind) (hmark : kind ≠ .endMark)
    (hf : ∀ t, Advances (f t)) (h : (expect kind expected >>= f) c = .error e d) :
    c.index < d.index := by
  rw [bind_of_ok (expect_of_kind expected hk)] at h
  obtain ⟨ts, hts⟩ := hf c.current c.advance
  rw [h] at hts
  have hindex := hts.index_eq
  obtain ⟨rest, ha⟩ := ahead_of_current hk hmark
  rw [advance_of_ahead ha] at hindex
  simp only [stop] at hindex
  omega

end Parser

namespace Cursor

variable {c d : Cursor} {e : SyntaxError}

/-- A statement that can start passes the token it starts with before it fails. An `if` can start
only where a level may be opened. -/
theorem lt_index_of_statement_error (hstart : c.current.kind.startsStatement)
    (hroom : 0 < c.room) (h : c.statement = .error e d) : c.index < d.index := by
  have hmark : c.current.kind ≠ .endMark := by
    intro hk
    simp [hk, Kind.startsStatement] at hstart
  obtain ⟨rest, ha⟩ := ahead_of_current rfl hmark
  have hstatement : Parser.statement (Parser.phrase rest.length) c = .error e d := by
    rw [statement, ha] at h
    exact h
  have hinner (p : Parser.Phrase) := Parser.closed_advances.phrase rest.length p
  have hclosed := Parser.closed_advances
  rw [Parser.statement, Parser.bind_of_ok (Parser.peek_eq c)] at hstatement
  by_cases hk : c.current.kind = .ifWord
  · rw [if_pos hk, Parser.nested_eq, if_neg (by simp only [room] at hroom; omega)] at hstatement
    split at hstatement
    · cases hstatement
    · next e₁ d₁ hr =>
      cases hstatement
      refine Parser.lt_index_of_expect (c := c.deeper) (d := d₁) hk (by decide) ?_ hr
      intro _
      refine hclosed.bind (hclosed.expect _ _) fun _ => ?_
      refine hclosed.bind (hinner .expression) fun _ => ?_
      refine hclosed.bind (hclosed.expect _ _) fun _ => ?_
      refine hclosed.bind (hinner .statement) fun _ => ?_
      refine hclosed.bind (hclosed.eat _) fun _ => ?_
      exact Parser.Closed.ite (hclosed.bind (hinner .statement) fun _ => hclosed.pure _)
        (hclosed.pure _)
  · rw [if_neg hk] at hstatement
    have hname : c.current.kind = .identifier := by
      cases hkind : c.current.kind <;> simp_all [Kind.startsStatement]
    refine Parser.lt_index_of_expect hname (by decide) ?_ hstatement
    intro _
    refine hclosed.bind (hclosed.expect _ _) fun _ => ?_
    refine hclosed.bind (hinner .expression) fun _ => ?_
    exact hclosed.bind (hclosed.eat _) fun _ => hclosed.pure _

/-- What one turn of the loop over statements reads, and where it leads: it drops a semicolon, reads
a statement, or reports an error and recovers. -/
inductive Turn (c : Cursor) : Outcome → Cursor → Prop where
  | semicolon : c.current.kind = .semicolon → Turn c ⟨[], []⟩ c.advance
  | statement {s : Tree} {d : Cursor} : c.statement = .ok s d → Turn c ⟨[s], []⟩ d
  | error {e : SyntaxError} {d : Cursor} : c.statement = .error e d →
    Turn c ⟨[], [e]⟩ (d.recover c.index)

theorem exists_turn (n : Nat) (hne : c.ahead ≠ []) :
    ∃ o d, Turn c o d ∧ c.statementsWithin (n + 1) =
      (o.append (d.statementsWithin n).1, (d.statementsWithin n).2) := by
  obtain ⟨t, rest, ha⟩ := List.exists_cons_of_ne_nil hne
  by_cases ht : t.kind = .semicolon
  · refine ⟨_, _, .semicolon ?_, statementsWithin_of_semicolon n ha ht⟩
    rwa [current_of_ahead ha]
  · cases hs : c.statement with
    | ok s d =>
      refine ⟨_, d, .statement hs, ?_⟩
      rw [statementsWithin]
      simp only [ha, ht, if_false, hs]
      rfl
    | error e d =>
      refine ⟨_, _, .error hs, ?_⟩
      rw [statementsWithin]
      simp only [ha, ht, if_false, hs]
      rfl

/-- No turn is made without passing a token. -/
theorem Turn.moves {o : Outcome} (h : Turn c o d) (hne : c.ahead ≠ []) :
    ∃ t ts, c.Moves (t :: ts) d := by
  cases h with
  | semicolon _ =>
    obtain ⟨t, rest, ha⟩ := List.exists_cons_of_ne_nil hne
    exact ⟨t, [], .cons ha (.nil _)⟩
  | statement hs => exact moves_of_statement_ok hs
  | error hs => exact moves_of_recover hne hs

/-- With enough turns the loop passes all tokens, and each turn reads one statement or error at
most. -/
theorem statementsWithin_passes {n : Nat} (hn : c.ahead.length ≤ n) :
    c.Moves c.ahead (c.statementsWithin n).2 ∧
      (c.statementsWithin n).1.statements.length + (c.statementsWithin n).1.errors.length ≤
        c.ahead.length := by
  induction n generalizing c with
  | zero =>
    have ha : c.ahead = [] := List.length_eq_zero_iff.mp (Nat.le_zero.mp hn)
    rw [statementsWithin_of_nil 0 ha, ha]
    exact ⟨.nil c, Nat.le_refl 0⟩
  | succ n ih =>
    by_cases hne : c.ahead = []
    · rw [statementsWithin_of_nil (n + 1) hne, hne]
      exact ⟨.nil c, Nat.le_refl 0⟩
    · obtain ⟨o, d, hturn, heq⟩ := exists_turn n hne
      obtain ⟨t, ts, hm⟩ := hturn.moves hne
      have hlt := length_lt_of_moves hm
      obtain ⟨hrest, hcount⟩ := ih (c := d) (by omega)
      have hone : o.statements.length + o.errors.length ≤ 1 := by
        cases hturn with
        | semicolon _ => exact Nat.zero_le 1
        | statement _ | error _ => exact Nat.le_refl 1
      rw [heq]
      constructor
      · rw [hm.ahead_eq]
        exact hm.trans hrest
      · simp only [Outcome.append, List.length_append]
        omega

/-- Errors of later turns are found no earlier than where the turns start. -/
theorem index_le_of_mem_errors {n : Nat} (he : e ∈ (c.statementsWithin n).1.errors) :
    c.index ≤ e.index := by
  obtain ⟨ts, d, hm, hindex, -⟩ := moves_of_mem_errors he
  rw [hindex, hm.index_eq]
  exact Nat.le_add_right _ _

/-- What holds between an error and those that are found after it has been recovered from holds
between any two errors of a run in order. -/
theorem pairwise_errors {room : Nat} {R : SyntaxError → SyntaxError → Prop}
    (hnext : ∀ {c d : Cursor} {e : SyntaxError}, c.room = room → c.ahead ≠ [] →
      c.statement = .error e d →
        ∀ n, ∀ e' ∈ ((d.recover c.index).statementsWithin n).1.errors, R e e')
    (n : Nat) {c : Cursor} (hroom : c.room = room) :
    (c.statementsWithin n).1.errors.Pairwise R := by
  induction n generalizing c with
  | zero => exact .nil
  | succ n ih =>
    by_cases hne : c.ahead = []
    · rw [statementsWithin_of_nil (n + 1) hne]
      exact .nil
    · obtain ⟨o, d, hturn, heq⟩ := exists_turn n hne
      obtain ⟨t, ts, hm⟩ := hturn.moves hne
      have hrest := ih (hm.room_eq.trans hroom)
      rw [heq]
      cases hturn with
      | semicolon _ => exact hrest
      | statement _ => exact hrest
      | error hs => exact .cons (hnext hroom hne hs n) hrest

theorem index_of_statement_error (h : c.statement = .error e d) : e.index = d.index :=
  (Parser.closed_failsHere.phrase _ .statement c e d h).1

/-- Where a failure passed tokens and recovery passes none, a statement can start or the tokens
end: the other reason to stop, a semicolon that was passed last, is not given. -/
theorem recover_stays (hne : c.ahead ≠ []) (h : c.statement = .error e d)
    (hstay : (d.recover c.index).index = d.index) :
    d.ahead = [] ∨ d.current.kind.startsStatement := by
  obtain ⟨t, ts, hm⟩ := moves_of_recover hne h
  have hlt : c.index < d.index := by
    have hindex := hm.index_eq
    rw [List.length_cons] at hindex
    omega
  have hprevious : d.previous.any (·.kind = .semicolon) = false := by
    rcases (Parser.inside_phrase _).2 c e d h with ⟨hindex, -⟩ | ⟨u, hu, hk⟩
    · omega
    · simp [hu, hk]
  cases ha : d.ahead with
  | nil => exact .inl rfl
  | cons u us =>
    right
    by_contra hstart
    rw [current_of_ahead ha, Bool.not_eq_true] at hstart
    -- Neither reason to stop is given here, so recovery would pass a token.
    have hrecover : d.recover c.index = d.advance.advanceBy (toBoundary (some u) us) := by
      rw [recover, if_neg (Nat.ne_of_gt hlt), ha, toBoundary, hprevious, hstart]
      rfl
    obtain ⟨vs, hvs⟩ := moves_advanceBy d.advance (toBoundary (some u) us)
    have hindex := hvs.index_eq
    rw [← hrecover, hstay, advance_of_ahead ha] at hindex
    dsimp only at hindex
    omega

/-- Where a statement can start, the first token is not the one that an error is found at. -/
theorem lt_index_of_mem_errors (hroom : 0 < c.room)
    (hstart : c.ahead = [] ∨ c.current.kind.startsStatement) {n : Nat}
    (he : e ∈ (c.statementsWithin n).1.errors) : c.index < e.index := by
  cases n with
  | zero => cases he
  | succ n =>
    by_cases hne : c.ahead = []
    · rw [statementsWithin_of_nil (n + 1) hne] at he
      cases he
    · obtain ⟨o, d, hturn, heq⟩ := exists_turn n hne
      obtain ⟨t, ts, hm⟩ := hturn.moves hne
      rw [heq] at he
      rcases List.mem_append.mp he with hfirst | hlater
      · cases hturn with
        | semicolon _ | statement _ => cases hfirst
        | error hs =>
          obtain rfl := List.mem_singleton.mp hfirst
          rw [index_of_statement_error hs]
          exact lt_index_of_statement_error (hstart.resolve_left hne) hroom hs
      · have hindex := hm.index_eq
        have hle := index_le_of_mem_errors hlater
        rw [List.length_cons] at hindex
        omega

/-- No error is found again at the token of an error that has been recovered from. -/
theorem lt_index_of_recover (hroom : 0 < c.room) (hne : c.ahead ≠ [])
    (h : c.statement = .error e d) {n : Nat} {e' : SyntaxError}
    (he' : e' ∈ ((d.recover c.index).statementsWithin n).1.errors) : e.index < e'.index := by
  rw [index_of_statement_error h]
  obtain ⟨us, hus⟩ := moves_recover c.index d
  cases us with
  | nil =>
    have hstart := recover_stays hne h hus.index_eq
    have hsame : d.recover c.index = d := hus.eq_advanceBy
    obtain ⟨ts, hts⟩ := moves_of_statement_error h
    rw [hsame] at he'
    rw [← hts.room_eq] at hroom
    exact lt_index_of_mem_errors hroom hstart he'
  | cons u us =>
    have hindex := hus.index_eq
    have hle := index_le_of_mem_errors he'
    rw [List.length_cons] at hindex
    omega

/-- A parser starts with the tokens before the first end mark. -/
theorem ahead_ofTokens_eq (limit : Nat) (tokens : List Token) :
    (ofTokens limit tokens).ahead = tokens.take (tokens.findIdx (·.kind = .endMark)) := by
  change tokens.takeWhile (·.kind ≠ .endMark) = _
  rw [List.takeWhile_eq_take_findIdx_not]
  simp only [ne_eq, decide_not, Bool.not_not]

theorem length_ahead_ofTokens (limit : Nat) (tokens : List Token) :
    (ofTokens limit tokens).ahead.length = tokens.findIdx (·.kind = .endMark) := by
  rw [ahead_ofTokens_eq, List.length_take]
  exact Nat.min_eq_left List.findIdx_le_length

section OfTokens

variable {limit : Nat} {tokens ts rest : List Token} {t : Token}

/-- What is ahead is a part of the tokens. -/
theorem Moves.getElem?_of_ahead (h : (ofTokens limit tokens).Moves ts d)
    (ha : d.ahead = t :: rest) : tokens[d.index]? = some t := by
  have hindex : d.index = ts.length := h.index_eq.trans (Nat.zero_add _)
  have htake : (tokens.take (tokens.findIdx (·.kind = .endMark)))[d.index]? = some t := by
    rw [← ahead_ofTokens_eq limit, h.ahead_eq, ha, hindex,
      List.getElem?_append_right (Nat.le_refl _), Nat.sub_self]
    rfl
  rw [List.getElem?_take] at htake
  split at htake
  · exact htake
  · cases htake

theorem Moves.index_of_nil (h : (ofTokens limit tokens).Moves ts d) (ha : d.ahead = []) :
    d.index = tokens.findIdx (·.kind = .endMark) := by
  have hindex : d.index = ts.length := h.index_eq.trans (Nat.zero_add _)
  have hlen := h.length_eq
  rw [length_ahead_ofTokens, ha, List.length_nil] at hlen
  omega

theorem Moves.current_of_nil (h : (ofTokens limit tokens).Moves ts d) (ha : d.ahead = []) :
    d.current = .endMark (markOf tokens) := by
  have hmark : d.mark = markOf tokens := h.frame.2.2
  rw [← hmark]
  simp only [current, ha]
  rfl

/-- The token that comes next is the one with the index of the cursor. -/
theorem Moves.current_ofTokens (h : (ofTokens limit tokens).Moves ts d) :
    d.current.place = (tokens[d.index]?.getD (.endMark (markOf tokens))).place := by
  cases ha : d.ahead with
  | cons t rest =>
    rw [current_of_ahead ha, h.getElem?_of_ahead ha]
    rfl
  | nil =>
    -- The end mark comes next, be it one of the tokens or one that is supplied.
    rw [h.current_of_nil ha, h.index_of_nil ha, ← List.find?_eq_getElem?_findIdx]
    cases hfind : tokens.find? (·.kind = .endMark) with
    | some mark =>
      simp only [markOf, hfind]
      rfl
    | none => rfl

end OfTokens

end Cursor

/-- Under any nesting limit and on any tokens, the loop over statements ends at the first end
mark. It reads no more statements and errors than there are tokens before the mark. Each error is
reported at the token that has its index; the indices never decrease, and they increase if a level
may be opened. -/
theorem parse_reports_in_order (limit : Nat) (tokens : List Token) :
    let stop := tokens.findIdx (·.kind = .endMark)
    let last := (Cursor.ofTokens limit tokens).statements.2
    let errors := (parse limit tokens).errors
    last.index = stop ∧ last.ahead = [] ∧
    (parse limit tokens).statements.length + errors.length ≤ stop ∧
    (∀ e ∈ errors, e.index ≤ stop ∧
      e.place = (tokens[e.index]?.getD (.endMark (Cursor.markOf tokens))).place) ∧
    errors.Pairwise (·.index ≤ ·.index) ∧ (1 ≤ limit → errors.Pairwise (·.index < ·.index)) := by
  intro stop last errors
  have hlength : (Cursor.ofTokens limit tokens).ahead.length = stop :=
    Cursor.length_ahead_ofTokens limit tokens
  have hroom : (Cursor.ofTokens limit tokens).room = limit := Nat.sub_zero limit
  obtain ⟨hpass, hcount⟩ :=
    Cursor.statementsWithin_passes (Nat.le_refl (Cursor.ofTokens limit tokens).ahead.length)
  refine ⟨?_, ?_, ?_, ?_, ?_, ?_⟩
  · calc
      last.index = 0 + (Cursor.ofTokens limit tokens).ahead.length := hpass.index_eq
      _ = stop := by rw [hlength, Nat.zero_add]
  · have hlen : (Cursor.ofTokens limit tokens).ahead.length =
        (Cursor.ofTokens limit tokens).ahead.length + last.ahead.length := hpass.length_eq
    exact List.length_eq_zero_iff.mp (by omega)
  · calc
      (parse limit tokens).statements.length + errors.length ≤
          (Cursor.ofTokens limit tokens).ahead.length := hcount
      _ = stop := hlength
  · intro e he
    obtain ⟨ts, d, hm, hindex, hplace⟩ := Cursor.moves_of_mem_errors he
    have hle : d.index ≤ stop := by
      have hlen := hm.length_eq
      have hd : d.index = 0 + ts.length := hm.index_eq
      omega
    rw [hindex, hplace]
    exact ⟨hle, hm.current_ofTokens⟩
  · refine Cursor.pairwise_errors (fun {c d e} _ _ h n e' he' => ?_) _ hroom
    obtain ⟨us, hus⟩ := Cursor.moves_recover c.index d
    calc
      e.index = d.index := Cursor.index_of_statement_error h
      _ ≤ (d.recover c.index).index := by rw [hus.index_eq]; exact Nat.le_add_right _ _
      _ ≤ e'.index := Cursor.index_le_of_mem_errors he'
  · intro hlimit
    refine Cursor.pairwise_errors (fun {c d e} hc hne h n e' he' => ?_) _ hroom
    exact Cursor.lt_index_of_recover (by omega) hne h he'

/-- The tokens of `) x = if (y; else if` with an end mark in the middle and none at the end:
failures that pass no token, that stop before an `if`, and that stop at the end mark. -/
def brokenTokens : List Token :=
  placed 0 [(.rparen, ")"), (.identifier, "x"), (.assign, "="), (.ifWord, "if"), (.lparen, "("),
    (.identifier, "y"), (.semicolon, ";"), (.elseWord, "else"), (.ifWord, "if"), (.endMark, ""),
    (.identifier, "z")]

-- Where no level may be opened, the `if` that ends one statement and cannot start the next is
-- reported for both.
theorem brokenTokens_reported_in_order :
    (Cursor.ofTokens 1 brokenTokens).statements.2.index = 9 ∧
    (parse 1 brokenTokens).errors.length = 5 ∧
    (∃ e ∈ (parse 1 brokenTokens).errors, e.index ≤ 9 ∧
      e.place = (brokenTokens[e.index]?.getD (.endMark (Cursor.markOf brokenTokens))).place) ∧
    (parse 1 brokenTokens).errors.Pairwise (·.index < ·.index) ∧
    (parse 0 brokenTokens).errors.map (·.index) = [0, 3, 3, 6, 7, 8] ∧
    (parse 0 brokenTokens).errors.Pairwise (·.index ≤ ·.index) := by
  obtain ⟨hstop, -, -, hplaces, -, hstrict⟩ := parse_reports_in_order 1 brokenTokens
  obtain ⟨-, -, -, -, hweak, -⟩ := parse_reports_in_order 0 brokenTokens
  have hmark : brokenTokens.findIdx (·.kind = .endMark) = 9 := by decide
  have hcount : (parse 1 brokenTokens).errors.length = 5 := by decide +kernel
  rw [hmark] at hstop hplaces
  obtain ⟨e, he⟩ := List.exists_mem_of_length_pos (Nat.lt_of_lt_of_eq (by decide) hcount.symm)
  refine ⟨hstop, hcount, ⟨e, he, hplaces e he⟩, hstrict (Nat.le_refl 1), ?_, hweak⟩
  decide +kernel

end StackLang
