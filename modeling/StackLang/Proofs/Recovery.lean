import StackLang.Proofs.ParserProgress

/-! The loop over statements. Every turn of it passes a token, also one that fails, so the bound
on the number of turns is never what ends the loop. -/
namespace StackLang

namespace Cursor

section AdvanceBy

variable {c d : Cursor} {ts : List Token}

theorem advanceBy_add (c : Cursor) (m n : Nat) :
    c.advanceBy (m + n) = (c.advanceBy m).advanceBy n := by
  induction m generalizing c with
  | zero => rw [Nat.zero_add]; rfl
  | succ m ih =>
    rw [Nat.succ_add]
    exact ih c.advance

theorem Moves.eq_advanceBy (h : c.Moves ts d) : d = c.advanceBy ts.length := by
  induction h with
  | nil => rfl
  | cons _ _ ih => exact ih

theorem Moves.index_eq (h : c.Moves ts d) : d.index = c.index + ts.length := by
  induction h with
  | nil => rfl
  | cons ha _ ih =>
    rw [ih, advance_of_ahead ha, List.length_cons]
    dsimp only
    omega

/-- Passing tokens changes neither the level nor the end of the tokens. -/
theorem Moves.frame (h : c.Moves ts d) :
    d.depth = c.depth ∧ d.limit = c.limit ∧ d.mark = c.mark := by
  induction h with
  | nil => exact ⟨rfl, rfl, rfl⟩
  | cons ha _ ih =>
    rw [advance_of_ahead ha] at ih
    exact ih

/-- A cursor that has passed something remembers the last token of it. -/
theorem Moves.previous_eq (h : c.Moves ts d) : d.previous = ts.getLast?.or c.previous := by
  induction h with
  | nil => rfl
  | @cons c d t ts rest ha _ ih =>
    rw [ih, advance_of_ahead ha]
    simp only [List.getLast?_cons]
    cases ts.getLast? <;> rfl

end AdvanceBy

variable {c d : Cursor}

theorem moves_of_statement_ok {s : Tree} (h : c.statement = .ok s d) :
    ∃ t ts, c.Moves (t :: ts) d := by
  obtain ⟨ts, k, hts, hm, _⟩ := (Grammar.phrase_sound _).statement _ _ _ h
  obtain ⟨t, us, rfl, _⟩ := hts.first
  exact ⟨t, us, hm⟩

theorem moves_of_statement_error {e : SyntaxError} (h : c.statement = .error e d) :
    ∃ ts, c.Moves ts d := by
  obtain ⟨ts, hts⟩ := Parser.advances_phrase c.ahead.length .statement c
  have hphrase : Parser.phrase c.ahead.length .statement c = .error e d := h
  rw [hphrase] at hts
  exact ⟨ts, hts⟩

/-- A failure that passed no token passes one in the recovery, so a failed turn passes some. -/
theorem moves_of_recover {e : SyntaxError} (hne : c.ahead ≠ []) (h : c.statement = .error e d) :
    ∃ t ts, c.Moves (t :: ts) (d.recover c.index) := by
  obtain ⟨ts, hts⟩ := moves_of_statement_error h
  cases ts with
  | cons t ts =>
    obtain ⟨us, hus⟩ := moves_recover c.index d
    exact ⟨t, ts ++ us, hts.trans hus⟩
  | nil =>
    cases hts
    obtain ⟨t, rest, ha⟩ := List.exists_cons_of_ne_nil hne
    obtain ⟨us, hus⟩ := moves_advanceBy c.advance (toBoundary c.advance.previous c.advance.ahead)
    refine ⟨t, us, .cons ha ?_⟩
    rw [recover, if_pos rfl]
    exact hus

theorem length_lt_of_moves {t : Token} {ts : List Token} (h : c.Moves (t :: ts) d) :
    d.ahead.length < c.ahead.length := by
  have hlen := h.length_eq
  rw [List.length_cons] at hlen
  omega

/-- The loop ends at the end of the tokens and not at its bound. -/
theorem statementsWithin_eq {n : Nat} (hn : c.ahead.length ≤ n) :
    c.statementsWithin n = c.statements := by
  -- Both bounds are enough, so every turn is made on both sides.
  suffices h : ∀ m, c.ahead.length ≤ m → c.statementsWithin n = c.statementsWithin m from
    h _ (Nat.le_refl _)
  induction n generalizing c with
  | zero =>
    intro m _
    have ha : c.ahead = [] := List.length_eq_zero_iff.mp (Nat.le_zero.mp hn)
    rw [statementsWithin_of_nil 0 ha, statementsWithin_of_nil m ha]
  | succ n ih =>
    intro m hm
    cases ha : c.ahead with
    | nil => rw [statementsWithin_of_nil (n + 1) ha, statementsWithin_of_nil m ha]
    | cons t rest =>
      have hne : c.ahead ≠ [] := by simp [ha]
      cases m with
      | zero => simp [ha] at hm
      | succ m =>
        -- What one turn leaves is shorter, and the smaller bounds are enough for it.
        have hrest {d : Cursor} (h : ∃ t ts, c.Moves (t :: ts) d) :
            d.statementsWithin n = d.statementsWithin m := by
          obtain ⟨t, ts, h⟩ := h
          have hlt := length_lt_of_moves h
          exact ih (by omega) m (by omega)
        by_cases ht : t.kind = .semicolon
        · rw [statementsWithin_of_semicolon n ha ht, statementsWithin_of_semicolon m ha ht]
          exact hrest ⟨t, [], .cons ha (.nil _)⟩
        · unfold statementsWithin
          simp only [ha, ht, if_false]
          cases hs : c.statement with
          | ok s d => simp only [hrest (moves_of_statement_ok hs)]
          | error e d => simp only [hrest (moves_of_recover hne hs)]

section Turns

variable {t : Token} {rest : List Token}

theorem statements_of_nil (ha : c.ahead = []) : c.statements.1 = ⟨[], []⟩ := by
  rw [statements, statementsWithin_of_nil _ ha]

theorem statements_of_semicolon (ha : c.ahead = t :: rest) (ht : t.kind = .semicolon) :
    c.statements = c.advance.statements := by
  have hlen : c.advance.ahead.length ≤ rest.length :=
    Nat.le_of_eq (by rw [advance_of_ahead ha])
  rw [statements, ha, List.length_cons, statementsWithin_of_semicolon _ ha ht,
    statementsWithin_eq hlen]

theorem statements_of_ok {s : Tree} (ha : c.ahead = t :: rest) (ht : t.kind ≠ .semicolon)
    (h : c.statement = .ok s d) :
    c.statements.1 = ⟨s :: d.statements.1.statements, d.statements.1.errors⟩ := by
  obtain ⟨u, us, hm⟩ := moves_of_statement_ok h
  have hlt := length_lt_of_moves hm
  rw [ha, List.length_cons] at hlt
  rw [statements, ha, List.length_cons, statementsWithin_of_ok _ ha ht h,
    statementsWithin_eq (Nat.le_of_lt_succ hlt)]

theorem statements_of_error {e : SyntaxError} (ha : c.ahead = t :: rest)
    (ht : t.kind ≠ .semicolon) (h : c.statement = .error e d) :
    c.statements.1 = ⟨(d.recover c.index).statements.1.statements,
      e :: (d.recover c.index).statements.1.errors⟩ := by
  obtain ⟨u, us, hm⟩ := moves_of_recover (by simp [ha]) h
  have hlt := length_lt_of_moves hm
  rw [ha, List.length_cons] at hlt
  rw [statements, ha, List.length_cons, statementsWithin_of_error _ ha ht h,
    statementsWithin_eq (Nat.le_of_lt_succ hlt)]

end Turns

end Cursor

end StackLang
