import StackLang.Proofs.Lookahead
import Mathlib.Data.List.TakeWhile

namespace StackLang

namespace Cursor

variable {x : Surplus} {c d : Cursor}

theorem toBoundary_le (previous : Option Token) (ts : List Token) :
    toBoundary previous ts ≤ ts.length := by
  induction ts generalizing previous with
  | nil => exact Nat.le_refl 0
  | cons t ts ih =>
    rw [toBoundary, List.length_cons]
    split
    · exact Nat.zero_le _
    · exact Nat.succ_le_succ (ih (some t))

/-- A boundary is found before `rest`, since the place after a semicolon is one. -/
theorem toBoundary_append {previous : Option Token} {ts rest : List Token}
    (h : rest = [] ∨ Ended ts ∨ ts = [] ∧ previous.any (·.kind = .semicolon)) :
    toBoundary previous (ts ++ rest) = toBoundary previous ts := by
  induction ts generalizing previous with
  | nil =>
    rcases h with rfl | he | ⟨_, hp⟩
    · rfl
    · exact absurd he not_ended_nil
    · cases rest with
      | nil => rfl
      | cons u us => simp only [List.nil_append, toBoundary, hp, Bool.true_or, if_true]
  | cons t ts ih =>
    have htail : rest = [] ∨ Ended ts ∨ ts = [] ∧ (some t).any (·.kind = .semicolon) := by
      rcases h with hr | he | ⟨hn, _⟩
      · exact .inl hr
      · refine .inr (he.tail_or_nil.imp_right fun ⟨hn, ht⟩ => ⟨hn, ?_⟩)
        simp only [Option.any_some, ht, decide_true]
      · cases hn
    rw [List.cons_append, toBoundary, toBoundary, ih htail]

theorem Parted.advanceBy {n : Nat} (h : Parted x c d) (hn : n ≤ c.ahead.length) :
    Parted x (c.advanceBy n) (d.advanceBy n) := by
  induction n generalizing c d with
  | zero => exact h
  | succ n ih =>
    cases ha : c.ahead with
    | nil => simp [ha] at hn
    | cons t ts =>
      rw [ha, List.length_cons] at hn
      refine ih (h.advance ha) ?_
      rw [advance_of_ahead ha]
      exact Nat.le_of_succ_le_succ hn

/-- Both sides recover at the same place, from a failure of a statement that they started
together. -/
theorem Beside.recover {c₀ d₀ : Cursor} {t : Token} {ts us : List Token}
    (h₀ : Beside x c₀ d₀) (ha : c₀.ahead = t :: ts) (ht : t.kind ≠ .semicolon)
    (hm : c₀.Moves us c) (h : Beside x c d) :
    Parted x (c.recover c₀.index) (d.recover d₀.index) := by
  have hskip {c d : Cursor} (h : Beside x c d) (hp : d.previous = c.previous) :
      Parted x (c.advanceBy (toBoundary c.previous c.ahead))
        (d.advanceBy (toBoundary d.previous d.ahead)) := by
    rw [hp, h.ahead, toBoundary_append (h.guarded.imp_right .inl)]
    exact h.parted.advanceBy (toBoundary_le _ _)
  have hindex : d.index = d₀.index ↔ c.index = c₀.index := by
    rw [h.index, h₀.index]
    omega
  by_cases hi : c.index = c₀.index
  · -- Nothing was passed, so the failure is at the first token and that one is passed.
    have hus : us.length = 0 := by
      have := hm.index_eq
      omega
    obtain rfl := List.length_eq_zero_iff.mp hus
    cases hm
    have hd : d.ahead = t :: (ts ++ x.rest) := by rw [h.ahead, ha, List.cons_append]
    rw [Cursor.recover, Cursor.recover, if_pos hi, if_pos (hindex.mpr hi)]
    refine hskip (h.advance ha ht) ?_
    rw [advance_of_ahead ha, advance_of_ahead hd]
  · rw [Cursor.recover, Cursor.recover, if_neg hi, if_neg fun hd => hi (hindex.mp hd)]
    refine hskip h (h.previous.resolve_left ?_)
    -- Something was passed, so the last token of it is known.
    rw [hm.previous_eq]
    cases us with
    | nil =>
      cases hm
      exact absurd rfl hi
    | cons u us => simp [List.getLast?_cons]

end Cursor

namespace Outcome

/-- What two sequences of statements give one after the other. -/
def append (o o' : Outcome) : Outcome := ⟨o.statements ++ o'.statements, o.errors ++ o'.errors⟩

/-- The same outcome with `k` more tokens in front. -/
def shift (k : Nat) (o : Outcome) : Outcome := { o with errors := o.errors.map (.shift k) }

theorem append_nil (o : Outcome) : o.append ⟨[], []⟩ = o := by
  simp only [append, List.append_nil]

theorem shift_zero (o : Outcome) : o.shift 0 = o := by
  have hid : SyntaxError.shift 0 = id := rfl
  simp only [shift, hid, List.map_id]

end Outcome

namespace Cursor

variable {x : Surplus} {c d : Cursor}

/-- Where the tokens before `rest` end does not depend on how far they have been passed. -/
theorem Aligned.advanceBy_eq {c' d' : Cursor} {ts : List Token} (h : Aligned x c d)
    (h' : Aligned x c' d') (hm : d.Moves ts d') :
    d.advanceBy c.ahead.length = d'.advanceBy c'.ahead.length := by
  have hlen := hm.length_eq
  rw [h.ahead, h'.ahead, List.length_append, List.length_append] at hlen
  have hc : c.ahead.length = ts.length + c'.ahead.length := by omega
  rw [hc, advanceBy_add, ← hm.eq_advanceBy]

/-- The statements of the first run are parsed in the second run as if they were alone, and then
come those that only the second one has. Where the first run is cut off the second one may differ,
unless both may open as many levels. -/
theorem Parted.statements_eq (helse : ∀ t ∈ x.rest.head?, t.kind ≠ .elseWord)
    (h : Parted x c d)
    (hcut : x.levels = 0 ∨ ∀ e ∈ c.statements.1.errors, ∀ n, e.cause ≠ .tooDeep n) :
    d.statements.1 =
      (c.statements.1.shift x.passed).append (d.advanceBy c.ahead.length).statements.1 := by
  generalize hn : c.ahead.length = n
  induction n using Nat.strongRecOn generalizing c d with
  | _ n ih =>
  subst hn
  cases ha : c.ahead with
  | nil =>
    rw [statements_of_nil ha]
    rfl
  | cons t ts =>
    have hd : d.ahead = t :: (ts ++ x.rest) := by rw [h.ahead, ha, List.cons_append]
    rw [← ha]
    by_cases ht : t.kind = .semicolon
    · -- A stray semicolon is dropped on both sides.
      have hlt : c.advance.ahead.length < c.ahead.length :=
        length_lt_of_moves (.cons ha (.nil _))
      have hstop := h.toAligned.advanceBy_eq (h.toAligned.advance ha) (.cons hd (.nil _))
      rw [statements_of_semicolon ha ht] at hcut ⊢
      rw [statements_of_semicolon hd ht, hstop]
      exact ih _ hlt (h.advance ha) hcut rfl
    · have hbeside : Beside x c d := by
        refine ⟨h.toAligned, h.guarded.imp_right fun hg => hg.resolve_right ?_⟩
        simp [ha]
      have hphrase := Parser.follow_phrase helse c.ahead.length .statement c d
        ⟨Nat.le_refl _, hbeside⟩
      rw [← List.length_append, ← h.ahead] at hphrase
      change Parser.Matches x _ c.statement d.statement at hphrase
      generalize hc : c.statement = r at hphrase
      generalize hs : d.statement = r' at hphrase
      cases hphrase with
      | @ok s c' d' hr =>
        rw [statements_of_ok ha ht hc] at hcut ⊢
        obtain ⟨_, _, hm⟩ := moves_of_statement_ok hc
        obtain ⟨_, _, hm'⟩ := moves_of_statement_ok hs
        have hstop := h.toAligned.advanceBy_eq hr.2.toAligned hm'
        have hrest := ih _ (length_lt_of_moves hm) hr.2 hcut rfl
        rw [statements_of_ok hd ht hs, hrest, hstop]
        rfl
      | @error e c' d' hb =>
        rw [statements_of_error ha ht hc] at hcut ⊢
        obtain ⟨_, hfail⟩ := moves_of_statement_error hc
        obtain ⟨_, _, hm⟩ := moves_of_recover (by simp [ha]) hc
        obtain ⟨_, _, hm'⟩ := moves_of_recover (by simp [hd]) hs
        have hr := hbeside.recover ha ht hfail hb
        have hstop := h.toAligned.advanceBy_eq hr.toAligned hm'
        have hcut' := hcut.imp_right fun hcut e he => hcut e (List.mem_cons_of_mem _ he)
        have hrest := ih _ (length_lt_of_moves hm) hr hcut' rfl
        rw [statements_of_error hd ht hs, hrest, hstop]
        rfl
      | @cut e limit c' _ hl he =>
        -- The statement was cut off, which is one of the errors.
        rw [statements_of_error ha ht hc] at hcut
        rcases hcut with hcut | hcut
        · omega
        · exact absurd he (hcut e List.mem_cons_self limit)

/-- Where nothing follows, only the indices of errors differ. -/
theorem Parted.statements_shift (h : Parted x c d) (hrest : x.rest = [])
    (hcut : x.levels = 0 ∨ ∀ e ∈ c.statements.1.errors, ∀ n, e.cause ≠ .tooDeep n) :
    d.statements.1 = c.statements.1.shift x.passed := by
  have hd : d.ahead = c.ahead ++ [] := by rw [h.ahead, hrest]
  obtain ⟨d', hm, hnil⟩ := Moves.of_ahead hd
  rw [h.statements_eq (by simp [hrest]) hcut, ← hm.eq_advanceBy, statements_of_nil hnil,
    Outcome.append_nil]

end Cursor

theorem Cursor.ahead_ofTokens (limit : Nat) {tokens : List Token}
    (h : ∀ t ∈ tokens, t.kind ≠ .endMark) : (Cursor.ofTokens limit tokens).ahead = tokens := by
  change tokens.takeWhile (·.kind ≠ .endMark) = tokens
  rw [List.takeWhile_eq_self_iff]
  intro t ht
  exact decide_eq_true (h t ht)

theorem Cursor.markOf_append {before after : List Token} (hbefore : ∀ t ∈ before, t.kind ≠ .endMark)
    (hne : after ≠ []) : Cursor.markOf (before ++ after) = Cursor.markOf after := by
  have hfind : before.find? (·.kind = .endMark) = none := by
    rw [List.find?_eq_none]
    intro t ht
    simpa using hbefore t ht
  obtain ⟨t, ht⟩ := Option.ne_none_iff_exists'.mp (mt List.getLast?_eq_none_iff.mp hne)
  simp only [markOf, placeAfter, List.find?_append, hfind, Option.none_or, List.getLast?_append, ht,
    Option.some_or]

/-- Parsing goes on after a semicolon as if nothing had been before it: a sequence that a semicolon
ends, followed by one that no `else` starts, gives the statements of the one and then those of the
other, and likewise their errors. Only the indices of the later errors count the tokens before. -/
theorem parse_append (limit : Nat) {before after : List Token}
    (hbefore : ∀ t ∈ before, t.kind ≠ .endMark) (hafter : ∀ t ∈ after, t.kind ≠ .endMark)
    (hend : Ended before) (helse : ∀ t ∈ after.head?, t.kind ≠ .elseWord) :
    (parse limit (before ++ after)).statements =
        (parse limit before).statements ++ (parse limit after).statements ∧
      (parse limit (before ++ after)).errors =
        (parse limit before).errors ++ (parse limit after).errors.map (.shift before.length) := by
  suffices h : parse limit (before ++ after) =
      (parse limit before).append ((parse limit after).shift before.length) by
    rw [h]
    exact ⟨rfl, rfl⟩
  have hboth : ∀ t ∈ before ++ after, t.kind ≠ .endMark :=
    List.forall_mem_append.mpr ⟨hbefore, hafter⟩
  have ha := Cursor.ahead_ofTokens limit hbefore
  -- The first part is followed by the second one and starts at the same index.
  have hfirst : Cursor.Parted ⟨0, after, 0⟩ (.ofTokens limit before)
      (.ofTokens limit (before ++ after)) := by
    refine ⟨⟨?_, rfl, .inl rfl, rfl, rfl, ?_⟩, .inr (.inl (by rwa [ha]))⟩
    · rw [ha, Cursor.ahead_ofTokens limit hboth]
    · intro hnil
      dsimp only at hnil
      rw [hnil, List.append_nil]
  have hsplit := hfirst.statements_eq helse (.inl rfl)
  rw [ha] at hsplit
  obtain ⟨d, hd, hahead⟩ := Cursor.Moves.of_ahead (Cursor.ahead_ofTokens limit hboth)
  rw [← hd.eq_advanceBy] at hsplit
  -- The second part is followed by nothing and starts later.
  have hsecond : d.statements.1 = (parse limit after).shift before.length := by
    cases after with
    | nil =>
      rw [Cursor.statements_of_nil hahead]
      rfl
    | cons t ts =>
      have hmark := Cursor.markOf_append hbefore (List.cons_ne_nil t ts)
      obtain ⟨hdepth, hlimit, hm⟩ := hd.frame
      have hparted : Cursor.Parted ⟨before.length, [], 0⟩ (.ofTokens limit (t :: ts)) d := by
        refine ⟨⟨?_, ?_, .inl rfl, hdepth, hlimit, fun _ => hm.trans hmark⟩, .inl rfl⟩
        · rw [hahead, Cursor.ahead_ofTokens limit hafter, List.append_nil]
        · rw [hd.index_eq]
          rfl
      exact hparted.statements_shift rfl (.inl rfl)
  rwa [hsecond, Outcome.shift_zero] at hsplit

/-- Words as tokens, with the places that they have from the given offset on. -/
def placed (offset : Nat) (words : List (Kind × String)) : List Token :=
  words.mapIdx fun i (kind, lexeme) =>
    ⟨kind, lexeme, ⟨⟨offset + i, offset + i + 1⟩, 1, offset + i + 1⟩⟩

/-- The tokens of `x = ; y = 1 if (y z = 2;`: a fault before a statement and one in the last. -/
def faultyStart : List Token :=
  placed 0 [(.identifier, "x"), (.assign, "="), (.semicolon, ";"), (.identifier, "y"),
    (.assign, "="), (.number, "1"), (.ifWord, "if"), (.lparen, "("), (.identifier, "y"),
    (.identifier, "z"), (.assign, "="), (.number, "2"), (.semicolon, ";")]

/-- The tokens of `) ; if (y) w = ((y)) w = y`: a first token that starts nothing, and a nesting
that a limit of two levels cuts, so that what is inside it is taken for a statement. -/
def faultyRest : List Token :=
  placed 13 [(.rparen, ")"), (.semicolon, ";"), (.ifWord, "if"), (.lparen, "("),
    (.identifier, "y"), (.rparen, ")"), (.identifier, "w"), (.assign, "="), (.lparen, "("),
    (.lparen, "("), (.identifier, "y"), (.rparen, ")"), (.rparen, ")"), (.identifier, "w"),
    (.assign, "="), (.identifier, "y")]

theorem parse_append_faulty :
    (parse 2 faultyStart).errors.length = 2 ∧ (parse 2 faultyRest).errors.length = 3 ∧
      (parse 2 (faultyStart ++ faultyRest)).statements =
        (parse 2 faultyStart).statements ++ (parse 2 faultyRest).statements ∧
      (parse 2 (faultyStart ++ faultyRest)).errors =
        (parse 2 faultyStart).errors ++ (parse 2 faultyRest).errors.map (.shift 13) := by
  have hend : Ended faultyStart := ⟨faultyStart.dropLast, _, rfl, rfl⟩
  exact ⟨by decide +kernel, by decide +kernel,
    parse_append 2 (by decide) (by decide) hend (by decide)⟩

end StackLang
