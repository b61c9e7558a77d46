import StackLang.Parser.Outcome

namespace StackLang

namespace Cursor

/-- How many more levels may be opened. -/
def room (c : Cursor) : Nat := c.limit - c.depth

/-- The same place one level deeper. -/
def deeper (c : Cursor) : Cursor := { c with depth := c.depth + 1 }

/-- `c.Moves ts d`: passing the tokens `ts` leads from `c` to `d`. -/
inductive Moves : Cursor → List Token → Cursor → Prop where
  | nil (c : Cursor) : Moves c [] c
  | cons {c d : Cursor} {t : Token} {ts rest : List Token} : c.ahead = t :: rest →
    Moves c.advance ts d → Moves c (t :: ts) d

theorem current_of_ahead {c : Cursor} {t : Token} {rest : List Token} (h : c.ahead = t :: rest) :
    c.current = t := by
  simp only [current, h, List.head?_cons, Option.getD_some]

theorem advance_of_ahead {c : Cursor} {t : Token} {rest : List Token} (h : c.ahead = t :: rest) :
    c.advance = { c with index := c.index + 1, previous := some t, ahead := rest } := by
  simp only [advance, h]

/-- A token that is not the end mark is the first of those ahead. -/
theorem ahead_of_current {c : Cursor} {kind : Kind} (h : c.current.kind = kind)
    (hk : kind ≠ .endMark) : ∃ rest, c.ahead = c.current :: rest := by
  cases ha : c.ahead with
  | nil =>
    have hc : c.current.kind = .endMark := by simp only [current, ha]; rfl
    exact absurd (h.symm.trans hc) hk
  | cons t rest => exact ⟨rest, by rw [current_of_ahead ha]⟩

theorem room_advance (c : Cursor) : c.advance.room = c.room := by
  cases ha : c.ahead with
  | nil => simp only [advance, ha]
  | cons t rest =>
    rw [advance_of_ahead ha]
    rfl

theorem deeper_advance (c : Cursor) : c.deeper.advance = c.advance.deeper := by
  have hd : c.deeper.ahead = c.ahead := rfl
  cases ha : c.ahead with
  | nil => simp only [advance, hd, ha]
  | cons t rest =>
    rw [advance_of_ahead ha, advance_of_ahead (hd.trans ha)]
    rfl

theorem room_deeper (c : Cursor) : c.deeper.room = c.room - 1 := by
  simp only [room, deeper]
  omega

namespace Moves

variable {c d e : Cursor} {t : Token} {ts us : List Token}

/-- The token that is next is passed by one step. -/
theorem next {kind : Kind} (h : c.current.kind = kind) (hk : kind ≠ .endMark) :
    c.Moves [c.current] c.advance := by
  obtain ⟨rest, ha⟩ := ahead_of_current h hk
  exact .cons ha (.nil _)

theorem trans (h : c.Moves ts d) (hd : d.Moves us e) : c.Moves (ts ++ us) e := by
  induction h with
  | nil => exact hd
  | cons ha _ ih => exact .cons ha (ih hd)

theorem split (h : c.Moves (ts ++ us) e) : ∃ d, c.Moves ts d ∧ d.Moves us e := by
  induction ts generalizing c with
  | nil => exact ⟨c, .nil c, h⟩
  | cons t ts ih =>
    cases h with
    | cons ha h =>
      obtain ⟨d, hts, hus⟩ := ih h
      exact ⟨d, .cons ha hts, hus⟩

theorem uncons (h : c.Moves (t :: ts) e) : c.current = t ∧ c.advance.Moves ts e := by
  cases h with
  | cons ha h => exact ⟨current_of_ahead ha, h⟩

theorem single (h : c.Moves [t] d) : c.current = t ∧ d = c.advance := by
  obtain ⟨ht, hd⟩ := h.uncons
  cases hd
  exact ⟨ht, rfl⟩

theorem ahead_eq (h : c.Moves ts d) : c.ahead = ts ++ d.ahead := by
  induction h with
  | nil => rfl
  | cons ha _ ih =>
    rw [advance_of_ahead ha] at ih
    rw [ha, List.cons_append]
    exact congrArg _ ih

/-- The tokens ahead can be passed one after the other. -/
theorem of_ahead {rest : List Token} (h : c.ahead = ts ++ rest) :
    ∃ d, c.Moves ts d ∧ d.ahead = rest := by
  induction ts generalizing c with
  | nil => exact ⟨c, .nil c, h⟩
  | cons t ts ih =>
    have ha : c.advance.ahead = ts ++ rest := by
      rw [advance_of_ahead (List.cons_append ▸ h)]
    obtain ⟨d, hd, hr⟩ := ih ha
    exact ⟨d, .cons h hd, hr⟩

theorem length_eq (h : c.Moves ts d) : c.ahead.length = ts.length + d.ahead.length := by
  rw [h.ahead_eq, List.length_append]

theorem room_eq (h : c.Moves ts d) : d.room = c.room := by
  induction h with
  | nil => rfl
  | cons _ _ ih => exact ih.trans (room_advance _)

theorem deeper (h : c.Moves ts d) : c.deeper.Moves ts d.deeper := by
  induction h with
  | nil c => exact .nil c.deeper
  | cons ha _ ih => exact .cons ha (by rwa [deeper_advance])

/-- A move one level deeper is a move of the level above. -/
theorem of_deeper (h : c.deeper.Moves ts d) : ∃ e, d = e.deeper ∧ c.Moves ts e := by
  induction ts generalizing c with
  | nil =>
    cases h
    exact ⟨c, rfl, .nil c⟩
  | cons t ts ih =>
    cases h with
    | cons ha h =>
      rw [deeper_advance] at h
      obtain ⟨e, rfl, hm⟩ := ih h
      exact ⟨e, rfl, .cons ha hm⟩

end Moves

section Statements

variable {c d : Cursor} {t : Token} {rest : List Token} (n : Nat)

theorem statementsWithin_of_nil (ha : c.ahead = []) : c.statementsWithin n = (⟨[], []⟩, c) := by
  cases n with
  | zero => rfl
  | succ n => simp only [statementsWithin, ha]

theorem statementsWithin_of_semicolon (ha : c.ahead = t :: rest) (ht : t.kind = .semicolon) :
    c.statementsWithin (n + 1) = c.advance.statementsWithin n := by
  rw [statementsWithin]
  simp only [ha, ht, if_true]

theorem statementsWithin_of_ok {s : Tree} (ha : c.ahead = t :: rest) (ht : t.kind ≠ .semicolon)
    (h : c.statement = .ok s d) : (c.statementsWithin (n + 1)).1 =
      ⟨s :: (d.statementsWithin n).1.statements, (d.statementsWithin n).1.errors⟩ := by
  rw [statementsWithin]
  simp only [ha, ht, if_false, h]

theorem statementsWithin_of_error {e : SyntaxError} (ha : c.ahead = t :: rest)
    (ht : t.kind ≠ .semicolon) (h : c.statement = .error e d) :
    (c.statementsWithin (n + 1)).1 =
      ⟨((d.recover c.index).statementsWithin n).1.statements,
        e :: ((d.recover c.index).statementsWithin n).1.errors⟩ := by
  rw [statementsWithin]
  simp only [ha, ht, if_false, h]

end Statements

end Cursor

namespace Parser

open Cursor

variable {α β : Type} {c d : Cursor}

theorem bind_of_ok {p : Parser α} {a : α} (h : p c = .ok a d) (f : α → Parser β) :
    (p >>= f) c = f a d := by
  change EStateM.bind p f c = f a d
  unfold EStateM.bind
  rw [h]

theorem bind_of_error {p : Parser α} {e : SyntaxError} (h : p c = .error e d)
    (f : α → Parser β) : (p >>= f) c = .error e d := by
  change EStateM.bind p f c = .error e d
  unfold EStateM.bind
  rw [h]

theorem bind_eq_ok {p : Parser α} {f : α → Parser β} {b : β} (h : (p >>= f) c = .ok b d) :
    ∃ a e, p c = .ok a e ∧ f a e = .ok b d := by
  cases hp : p c with
  | ok a e => exact ⟨a, e, rfl, (bind_of_ok hp f).symm.trans h⟩
  | error e s =>
    rw [bind_of_error hp f] at h
    cases h

theorem peek_eq (c : Cursor) : peek c = .ok c.current c := rfl

theorem advance_eq (c : Cursor) : advance c = .ok () c.advance := rfl

theorem expect_of_kind {kind : Kind} (expected : Expectation) (h : c.current.kind = kind) :
    expect kind expected c = .ok c.current c.advance := by
  rw [expect, bind_of_ok (peek_eq c), if_pos h, bind_of_ok (advance_eq c)]
  rfl

theorem expect_eq_ok {kind : Kind} {expected : Expectation} {t : Token}
    (h : expect kind expected c = .ok t d) :
    c.current.kind = kind ∧ t = c.current ∧ d = c.advance := by
  by_cases hk : c.current.kind = kind
  · rw [expect_of_kind expected hk] at h
    cases h
    exact ⟨hk, rfl, rfl⟩
  · rw [expect, bind_of_ok (peek_eq c), if_neg hk] at h
    cases h

theorem eat_of_kind {kind : Kind} (h : c.current.kind = kind) :
    eat kind c = .ok true c.advance := by
  rw [eat, bind_of_ok (peek_eq c), if_pos h, bind_of_ok (advance_eq c)]
  rfl

theorem eat_of_ne {kind : Kind} (h : c.current.kind ≠ kind) : eat kind c = .ok false c := by
  rw [eat, bind_of_ok (peek_eq c), if_neg h]
  rfl

theorem eatSign_of_some {op : Type} {signs : List (Sign × op)} {s : Sign} {o : op}
    (h : c.current.kind = .sign s) (ho : signs.lookup s = some o) :
    eatSign signs c = .ok (some o) c.advance := by
  rw [eatSign, bind_of_ok (peek_eq c)]
  simp only [h, ho]
  rfl

theorem eatSign_of_none {op : Type} {signs : List (Sign × op)}
    (h : ∀ s, c.current.kind = .sign s → signs.lookup s = none) :
    eatSign signs c = .ok none c := by
  rw [eatSign, bind_of_ok (peek_eq c)]
  cases hk : c.current.kind with
  | sign s =>
    simp only [h s hk]
    rfl
  | _ => rfl

/-- Either a sign of the table is passed, or nothing is and no such sign is next. -/
theorem eatSign_eq_ok {op : Type} {signs : List (Sign × op)} {r : Option op}
    (h : eatSign signs c = .ok r d) :
    (∃ s o, c.current.kind = .sign s ∧ signs.lookup s = some o ∧ r = some o ∧ d = c.advance) ∨
      (r = none ∧ d = c) := by
  by_cases hs : ∃ s o, c.current.kind = .sign s ∧ signs.lookup s = some o
  · obtain ⟨s, o, hk, ho⟩ := hs
    rw [eatSign_of_some hk ho] at h
    cases h
    exact .inl ⟨s, o, hk, ho, rfl, rfl⟩
  · have hn : ∀ s, c.current.kind = .sign s → signs.lookup s = none := by
      intro s hk
      cases ho : signs.lookup s with
      | none => rfl
      | some o => exact absurd ⟨s, o, hk, ho⟩ hs
    rw [eatSign_of_none hn] at h
    cases h
    exact .inr ⟨rfl, rfl⟩

theorem nested_of_ok {p : Parser α} {a : α} (hr : 0 < c.room) (h : p c.deeper = .ok a d.deeper) :
    nested p c = .ok a d := by
  have hd : ¬ c.limit ≤ c.depth := by
    simp only [room] at hr
    omega
  have hp : p { c with depth := c.depth + 1 } = .ok a d.deeper := h
  rw [nested, if_neg hd, hp]
  rfl

/-- A parser that runs one level deeper and passes tokens there passes them here. -/
theorem nested_eq_ok {p : Parser α} {a : α} (h : nested p c = .ok a d) :
    0 < c.room ∧ ∃ e, p c.deeper = .ok a e ∧ e.current = d.current ∧
      ∀ ts, c.deeper.Moves ts e → c.Moves ts d := by
  by_cases hd : c.limit ≤ c.depth
  · rw [nested, if_pos hd] at h
    cases h
  · rw [nested, if_neg hd] at h
    refine ⟨by simp only [room]; omega, ?_⟩
    cases hp : p { c with depth := c.depth + 1 } with
    | error e s =>
      rw [hp] at h
      cases h
    | ok b e =>
      rw [hp] at h
      cases h
      refine ⟨e, hp, rfl, ?_⟩
      intro ts hm
      obtain ⟨d, rfl, hd⟩ := hm.of_deeper
      exact hd

end Parser

end StackLang
