import StackLang.Report.Line
import StackLang.Proofs.Positions

/-! The line table of reports beside the lines and columns of positions. Positions count line
feeds; reports count every kind of line break, but no line after a final one. -/
namespace StackLang.Report

/-- Whether a line break is complete after `c`. A carriage return before a line feed is not. -/
def completes (c : Char) (next : List Char) : Bool :=
  isBreak c && !(c == '\r' && next.head? == some '\n')

/-- A line of the report starts between `c` and what comes next. -/
def EndsLine (c : Char) (next : List Char) : Prop := completes c next = true ∧ next ≠ []

instance (c : Char) (next : List Char) : Decidable (EndsLine c next) :=
  inferInstanceAs (Decidable (_ ∧ _))

theorem not_endsLine_nil (c : Char) : ¬ EndsLine c [] := fun h => h.2 rfl

theorem endsLine_feed {next : List Char} (h : next ≠ []) : EndsLine '\n' next := ⟨rfl, h⟩

/-- The line and the column, both from 0, that a report counts after the characters `front` when
`back` follows them. The count goes on from `point`. -/
def walk (back : List Char) (point : Nat × Nat) : List Char → Nat × Nat
  | [] => point
  | c :: front =>
    let next := if EndsLine c (front ++ back) then (point.1 + 1, 0) else (point.1, point.2 + 1)
    walk back next front

section Table

theorem split_nil (current : List Char) :
    split current [] = if current.isEmpty then [] else [current.reverse] := rfl

theorem split_cons (current : List Char) (c : Char) (cs : List Char) :
    split current (c :: cs) =
      if completes c cs then (c :: current).reverse :: split [] cs
      else split (c :: current) cs := by
  by_cases h : c = '\r' ∧ cs.head? = some '\n'
  · obtain ⟨rfl, hcs⟩ := h
    cases cs with
    | nil => cases hcs
    | cons d tail =>
      cases hcs
      rfl
  · have hcompletes : completes c cs = isBreak c := by
      have hpair : (c == '\r' && cs.head? == some '\n') = false := by
        simpa using h
      rw [completes, hpair, Bool.not_false, Bool.and_true]
    rw [hcompletes, split]
    rintro tail rfl rfl
    exact h ⟨rfl, rfl⟩

/-- The first line holds more than what was read of it before, or it is the only one. -/
theorem split_eq_cons (current : List Char) {cs : List Char} (h : current ≠ [] ∨ cs ≠ []) :
    ∃ l ls, split current cs = l :: ls ∧ (current.length < l.length ∨ ls = []) := by
  induction cs generalizing current with
  | nil =>
    have hcurrent : current.isEmpty = false := by simpa using h
    exact ⟨current.reverse, [], by rw [split_nil, hcurrent]; rfl, .inr rfl⟩
  | cons c cs ih =>
    rw [split_cons]
    split
    · exact ⟨_, _, rfl, .inl (by simp)⟩
    · obtain ⟨l, ls, hsplit, hlen⟩ := ih (c :: current) (.inl (by simp))
      refine ⟨l, ls, hsplit, hlen.imp_left ?_⟩
      intro hlen
      rw [List.length_cons] at hlen
      omega

theorem le_offset_of_mem_number {ls : List (List Char)} {i o : Nat} :
    ∀ l ∈ number i o ls, o ≤ l.offset := by
  induction ls generalizing i o with
  | nil => exact nofun
  | cons l ls ih =>
    intro m hm
    rcases List.mem_cons.mp hm with rfl | hm
    · exact Nat.le_refl o
    · have hle := ih m hm
      omega

/-- The last line that starts no later than the end of `front`, in the table of a line of which
`current` was read already and all that follows it. -/
theorem getLast?_number_split (current : List Char) {front back : List Char} (i o : Nat)
    (h : current ≠ [] ∨ front ++ back ≠ []) :
    ∃ l, ((number i o (split current (front ++ back))).filter
        (·.offset ≤ o + current.length + front.length)).getLast? = some l ∧
      l.offset ≤ o + current.length + front.length ∧
      walk back (i, current.length) front =
        (l.index, o + current.length + front.length - l.offset) := by
  induction front generalizing current i o with
  | nil =>
    obtain ⟨l, ls, hsplit, hlen⟩ := split_eq_cons current h
    have htail :
        (number (i + 1) (o + l.length) ls).filter (·.offset ≤ o + current.length) = [] := by
      rcases hlen with hlen | rfl
      · rw [List.filter_eq_nil_iff]
        intro m hm
        have hle := le_offset_of_mem_number m hm
        rw [decide_eq_true_eq]
        omega
      · rfl
    refine ⟨⟨i, o, l⟩, ?_, Nat.le_add_right _ _, ?_⟩
    · rw [hsplit, number, List.length_nil, Nat.add_zero, List.filter_cons_of_pos (by simp), htail]
      rfl
    · simp [walk]
  | cons c front ih =>
    have hlength : o + (current.length + 1) + front.length =
        o + current.length + (c :: front).length := by
      rw [List.length_cons]
      omega
    rw [List.cons_append, split_cons, walk]
    by_cases hc : completes c (front ++ back) = true
    · rw [if_pos hc]
      by_cases hnil : front ++ back = []
      · -- A break that ends the text starts no line.
        obtain ⟨rfl, rfl⟩ := List.append_eq_nil_iff.mp hnil
        have hlast : ¬ EndsLine c ([] ++ []) := not_endsLine_nil c
        rw [if_neg hlast]
        refine ⟨⟨i, o, (c :: current).reverse⟩, ?_, by dsimp only; omega, ?_⟩
        · simp [split_nil, number, Nat.add_assoc]
        · simp [walk, Nat.add_assoc]
      · obtain ⟨l, hlast, hle, hwalk⟩ := ih [] (i + 1) (o + (current.length + 1)) (.inr hnil)
        simp only [List.length_nil, Nat.add_zero, hlength] at hlast hle hwalk
        have hline : (c :: current).reverse.length = current.length + 1 := by simp
        refine ⟨l, ?_, hle, ?_⟩
        · rw [number, List.filter_cons_of_pos (by simp; omega), List.getLast?_cons, hline, hlast]
          rfl
        · rw [if_pos ⟨hc, hnil⟩]
          exact hwalk
    · obtain ⟨l, hlast, hle, hwalk⟩ := ih (c :: current) i o (.inl (by simp))
      rw [List.length_cons, hlength] at hlast hle hwalk
      rw [if_neg hc, if_neg fun h => hc h.1]
      exact ⟨l, hlast, hle, hwalk⟩

/-- Walking the text gives the line and the column that its table gives. -/
theorem lineAt?_append (front back : List Char) :
    ∃ l, lineAt? (front ++ back) front.length = some l ∧ l.offset ≤ front.length ∧
      walk back (0, 0) front = (l.index, front.length - l.offset) := by
  have hlen : ¬ (front ++ back).length < front.length := by simp
  rw [lineAt?, if_neg hlen, lines]
  by_cases hnil : front ++ back = []
  · obtain ⟨rfl, rfl⟩ := List.append_eq_nil_iff.mp hnil
    exact ⟨⟨0, 0, []⟩, rfl, Nat.le_refl 0, rfl⟩
  · have hempty : (front ++ back).isEmpty = false := List.isEmpty_eq_false_iff.mpr hnil
    have hlast := getLast?_number_split [] 0 0 (.inr hnil)
    simpa [hempty] using hlast

theorem lineAt?_eq_none_iff {source : List Char} {n : Nat} :
    lineAt? source n = none ↔ source.length < n := by
  constructor
  · intro h
    refine Nat.lt_of_not_le fun hle => ?_
    have hn : (source.take n).length = n := List.length_take_of_le hle
    obtain ⟨l, hl, -⟩ := lineAt?_append (source.take n) (source.drop n)
    rw [List.take_append_drop, hn, h] at hl
    cases hl
  · intro h
    rw [lineAt?, if_pos h]

end Table

section Walk

variable {back : List Char}

theorem walk_append (point : Nat × Nat) (front more : List Char) :
    walk back point (front ++ more) = walk back (walk (more ++ back) point front) more := by
  induction front generalizing point with
  | nil => rfl
  | cons c front ih =>
    rw [List.cons_append, walk, walk, ih, List.append_assoc]

/-- A walk goes forward. -/
theorem walk_forward (back : List Char) (point : Nat × Nat) (front : List Char) :
    walk back point front = point ∧ front = [] ∨ point.1 < (walk back point front).1 ∨
      point.1 = (walk back point front).1 ∧ point.2 < (walk back point front).2 := by
  induction front generalizing point with
  | nil => exact .inl ⟨rfl, rfl⟩
  | cons c front ih =>
    right
    rw [walk]
    split
    · left
      rcases ih (point.1 + 1, 0) with ⟨hstop, -⟩ | hline | ⟨hline, -⟩
      · rw [hstop]
        exact Nat.lt_succ_self _
      · exact Nat.lt_of_succ_lt hline
      · rw [← hline]
        exact Nat.lt_succ_self _
    · rcases ih (point.1, point.2 + 1) with ⟨hstop, -⟩ | hline | ⟨hline, hcolumn⟩
      · rw [hstop]
        exact .inr ⟨rfl, Nat.lt_succ_self _⟩
      · exact .inl hline
      · exact .inr ⟨hline, Nat.lt_of_succ_lt hcolumn⟩

/-- The report counts the line and the column of the position. -/
def Agrees (point : Nat × Nat) (p : Position) : Prop :=
  p.line = point.1 + 1 ∧ p.column = point.2 + 1

theorem agrees_start : Agrees (0, 0) .start := ⟨rfl, rfl⟩

/-- Every line of the report that starts at or before the end of `front` is started by a line
feed. -/
def OnlyFeeds (front back : List Char) : Prop :=
  ∀ u c v, front = u ++ c :: v → EndsLine c (v ++ back) → c = '\n'

theorem onlyFeeds_nil (back : List Char) : OnlyFeeds [] back := by
  intro u c v h
  simp at h

theorem onlyFeeds_cons {c : Char} {front : List Char} :
    OnlyFeeds (c :: front) back ↔
      (EndsLine c (front ++ back) → c = '\n') ∧ OnlyFeeds front back := by
  constructor
  · intro h
    refine ⟨h [] c front rfl, ?_⟩
    intro u d v hfront
    exact h (c :: u) d v (by rw [hfront]; rfl)
  · rintro ⟨hc, h⟩ u d v hfront
    cases u with
    | nil =>
      cases hfront
      exact hc
    | cons e u =>
      cases hfront
      exact h u d v rfl

instance decidableOnlyFeeds (front back : List Char) : Decidable (OnlyFeeds front back) :=
  match front with
  | [] => .isTrue (onlyFeeds_nil back)
  | _ :: front =>
    have := decidableOnlyFeeds front back
    decidable_of_decidable_of_iff onlyFeeds_cons.symm

/-- A report that has counted too many lines has so further on. -/
theorem walk_ahead (hback : back ≠ []) {point : Nat × Nat} {p : Position} (front : List Char)
    (h : p.line < point.1 + 1) : (p.advanceBy front).line < (walk back point front).1 + 1 := by
  induction front generalizing point p with
  | nil => exact h
  | cons c front ih =>
    rw [walk]
    refine ih (p := p.advance c) ?_
    by_cases hc : c = '\n'
    · subst hc
      rw [if_pos (endsLine_feed (by simp [hback])), p.advance_feed.1]
      exact Nat.succ_lt_succ h
    · rw [(p.advance_other hc).1]
      split
      · exact Nat.lt_succ_of_lt h
      · exact h

/-- Up to a place that something follows, the report agrees with positions, or some other line
break has made it count too many lines. -/
theorem walk_agrees (hback : back ≠ []) {point : Nat × Nat} {p : Position} (front : List Char)
    (h : Agrees point p) :
    OnlyFeeds front back ∧ Agrees (walk back point front) (p.advanceBy front) ∨
      ¬ OnlyFeeds front back ∧ (p.advanceBy front).line < (walk back point front).1 + 1 := by
  induction front generalizing point p with
  | nil => exact .inl ⟨onlyFeeds_nil back, h⟩
  | cons c front ih =>
    obtain ⟨hline, hcolumn⟩ := h
    rw [walk, onlyFeeds_cons]
    change _ ∧ Agrees _ ((p.advance c).advanceBy front) ∨
      _ ∧ ((p.advance c).advanceBy front).line < _
    by_cases hc : c = '\n'
    · subst hc
      have hstep : Agrees (point.1 + 1, 0) (p.advance '\n') :=
        ⟨by rw [p.advance_feed.1, hline], rfl⟩
      rw [if_pos (endsLine_feed (by simp [hback]))]
      simpa using ih hstep
    · obtain ⟨hline', hcolumn'⟩ := p.advance_other hc
      by_cases hends : EndsLine c (front ++ back)
      · rw [if_pos hends]
        refine .inr ⟨fun h => hc (h.1 hends), walk_ahead hback front ?_⟩
        rw [hline', hline]
        exact Nat.lt_succ_self _
      · have hstep : Agrees (point.1, point.2 + 1) (p.advance c) :=
          ⟨by rw [hline', hline], by rw [hcolumn', hcolumn]⟩
        rw [if_neg hends]
        simpa [hends] using ih hstep

/-- The last character of a text starts no line. -/
theorem walk_concat (point : Nat × Nat) (front : List Char) (c : Char) :
    walk [] point (front ++ [c]) =
      ((walk [c] point front).1, (walk [c] point front).2 + 1) := by
  have hends : ¬ EndsLine c ([] ++ []) := not_endsLine_nil c
  rw [walk_append, walk, if_neg hends]
  rfl

theorem onlyFeeds_concat {front : List Char} {c : Char} :
    OnlyFeeds (front ++ [c]) [] ↔ OnlyFeeds front [c] := by
  induction front with
  | nil =>
    rw [List.nil_append, onlyFeeds_cons]
    have hlast : EndsLine c [] → c = '\n' := fun h => absurd h (not_endsLine_nil c)
    exact ⟨fun _ => onlyFeeds_nil _, fun _ => ⟨hlast, onlyFeeds_nil _⟩⟩
  | cons d front ih => rw [List.cons_append, onlyFeeds_cons, onlyFeeds_cons, ih, List.append_nil]

/-- At the end of a text the report agrees unless a line was counted too many before, or the text
ends with a line feed. -/
theorem agrees_concat_iff {before : List Char} {c : Char} :
    Agrees (walk [] (0, 0) (before ++ [c])) (Position.start.advanceBy (before ++ [c])) ↔
      OnlyFeeds (before ++ [c]) [] ∧ c ≠ '\n' := by
  rw [walk_concat, onlyFeeds_concat, Position.advanceBy_concat]
  by_cases hc : c = '\n'
  · subst hc
    refine ⟨fun h => ?_, fun h => absurd rfl h.2⟩
    have hcolumn : 1 = _ + 1 + 1 := h.2
    omega
  · obtain ⟨hline, hcolumn⟩ := (Position.start.advanceBy before).advance_other hc
    rcases walk_agrees (List.cons_ne_nil c []) before agrees_start with
      ⟨hfeeds, hagrees⟩ | ⟨hfeeds, hlt⟩
    · refine ⟨fun _ => ⟨hfeeds, hc⟩, fun _ => ⟨?_, ?_⟩⟩
      · rw [hline]
        exact hagrees.1
      · rw [hcolumn]
        exact congrArg (· + 1) hagrees.2
    · refine ⟨fun h => ?_, fun h => absurd h.1 hfeeds⟩
      have hsame := h.1
      rw [hline] at hsame
      exact absurd hsame (Nat.ne_of_lt hlt)

/-- What the report counts after `before` and `more` is the position after `before` exactly if there
is nothing more, no other line break was counted as a line, and no line after a final line feed was
left out. -/
theorem agrees_walk_iff {before more : List Char} :
    Agrees (walk back (0, 0) (before ++ more)) (Position.start.advanceBy before) ↔
      more = [] ∧ OnlyFeeds before back ∧ (back = [] → before.getLast? ≠ some '\n') := by
  by_cases hmore : more = []
  · subst hmore
    rw [List.append_nil]
    by_cases hback : back = []
    · subst hback
      rcases List.eq_nil_or_concat before with rfl | ⟨front, c, rfl⟩
      · exact ⟨fun _ => ⟨rfl, onlyFeeds_nil [], fun _ => nofun⟩, fun _ => agrees_start⟩
      · rw [List.concat_eq_append, agrees_concat_iff]
        simp
    · rcases walk_agrees hback before agrees_start with ⟨hfeeds, hagrees⟩ | ⟨hfeeds, hlt⟩
      · exact ⟨fun _ => ⟨rfl, hfeeds, fun h => absurd h hback⟩, fun _ => hagrees⟩
      · exact ⟨fun h => absurd h.1 (Nat.ne_of_lt hlt), fun h => absurd h.2.1 hfeeds⟩
  · -- More characters lead further on, and what was counted before is not behind.
    refine ⟨fun h => ?_, fun h => absurd h.1 hmore⟩
    rw [walk_append] at h
    have hforward := (walk_forward back (walk (more ++ back) (0, 0) before) more).resolve_left
      fun h => hmore h.2
    obtain ⟨hline, hcolumn⟩ := h
    have hnext : more ++ back ≠ [] := List.append_ne_nil_of_left_ne_nil hmore back
    rcases walk_agrees hnext before agrees_start with
      ⟨-, hagrees⟩ | ⟨-, hlt⟩
    · obtain ⟨hline', hcolumn'⟩ := hagrees
      omega
    · omega

end Walk

end StackLang.Report
