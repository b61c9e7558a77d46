import StackLang.Proofs.Tiling

namespace StackLang

namespace Lexeme

/-- White characters and comments in any order. A comment to the end of its line brings the line
feed with it, and one with a closing mark ends at the first such mark. -/
inductive IsFiller : List Char → Prop where
  | nil : IsFiller []
  | white {c : Char} {rest : List Char} : c ∈ whites → IsFiller rest → IsFiller (c :: rest)
  | line {body rest : List Char} : '\n' ∉ body → IsFiller rest →
    IsFiller ('/' :: '/' :: (body ++ '\n' :: rest))
  | block {body rest : List Char} : ¬ ['*', '/'] <:+: body ++ ['*'] → IsFiller rest →
    IsFiller ('/' :: '*' :: (body ++ '*' :: '/' :: rest))

/-- What keeps two words apart: a white character, then anything that is skipped. -/
inductive IsSeparator : List Char → Prop where
  | mk {c : Char} {filler : List Char} : c ∈ whites → IsFiller filler →
    IsSeparator (c :: filler)

theorem IsFiller.isGap {filler : List Char} (h : IsFiller filler) (rest : List Char) :
    IsGap filler rest := by
  induction h with
  | nil => exact .nil rest
  | @white c filler hc _ ih => exact IsGap.cons (.white (filler ++ rest) hc) ih
  | @line body filler hbody _ ih =>
    -- The line feed is a piece of its own, after the comment that it ends.
    have hfeed : IsGap (['\n'] ++ filler) rest := .cons (.white (filler ++ rest) (by decide)) ih
    have hstop : ∀ c ∈ ('\n' :: filler ++ rest).head?, c = '\n' := by
      intro c hc
      cases hc
      rfl
    exact IsGap.cons (.line hbody hstop) hfeed
  | @block body filler hbody _ ih =>
    have hgap := IsGap.cons (.block (filler ++ rest) hbody) ih
    simpa using hgap

theorem IsSeparator.isGap {sep : List Char} (h : IsSeparator sep) (rest : List Char) :
    IsGap sep rest := by
  cases h with
  | mk hc hfiller => exact (IsFiller.white hc hfiller).isGap rest

theorem IsSeparator.head {sep : List Char} (h : IsSeparator sep) (rest : List Char) :
    ∀ c ∈ (sep ++ rest).head?, c ∈ whites := by
  cases h with
  | mk hw _ =>
    intro d hd
    cases hd
    exact hw

section Pieces

variable {body piece rest : List Char} {c : Char} {cs : List Char}

/-- A mark that closes a comment is found where it is the first. -/
theorem closing?_first (h : ¬ ['*', '/'] <:+: body ++ ['*']) (rest : List Char) :
    closing? (body ++ '*' :: '/' :: rest) = some (body.length + 2) := by
  induction body with
  | nil => rfl
  | cons c body ih =>
    rw [List.cons_append, List.infix_cons_iff, not_or] at h
    obtain ⟨hhere, hlater⟩ := h
    rw [List.cons_append, closing?, ih hlater]
    · simp only [Option.map_some, List.length_cons, Nat.add_right_comm]
    · -- A mark at the very start would come before the first one.
      rintro tail rfl htail
      apply hhere
      cases body with
      | nil => simp at htail
      | cons d body =>
        obtain ⟨rfl, _⟩ := List.cons.inj htail
        simp

theorem start_of_comment {l : Lexeme} (h : comment? ('/' :: cs) = some l) : start '/' cs = l := by
  change (comment? ('/' :: cs)).getD ((token? ('/' :: cs)).getD .unexpected) = l
  rw [h, Option.getD_some]

theorem start_of_piece (h : IsPiece piece rest) (htext : c :: cs = piece ++ rest) :
    start c cs = .blank piece.length := by
  cases h with
  | white _ hc =>
    cases htext
    rw [start, if_pos (isBlank_iff.mpr hc)]
    rfl
  | @line body _ hbody hrest =>
    obtain ⟨rfl, rfl⟩ := List.cons.inj htext
    apply start_of_comment
    have hline : (body ++ rest).takeWhile (· ≠ '\n') = body := by
      apply takeWhile_of_head
      · intro d hd
        exact decide_eq_true fun h => hbody (h ▸ hd)
      · intro d hd
        simpa using hrest d hd
    change some (blank (2 + ((body ++ rest).takeWhile (· ≠ '\n')).length)) = _
    rw [hline, Nat.add_comm]
    rfl
  | @block body _ hbody =>
    obtain ⟨rfl, rfl⟩ := List.cons.inj htext
    apply start_of_comment
    have hassoc : body ++ ['*', '/'] ++ rest = body ++ '*' :: '/' :: rest := by simp
    change comment? ('/' :: '*' :: (body ++ ['*', '/'] ++ rest)) = _
    rw [hassoc, comment?, closing?_first hbody]
    simp only [List.length_cons, List.length_append, List.length_nil, Nat.add_comm 2]

theorem IsPiece.startsGap (h : IsPiece piece rest) : StartsGap (piece ++ rest) := by
  cases h with
  | white _ hc => exact .inl ⟨_, rfl, hc⟩
  | line => exact .inr (.inl ⟨_, rfl⟩)
  | block => exact .inr (.inr ⟨_, rfl⟩)

end Pieces

section Words

variable {kind kind' : Kind} {word word' text rest : List Char} {c : Char} {cs : List Char}

/-- No word holds a white character. -/
theorem Spells.not_white (h : Spells kind word) : ∀ c ∈ word, c ∉ whites := by
  have hname : ∀ c ∈ whites, isNameChar c = false ∧ c ≠ '.' := by simp [whites, isNameChar]
  have hsymbols : symbols.all (fun x => x.1.all (· ∉ whites)) = true := rfl
  intro c hc hwhite
  obtain ⟨hnot, hpoint⟩ := hname c hwhite
  obtain ⟨d, ds, rfl, hcases⟩ := h.cases_first
  rcases hcases with ⟨_, hnumeral⟩ | ⟨hletter, hrest⟩ | ⟨_, _, hmem⟩
  · rcases hnumeral.digit_or_point c hc with hdigit | rfl
    · rw [isNameChar_of_isDigit hdigit] at hnot
      cases hnot
    · exact hpoint rfl
  · rcases List.mem_cons.mp hc with rfl | hc
    · rw [isNameChar, Char.isAlphanum, hletter] at hnot
      cases hnot
    · rw [hrest c hc] at hnot
      cases hnot
  · have hall := List.all_eq_true.mp hsymbols _ hmem
    exact of_decide_eq_true (List.all_eq_true.mp hall c hc) hwhite

/-- A word that nothing or a white character follows is not taken for a gap. The division sign alone
starts like a comment. -/
theorem Spells.not_startsGap (h : Spells kind word) (hrest : ∀ c ∈ rest.head?, c ∈ whites) :
    ¬ StartsGap (word ++ rest) := by
  have hsymbols : symbols.all (fun x => x.1.head? ≠ some '/' ∨ x.1 = ['/']) = true := rfl
  obtain ⟨c, cs, rfl, hcases⟩ := h.cases_first
  have hslash : ∀ d, ['/', d] <+: c :: cs ++ rest → d ∈ whites := by
    intro d hstart
    obtain ⟨rfl, hnext⟩ := List.cons_prefix_cons.mp hstart
    rcases hcases with ⟨hdigit, _⟩ | ⟨hletter, _⟩ | ⟨_, _, hmem⟩
    · cases hdigit
    · cases hletter
    · have halone := of_decide_eq_true (List.all_eq_true.mp hsymbols _ hmem)
      obtain rfl : cs = [] := by simpa using halone
      obtain ⟨tail, htail⟩ := hnext
      obtain rfl : rest = d :: tail := htail.symm
      exact hrest d rfl
  rintro (⟨d, hd, hwhite⟩ | hline | hblock)
  · cases hd
    exact h.not_white c List.mem_cons_self hwhite
  · exact absurd (hslash _ hline) (by decide)
  · exact absurd (hslash _ hblock) (by decide)

/-- A word of one of the kinds that no other rule shares is read as that kind. -/
theorem Spells.token?_eq (h : Spells kind word) (hk : kind ≠ .identifier) :
    token? word = some (.token kind word.length) := by
  cases h with
  | number hn =>
    obtain ⟨c, cs, rfl, hc⟩ := hn.first
    have hle := length_le_numberLength hn []
    rw [List.append_nil] at hle
    rw [token?, if_pos hc, Nat.le_antisymm (numberLength_le _) hle]
  | name => exact absurd rfl hk
  | ifWord | elseWord => rfl
  | boolean b => cases b <;> rfl
  | sign s => cases s <;> rfl
  | assign | semicolon | lparen | rparen | lbrace | rbrace => rfl

/-- What is the longest at the start of a text is told by the text. -/
theorem IsLongest.unique (h : IsLongest kind word text) (h' : IsLongest kind' word' text) :
    kind = kind' ∧ word = word' := by
  have hlength : word.length = word'.length :=
    Nat.le_antisymm (h'.longest _ _ h.spelled h.starts) (h.longest _ _ h'.spelled h'.starts)
  obtain rfl : word = word' :=
    (List.prefix_of_prefix_length_le h.starts h'.starts (Nat.le_of_eq hlength)).eq_of_length hlength
  refine ⟨?_, rfl⟩
  by_cases hk : kind = .identifier
  · exact hk.trans (h.reserved hk _ h'.spelled).symm
  · by_cases hk' : kind' = .identifier
    · exact (h'.reserved hk' _ h.spelled).trans hk'.symm
    · have htoken := h.spelled.token?_eq hk
      rw [h'.spelled.token?_eq hk'] at htoken
      cases htoken
      rfl

/-- A white character ends every word. -/
theorem Spells.length_le (h : Spells kind word) (hword : word <+: word' ++ rest)
    (hrest : ∀ c ∈ rest.head?, c ∈ whites) : word.length ≤ word'.length := by
  by_contra hlong
  -- A longer word would go on with the white character.
  have hstart : word' <+: word' ++ rest := List.prefix_append word' rest
  obtain ⟨more, rfl⟩ := List.prefix_of_prefix_length_le hstart hword (by omega)
  have hmore : more <+: rest := (List.prefix_append_right_inj word').mp hword
  cases more with
  | nil => simp at hlong
  | cons c more =>
    obtain ⟨tail, rfl⟩ := hmore
    exact h.not_white c (by simp) (hrest c rfl)

theorem IsLongest.before_white (h : IsLongest kind word word)
    (hrest : ∀ c ∈ rest.head?, c ∈ whites) : IsLongest kind word (word ++ rest) where
  spelled := h.spelled
  starts := List.prefix_append word rest
  longest := fun _ _ hk hw => hk.length_le hw hrest
  reserved := h.reserved

/-- A word before a white character, or before the end of the text, is found as a whole. -/
theorem Spells.exists_start (h : Spells kind word) (hrest : ∀ c ∈ rest.head?, c ∈ whites)
    (htext : c :: cs = word ++ rest) :
    ∃ k, IsLongest k word (word ++ rest) ∧ start c cs = .token k word.length := by
  have hgap := h.not_startsGap hrest
  rw [← htext] at hgap ⊢
  have hfound := found_start c cs
  generalize start c cs = l at hfound ⊢
  cases hfound with
  | blank hpieces hpiece => exact absurd (hpieces ▸ hpiece.startsGap) hgap
  | @token k w _ hlongest =>
    have hprefix : word <+: c :: cs := ⟨rest, htext.symm⟩
    have hle : w.length ≤ word.length :=
      hlongest.spelled.length_le (htext ▸ hlongest.starts) hrest
    have hge : word.length ≤ w.length := hlongest.longest _ _ h hprefix
    obtain rfl : w = word :=
      (List.prefix_of_prefix_length_le hlongest.starts hprefix hle).eq_of_length
        (Nat.le_antisymm hle hge)
    exact ⟨k, hlongest, rfl⟩
  | openComment hopen _ => exact absurd (.inr (.inr ⟨_, hopen.symm⟩)) hgap
  | unexpected _ hnone => exact absurd ⟨rest, htext.symm⟩ (hnone _ _ h)

/-- A word that stands alone has a kind of its own. -/
theorem Spells.exists_isLongest (h : Spells kind word) : ∃ k, IsLongest k word word := by
  obtain ⟨c, cs, rfl, _⟩ := h.cases_first
  have hnothing : ∀ d ∈ ([] : List Char).head?, d ∈ whites := by simp
  obtain ⟨k, hlongest, _⟩ := h.exists_start hnothing (List.append_nil (c :: cs)).symm
  rw [List.append_nil] at hlongest
  exact ⟨k, hlongest⟩

/-- A word has its own kind wherever a white character follows it. -/
theorem IsLongest.start_eq (h : IsLongest kind word word) (hrest : ∀ c ∈ rest.head?, c ∈ whites)
    (htext : c :: cs = word ++ rest) : start c cs = .token kind word.length := by
  obtain ⟨k, hlongest, hstart⟩ := h.spelled.exists_start hrest htext
  obtain ⟨rfl, _⟩ := hlongest.unique (h.before_white hrest)
  exact hstart

end Words

end Lexeme

open Lexeme

namespace Scan

theorem run_gap {gap rest : List Char} (h : IsGap gap rest) (p : Position) :
    ∃ q, run p 0 (gap ++ rest) = run q 0 rest := by
  induction h generalizing p with
  | nil rest => exact ⟨p, rfl⟩
  | @cons piece gap rest hpiece _ ih =>
    obtain ⟨c, cs, hcs⟩ := List.exists_cons_of_ne_nil hpiece.ne_nil
    have htext : c :: (cs ++ (gap ++ rest)) = piece ++ (gap ++ rest) := by
      rw [hcs, List.cons_append]
    have hrun := run_of_blank p htext (start_of_piece hpiece htext) hpiece.ne_nil
    obtain ⟨q, hq⟩ := ih (p.advanceBy piece)
    refine ⟨q, ?_⟩
    rw [List.append_assoc, ← htext, hrun, hq]

theorem run_word {word : String} {kind : Kind} {rest : List Char}
    (h : IsLongest kind word.toList word.toList) (hrest : ∀ c ∈ rest.head?, c ∈ whites)
    (p : Position) :
    ∃ place q, run p 0 (word.toList ++ rest) = push ⟨kind, word, place⟩ (run q 0 rest) := by
  have hne := h.spelled.ne_nil
  obtain ⟨c, cs, hcs⟩ := List.exists_cons_of_ne_nil hne
  have htext : c :: (cs ++ rest) = word.toList ++ rest := by rw [hcs, List.cons_append]
  have hrun := run_of_token p htext (h.start_eq hrest htext) hne
  rw [htext, String.ofList_toList] at hrun
  exact ⟨_, _, hrun⟩

end Scan

/-- Words with a separator after each. -/
def spaced : List (String × String) → String
  | [] => ""
  | (word, sep) :: parts => word ++ sep ++ spaced parts

/-- Every word is spelled by a rule, and every separator keeps its words apart. -/
def IsSpaced (parts : List (String × String)) : Prop :=
  ∀ x ∈ parts, (∃ kind, Spells kind x.1.toList) ∧ IsSeparator x.2.toList

theorem gives_spaced {parts : List (String × String)} (h : IsSpaced parts) :
    Scan.Gives (spaced parts).toList [] fun ts =>
      ts.map Token.lexeme = parts.map Prod.fst ∧
        ∀ t ∈ ts, IsLongest t.kind t.lexeme.toList t.lexeme.toList := by
  induction parts with
  | nil => exact fun p => ⟨[], p, ⟨rfl, List.forall_mem_nil _⟩, rfl⟩
  | cons x parts ih =>
    obtain ⟨word, sep⟩ := x
    obtain ⟨⟨⟨k, hk⟩, hsep⟩, hparts⟩ := List.forall_mem_cons.mp h
    obtain ⟨kind, hword⟩ := hk.exists_isLongest
    intro p
    -- The word is read up to its separator, the separator is skipped, and the rest is read.
    obtain ⟨place, q, hrun⟩ := Scan.run_word hword (hsep.head (spaced parts).toList) p
    obtain ⟨r, hskip⟩ := Scan.run_gap (hsep.isGap (spaced parts).toList) q
    obtain ⟨ts, last, ⟨hlexemes, hkinds⟩, hrest⟩ := ih hparts r
    refine ⟨⟨kind, word, place⟩ :: ts, last, ⟨?_, ?_⟩, ?_⟩
    · rw [List.map_cons, List.map_cons, hlexemes]
    · exact List.forall_mem_cons.mpr ⟨hword, hkinds⟩
    · rw [spaced, String.toList_append, String.toList_append, List.append_assoc, hrun, hskip, hrest,
        Scan.prepend_cons]

theorem tokenize_alone {word : String} {kind : Kind}
    (h : IsLongest kind word.toList word.toList) :
    ∃ place stop, tokenize word = .ok [⟨kind, word, place⟩, .endMark stop] := by
  have hgives : Scan.Gives word.toList [] fun ts => ∃ place, ts = [⟨kind, word, place⟩] := by
    intro p
    have hnothing : ∀ d ∈ ([] : List Char).head?, d ∈ whites := by simp
    obtain ⟨place, q, hrun⟩ := Scan.run_word h hnothing p
    rw [List.append_nil] at hrun
    exact ⟨_, q, ⟨place, rfl⟩, hrun⟩
  obtain ⟨_, stop, ⟨place, rfl⟩, htokens⟩ := hgives.tokenize_eq
  exact ⟨place, stop, htokens⟩

/-- Spacing does not matter: words that are kept apart, whatever white space and comments keep them
apart, become the tokens with these lexemes, in order, and an end mark after them. Each token has
the kind that its lexeme has when it is scanned alone. -/
theorem tokenize_spaced (first : String) (parts : List (String × String))
    (hfirst : IsSeparator first.toList) (hparts : IsSpaced parts) :
    ∃ ts stop, tokenize (first ++ spaced parts) = .ok (ts ++ [.endMark stop]) ∧
      ts.map Token.lexeme = parts.map Prod.fst ∧
      ∀ t ∈ ts, Spells t.kind t.lexeme.toList ∧
        ∃ place stop, tokenize t.lexeme = .ok [{ t with place }, .endMark stop] := by
  have hgives : Scan.Gives (first ++ spaced parts).toList [] fun ts =>
      ts.map Token.lexeme = parts.map Prod.fst ∧
        ∀ t ∈ ts, IsLongest t.kind t.lexeme.toList t.lexeme.toList := by
    intro p
    obtain ⟨q, hskip⟩ := Scan.run_gap (hfirst.isGap (spaced parts).toList) p
    rw [String.toList_append, hskip]
    exact gives_spaced hparts q
  obtain ⟨ts, stop, ⟨hlexemes, hkinds⟩, htokens⟩ := hgives.tokenize_eq
  refine ⟨ts, stop, htokens, hlexemes, fun t ht => ⟨(hkinds t ht).spelled, ?_⟩⟩
  exact tokenize_alone (hkinds t ht)

/-- Words that start alike, and comments that hold words and the marks of other comments. -/
def crowdedParts : List (String × String) :=
  [("/", " //*/ é\n"), ("*", "\t/*/ if // \n**/"), ("=", "\r\n"), ("==", " /**/ "), ("iffy", " "),
    ("if", "\x0c"), ("2", "\n"), ("2.5", " ")]

theorem crowdedParts_isSpaced : IsSpaced crowdedParts := by
  have htwo : Number.IsDigits ['2'] := ⟨by decide, by simp⟩
  have hfive : Number.IsDigits ['5'] := ⟨by decide, by simp⟩
  simp only [IsSpaced, crowdedParts, List.forall_mem_cons]
  refine ⟨⟨⟨_, .sign .slash⟩, ?_⟩, ⟨⟨_, .sign .star⟩, ?_⟩, ⟨⟨_, .assign⟩, ?_⟩, ⟨⟨_, .sign .eqEq⟩, ?_⟩,
    ⟨⟨_, .name rfl (List.all_eq_true.mp rfl)⟩, ?_⟩, ⟨⟨_, .ifWord⟩, ?_⟩,
    ⟨⟨_, .number (.whole htwo)⟩, ?_⟩, ⟨⟨_, .number (.point htwo hfive)⟩, ?_⟩, List.forall_mem_nil _⟩
  · exact .mk (by decide) (@IsFiller.line ['*', '/', ' ', 'é'] [] (by decide) .nil)
  · exact .mk (by decide)
      (@IsFiller.block ['/', ' ', 'i', 'f', ' ', '/', '/', ' ', '\n', '*'] [] (by decide) .nil)
  · exact .mk (by decide) (.white (by decide) .nil)
  · exact .mk (by decide) (@IsFiller.block [] [' '] (by decide) (.white (by decide) .nil))
  · exact .mk (by decide) .nil
  · exact .mk (by decide) .nil
  · exact .mk (by decide) .nil
  · exact .mk (by decide) .nil

theorem tokenize_crowdedParts :
    IsSpaced crowdedParts ∧
      ∃ ts stop, tokenize ("\n" ++ spaced crowdedParts) = .ok (ts ++ [.endMark stop]) ∧
        ts.map Token.lexeme = ["/", "*", "=", "==", "iffy", "if", "2", "2.5"] ∧
        ∀ t ∈ ts, ∃ place stop, tokenize t.lexeme = .ok [{ t with place }, .endMark stop] := by
  have hfirst : IsSeparator "\n".toList := .mk (by decide) .nil
  obtain ⟨ts, stop, htokens, hlexemes, hkinds⟩ :=
    tokenize_spaced "\n" crowdedParts hfirst crowdedParts_isSpaced
  exact ⟨crowdedParts_isSpaced, ts, stop, htokens, hlexemes, fun t ht => (hkinds t ht).2⟩

end StackLang
