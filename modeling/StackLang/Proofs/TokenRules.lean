import StackLang.Proofs.TokenShape

namespace StackLang.Lexeme

/-- `Spells kind word`: the word is spelled as a token of the kind. A reserved word is spelled as a
name too. -/
inductive Spells : Kind → List Char → Prop where
  | number {word : List Char} : Number.IsNumeral word → Spells .number word
  | name {c : Char} {cs : List Char} : c.isAlpha → (∀ d ∈ cs, isNameChar d) →
    Spells .identifier (c :: cs)
  | ifWord : Spells .ifWord "if".toList
  | elseWord : Spells .elseWord "else".toList
  | boolean (b : Bool) : Spells .boolean (Tree.boolText b).toList
  | sign (s : Sign) : Spells (.sign s) s.text.toList
  | assign : Spells .assign ['=']
  | semicolon : Spells .semicolon [';']
  | lparen : Spells .lparen ['(']
  | rparen : Spells .rparen [')']
  | lbrace : Spells .lbrace ['\x7b']
  | rbrace : Spells .rbrace ['\x7d']

/-- The word that starts a text is the longest one that any rule allows there. Of the two kinds of
a reserved word it has the one of its own. -/
structure IsLongest (kind : Kind) (word text : List Char) : Prop where
  spelled : Spells kind word
  starts : word <+: text
  longest : ∀ k w, Spells k w → w <+: text → w.length ≤ word.length
  reserved : kind = .identifier → ∀ k, Spells k word → k = .identifier

def whites : List Char := [' ', '\t', '\r', '\n', '\x0c']

/-- One piece of a gap that `rest` follows: a white character, a comment up to the end of its line,
or a comment up to the first mark that closes it. -/
inductive IsPiece : List Char → List Char → Prop where
  | white {c : Char} (rest : List Char) : c ∈ whites → IsPiece [c] rest
  | line {body rest : List Char} : '\n' ∉ body → (∀ c ∈ rest.head?, c = '\n') →
    IsPiece ('/' :: '/' :: body) rest
  | block {body : List Char} (rest : List Char) : ¬ ['*', '/'] <:+: body ++ ['*'] →
    IsPiece ('/' :: '*' :: (body ++ ['*', '/'])) rest

theorem IsPiece.ne_nil {piece rest : List Char} (h : IsPiece piece rest) : piece ≠ [] := by
  cases h <;> simp

/-- A piece of a gap, or a comment that is never closed, starts the text. -/
def StartsGap (text : List Char) : Prop :=
  (∃ c ∈ text.head?, c ∈ whites) ∨ ['/', '/'] <+: text ∨ ['/', '*'] <+: text

theorem isBlank_iff {c : Char} : isBlank c = true ↔ c ∈ whites := by
  simp [isBlank, whites, or_assoc]

section Comments

variable {c : Char} {cs rest : List Char} {n : Nat}

/-- The first mark that closes a comment is found. -/
theorem closing?_eq_some (h : closing? cs = some n) :
    ∃ body rest, cs = body ++ '*' :: '/' :: rest ∧ n = body.length + 2 ∧
      ¬ ['*', '/'] <:+: body ++ ['*'] := by
  fun_induction closing? cs generalizing n with
  | case1 rest =>
    cases h
    exact ⟨[], rest, rfl, rfl, by decide⟩
  | case2 c cs hne ih =>
    obtain ⟨m, hm, rfl⟩ := Option.map_eq_some_iff.mp h
    obtain ⟨body, rest, rfl, rfl, hbody⟩ := ih hm
    refine ⟨c :: body, rest, rfl, by simp, ?_⟩
    rw [List.cons_append, List.infix_cons_iff, List.cons_prefix_cons]
    rintro (⟨hc, hstart⟩ | hinner)
    · -- A mark at the very start would have been taken.
      obtain ⟨tail, htail⟩ := hstart
      cases body with
      | nil => simp at htail
      | cons d body =>
        cases htail
        exact hne _ hc.symm rfl
    · exact hbody hinner
  | case3 => cases h

theorem closing?_eq_none (h : closing? cs = none) : ¬ ['*', '/'] <:+: cs := by
  fun_induction closing? cs with
  | case1 rest => cases h
  | case2 c cs hne ih =>
    rw [List.infix_cons_iff, List.cons_prefix_cons]
    rintro (⟨hc, tail, htail⟩ | hinner)
    · exact hne tail hc.symm htail.symm
    · exact ih (Option.map_eq_none_iff.mp h) hinner
  | case3 => simp

/-- A comment is a piece of a gap, or it is never closed. -/
theorem comment?_cases {l : Lexeme} (h : comment? cs = some l) :
    (∃ piece rest, l = .blank piece.length ∧ cs = piece ++ rest ∧ IsPiece piece rest) ∨
      ∃ rest, l = .openComment ∧ cs = '/' :: '*' :: rest ∧ ¬ ['*', '/'] <:+: rest := by
  unfold comment? at h
  split at h
  · next cs =>
    cases h
    left
    refine ⟨'/' :: '/' :: cs.takeWhile (· ≠ '\n'), cs.dropWhile (· ≠ '\n'), ?_, ?_, .line ?_ ?_⟩
    · simp only [List.length_cons, Nat.add_comm 2]
    · simp only [List.cons_append, List.takeWhile_append_dropWhile]
    · intro hmem
      have hall := List.all_eq_true.mp (List.all_takeWhile (l := cs)) _ hmem
      simp at hall
    · intro c hc
      have hhead := List.head?_dropWhile_not (fun c => decide (c ≠ '\n')) cs
      rw [Option.mem_def.mp hc] at hhead
      simpa using hhead
  · next cs =>
    cases h
    cases hclose : closing? cs with
    | some n =>
      left
      obtain ⟨body, rest, rfl, rfl, hbody⟩ := closing?_eq_some hclose
      refine ⟨'/' :: '*' :: (body ++ ['*', '/']), rest, ?_, by simp, .block rest hbody⟩
      simp only [List.length_cons, List.length_append, List.length_nil]
      congr 1
      omega
    | none => exact .inr ⟨cs, rfl, rfl, closing?_eq_none hclose⟩
  · cases h

theorem comment?_eq_none (h : comment? cs = none) :
    ¬ ['/', '/'] <+: cs ∧ ¬ ['/', '*'] <+: cs := by
  constructor <;> rintro ⟨rest, rfl⟩ <;> cases h

end Comments

section Words

variable {c : Char} {cs word : List Char} {kind : Kind}

/-- The table of symbols holds the signs and the punctuation, and nothing else. -/
theorem spells_of_mem_symbols (h : (word, kind) ∈ symbols) : Spells kind word := by
  have hall : ∀ x ∈ symbols, Spells x.2 x.1 := by
    simp only [symbols, List.forall_mem_cons]
    exact ⟨.sign .starStar, .sign .eqEq, .sign .bangEq, .sign .ltEq, .sign .gtEq, .sign .andAnd,
      .sign .orOr, .assign, .semicolon, .lparen, .rparen, .lbrace, .rbrace, .sign .plus,
      .sign .minus, .sign .star, .sign .slash, .sign .percent, .sign .caret, .sign .lt,
      .sign .gt, .sign .bang, List.forall_mem_nil _⟩
  exact hall (word, kind) h

theorem mem_symbols_of_sign (s : Sign) : (s.text.toList, Kind.sign s) ∈ symbols := by
  cases s <;> decide

/-- No symbol starts like a number or a name. -/
theorem symbols_first (h : (word, kind) ∈ symbols) :
    ∃ c cs, word = c :: cs ∧ c.isDigit = false ∧ c.isAlpha = false := by
  have hall : symbols.all (fun x => x.1.head?.any fun c => !c.isDigit && !c.isAlpha) = true := rfl
  have hx := List.all_eq_true.mp hall (word, kind) h
  cases word with
  | nil => cases hx
  | cons c cs =>
    simp only [List.head?_cons, Option.any_some, Bool.and_eq_true, Bool.not_eq_true'] at hx
    exact ⟨c, cs, rfl, hx⟩

/-- What a word starts with tells which rules can spell it. -/
theorem Spells.cases_first (h : Spells kind word) : ∃ c cs, word = c :: cs ∧
    ((c.isDigit = true ∧ Number.IsNumeral word) ∨
      (c.isAlpha = true ∧ ∀ d ∈ cs, isNameChar d = true) ∨
      (c.isDigit = false ∧ c.isAlpha = false ∧ (word, kind) ∈ symbols)) := by
  have hsymbol (h : (word, kind) ∈ symbols) : ∃ c cs, word = c :: cs ∧
      ((c.isDigit = true ∧ Number.IsNumeral word) ∨
        (c.isAlpha = true ∧ ∀ d ∈ cs, isNameChar d = true) ∨
        (c.isDigit = false ∧ c.isAlpha = false ∧ (word, kind) ∈ symbols)) := by
    obtain ⟨c, cs, hw, hdigit, halpha⟩ := symbols_first h
    exact ⟨c, cs, hw, .inr (.inr ⟨hdigit, halpha, h⟩)⟩
  cases h with
  | number hn =>
    obtain ⟨c, cs, rfl, hc⟩ := hn.first
    exact ⟨c, cs, rfl, .inl ⟨hc, hn⟩⟩
  | @name c cs hc hcs => exact ⟨c, cs, rfl, .inr (.inl ⟨hc, hcs⟩)⟩
  | ifWord => exact ⟨'i', ['f'], rfl, .inr (.inl ⟨rfl, List.all_eq_true.mp rfl⟩)⟩
  | elseWord => exact ⟨'e', ['l', 's', 'e'], rfl, .inr (.inl ⟨rfl, List.all_eq_true.mp rfl⟩)⟩
  | boolean b =>
    cases b with
    | true => exact ⟨'t', ['r', 'u', 'e'], rfl, .inr (.inl ⟨rfl, List.all_eq_true.mp rfl⟩)⟩
    | false => exact ⟨'f', ['a', 'l', 's', 'e'], rfl, .inr (.inl ⟨rfl, List.all_eq_true.mp rfl⟩)⟩
  | sign s => exact hsymbol (mem_symbols_of_sign s)
  | assign | semicolon | lparen | rparen | lbrace | rbrace => exact hsymbol (by decide)

theorem Spells.ne_nil (h : Spells kind word) : word ≠ [] := by
  obtain ⟨c, cs, rfl, _⟩ := h.cases_first
  exact List.cons_ne_nil c cs

/-- No numeral that starts a text is longer than the one that is found. -/
theorem length_le_numberLength (h : Number.IsNumeral word) (rest : List Char) :
    word.length ≤ numberLength (word ++ rest) := by
  have hdigits {ds : List Char} (hd : Number.IsDigits ds) (rest : List Char) :
      ds.length ≤ ((ds ++ rest).takeWhile Char.isDigit).length := by
    rw [List.takeWhile_append_of_pos hd.digit, List.length_append]
    exact Nat.le_add_right _ _
  cases h with
  | whole hd =>
    have hwhole := hdigits hd rest
    rw [numberLength]
    split
    · dsimp only
      split <;> omega
    · exact hwhole
  | @point ds fs hd hf =>
    have hpoint := Number.not_digit_point (fs ++ rest)
    have hfraction := hdigits hf rest
    have hpos : 0 < fs.length := List.length_pos_iff.mpr hf.ne_nil
    have hne : ((fs ++ rest).takeWhile Char.isDigit).length ≠ 0 := by omega
    rw [List.append_assoc, List.cons_append, numberLength, takeWhile_of_head hd.digit hpoint,
      dropWhile_of_head hd.digit hpoint]
    simp only [if_neg hne, List.length_append, List.length_cons]
    omega

theorem numberLength_le (cs : List Char) : numberLength cs ≤ cs.length := by
  have hsum := congrArg List.length (List.takeWhile_append_dropWhile (p := Char.isDigit) (l := cs))
  rw [List.length_append] at hsum
  rw [numberLength]
  split
  · next rest hrest =>
    have hfraction := (List.takeWhile_prefix (l := rest) Char.isDigit).length_le
    rw [hrest, List.length_cons] at hsum
    dsimp only
    split <;> omega
  · omega

/-- The first symbol of the table that fits is the longest that does. -/
theorem length_le_of_find?_symbols {s word : List Char} {k kind : Kind}
    (hfind : symbols.find? (·.1.isPrefixOf cs) = some (s, k)) (h : (word, kind) ∈ symbols)
    (hw : word <+: cs) : word.length ≤ s.length := by
  have hsorted : symbols.Pairwise fun x y => y.1.length ≤ x.1.length := by decide
  obtain ⟨_, before, after, htable, hbefore⟩ := List.find?_eq_some_iff_append.mp hfind
  rw [htable] at h hsorted
  rcases List.mem_append.mp h with h | h
  · have hnot := hbefore _ h
    rw [Bool.not_eq_true', ← Bool.not_eq_true, List.isPrefixOf_iff_prefix] at hnot
    exact absurd hw hnot
  · rcases List.mem_cons.mp h with h | h
    · cases h
      exact Nat.le_refl _
    · have hlater := (List.pairwise_append.mp hsorted).2.1
      exact (List.pairwise_cons.mp hlater).1 _ h

/-- A letter starts a word that reaches as far as the characters of names do. -/
theorem length_le_word (hc : c.isAlpha = true) {k : Kind} {w : List Char} (hk : Spells k w)
    (hw : w <+: c :: cs) : w.length ≤ (c :: cs.takeWhile isNameChar).length := by
  obtain ⟨d, ds, rfl, hcases⟩ := hk.cases_first
  obtain ⟨rfl, hds⟩ := List.cons_prefix_cons.mp hw
  rcases hcases with ⟨hdigit, _⟩ | ⟨_, hname⟩ | ⟨_, halpha, _⟩
  · rw [isDigit_of_isAlpha hc] at hdigit
    cases hdigit
  · obtain ⟨rest, rfl⟩ := hds
    rw [List.takeWhile_append_of_pos hname, List.length_cons, List.length_cons,
      List.length_append]
    omega
  · rw [hc] at halpha
    cases halpha

theorem spells_wordKind (hc : c.isAlpha = true) (hcs : ∀ d ∈ cs, isNameChar d = true) :
    Spells (wordKind (c :: cs)) (c :: cs) := by
  rw [wordKind]
  split
  · next h => exact h ▸ .ifWord
  · split
    · next h => exact h ▸ .elseWord
    · split
      · next h =>
        rcases h with h | h
        · exact h ▸ .boolean true
        · exact h ▸ .boolean false
      · exact .name hc hcs

/-- A word that no rule reserves is spelled as a name and as nothing else. -/
theorem Spells.eq_identifier (hc : c.isAlpha = true) (hk : wordKind (c :: cs) = .identifier)
    {k : Kind} (h : Spells k (c :: cs)) : k = .identifier := by
  have hsymbol (h : (c :: cs, k) ∈ symbols) : k = .identifier := by
    obtain ⟨d, ds, hd, _, halpha⟩ := symbols_first h
    cases hd
    rw [hc] at halpha
    cases halpha
  generalize hw : c :: cs = word at *
  cases h with
  | number hn =>
    obtain ⟨d, ds, rfl, hd⟩ := hn.first
    cases hw
    rw [isDigit_of_isAlpha hc] at hd
    cases hd
  | name => rfl
  | ifWord | elseWord => exact absurd hk (by decide)
  | boolean b => cases b <;> exact absurd hk (by decide)
  | sign s => exact hsymbol (mem_symbols_of_sign s)
  | assign | semicolon | lparen | rparen | lbrace | rbrace => exact hsymbol (by decide)

theorem isLongest_number (hc : c.isDigit = true) :
    IsLongest .number ((c :: cs).take (numberLength (c :: cs))) (c :: cs) := by
  refine ⟨.number (isNumeral_take hc), List.take_prefix _ _, ?_, nofun⟩
  intro k w hk hw
  obtain ⟨d, ds, rfl, hcases⟩ := hk.cases_first
  obtain ⟨rfl, _⟩ := List.cons_prefix_cons.mp hw
  rcases hcases with ⟨_, hn⟩ | ⟨halpha, _⟩ | ⟨hdigit, _, _⟩
  · obtain ⟨rest, hrest⟩ := hw
    have hle := length_le_numberLength hn rest
    rw [hrest] at hle
    rwa [List.length_take_of_le (numberLength_le _)]
  · rw [isDigit_of_isAlpha halpha] at hc
    cases hc
  · rw [hc] at hdigit
    cases hdigit

theorem isLongest_word (hc : c.isAlpha = true) :
    IsLongest (wordKind (c :: cs.takeWhile isNameChar)) (c :: cs.takeWhile isNameChar)
      (c :: cs) := by
  have hname : ∀ d ∈ cs.takeWhile isNameChar, isNameChar d = true :=
    List.all_eq_true.mp List.all_takeWhile
  refine ⟨spells_wordKind hc hname, ?_, ?_, ?_⟩
  · exact List.cons_prefix_cons.mpr ⟨rfl, List.takeWhile_prefix _⟩
  · intro k w hk hw
    exact length_le_word hc hk hw
  · intro hk k h
    exact h.eq_identifier hc hk

theorem isLongest_symbol {s : List Char} (hdigit : ¬ c.isDigit = true) (halpha : ¬ c.isAlpha = true)
    (hfind : symbols.find? (·.1.isPrefixOf (c :: cs)) = some (s, kind)) :
    IsLongest kind s (c :: cs) := by
  have hmem := List.mem_of_find?_eq_some hfind
  have hfits := List.find?_some hfind
  refine ⟨spells_of_mem_symbols hmem, List.isPrefixOf_iff_prefix.mp hfits, ?_,
    fun hk => absurd hk (symbols_kind hmem).1⟩
  intro k w hk hw
  obtain ⟨d, ds, rfl, hcases⟩ := hk.cases_first
  obtain ⟨rfl, _⟩ := List.cons_prefix_cons.mp hw
  rcases hcases with ⟨hc, _⟩ | ⟨hc, _⟩ | ⟨_, _, hsymbol⟩
  · exact absurd hc hdigit
  · exact absurd hc halpha
  · exact length_le_of_find?_symbols hfind hsymbol hw

/-- The token that is found is the longest. -/
theorem token?_eq_some {l : Lexeme} (h : token? (c :: cs) = some l) :
    ∃ kind word, l = .token kind word.length ∧ IsLongest kind word (c :: cs) := by
  rw [token?] at h
  split at h
  · next hc =>
    cases h
    refine ⟨_, _, ?_, isLongest_number hc⟩
    rw [List.length_take_of_le (numberLength_le _)]
  · next hdigit =>
    split at h
    · next hc =>
      cases h
      exact ⟨_, _, rfl, isLongest_word hc⟩
    · next halpha =>
      obtain ⟨⟨s, kind⟩, hfind, rfl⟩ := Option.map_eq_some_iff.mp h
      exact ⟨kind, s, rfl, isLongest_symbol hdigit halpha hfind⟩

/-- Where no token is found no rule fits. -/
theorem not_prefix_of_token? (h : token? (c :: cs) = none) {k : Kind} {w : List Char}
    (hk : Spells k w) : ¬ w <+: c :: cs := by
  intro hw
  rw [token?] at h
  split at h
  · cases h
  · next hdigit =>
    split at h
    · cases h
    · next halpha =>
      obtain ⟨d, ds, rfl, hcases⟩ := hk.cases_first
      obtain ⟨rfl, _⟩ := List.cons_prefix_cons.mp hw
      rcases hcases with ⟨hc, _⟩ | ⟨hc, _⟩ | ⟨_, _, hsymbol⟩
      · exact hdigit hc
      · exact halpha hc
      · have hnone := List.find?_eq_none.mp (Option.map_eq_none_iff.mp h) _ hsymbol
        exact hnone (List.isPrefixOf_iff_prefix.mpr hw)

end Words

/-- What the scanner finds at a place where the text is not at its end. -/
inductive Found (text : List Char) : Lexeme → Prop where
  | blank {piece rest : List Char} : text = piece ++ rest → IsPiece piece rest →
    Found text (.blank piece.length)
  | token {kind : Kind} {word : List Char} : ¬ StartsGap text → IsLongest kind word text →
    Found text (.token kind word.length)
  | openComment {rest : List Char} : text = '/' :: '*' :: rest → ¬ ['*', '/'] <:+: rest →
    Found text .openComment
  | unexpected : ¬ StartsGap text → (∀ k w, Spells k w → ¬ w <+: text) → Found text .unexpected

theorem found_start (c : Char) (cs : List Char) : Found (c :: cs) (start c cs) := by
  rw [start]
  split
  · next hc => exact .blank rfl (.white cs (isBlank_iff.mp hc))
  · next hblank =>
    cases hcomment : comment? (c :: cs) with
    | some l =>
      rcases comment?_cases hcomment with
        ⟨piece, rest, rfl, htext, hpiece⟩ | ⟨rest, rfl, htext, hopen⟩
      · exact .blank htext hpiece
      · exact .openComment htext hopen
    | none =>
      have hgap : ¬ StartsGap (c :: cs) := by
        obtain ⟨hline, hblock⟩ := comment?_eq_none hcomment
        rintro (⟨d, hd, hwhite⟩ | h | h)
        · cases hd
          exact hblank (isBlank_iff.mpr hwhite)
        · exact hline h
        · exact hblock h
      cases htoken : token? (c :: cs) with
      | none => exact .unexpected hgap fun k w => not_prefix_of_token? htoken
      | some l =>
        obtain ⟨kind, word, rfl, hlongest⟩ := token?_eq_some htoken
        exact .token hgap hlongest

end StackLang.Lexeme
