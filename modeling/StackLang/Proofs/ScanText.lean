import StackLang.Token.Scan
import StackLang.Proofs.NumberText

/-! What the scanner makes of a text that starts with a known word. Words are the longest that
fit, so what follows a word matters. -/
namespace StackLang

namespace Lexeme

/-- A text that continues neither a name nor a number. -/
def Breaks (cs : List Char) : Prop := ∀ c ∈ cs.head?, isNameChar c = false ∧ c ≠ '.'

theorem breaks_cons {c : Char} (cs : List Char) (hc : isNameChar c = false) (hp : c ≠ '.') :
    Breaks (c :: cs) := by
  intro d hd
  cases hd
  exact ⟨hc, hp⟩

theorem isNameChar_of_isDigit {c : Char} (hc : c.isDigit = true) : isNameChar c = true := by
  simp only [isNameChar, Char.isAlphanum, hc, Bool.or_true, Bool.true_or]

theorem isDigit_of_isAlpha {c : Char} (hc : c.isAlpha = true) : c.isDigit = false := by
  have hletter : (decide ('A'.val ≤ c.val ∧ c.val ≤ 'Z'.val) ||
      decide ('a'.val ≤ c.val) && decide (c.val ≤ 'z'.val)) = true := hc
  simp only [Bool.or_eq_true, Bool.and_eq_true, decide_eq_true_eq] at hletter
  have hlt : '9'.val < c.val := by
    rcases hletter with ⟨h, _⟩ | ⟨h, _⟩ <;> exact UInt32.lt_of_lt_of_le (by decide) h
  simp only [Char.isDigit, decide_eq_false (UInt32.not_le.mpr hlt), Bool.and_false]

theorem Breaks.not_digit {cs : List Char} (h : Breaks cs) : ∀ c ∈ cs.head?, c.isDigit = false := by
  intro c hc
  cases hd : c.isDigit with
  | false => rfl
  | true => exact absurd (isNameChar_of_isDigit hd) (by simp [(h c hc).1])

/-- A letter or a digit starts a token: it is not blank and starts no comment. -/
theorem start_of_isAlphanum {c : Char} (hc : c.isAlphanum = true) (cs : List Char) :
    start c cs = (token? (c :: cs)).getD .unexpected := by
  have hne {d : Char} (hd : d.isAlphanum = false) : c ≠ d := by
    rintro rfl
    rw [hc] at hd
    cases hd
  have hblank : isBlank c = false := by
    simp only [isBlank, hne (d := ' ') rfl, hne (d := '\t') rfl, hne (d := '\r') rfl,
      hne (d := '\n') rfl, hne (d := '\x0c') rfl, decide_false, Bool.or_false]
  have hcomment : comment? (c :: cs) = none := by
    unfold comment?
    split
    · next h => exact absurd (List.cons.inj h).1 (hne rfl)
    · next h => exact absurd (List.cons.inj h).1 (hne rfl)
    · rfl
  rw [start, hblank, hcomment]
  rfl

theorem start_word {c : Char} {cs rest : List Char} (hc : c.isAlpha = true)
    (hcs : ∀ d ∈ cs, isNameChar d = true) (hrest : Breaks rest) :
    start c (cs ++ rest) = .token (wordKind (c :: cs)) (cs.length + 1) := by
  have halnum : c.isAlphanum = true := by simp only [Char.isAlphanum, hc, Bool.true_or]
  have hdigit : ¬ c.isDigit = true := by simp [isDigit_of_isAlpha hc]
  have hword := takeWhile_of_head hcs fun d hd => (hrest d hd).1
  rw [start_of_isAlphanum halnum, token?, if_neg hdigit, if_pos hc]
  simp only [hword, Option.getD_some, List.length_cons]

theorem numberLength_numeral {cs rest : List Char} (h : Number.IsNumeral cs)
    (hrest : Breaks rest) : numberLength (cs ++ rest) = cs.length := by
  cases h with
  | whole hd =>
    rw [numberLength, takeWhile_of_head hd.digit hrest.not_digit,
      dropWhile_of_head hd.digit hrest.not_digit]
    split
    · exact absurd rfl (hrest '.' rfl).2
    · rfl
  | @point ds fs hd hf =>
    have hpoint := Number.not_digit_point (fs ++ rest)
    have hne : fs.length ≠ 0 := fun h => hf.ne_nil (List.length_eq_zero_iff.mp h)
    rw [List.append_assoc, List.cons_append, numberLength, takeWhile_of_head hd.digit hpoint,
      dropWhile_of_head hd.digit hpoint]
    simp only [takeWhile_of_head hf.digit hrest.not_digit, if_neg hne, List.length_append,
      List.length_cons]
    omega

theorem start_number {c : Char} {cs rest : List Char} (h : Number.IsNumeral (c :: cs))
    (hrest : Breaks rest) : start c (cs ++ rest) = .token .number (cs.length + 1) := by
  have hc : c.isDigit = true := by
    obtain ⟨d, ds, hcs, hd⟩ := h.first
    cases hcs
    exact hd
  have halnum : c.isAlphanum = true := by simp only [Char.isAlphanum, hc, Bool.or_true]
  rw [start_of_isAlphanum halnum, token?, if_pos hc, Option.getD_some, ← List.cons_append,
    numberLength_numeral h hrest, List.length_cons]

theorem start_bang {c : Char} (hc : c ≠ '=') (cs : List Char) :
    start '!' (c :: cs) = .token (.sign .bang) 1 := by
  have hne : ('=' == c) = false := by simpa using hc.symm
  have hfind : symbols.find? (·.1.isPrefixOf ('!' :: c :: cs)) = some (['!'], .sign .bang) := by
    simp [symbols, List.find?, List.isPrefixOf, hne]
  change (Option.map _ (symbols.find? (·.1.isPrefixOf ('!' :: c :: cs)))).getD unexpected = _
  rw [hfind]
  rfl

end Lexeme

namespace Scan

variable {c : Char} {cs rest : List Char} {kind : Kind}

def prepend (ts : List Token) (s : Scan) : Scan := { s with tokens := ts ++ s.tokens }

theorem prepend_cons (t : Token) (ts : List Token) (s : Scan) :
    prepend (t :: ts) s = push t (prepend ts s) := rfl

theorem prepend_append (ts us : List Token) (s : Scan) :
    prepend (ts ++ us) s = prepend ts (prepend us s) := by
  simp only [prepend, List.append_assoc]

theorem run_skip (p : Position) (cs rest : List Char) :
    run p cs.length (cs ++ rest) = run (p.advanceBy cs) 0 rest := by
  induction cs generalizing p with
  | nil => rfl
  | cons c cs ih =>
    rw [List.length_cons, List.cons_append, run]
    exact ih (p.advance c)

theorem run_blank (p : Position) (hc : Lexeme.isBlank c = true) :
    run p 0 (c :: rest) = run (p.advance c) 0 rest := by
  have hstart : Lexeme.start c rest = .blank 1 := by rw [Lexeme.start, if_pos hc]
  rw [run]
  simp only [hstart]

/-- The word that starts a text becomes a token, and scanning goes on after it. -/
theorem run_token (p : Position)
    (h : Lexeme.start c (cs ++ rest) = .token kind (cs.length + 1)) :
    ∃ t q, t.kind = kind ∧ t.lexeme = .ofList (c :: cs) ∧
      run p 0 (c :: (cs ++ rest)) = push t (run q 0 rest) := by
  refine ⟨⟨kind, .ofList (c :: cs), p.place (c :: cs)⟩, (p.advance c).advanceBy cs, rfl, rfl, ?_⟩
  rw [run]
  simp only [h, List.take_succ_cons, List.take_left, Nat.add_sub_cancel, run_skip]

theorem run_symbol (p : Position) (h : Lexeme.start c rest = .token kind 1) :
    ∃ t q, t.kind = kind ∧ run p 0 (c :: rest) = push t (run q 0 rest) := by
  have hstart : Lexeme.start c ([] ++ rest) = .token kind ([] : List Char).length.succ := h
  obtain ⟨t, q, ht, _, hrun⟩ := run_token p hstart
  exact ⟨t, q, ht, hrun⟩

/-- Scanning `cs` gives tokens of which `G` holds, and goes on at `rest`. -/
def Gives (cs rest : List Char) (G : List Token → Prop) : Prop :=
  ∀ p, ∃ ts q, G ts ∧ run p 0 cs = prepend ts (run q 0 rest)

end Scan

/-- A text that is scanned to its end has its tokens and an end mark. -/
theorem Scan.Gives.tokenize_eq {source : String} {G : List Token → Prop}
    (h : Scan.Gives source.toList [] G) :
    ∃ ts place, G ts ∧ tokenize source = .ok (ts ++ [.endMark place]) := by
  obtain ⟨ts, q, hts, hrun⟩ := h .start
  have hscan : scan source = ⟨ts ++ [], .ok (.endMark (q.place []))⟩ := hrun
  refine ⟨ts, q.place [], hts, ?_⟩
  simp only [tokenize, hscan, List.append_nil]
  rfl

end StackLang
