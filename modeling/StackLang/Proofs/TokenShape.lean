import StackLang.Proofs.Grammar
import StackLang.Proofs.ScanText

namespace StackLang

/-- The lexeme of a name is a name, and that of a number is a numeral. -/
structure Token.WellSpelled (t : Token) : Prop where
  name : t.kind = .identifier → IsName t.lexeme
  numeral : t.kind = .number → Number.IsNumeral t.lexeme.toList

namespace Lexeme

variable {c : Char} {cs : List Char} {kind : Kind} {n : Nat}

theorem comment?_ne_token : comment? cs ≠ some (.token kind n) := by
  unfold comment?
  split
  · exact nofun
  · split <;> exact nofun
  · exact nofun

theorem token?_of_start (h : start c cs = .token kind n) :
    token? (c :: cs) = some (.token kind n) := by
  rw [start] at h
  split at h
  · cases h
  · cases hc : comment? (c :: cs) with
    | some l =>
      rw [hc, Option.getD_some] at h
      rw [h] at hc
      exact absurd hc comment?_ne_token
    | none =>
      rw [hc, Option.getD_none] at h
      cases ht : token? (c :: cs) with
      | some l =>
        rw [ht, Option.getD_some] at h
        rw [h]
      | none =>
        rw [ht] at h
        cases h

theorem symbols_kind {s : List Char} (h : (s, kind) ∈ symbols) :
    kind ≠ .identifier ∧ kind ≠ .number := by
  have hall : symbols.all (fun x => x.2 ≠ .identifier ∧ x.2 ≠ .number) = true := rfl
  exact of_decide_eq_true (List.all_eq_true.mp hall (s, kind) h)

/-- A token starts with a digit, with a letter, or is a symbol of the table. -/
theorem token?_cases (h : token? (c :: cs) = some (.token kind n)) :
    (c.isDigit = true ∧ kind = .number ∧ n = numberLength (c :: cs)) ∨
      (c.isAlpha = true ∧ kind = wordKind (c :: cs.takeWhile isNameChar) ∧
        n = (c :: cs.takeWhile isNameChar).length) ∨
      (kind ≠ .identifier ∧ kind ≠ .number) := by
  rw [token?] at h
  split at h
  · next hc =>
    cases h
    exact .inl ⟨hc, rfl, rfl⟩
  · split at h
    · next hc =>
      cases h
      exact .inr (.inl ⟨hc, rfl, rfl⟩)
    · obtain ⟨⟨s, k⟩, hf, hk⟩ := Option.map_eq_some_iff.mp h
      cases hk
      exact .inr (.inr (symbols_kind (List.mem_of_find?_eq_some hf)))

theorem take_takeWhile (p : Char → Bool) (cs : List Char) :
    cs.take (cs.takeWhile p).length = cs.takeWhile p :=
  (List.prefix_iff_eq_take.mp (List.takeWhile_prefix p)).symm

theorem isDigits_takeWhile (h : cs.takeWhile Char.isDigit ≠ []) :
    Number.IsDigits (cs.takeWhile Char.isDigit) :=
  ⟨h, List.all_eq_true.mp List.all_takeWhile⟩

/-- A number takes a point only if a digit comes after it. -/
theorem isNumeral_take (hc : c.isDigit = true) :
    Number.IsNumeral ((c :: cs).take (numberLength (c :: cs))) := by
  have hne : (c :: cs).takeWhile Char.isDigit ≠ [] := by
    rw [List.takeWhile_cons_of_pos hc]
    exact List.cons_ne_nil _ _
  have hwhole := isDigits_takeWhile hne
  rw [numberLength]
  split
  · next rest hdrop =>
    dsimp only
    split
    · rw [take_takeWhile]
      exact .whole hwhole
    · next hf =>
      have hsplit : (c :: cs).takeWhile Char.isDigit ++ '.' :: rest = c :: cs := by
        rw [← hdrop, List.takeWhile_append_dropWhile]
      have hfraction := isDigits_takeWhile fun h => hf (List.length_eq_zero_iff.mpr h)
      generalize (c :: cs).takeWhile Char.isDigit = ds at hwhole hsplit ⊢
      have htake : (c :: cs).take (ds.length + 1 + (rest.takeWhile Char.isDigit).length) =
          ds ++ '.' :: rest.takeWhile Char.isDigit := by
        rw [← hsplit, Nat.add_assoc, List.take_length_add_append, Nat.add_comm 1,
          List.take_succ_cons, take_takeWhile]
      rw [htake]
      exact .point hwhole hfraction
  · rw [take_takeWhile]
    exact .whole hwhole

theorem isName_word (hc : c.isAlpha = true)
    (hk : wordKind (c :: cs.takeWhile isNameChar) = .identifier) :
    IsName (.ofList (c :: cs.takeWhile isNameChar)) := by
  constructor
  · exact ⟨c, cs.takeWhile isNameChar, String.toList_ofList, hc,
      List.all_eq_true.mp List.all_takeWhile⟩
  · -- The reserved words have kinds of their own.
    have hne {word : String} (hword : wordKind word.toList ≠ .identifier) :
        String.ofList (c :: cs.takeWhile isNameChar) ≠ word := by
      rintro rfl
      rw [String.toList_ofList] at hword
      exact hword hk
    exact ⟨hne (by decide), hne (by decide), hne (by decide), hne (by decide)⟩

theorem wordKind_ne_number (word : List Char) : wordKind word ≠ .number := by
  rw [wordKind]
  split
  · exact nofun
  · split
    · exact nofun
    · split <;> exact nofun

/-- The word that starts a text is well spelled: the kind that it is given fits its characters. -/
theorem wellSpelled (place : Place) (h : start c cs = .token kind n) :
    Token.WellSpelled ⟨kind, .ofList ((c :: cs).take n), place⟩ := by
  rcases token?_cases (token?_of_start h) with ⟨hc, rfl, rfl⟩ | ⟨hc, rfl, rfl⟩ | ⟨hi, hn⟩
  · refine ⟨nofun, fun _ => ?_⟩
    rw [String.toList_ofList]
    exact isNumeral_take hc
  · have htake : (c :: cs).take (c :: cs.takeWhile isNameChar).length =
        c :: cs.takeWhile isNameChar := by
      rw [List.length_cons, List.take_succ_cons, take_takeWhile]
    rw [htake]
    exact ⟨isName_word hc, fun hk => absurd hk (wordKind_ne_number _)⟩
  · exact ⟨fun h => absurd h hi, fun h => absurd h hn⟩

end Lexeme

namespace Scan

/-- Every token of a scan is well spelled, also where the scan stops at an error. -/
theorem wellSpelled_run (p : Position) (skip : Nat) (cs : List Char) :
    ∀ t ∈ (run p skip cs).tokens, t.WellSpelled := by
  induction cs generalizing p skip with
  | nil => exact fun t ht => absurd ht List.not_mem_nil
  | cons c cs ih =>
    cases skip with
    | succ k => exact ih (p.advance c) k
    | zero =>
      rw [run]
      cases hl : Lexeme.start c cs with
      | blank n => exact ih (p.advance c) (n - 1)
      | token kind n =>
        intro t ht
        rcases List.mem_cons.mp ht with rfl | ht
        · exact Lexeme.wellSpelled _ hl
        · exact ih (p.advance c) (n - 1) t ht
      | openComment | unexpected => exact fun t ht => absurd ht List.not_mem_nil

theorem last_run {p : Position} {skip : Nat} {cs : List Char} {mark : Token}
    (h : (run p skip cs).last = .ok mark) : mark.kind = .endMark := by
  induction cs generalizing p skip with
  | nil =>
    cases h
    rfl
  | cons c cs ih =>
    cases skip with
    | succ k => exact ih h
    | zero =>
      rw [run] at h
      cases hl : Lexeme.start c cs with
      | blank n | token kind n =>
        simp only [hl] at h
        exact ih h
      | openComment | unexpected =>
        simp only [hl] at h
        cases h

end Scan

theorem last_of_tokenize_ok {source : String} {tokens : List Token}
    (h : tokenize source = .ok tokens) :
    ∃ mark, (scan source).last = .ok mark ∧ tokens = (scan source).tokens ++ [mark] := by
  rw [tokenize] at h
  cases hlast : (scan source).last with
  | error e =>
    rw [hlast] at h
    cases h
  | ok mark =>
    rw [hlast] at h
    cases h
    exact ⟨mark, rfl, rfl⟩

theorem wellSpelled_tokenize {source : String} {tokens : List Token}
    (h : tokenize source = .ok tokens) : ∀ t ∈ tokens, t.WellSpelled := by
  obtain ⟨mark, hlast, rfl⟩ := last_of_tokenize_ok h
  intro t ht
  rcases List.mem_append.mp ht with ht | ht
  · exact Scan.wellSpelled_run _ _ _ t ht
  · have hmark := Scan.last_run hlast
    rw [List.mem_singleton.mp ht]
    constructor
    · intro h
      rw [hmark] at h
      cases h
    · intro h
      rw [hmark] at h
      cases h

namespace Grammar

variable {ts : List Token}

/-- Well-spelled tokens derive expressions that source text can hold. -/
theorem DerivesExpression.isWritten {C : Category} {e : Tree} {k : Nat}
    (h : DerivesExpression C ts e k) (hts : ∀ t ∈ ts, t.WellSpelled) : e.IsWritten := by
  induction h with
  | @number t x ht hx hf =>
    have hnum := (hts t List.mem_cons_self).numeral ht
    have hsign : Number.isNegative x = false := by
      rw [← String.ofList_toList (s := t.lexeme)] at hx
      exact Number.isNegative_of_numeral hnum hx
    exact .number ⟨hf, hsign⟩
  | var ht => exact .var ((hts _ List.mem_cons_self).name ht)
  | boolean ht => exact .boolean _
  | group _ _ _ ih =>
    simp only [List.forall_mem_cons, List.forall_mem_append] at hts
    exact ih hts.2.1
  | base _ ih | unsigned _ ih | operand _ ih => exact ih hts
  | signed _ _ _ ih =>
    rw [List.forall_mem_cons] at hts
    exact .unary _ (ih hts.2)
  | power _ _ _ _ ih ihf | chain _ _ _ _ ih ihf =>
    rw [List.forall_mem_append, List.forall_mem_cons] at hts
    exact .binary _ (ih hts.1) (ihf hts.2.2)

/-- Well-spelled tokens derive statements that source text can hold. -/
theorem DerivesStatement.parserShaped {s : Tree} {k : Nat} (h : DerivesStatement ts s k)
    (hts : ∀ t ∈ ts, t.WellSpelled) : s.ParserShaped := by
  induction h with
  | assign ht _ he _ =>
    simp only [List.forall_mem_cons, List.forall_mem_append] at hts
    obtain ⟨hname, _, hvalue, _⟩ := hts
    exact .assign (hname.name ht) (he.isWritten hvalue)
  | ifThen _ _ he _ _ ih =>
    simp only [List.forall_mem_cons, List.forall_mem_append] at hts
    obtain ⟨_, _, hcond, _, hbody⟩ := hts
    exact .ifThen (he.isWritten hcond) (ih hbody)
  | ifElse _ _ he _ _ hclosed _ _ ih ihr =>
    simp only [List.forall_mem_cons, List.forall_mem_append] at hts
    obtain ⟨_, _, hcond, _, hbody, _, hother⟩ := hts
    exact .ifElse (he.isWritten hcond) (ih hbody) hclosed (ihr hother)

end Grammar

end StackLang
