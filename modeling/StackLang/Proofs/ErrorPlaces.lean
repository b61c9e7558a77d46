import StackLang.Program
import StackLang.Proofs.Positions
import StackLang.Proofs.Recovery
import StackLang.Proofs.TokenShape

namespace StackLang

namespace Parser

variable {α β : Type}

/-- A failure is reported at the token that comes next where the parser stopped. -/
def FailsHere (p : Parser α) : Prop :=
  ∀ c e d, p c = .error e d → e.index = d.index ∧ e.place = d.current.place

theorem failsHere_of_ok {p : Parser α} (h : ∀ c, ∃ a d, p c = .ok a d) : FailsHere p := by
  intro c e d he
  obtain ⟨a, d₁, hok⟩ := h c
  rw [hok] at he
  cases he

theorem failsHere_bind {p : Parser α} {f : α → Parser β} (hp : FailsHere p)
    (hf : ∀ a, FailsHere (f a)) : FailsHere (p >>= f) := by
  intro c e d h
  cases hr : p c with
  | ok a c₁ =>
    rw [bind_of_ok hr] at h
    exact hf a c₁ e d h
  | error e₁ c₁ =>
    rw [bind_of_error hr] at h
    cases h
    exact hp c e d hr

theorem failsHere_nested {p : Parser α} (hp : FailsHere p) : FailsHere (nested p) := by
  intro c e d h
  unfold nested at h
  split at h
  · cases h
    exact ⟨rfl, rfl⟩
  · split at h
    · cases h
    · next e₁ d₁ hr =>
      cases h
      exact hp _ e d₁ hr

theorem closed_failsHere : Closed fun _ p => FailsHere p where
  pure a := failsHere_of_ok fun c => ⟨a, c, rfl⟩
  fail _ := by
    intro c e d h
    cases h
    exact ⟨rfl, rfl⟩
  peek := failsHere_of_ok fun c => ⟨c.current, c, rfl⟩
  advance := failsHere_of_ok fun c => ⟨(), c.advance, rfl⟩
  bind := failsHere_bind
  nested := failsHere_nested

end Parser

namespace Cursor

/-- Every error was found at a cursor further on. -/
theorem moves_of_mem_errors {n : Nat} {c : Cursor} {e : SyntaxError}
    (he : e ∈ (c.statementsWithin n).1.errors) :
    ∃ ts d, c.Moves ts d ∧ e.index = d.index ∧ e.place = d.current.place := by
  induction n generalizing c with
  | zero => cases he
  | succ n ih =>
    have hlater {d : Cursor} (hm : ∃ us, c.Moves us d)
        (hd : e ∈ (d.statementsWithin n).1.errors) :
        ∃ ts d, c.Moves ts d ∧ e.index = d.index ∧ e.place = d.current.place := by
      obtain ⟨us, hus⟩ := hm
      obtain ⟨ts, d', hts, hfound⟩ := ih hd
      exact ⟨us ++ ts, d', hus.trans hts, hfound⟩
    cases ha : c.ahead with
    | nil =>
      rw [statementsWithin_of_nil (n + 1) ha] at he
      cases he
    | cons t rest =>
      by_cases ht : t.kind = .semicolon
      · rw [statementsWithin_of_semicolon n ha ht] at he
        exact hlater (moves_advance c) he
      · obtain ⟨ts, hts⟩ := Parser.advances_phrase c.ahead.length .statement c
        change c.Moves ts (Parser.stop c.statement) at hts
        cases hr : c.statement with
        | ok u d =>
          rw [hr] at hts
          rw [statementsWithin_of_ok n ha ht hr] at he
          exact hlater ⟨ts, hts⟩ he
        | error e₁ d =>
          rw [hr] at hts
          rw [statementsWithin_of_error n ha ht hr] at he
          rcases List.mem_cons.mp he with rfl | he
          · exact ⟨ts, d, hts, Parser.closed_failsHere.phrase _ .statement c e d hr⟩
          · obtain ⟨us, hus⟩ := moves_recover c.index d
            exact hlater ⟨ts ++ us, hts.trans hus⟩ he

theorem Moves.current_place {c d : Cursor} {ts : List Token} (h : c.Moves ts d) :
    d.current.place = c.mark ∨ ∃ t ∈ c.ahead, d.current.place = t.place := by
  unfold current
  cases ha : d.ahead with
  | nil => exact .inl h.frame.2.2
  | cons t rest =>
    refine .inr ⟨t, ?_, rfl⟩
    rw [h.ahead_eq, ha]
    simp

end Cursor

namespace Scan

theorem isIn_run {text : List Char} (before : List Char) {cs : List Char} (skip : Nat)
    (htext : text = before ++ cs) :
    (∀ t ∈ (run (Position.start.advanceBy before) skip cs).tokens, t.place.IsIn text) ∧
      (stopPlace (run (Position.start.advanceBy before) skip cs).last).IsIn text := by
  induction cs generalizing before skip with
  | nil => exact ⟨List.forall_mem_nil _, before, [], [], htext, rfl⟩
  | cons c cs ih =>
    have hnext := (Position.start.advanceBy_concat before c).symm
    have hrest (skip : Nat) := ih (before ++ [c]) skip (by simp [htext])
    have hhere (n : Nat) :
        ((Position.start.advanceBy before).place ((c :: cs).take n)).IsIn text :=
      ⟨before, (c :: cs).take n, (c :: cs).drop n, by rw [List.take_append_drop, htext], rfl⟩
    cases skip with
    | succ k =>
      rw [run, hnext]
      exact hrest k
    | zero =>
      rw [run]
      split
      · rw [hnext]
        exact hrest _
      · next kind n _ =>
        rw [hnext]
        refine ⟨?_, (hrest _).2⟩
        intro t ht
        rcases List.mem_cons.mp ht with rfl | ht
        · exact hhere n
        · exact (hrest _).1 t ht
      · exact ⟨List.forall_mem_nil _, hhere 2⟩
      · exact ⟨List.forall_mem_nil _, hhere 1⟩

end Scan

section Tokenize

variable {source : String}

theorem scan_isIn (source : String) :
    (∀ t ∈ (scan source).tokens, t.place.IsIn source.toList) ∧
      (Scan.stopPlace (scan source).last).IsIn source.toList :=
  Scan.isIn_run [] 0 (List.nil_append source.toList).symm

theorem last_of_tokenize_error {e : LexError} (h : tokenize source = .error e) :
    (scan source).last = .error e := by
  rw [tokenize] at h
  cases hlast : (scan source).last with
  | error e₁ =>
    rw [hlast] at h
    cases h
    rfl
  | ok mark =>
    rw [hlast] at h
    cases h

theorem isIn_of_tokenize_error {e : LexError} (h : tokenize source = .error e) :
    e.place.IsIn source.toList := by
  have hstop := (scan_isIn source).2
  rwa [last_of_tokenize_error h] at hstop

theorem isIn_of_mem_tokens {tokens : List Token} (h : tokenize source = .ok tokens) :
    ∀ t ∈ tokens, t.place.IsIn source.toList := by
  obtain ⟨mark, hlast, rfl⟩ := last_of_tokenize_ok h
  obtain ⟨htokens, hstop⟩ := scan_isIn source
  intro t ht
  rcases List.mem_append.mp ht with ht | ht
  · exact htokens t ht
  · rw [List.mem_singleton.mp ht]
    rwa [hlast] at hstop

/-- The end mark of a text is the one that the parser stops at. -/
theorem exists_mark_of_tokenize {tokens : List Token} (h : tokenize source = .ok tokens) :
    ∃ t ∈ tokens, Cursor.markOf tokens = t.place := by
  obtain ⟨mark, hlast, rfl⟩ := last_of_tokenize_ok h
  have hfind : (((scan source).tokens ++ [mark]).find? (·.kind = .endMark)).isSome := by
    rw [List.find?_isSome]
    exact ⟨mark, by simp, by simp [Scan.last_run hlast]⟩
  obtain ⟨t, ht⟩ := Option.isSome_iff_exists.mp hfind
  refine ⟨t, List.mem_of_find?_eq_some ht, ?_⟩
  rw [Cursor.markOf, ht]

/-- A fault of a statement is reported at a token of the text. -/
theorem isIn_of_mem_errors {tokens : List Token} (h : tokenize source = .ok tokens) {limit : Nat}
    {e : SyntaxError} (he : e ∈ (parse limit tokens).errors) : e.place.IsIn source.toList := by
  obtain ⟨ts, d, hm, -, hplace⟩ := Cursor.moves_of_mem_errors he
  have htokens := isIn_of_mem_tokens h
  rcases hm.current_place with hmark | ⟨t, ht, hcurrent⟩
  · obtain ⟨t, ht, hfound⟩ := exists_mark_of_tokenize h
    have hin := htokens t ht
    rw [← hfound] at hin
    rw [hplace, hmark]
    exact hin
  · rw [hplace, hcurrent]
    exact htokens t ((List.takeWhile_sublist _).subset ht)

end Tokenize

end StackLang
