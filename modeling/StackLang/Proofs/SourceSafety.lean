import StackLang.Program
import StackLang.Proofs.Levels
import StackLang.Proofs.ParserProgress
import StackLang.Proofs.Simulation
import StackLang.Proofs.TokenShape

namespace StackLang

/-- The faults that only code with a missing operand or a wrong label has. -/
def Fault.isInternal : Fault → Bool
  | undefinedVariable _ _ | divisionByZero _ => false
  | stackUnderflow _ _ | unresolvedLabel _ _ | duplicateLabel _ _ _ => true

/-- The errors that only trees with a statement in place of an expression have. -/
def EvalError.isInternal : EvalError → Bool
  | undefinedVariable _ | divisionByZero | tooDeep _ _ => false
  | notAnExpression _ => true

theorem SameCause.isInternal_fault {e : EvalError} {fault : Fault} (h : SameCause e fault) :
    fault.isInternal = false := by
  cases h <;> rfl

/-- A result that is no internal error. -/
def Regular {α : Type} (r : Except EvalError α) : Prop :=
  ∀ e, r = .error e → e.isInternal = false

section Regular

variable {α β : Type}

theorem regular_ok (a : α) : Regular (.ok a) := nofun

theorem regular_error {e : EvalError} (h : e.isInternal = false) :
    Regular (.error e : Except EvalError α) := by
  intro e' he
  cases he
  exact h

theorem Regular.bind {r : Except EvalError α} {f : α → Except EvalError β} (hr : Regular r)
    (hf : ∀ a, Regular (f a)) : Regular (r >>= f) := by
  cases r with
  | ok a => exact hf a
  | error e => exact regular_error (hr e rfl)

theorem regular_outcome (op : BinaryOp) (x y : Float) : Regular (op.outcome x y) := by
  unfold BinaryOp.outcome
  cases op.eval? x y with
  | some z => exact regular_ok z
  | none => exact regular_error rfl

end Regular

namespace Tree

variable {lenient : Bool}

/-- An expression has a value, or a variable or a division keeps it from having one. -/
theorem IsExpression.regular_meaning {e : Tree} (he : e.IsExpression) (store : Store) :
    Regular (e.meaning lenient store) := by
  induction he with
  | number x => exact regular_ok x
  | var x =>
    rw [meaning]
    cases store[x]? with
    | some v => exact regular_ok v
    | none =>
      cases lenient with
      | true => exact regular_ok 0
      | false => exact regular_error rfl
  | boolean b => exact regular_ok (Number.ofBool b)
  | unary op _ ih => exact ih.bind fun v => regular_ok (op.eval v)
  | binary op _ _ ihl ihr => exact ihl.bind fun x => ihr.bind fun y => regular_outcome op x y

theorem regular_effects {ss : List Tree}
    (h : ∀ s ∈ ss, ∀ store, Regular (s.effect lenient store)) (store : Store) :
    Regular (effects lenient store ss) := by
  induction ss generalizing store with
  | nil => exact regular_ok store
  | cons s ss ih =>
    rw [effects]
    exact (h s (by simp) store).bind fun store => ih (fun u hu => h u (by simp [hu])) store

theorem IsStatement.regular_effect {s : Tree} (hs : s.IsStatement) (store : Store) :
    Regular (s.effect lenient store) := by
  induction hs generalizing store with
  | expression he =>
    rw [effect_expression lenient store he]
    cases hm : meaning lenient store _ with
    | ok v => exact regular_ok store
    | error e => exact regular_error (he.regular_meaning store e hm)
  | assign x he =>
    rw [effect]
    exact (he.regular_meaning store).bind fun v => regular_ok (store.insert x v)
  | ifThen hc _ ih =>
    rw [effect]
    refine (hc.regular_meaning store).bind fun v => ?_
    cases Number.isTrue v with
    | true => exact ih store
    | false => exact regular_ok store
  | ifElse hc _ _ ihs iht =>
    rw [effect]
    refine (hc.regular_meaning store).bind fun v => ?_
    cases Number.isTrue v with
    | true => exact ihs store
    | false => exact iht store
  | program _ ih =>
    rw [effect]
    exact regular_effects ih store

end Tree

/-- An evaluation of statements, under any options, gives no internal error. -/
theorem Evaluation.isInternal_of_program {o : EvalOptions} {ss : List Tree}
    (hs : ∀ s ∈ ss, s.IsStatement) {session session' : Session} {e : EvalError}
    (h : Evaluation.program o ss session = .error e session') : e.isInternal = false := by
  have hanswer := Evaluation.answer_program o ss session
  rw [h] at hanswer
  split at hanswer
  · cases hanswer
    rfl
  · exact Tree.regular_effects (fun s hs' => (hs s hs').regular_effect) ∅ e hanswer.symm

/-- What is read from a source text has the shape of source text, whatever else failed. -/
theorem parserShaped_of_tokenize {source : String} {tokens : List Token}
    (h : tokenize source = .ok tokens) (limit : Nat) :
    ∀ s ∈ (parse limit tokens).statements, s.ParserShaped := by
  intro s hs
  obtain ⟨ts, k, hts, hin⟩ := Cursor.statementsWithin_infix hs
  apply hts.parserShaped
  intro t ht
  have hahead : t ∈ tokens.takeWhile (·.kind ≠ .endMark) := hin.subset ht
  exact wellSpelled_tokenize h t ((List.takeWhile_sublist _).subset hahead)

namespace Program

/-- A text whose words and statements are well formed compiles; nothing fails after that. -/
theorem compile_cases (limit : Nat) (source : String) :
    (∃ diagnostics, compile limit source = .error (.compilation diagnostics)) ∨
      ∃ tokens code, tokenize source = .ok tokens ∧
        compile limit source = .ok ⟨source, (parse limit tokens).statements, code⟩ ∧
        code.instructions = Tree.lowerAll 0 (parse limit tokens).statements := by
  cases h : tokenize source with
  | error e =>
    left
    simp only [compile, h]
    exact ⟨[e.diagnostic], rfl⟩
  | ok tokens =>
    simp only [compile, h]
    by_cases hok : (parse limit tokens).isOk = true
    · have hshape := parserShaped_of_tokenize h limit
      obtain ⟨code, hcode, his⟩ := Tree.compile_statements fun s hs => (hshape s hs).isStatement
      rw [if_pos hok, hcode]
      exact .inr ⟨tokens, code, rfl, rfl, his⟩
    · rw [if_neg hok]
      exact .inl ⟨_, rfl⟩

/-- The code of statements runs to an end, and no fault of its own making ends it. -/
theorem run_regular {p : Program} (hs : ∀ s ∈ p.statements, s.IsStatement)
    (hcode : p.code.instructions = Tree.lowerAll 0 p.statements) :
    (∃ store, p.run = .halted store) ∨
      ∃ fault, p.run = .failed fault ∧ fault.isInternal = false := by
  have hrun := Machine.execute_answers hs (Nat.le_refl _)
  rw [← hcode] at hrun
  change Machine.Answers p.run _ at hrun
  cases he : Tree.effects false ∅ p.statements with
  | ok store =>
    simp only [he] at hrun
    exact .inl ⟨store, hrun⟩
  | error e =>
    simp only [he] at hrun
    obtain ⟨fault, hcause, hfail⟩ := hrun
    exact .inr ⟨fault, hfail, hcause.isInternal_fault⟩

theorem evaluate_regular {p : Program} (hs : ∀ s ∈ p.statements, s.IsStatement)
    (o : EvalOptions) : Regular (p.evaluate o) := by
  intro e he
  unfold evaluate at he
  cases hp : Evaluation.program o p.statements .start with
  | ok store session =>
    rw [hp] at he
    cases he
  | error e' session =>
    rw [hp] at he
    cases he
    exact Evaluation.isInternal_of_program hs hp

end Program

/-- Every statement read from a source text, under any nesting limit and next to whatever
failures, has the shape of source text. Lowering a text never lacks an operand, and a text that
compiles neither runs into an internal fault nor, under any options, evaluates to an internal
error. -/
theorem source_reaches_no_internal_error (limit : Nat) (source : String) :
    (∀ tokens, tokenize source = .ok tokens →
      ∀ s ∈ (parse limit tokens).statements, s.ParserShaped) ∧
    (∀ underflow, Program.compile limit source ≠ .error (.lowering underflow)) ∧
    ∀ p, Program.compile limit source = .ok p →
      ((∃ store, p.run = .halted store) ∨
        ∃ fault, p.run = .failed fault ∧ fault.isInternal = false) ∧
      ∀ o e, p.evaluate o = .error e → e.isInternal = false := by
  refine ⟨fun tokens h => parserShaped_of_tokenize h limit, ?_⟩
  -- Only a text that compiles has anything to run.
  rcases Program.compile_cases limit source with ⟨ds, hc⟩ | ⟨tokens, code, h, hc, his⟩
  · rw [hc]
    exact ⟨nofun, nofun⟩
  · rw [hc]
    refine ⟨nofun, ?_⟩
    intro p hp
    cases hp
    have hs : ∀ s ∈ (parse limit tokens).statements, s.IsStatement :=
      fun s hs => (parserShaped_of_tokenize h limit s hs).isStatement
    exact ⟨Program.run_regular hs his, Program.evaluate_regular hs⟩

/-- A text with a malformed statement before one that can be read. -/
def recoveringSource : String := "x = 1 + ; if (x <= 2.5) y = -x"

/-- A text whose evaluation fails inside the branch of an `else` that the inner `if` takes. -/
def failingSource : String := "if (true) if (false) x = 1; else x = 1 / 0"

theorem exists_ok_of_any {ε α : Type} {r : Except ε α} {q : α → Bool}
    (h : r.toOption.any q = true) : ∃ a, r = .ok a ∧ q a = true := by
  cases r with
  | ok a => exact ⟨a, rfl, h⟩
  | error e => cases h

theorem failingSource_reaches_no_internal_error :
    (∃ tokens, tokenize recoveringSource = .ok tokens ∧ (parse 2 tokens).isOk = false ∧
      ∃ s ∈ (parse 2 tokens).statements, s.ParserShaped) ∧
    ∃ p, Program.compile 2 failingSource = .ok p ∧
      ((∃ store, p.run = .halted store) ∨
        ∃ fault, p.run = .failed fault ∧ fault.isInternal = false) ∧
      ∃ e, p.evaluate ⟨false, 9⟩ = .error e ∧ e.isInternal = false := by
  have hread : (tokenize recoveringSource).toOption.any (fun tokens =>
      !(parse 2 tokens).isOk && !(parse 2 tokens).statements.isEmpty) = true := by decide +kernel
  have hfail : (Program.compile 2 failingSource).toOption.any (fun p =>
      (p.evaluate ⟨false, 9⟩).toOption.isNone) = true := by decide +kernel
  obtain ⟨tokens, ht, hread⟩ := exists_ok_of_any hread
  obtain ⟨p, hc, hfail⟩ := exists_ok_of_any hfail
  constructor
  · rw [Bool.and_eq_true, Bool.not_eq_true', Bool.not_eq_true'] at hread
    obtain ⟨s, hs⟩ := List.exists_mem_of_ne_nil _ (List.isEmpty_eq_false_iff.mp hread.2)
    have hshape := (source_reaches_no_internal_error 2 recoveringSource).1 tokens ht s hs
    exact ⟨tokens, ht, hread.1, s, hs, hshape⟩
  · obtain ⟨hrun, heval⟩ := (source_reaches_no_internal_error 2 failingSource).2.2 p hc
    cases he : p.evaluate ⟨false, 9⟩ with
    | ok store =>
      rw [he] at hfail
      cases hfail
    | error e => exact ⟨p, hc, hrun, e, he, heval _ e he⟩

end StackLang
