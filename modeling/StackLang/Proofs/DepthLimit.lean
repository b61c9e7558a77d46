import StackLang.Proofs.Levels
import StackLang.Proofs.ParserCompleteness
import StackLang.Proofs.SourceSafety

/-! Where the depth limit of an evaluation parts it from the code. What source texts the parser
takes is bounded by their nesting, and a chain of operators nests nothing, so no depth limit is
enough for all of them. -/
namespace StackLang

open Grammar

/-- The end mark is not read. -/
theorem Grammar.DerivesProgram.parse_eq {ts : List Token} {ss : List Tree} {k limit : Nat}
    (h : DerivesProgram ts ss k) (hk : k ≤ limit) (place : Place) :
    parse limit (ts ++ [.endMark place]) = ⟨ss, []⟩ := by
  have ha : (Cursor.ofTokens limit (ts ++ [.endMark place])).ahead = ts := by
    refine (List.takeWhile_append_of_pos fun t ht => ?_).trans (List.append_nil ts)
    exact decide_eq_true (h.not_endMark t ht)
  rw [← ha] at h
  exact h.statementsWithin hk (Nat.le_refl _)

namespace Program

variable {limit : Nat} {source : String} {p : Program}

theorem compile_of_parse {tokens : List Token} {ss : List Tree}
    (htokens : tokenize source = .ok tokens) (hparse : parse limit tokens = ⟨ss, []⟩) :
    ∃ code, compile limit source = .ok ⟨source, ss, code⟩ := by
  have hshape := parserShaped_of_tokenize htokens limit
  rw [hparse] at hshape
  obtain ⟨code, hcode, -⟩ := Tree.compile_statements fun s hs => (hshape s hs).isStatement
  refine ⟨code, ?_⟩
  simp only [compile, htokens, hparse, hcode]
  rfl

/-- The code of a text that compiles does what its statements mean. -/
theorem run_answers (h : compile limit source = .ok p) :
    Machine.Answers p.run (Tree.effects false ∅ p.statements) := by
  rcases compile_cases limit source with ⟨ds, hc⟩ | ⟨tokens, code, htokens, hc, his⟩
  · rw [h] at hc
    cases hc
  · rw [h] at hc
    cases hc
    have hs : ∀ s ∈ (parse limit tokens).statements, s.IsStatement :=
      fun s hs => (parserShaped_of_tokenize htokens limit s hs).isStatement
    have hrun := Machine.execute_answers hs (Nat.le_refl _)
    rw [← his] at hrun
    exact hrun

theorem evaluate_eq (o : EvalOptions) (p : Program) :
    p.evaluate o = if o.limit < Tree.reachAll o.lenient ∅ p.statements then
      .error (Evaluation.cutOff o) else Tree.effects o.lenient ∅ p.statements := by
  rw [← Evaluation.answer_program o p.statements .start, evaluate]
  cases Evaluation.program o p.statements .start <;> rfl

theorem evaluate_of_reach {depth : Nat} (h : depth < Tree.reachAll false ∅ p.statements) :
    p.evaluate ⟨false, depth⟩ = .error (.tooDeep depth depth) :=
  (evaluate_eq ⟨false, depth⟩ p).trans (if_pos h)

/-- An evaluation that is not cut off ends like the code. -/
theorem answers_of_reach (h : compile limit source = .ok p) {depth : Nat}
    (hreach : Tree.reachAll false ∅ p.statements ≤ depth) :
    Machine.Answers p.run (p.evaluate ⟨false, depth⟩) := by
  rw [evaluate_eq, if_neg (Nat.not_lt.mpr hreach)]
  exact run_answers h

end Program

/-- An expression with `1` added to it `n` times. -/
def Tree.addOnes (e : Tree) : Nat → Tree
  | 0 => e
  | n + 1 => (Tree.binary .add e (.number 1)).addOnes n

/-- What adds `1` to an expression `n` times. -/
def addedOnes (n : Nat) : List Char := (List.replicate n " + 1".toList).flatten

/-- A program whose only statement is a sum of ones. -/
def onesSum (n : Nat) : String := .ofList ("x = 1".toList ++ addedOnes n)

namespace Tree

theorem valueLevels_addOnes (e : Tree) (n : Nat) (h : 1 ≤ e.valueLevels) :
    (e.addOnes n).valueLevels = e.valueLevels + n := by
  induction n generalizing e with
  | zero => rfl
  | succ n ih =>
    have hlevels : (binary .add e (.number 1)).valueLevels = e.valueLevels + 1 := by
      simp only [valueLevels, Nat.max_eq_left h]
    rw [addOnes, ih _ (by omega), hlevels]
    omega

theorem meaning_addOnes (lenient : Bool) (store : Store) {e : Tree} {v : Float} (n : Nat)
    (h : e.meaning lenient store = .ok v) : ∃ w, (e.addOnes n).meaning lenient store = .ok w := by
  induction n generalizing e v with
  | zero => exact ⟨v, h⟩
  | succ n ih =>
    have hsum : (binary .add e (.number 1)).meaning lenient store = .ok (v + 1) := by
      simp only [meaning, h]
      rfl
    exact ih hsum

end Tree

namespace Scan

theorem breaks_addedOnes (n : Nat) : Lexeme.Breaks (addedOnes n) := by
  cases n with
  | zero => exact nofun
  | succ n => exact Lexeme.breaks_cons _ rfl (by decide)

theorem run_one (p : Position) (n : Nat) :
    ∃ t q, DerivesExpression (.level .product) [t] (.number 1) 0 ∧
      run p 0 ('1' :: addedOnes n) = push t (run q 0 (addedOnes n)) := by
  have hone : Number.IsNumeral ['1'] := .whole ⟨List.cons_ne_nil _ _, List.all_eq_true.mp rfl⟩
  obtain ⟨t, q, hk, hl, hrun⟩ := run_token p (Lexeme.start_number hone (breaks_addedOnes n))
  refine ⟨t, q, .operand (.unsigned (.base (.number hk ?_ ?_))), hrun⟩
  · rw [hl]
    decide +kernel
  · decide +kernel

/-- Each `1` that is added goes on with the chain that came before it. -/
theorem gives_addedOnes {us : List Token} {e : Tree} (n : Nat)
    (h : DerivesExpression (.level .sum) us e 0) :
    Gives (addedOnes n) [] fun ts =>
      DerivesExpression (.level .sum) (us ++ ts) (e.addOnes n) 0 := by
  intro p
  induction n generalizing us e p with
  | zero =>
    rw [← List.append_nil us] at h
    exact ⟨[], p, h, rfl⟩
  | succ n ih =>
    have htext : addedOnes (n + 1) = ' ' :: '+' :: ' ' :: '1' :: addedOnes n := rfl
    obtain ⟨t, q₁, ht, h₁⟩ : ∃ t q, t.kind = .sign .plus ∧
        run (p.advance ' ') 0 ('+' :: ' ' :: '1' :: addedOnes n) =
          push t (run q 0 (' ' :: '1' :: addedOnes n)) := run_symbol _ rfl
    obtain ⟨u, q₂, hu, h₂⟩ := run_one (q₁.advance ' ') n
    obtain ⟨ts, q, hts, h₃⟩ := ih (.chain h ht rfl hu) q₂
    refine ⟨t :: u :: ts, q, ?_, ?_⟩
    · rw [List.append_assoc] at hts
      exact hts
    · rw [htext, run_blank p rfl, h₁, run_blank q₁ rfl, h₂, h₃]
      rfl

theorem toList_onesSum (n : Nat) :
    (onesSum n).toList = 'x' :: ' ' :: '=' :: ' ' :: '1' :: addedOnes n := String.toList_ofList

theorem gives_onesSum (n : Nat) :
    Gives (onesSum n).toList [] fun ts =>
      DerivesProgram ts [.assign "x" ((Tree.number 1).addOnes n)] 0 := by
  intro p
  rw [toList_onesSum]
  obtain ⟨t, q₁, ht, hl, h₁⟩ : ∃ t q, t.kind = .identifier ∧ t.lexeme = "x" ∧
      run p 0 ('x' :: ' ' :: '=' :: ' ' :: '1' :: addedOnes n) =
        push t (run q 0 (' ' :: '=' :: ' ' :: '1' :: addedOnes n)) := by
    have hbreaks : Lexeme.Breaks (' ' :: '=' :: ' ' :: '1' :: addedOnes n) :=
      Lexeme.breaks_cons _ rfl (by decide)
    exact run_token p (Lexeme.start_word rfl (List.forall_mem_nil _) hbreaks)
  obtain ⟨u, q₂, hu, h₂⟩ : ∃ t q, t.kind = .assign ∧
      run (q₁.advance ' ') 0 ('=' :: ' ' :: '1' :: addedOnes n) =
        push t (run q 0 (' ' :: '1' :: addedOnes n)) := run_symbol _ rfl
  obtain ⟨v, q₃, hv, h₃⟩ := run_one (q₂.advance ' ') n
  obtain ⟨ts, q, hts, h₄⟩ := gives_addedOnes n (.operand hv) q₃
  have hsum : DerivesExpression expression (v :: ts) ((Tree.number 1).addOnes n) 0 :=
    .operand (.operand (.operand hts))
  have hstatement := DerivesStatement.assign ht hu hsum (.inl rfl)
  rw [hl] at hstatement
  refine ⟨_, q, .statement hstatement .nil, ?_⟩
  rw [h₁, run_blank q₁ rfl, h₂, run_blank q₂ rfl, h₃, h₄]
  simp [prepend, push]

end Scan

/-- Under every nesting limit the sum compiles and its code runs to the end, and its evaluation
reaches as many levels as there are ones, and one more. -/
theorem onesSum_outcome (limit n : Nat) :
    ∃ p, Program.compile limit (onesSum n) = .ok p ∧ (∃ store, p.run = .halted store) ∧
      Tree.reachAll false ∅ p.statements = n + 2 := by
  obtain ⟨ts, place, hts, htokens⟩ := (Scan.gives_onesSum n).tokenize_eq
  -- The chain is derived without nesting, so every limit takes it.
  have hparse := hts.parse_eq (Nat.zero_le limit) place
  obtain ⟨code, hc⟩ := Program.compile_of_parse htokens hparse
  obtain ⟨v, hv⟩ : ∃ v, ((Tree.number 1).addOnes n).meaning false ∅ = .ok v :=
    Tree.meaning_addOnes false ∅ n rfl
  have heffect : (Tree.assign "x" ((Tree.number 1).addOnes n)).effect false ∅ =
      .ok ((∅ : Store).insert "x" v) := by
    rw [Tree.effect, hv]
    rfl
  refine ⟨_, hc, ?_, ?_⟩
  · have hanswer := Program.run_answers hc
    simp only [Tree.effects, heffect] at hanswer
    exact ⟨_, hanswer⟩
  · have hlevels := Tree.valueLevels_addOnes (.number 1) n (Nat.le_refl 1)
    have hone : (Tree.number 1).valueLevels = 1 := rfl
    simp only [Tree.reachAll, Tree.reachThen_zero, Tree.reach, Tree.valueReach_eq hv, hlevels, hone]
    omega

/-- The two ways to run a text that compiles end alike, with the same store or with errors of the
same cause, exactly when the evaluation reaches no deeper level than the depth limit, and it reaches
none that the statements do not have; otherwise it is cut off. No nesting limit rules that out:
under every one there is a text that compiles and runs, and whose evaluation is cut off. -/
theorem evaluate_agrees_iff_reach (limit depth : Nat) :
    (∀ source p, Program.compile limit source = .ok p →
      (Machine.Answers p.run (p.evaluate ⟨false, depth⟩) ↔
        Tree.reachAll false ∅ p.statements ≤ depth) ∧
      Tree.reachAll false ∅ p.statements ≤ Tree.mostLevels p.statements ∧
      (depth < Tree.reachAll false ∅ p.statements →
        p.evaluate ⟨false, depth⟩ = .error (.tooDeep depth depth))) ∧
      ∃ source p store, Program.compile limit source = .ok p ∧ p.run = .halted store ∧
        p.evaluate ⟨false, depth⟩ = .error (.tooDeep depth depth) := by
  constructor
  · intro source p h
    refine ⟨⟨?_, Program.answers_of_reach h⟩, ?_, Program.evaluate_of_reach⟩
    · -- No fault of the code has the cause of an evaluation that is cut off.
      intro hanswer
      by_contra hdeep
      rw [Program.evaluate_of_reach (Nat.lt_of_not_le hdeep)] at hanswer
      obtain ⟨fault, hcause, -⟩ := hanswer
      cases hcause
    · exact Tree.reachAll_le ∅ fun s _ store => Tree.reach_le store s
  · obtain ⟨p, hc, ⟨store, hrun⟩, hreach⟩ := onesSum_outcome limit depth
    exact ⟨onesSum depth, p, store, hc, hrun, Program.evaluate_of_reach (by omega)⟩

/-- A text of three levels whose evaluation fails in a branch. -/
def shallowSource : String := "x = 7 / 2; if (x > 3) y = z"

theorem shallowSource_evaluate_agrees :
    ∃ p, Program.compile 1 shallowSource = .ok p ∧ Tree.mostLevels p.statements = 3 ∧
      Machine.Answers p.run (p.evaluate ⟨false, 3⟩) ∧
      ¬ Machine.Answers p.run (p.evaluate ⟨false, 2⟩) := by
  have hany : (Program.compile 1 shallowSource).toOption.any (fun p =>
      Tree.mostLevels p.statements = 3 && Tree.reachAll false ∅ p.statements = 3) = true := by
    decide +kernel
  obtain ⟨p, hc, hany⟩ := exists_ok_of_any hany
  rw [Bool.and_eq_true, decide_eq_true_eq, decide_eq_true_eq] at hany
  obtain ⟨hlevels, hreach⟩ := hany
  refine ⟨p, hc, hlevels, ?_, ?_⟩
  · exact ((evaluate_agrees_iff_reach 1 3).1 shallowSource p hc).1.mpr (by omega)
  · intro hanswer
    have hle := ((evaluate_agrees_iff_reach 1 2).1 shallowSource p hc).1.mp hanswer
    omega

/-- A thousand ones are too many for the depth limit that an evaluation has by default. -/
theorem onesSum_cut_off :
    ∃ p store, Program.compile defaultNesting (onesSum 999) = .ok p ∧ p.run = .halted store ∧
      p.evaluate ⟨false, defaultDepth⟩ = .error (.tooDeep 1000 1000) := by
  obtain ⟨p, hc, ⟨store, hrun⟩, hreach⟩ := onesSum_outcome defaultNesting 999
  refine ⟨p, store, hc, hrun, Program.evaluate_of_reach ?_⟩
  rw [hreach]
  decide

end StackLang
