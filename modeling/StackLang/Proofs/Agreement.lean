import StackLang.Proofs.Levels
import StackLang.Proofs.Simulation

namespace StackLang

/-- An evaluation and a run of the machine end alike: with the same store, or with an error and
a fault of the same cause. -/
inductive SameOutcome : EStateM.Result EvalError Session Store → Machine.Progress → Prop where
  | store (store : Store) (s : Session) : SameOutcome (.ok store s) (.halted store)
  | error {e : EvalError} {fault : Fault} (s : Session) :
    SameCause e fault → SameOutcome (.error e s) (.failed fault)

/-- Whether the depth limit ended an evaluation. -/
def Evaluation.isCutOff {α : Type} : EStateM.Result EvalError Session α → Bool
  | .error (.tooDeep _ _) _ => true
  | _ => false

/-- Statements compile, and unless the depth limit cuts their evaluation off, their code runs to
an end within as many steps as it has instructions and ends alike. -/
theorem compiled_run_agrees (limit : Nat) {ss : List Tree} (hs : ∀ s ∈ ss, s.IsStatement)
    (session : Session)
    (hcut : Evaluation.isCutOff (Evaluation.program ⟨false, limit⟩ ss session) = false) :
    ∃ code, Code.compile ss = .ok code ∧ ∀ n, code.instructions.length ≤ n →
      SameOutcome (Evaluation.program ⟨false, limit⟩ ss session)
        (Machine.execute n code.instructions) := by
  obtain ⟨code, hcode, his⟩ := Tree.compile_statements hs
  refine ⟨code, hcode, ?_⟩
  intro n hn
  rw [his] at hn ⊢
  have hrun := Machine.execute_answers hs hn
  have hanswer := Evaluation.answer_program ⟨false, limit⟩ ss session
  cases hp : Evaluation.program ⟨false, limit⟩ ss session with
  | ok store s =>
    rw [hp] at hanswer
    split at hanswer
    · cases hanswer
    · rw [← hanswer] at hrun
      rw [hrun]
      exact .store store s
  | error e s =>
    rw [hp] at hanswer hcut
    split at hanswer
    · cases hanswer
      cases hcut
    · rw [← hanswer] at hrun
      obtain ⟨fault, hcause, hfail⟩ := hrun
      rw [hfail]
      exact .error s hcause

/-- A program with a branch that is taken, one that would fail, and a value that is dropped. -/
def branchingProgram : List Tree :=
  [.assign "x" (.binary .div (.number 7) (.number 2)),
    .ifElse (.binary .gt (.var "x") (.number 3))
      (.program [.unary .neg (.var "x"), .assign "y" (.binary .sub (.var "x") (.number 1))])
      (.assign "y" (.binary .div (.number 1) (.number 0))),
    .ifThen (.binary .lt (.var "y") (.number 2)) (.assign "x" (.var "z"))]

theorem branchingProgram_isStatement : ∀ s ∈ branchingProgram, s.IsStatement := by
  have hbody : ∀ s ∈ [Tree.unary .neg (.var "x"),
      .assign "y" (.binary .sub (.var "x") (.number 1))], s.IsStatement := by
    simp only [List.forall_mem_cons, List.not_mem_nil, false_implies, implies_true, and_true]
    exact ⟨.expression (.unary _ (.var _)), .assign _ (.binary _ (.var _) (.number _))⟩
  simp only [branchingProgram, List.forall_mem_cons, List.not_mem_nil, false_implies, implies_true,
    and_true]
  exact ⟨.assign _ (.binary _ (.number _) (.number _)),
    .ifElse (.binary _ (.var _) (.number _)) (.program hbody)
      (.assign _ (.binary _ (.number _) (.number _))),
    .ifThen (.binary _ (.var _) (.number _)) (.assign _ (.var _))⟩

theorem branchingProgram_run_agrees :
    Evaluation.isCutOff (Evaluation.program ⟨false, 5⟩ branchingProgram .start) = false ∧
    ∃ code, Code.compile branchingProgram = .ok code ∧ ∀ n, code.instructions.length ≤ n →
      SameOutcome (Evaluation.program ⟨false, 5⟩ branchingProgram .start)
        (Machine.execute n code.instructions) := by
  have hcut : Evaluation.isCutOff (Evaluation.program ⟨false, 5⟩ branchingProgram .start) =
      false := by decide +kernel
  exact ⟨hcut, compiled_run_agrees 5 branchingProgram_isStatement .start hcut⟩

end StackLang
