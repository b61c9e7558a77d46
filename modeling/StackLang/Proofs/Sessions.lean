import StackLang.Proofs.Levels
import StackLang.Proofs.StoreChanges

namespace StackLang

namespace Session

/-- What an evaluator can be asked for. -/
inductive Call where
  | exec (statement : Tree)
  | value (expression : Tree)
  | program (statements : List Tree)

/-- What a call that does not fail gives back. -/
inductive Reply where
  | done
  | value (x : Float)
  | store (store : Store)

def Call.run (o : EvalOptions) : Call → Evaluation Reply
  | exec t => (fun _ => .done) <$> Evaluation.exec o t
  | value e => .value <$> Evaluation.value o e
  | program ss => .store <$> Evaluation.program o ss

/-- The session of an evaluator after some calls, the failed ones included. -/
def after (o : EvalOptions) (calls : List Call) : Session :=
  calls.foldl (fun s c => Evaluation.left (c.run o s)) .start

/-- The session of an evaluator that was given its variables and nothing else. -/
def holding (store : Store) : Session := { Session.start with store }

/-- Two sessions that differ in their logs at most. -/
structure Same (s t : Session) : Prop where
  store : t.store = s.store
  depth : t.depth = s.depth

end Session

namespace Evaluation

open Session

variable {α β : Type} {o : EvalOptions} {s : Session}

@[simp] theorem left_map (f : α → β) (p : Evaluation α) (s : Session) :
    left ((f <$> p) s) = left (p s) := by
  simp only [Functor.map, EStateM.map]
  cases p s <;> rfl

@[simp] theorem answer_map (f : α → β) (p : Evaluation α) (s : Session) :
    answer ((f <$> p) s) = (answer (p s)).map f := by
  simp only [Functor.map, EStateM.map]
  cases p s <;> rfl

/-- At depth 0, an evaluation that is cut off names the limit in its error, twice. -/
theorem Traces.eq_limit {p : Evaluation α} {q : Store → Except EvalError (α × Store)}
    {n : Store → Nat} (hp : Traces o p q n) (hs : s.depth = 0) {d l : Nat}
    (h : answer (p s) = .error (.tooDeep d l)) : d = o.limit ∧ l = o.limit := by
  have houtcome := hp.outcome_eq s
  rw [answer_eq_error h, hs, Nat.zero_max] at houtcome
  split at houtcome
  · cases houtcome
    exact ⟨rfl, rfl⟩
  · exact absurd houtcome.symm (hp.uncut s.store d l)

/-- The session that the statements of a program start in. -/
abbrev cleared (s : Session) : Session := { s with store := ∅, depth := 0 }

theorem left_program (ss : List Tree) (s : Session) :
    (left (program o ss s)).store = ∅ ∧
      (left (program o ss s)).depth = (left (execAll o ss (cleared s))).depth := by
  unfold program
  cases execAll o ss (cleared s) <;> exact ⟨rfl, rfl⟩

/-- Two results that differ in the logs of their sessions at most. -/
inductive SameResult :
    EStateM.Result EvalError Session α → EStateM.Result EvalError Session α → Prop where
  | ok {a : α} {s t : Session} : Same s t → SameResult (.ok a s) (.ok a t)
  | error {e : EvalError} {s t : Session} : Same s t → SameResult (.error e s) (.error e t)

theorem SameResult.answer_eq {r r' : EStateM.Result EvalError Session α} (h : SameResult r r') :
    answer r' = answer r := by
  cases h <;> rfl

theorem SameResult.left {r r' : EStateM.Result EvalError Session α} (h : SameResult r r') :
    Same (left r) (left r') := by
  cases h with
  | ok hs | error hs => exact hs

/-- `p` does not look at the log. -/
def Oblivious (p : Evaluation α) : Prop := ∀ s t, Same s t → SameResult (p s) (p t)

theorem oblivious_pure (a : α) : Oblivious (pure a) := fun _ _ h => .ok h

theorem oblivious_write (x : String) (v : Float) : Oblivious (write x v) :=
  fun _ _ h => .ok ⟨congrArg (·.insert x v) h.store, h.depth⟩

/-- Reading a missing variable may add to the log, in both sessions. -/
theorem oblivious_read (x : String) : Oblivious (read o x) := by
  intro s t h
  rw [read_eq, read_eq, h.store]
  split
  · exact .ok h
  · split
    · exact .ok ⟨h.store, h.depth⟩
    · exact .error h

theorem oblivious_nested {p : Evaluation α} (hp : Oblivious p) : Oblivious (nested o p) := by
  intro s t h
  unfold nested
  rw [h.depth]
  by_cases hlimit : o.limit ≤ s.depth
  · rw [if_pos hlimit, if_pos hlimit]
    exact .error h
  · rw [if_neg hlimit, if_neg hlimit]
    have hinner := hp { s with depth := s.depth + 1 } { t with depth := s.depth + 1 } ⟨h.store, rfl⟩
    generalize p { s with depth := s.depth + 1 } = r at hinner
    generalize p { t with depth := s.depth + 1 } = r' at hinner
    cases hinner with
    | ok h' => exact .ok ⟨h'.store, congrArg (· - 1) h'.depth⟩
    | error h' => exact .error ⟨h'.store, congrArg (· - 1) h'.depth⟩

theorem oblivious_bind {p : Evaluation α} {f : α → Evaluation β} (hp : Oblivious p)
    (hf : ∀ a, Oblivious (f a)) : Oblivious (p >>= f) := by
  intro s t h
  have hfirst := hp s t h
  simp only [bind, EStateM.bind]
  generalize p s = r at hfirst
  generalize p t = r' at hfirst
  cases hfirst with
  | ok h' => exact hf _ _ _ h'
  | error h' => exact .error h'

theorem closed_oblivious :
    Closed o o (fun _ => True) (fun _ => True) fun _ p _ => Oblivious p where
  pure := oblivious_pure
  throw _ _ _ h := .error h
  read _ := oblivious_read _
  write v _ := oblivious_write _ v
  bind := oblivious_bind
  nested := oblivious_nested

/-- A program does not look at the variables of its session either, nor at its depth. -/
theorem program_same (ss : List Tree) (s t : Session) :
    SameResult (program o ss s) (program o ss t) := by
  have hall : Oblivious (execAll o ss) := 
    closed_oblivious.execAll (fun _ _ => trivial) fun _ _ => trivial
  have hboth := hall (cleared s) (cleared t) ⟨rfl, rfl⟩
  unfold program
  generalize execAll o ss (cleared s) = r at hboth
  generalize execAll o ss (cleared t) = r' at hboth
  cases hboth with
  | ok h =>
    dsimp only
    rw [h.store]
    exact .ok ⟨rfl, h.depth⟩
  | error h => exact .error ⟨rfl, h.depth⟩

end Evaluation

namespace Session

open Evaluation

variable {o : EvalOptions} {s : Session}

theorem oblivious_run (c : Call) : Oblivious (c.run o) := by
  have hmap {α : Type} {p : Evaluation α} (f : α → Reply) (hp : Oblivious p) :
      Oblivious (f <$> p) := oblivious_bind hp fun a => oblivious_pure (f a)
  cases c with
  | exec t => exact hmap _ (closed_oblivious.exec (fun _ _ => trivial) fun _ _ => trivial)
  | value e => exact hmap _ (closed_oblivious.value fun _ _ => trivial)
  | program ss => exact hmap _ fun s t _ => program_same ss s t

/-- A call that starts at depth 0 ends there, whether it fails or not. -/
theorem depth_run (c : Call) (hs : s.depth = 0) : (left (c.run o s)).depth = 0 := by
  cases c with
  | exec t => rw [Call.run, left_map, (traces_exec t).depth, hs]
  | value e => rw [Call.run, left_map, (traces_value e).depth, hs]
  | program ss => rw [Call.run, left_map, (left_program ss s).2, (traces_execAll ss).depth]

theorem depth_after (o : EvalOptions) (calls : List Call) : (after o calls).depth = 0 := by
  -- The calls go through sessions of depth 0, and a fresh evaluator has one.
  suffices h : ∀ s : Session, s.depth = 0 →
      (calls.foldl (fun s c => left (c.run o s)) s).depth = 0 from h .start rfl
  induction calls with
  | nil => exact fun s hs => hs
  | cons c calls ih => exact fun s hs => ih _ (depth_run c hs)

theorem limit_of_run (c : Call) (hs : s.depth = 0) {d l : Nat}
    (h : answer (c.run o s) = .error (.tooDeep d l)) : d = o.limit ∧ l = o.limit := by
  -- Wrapping an answer leaves its error as it is.
  have herror {α : Type} {r : Except EvalError α} {f : α → Reply} {e : EvalError}
      (hr : r.map f = .error e) : r = .error e := by
    cases r with
    | ok a => cases hr
    | error e' =>
      cases hr
      rfl
  cases c with
  | exec t =>
    rw [Call.run, answer_map] at h
    exact (traces_exec t).eq_limit hs (herror h)
  | value e =>
    rw [Call.run, answer_map] at h
    exact (traces_value e).eq_limit hs (herror h)
  | program ss =>
    rw [Call.run, answer_map] at h
    have hanswer := herror h
    rw [answer_program] at hanswer
    split at hanswer
    · cases hanswer
      exact ⟨rfl, rfl⟩
    · exact absurd hanswer (effects_uncut _ _ ss d l)

/-- Whatever calls came before and however they ended: the next one, be it an error, leaves depth 0;
if it is cut off, its error names the limit as the depth reached; and it answers and stores what it
would for an evaluator that has never done anything and holds the same variables. A program does
what it would for a fresh evaluator, and leaves no variables. -/
theorem session_keeps_only_variables (o : EvalOptions) (earlier : List Call) :
    let s := after o earlier
    (∀ c : Call, (left (c.run o s)).depth = 0 ∧
      (∀ d l, answer (c.run o s) = .error (.tooDeep d l) → d = o.limit ∧ l = o.limit) ∧
      answer (c.run o s) = answer (c.run o (holding s.store)) ∧
      (left (c.run o s)).store = (left (c.run o (holding s.store))).store) ∧
    ∀ ss, answer (program o ss s) = answer (program o ss .start) ∧
      (left (program o ss s)).store = ∅ := by
  intro s
  have hdepth : s.depth = 0 := depth_after o earlier
  constructor
  · intro c
    have hsame := oblivious_run (o := o) c (holding s.store) s ⟨rfl, hdepth⟩
    refine ⟨depth_run c hdepth, ?_, hsame.answer_eq, hsame.left.store⟩
    intro d l h
    exact limit_of_run c hdepth h
  · intro ss
    exact ⟨(program_same ss .start s).answer_eq, (left_program ss s).1⟩

/-- A statement of four levels. -/
def deepStatement : Tree := .assign "y" (.unary .neg (.unary .neg (.number 1)))

/-- Calls of which only the first one succeeds. The last one fails after it has written `z`. -/
def strainedCalls : List Call :=
  [.exec (.assign "x" (.number 7)), .exec deepStatement,
    .value (.binary .div (.var "x") (.number 0)),
    .exec (.program [.assign "z" (.number 2), .assign "w" (.var "q")])]

-- The session has `x` and `z` by then, but a program that reads `x` misses it.
theorem strainedCalls_keep_only_variables :
    let s := after ⟨false, 3⟩ strainedCalls
    s.store.size = 2 ∧
    (left ((Call.exec deepStatement).run ⟨false, 3⟩ s)).depth = 0 ∧
    (∃ d l, answer ((Call.exec deepStatement).run ⟨false, 3⟩ s) = .error (.tooDeep d l) ∧
      d = 3 ∧ l = 3) ∧
    (answer (program ⟨false, 3⟩ [.assign "y" (.var "x")] s)).map (·.size) =
      .error (.undefinedVariable "x") ∧
    answer (program ⟨false, 3⟩ [.assign "y" (.var "x")] s) =
      answer (program ⟨false, 3⟩ [.assign "y" (.var "x")] .start) ∧
    (left (program ⟨false, 3⟩ [.assign "y" (.var "x")] s)).store = ∅ := by
  have hsize : (after ⟨false, 3⟩ strainedCalls).store.size = 2 := by decide +kernel
  have hmisses : (answer (program ⟨false, 3⟩ [.assign "y" (.var "x")]
      (after ⟨false, 3⟩ strainedCalls))).map (·.size) = .error (.undefinedVariable "x") := by
    decide +kernel
  have hcut : (answer ((Call.exec deepStatement).run ⟨false, 3⟩
      (after ⟨false, 3⟩ strainedCalls))).map (fun _ => ()) = .error (.tooDeep 3 3) := by
    decide +kernel
  obtain ⟨hcalls, hprograms⟩ := session_keeps_only_variables ⟨false, 3⟩ strainedCalls
  obtain ⟨hdepth, hlimit, -, -⟩ := hcalls (.exec deepStatement)
  refine ⟨hsize, hdepth, ?_, hmisses, hprograms [.assign "y" (.var "x")]⟩
  generalize answer ((Call.exec deepStatement).run _ _) = r at hcut hlimit ⊢
  cases r with
  | ok a => cases hcut
  | error e =>
    cases hcut
    exact ⟨3, 3, rfl, hlimit 3 3 rfl⟩

end Session

end StackLang
