import StackLang.Proofs.EvaluationSteps
import StackLang.Proofs.Meaning

namespace StackLang

namespace Tree

/-- The levels of a tree in the place of a value. -/
def valueLevels : Tree → Nat
  | unary _ e => e.valueLevels + 1
  | binary _ l r => max l.valueLevels r.valueLevels + 1
  | _ => 1

mutual

/-- The levels of a tree in the place of a statement. -/
def levels : Tree → Nat
  | assign _ e => e.valueLevels + 1
  | ifThen c s => max c.valueLevels s.levels + 1
  | ifElse c s t => max c.valueLevels (max s.levels t.levels) + 1
  | program ss => mostLevels ss + 1
  | e => e.valueLevels + 1

/-- The levels of the deepest of some statements. -/
def mostLevels : List Tree → Nat
  | [] => 0
  | s :: ss => max s.levels (mostLevels ss)

end

/-- The deepest level that is reached when `first` levels are, and then, unless that fails, those of
what comes after it. -/
def reachThen {α : Type} (first : Nat) (r : Except EvalError α) (next : α → Nat) : Nat :=
  match r with
  | .ok a => max first (next a)
  | .error _ => first

/-- The deepest level that an expression reaches over a store. A right operand is reached only
after a left one that has a value. -/
def valueReach (lenient : Bool) (store : Store) : Tree → Nat
  | unary _ e => e.valueReach lenient store + 1
  | binary _ l r =>
    reachThen (l.valueReach lenient store) (l.meaning lenient store)
      (fun _ => r.valueReach lenient store) + 1
  | _ => 1

mutual

/-- The deepest level that a statement reaches over a store. -/
def reach (lenient : Bool) (store : Store) : Tree → Nat
  | assign _ e => e.valueReach lenient store + 1
  | ifThen c s =>
    reachThen (c.valueReach lenient store) (c.meaning lenient store)
      (fun v => if Number.isTrue v then s.reach lenient store else 0) + 1
  | ifElse c s t =>
    reachThen (c.valueReach lenient store) (c.meaning lenient store)
      (fun v => if Number.isTrue v then s.reach lenient store else t.reach lenient store) + 1
  | program ss => reachAll lenient store ss + 1
  | e => e.valueReach lenient store + 1

/-- The deepest level that statements reach one after the other. -/
def reachAll (lenient : Bool) (store : Store) : List Tree → Nat
  | [] => 0
  | s :: ss =>
    reachThen (s.reach lenient store) (s.effect lenient store)
      fun store => reachAll lenient store ss

end

section Bounds

variable {α β : Type} {lenient : Bool}

theorem reachThen_zero (first : Nat) (r : Except EvalError α) :
    reachThen first r (fun _ => 0) = first := by
  cases r with
  | ok a => exact Nat.max_zero first
  | error e => rfl

theorem reachThen_map (first : Nat) (r : Except EvalError α) (f : α → β) (next : β → Nat) :
    reachThen first (r.map f) next = reachThen first r (next ∘ f) := by
  cases r <;> rfl

theorem le_reachThen (first : Nat) (r : Except EvalError α) (next : α → Nat) :
    first ≤ reachThen first r next := by
  cases r with
  | ok a => exact Nat.le_max_left _ _
  | error e => exact Nat.le_refl _

theorem reachThen_le {first n m : Nat} {next : α → Nat} (r : Except EvalError α) (hf : first ≤ n)
    (hnext : ∀ a, next a ≤ m) : reachThen first r next ≤ max n m := by
  cases r with
  | ok a =>
    have ha := hnext a
    simp only [reachThen]
    omega
  | error e =>
    simp only [reachThen]
    omega

theorem valueReach_le (store : Store) (e : Tree) : e.valueReach lenient store ≤ e.valueLevels := by
  induction e with
  | unary op e ih => exact Nat.succ_le_succ ih
  | binary op l r ihl ihr => exact Nat.succ_le_succ (reachThen_le _ ihl fun _ => ihr)
  | number | var | boolean | assign | ifThen | ifElse | program => exact Nat.le_refl 1

theorem reachAll_le (store : Store) {ss : List Tree}
    (h : ∀ s ∈ ss, ∀ store, s.reach lenient store ≤ s.levels) :
    reachAll lenient store ss ≤ mostLevels ss := by
  induction ss generalizing store with
  | nil => exact Nat.le_refl 0
  | cons s ss ih =>
    have hss (store : Store) := ih store fun u hu => h u (List.mem_cons_of_mem s hu)
    exact reachThen_le _ (h s List.mem_cons_self store) hss

theorem reach_le (store : Store) (t : Tree) : t.reach lenient store ≤ t.levels := by
  induction t generalizing store with
  | number | var | boolean | unary | binary | assign =>
    exact Nat.succ_le_succ (valueReach_le store _)
  | ifThen c s _ ihs =>
    refine Nat.succ_le_succ (reachThen_le _ (valueReach_le store c) ?_)
    intro v
    split
    · exact ihs store
    · exact Nat.zero_le _
  | ifElse c s t _ ihs iht =>
    refine Nat.succ_le_succ (reachThen_le _ (valueReach_le store c) ?_)
    intro v
    split
    · exact Nat.le_trans (ihs store) (Nat.le_max_left _ _)
    · exact Nat.le_trans (iht store) (Nat.le_max_right _ _)
  | program ss ih => exact Nat.succ_le_succ (reachAll_le store ih)

/-- An expression that has a value reaches all its levels. -/
theorem valueReach_eq {store : Store} {e : Tree} {v : Float}
    (h : e.meaning lenient store = .ok v) : e.valueReach lenient store = e.valueLevels := by
  induction e generalizing v with
  | unary op e ih =>
    simp only [meaning] at h
    cases he : e.meaning lenient store with
    | ok x => rw [valueReach, ih he, valueLevels]
    | error err =>
      rw [he] at h
      cases h
  | binary op l r ihl ihr =>
    simp only [meaning] at h
    cases hl : l.meaning lenient store with
    | ok x =>
      rw [hl] at h
      cases hr : r.meaning lenient store with
      | ok y => rw [valueReach, hl, reachThen, ihl hl, ihr hr, valueLevels]
      | error err =>
        rw [hr] at h
        cases h
    | error err =>
      rw [hl] at h
      cases h
  | number | var | boolean | assign | ifThen | ifElse | program => rfl

end Bounds

end Tree

namespace Evaluation

variable {α β : Type} {o : EvalOptions}

/-- The error of an evaluation with no level left. -/
abbrev cutOff (o : EvalOptions) : EvalError := .tooDeep o.limit o.limit

/-- What an evaluation answers, with the store that it leaves. -/
def outcome : EStateM.Result EvalError Session α → Except EvalError (α × Store)
  | .ok a s => .ok (a, s.store)
  | .error e _ => .error e

/-- From every session, `p` leaves the depth as it found it. It is cut off exactly where fewer
levels are left than `reach` tells for the store; otherwise it gives what `q` gives on the store,
which is never that it was cut off. -/
structure Traces (o : EvalOptions) (p : Evaluation α) (q : Store → Except EvalError (α × Store))
    (reach : Store → Nat) : Prop where
  depth (s : Session) : (left (p s)).depth = s.depth
  outcome_eq (s : Session) : outcome (p s) =
    if o.limit - s.depth < reach s.store then .error (.tooDeep (max s.depth o.limit) o.limit)
    else q s.store
  uncut (store : Store) (d l : Nat) : q store ≠ .error (.tooDeep d l)

section Steps

variable {p p' : Evaluation α} {q q' : Store → Except EvalError (α × Store)} {n n' : Store → Nat}

theorem traces_pure (a : α) : Traces o (pure a) (fun store => .ok (a, store)) fun _ => 0 where
  depth _ := rfl
  outcome_eq _ := rfl
  uncut _ _ _ := nofun

theorem traces_throw {e : EvalError} (he : ∀ d l, e ≠ .tooDeep d l) :
    Traces o (throw e : Evaluation α) (fun _ => .error e) fun _ => 0 where
  depth _ := rfl
  outcome_eq _ := rfl
  uncut _ d l h := he d l (Except.error.inj h)

theorem traces_write (x : String) (v : Float) :
    Traces o (write x v) (fun store => .ok ((), store.insert x v)) fun _ => 0 where
  depth _ := rfl
  outcome_eq _ := rfl
  uncut _ _ _ := nofun

theorem traces_read (x : String) :
    Traces o (read o x) (fun store => ((Tree.var x).meaning o.lenient store).map (·, store))
      fun _ => 0 where
  depth s := by
    rw [read_eq]
    split
    · rfl
    · split <;> rfl
  outcome_eq s := by
    simp only [read_eq, Tree.meaning, Nat.not_lt_zero, if_false]
    cases s.store[x]? with
    | some v => rfl
    | none => cases o.lenient <;> rfl
  uncut store d l := by
    simp only [Tree.meaning]
    cases store[x]? with
    | some v => exact nofun
    | none => cases o.lenient <;> exact nofun

theorem traces_outcome (op : BinaryOp) (x y : Float) :
    Traces o (match op.eval? x y with
      | some z => pure z
      | none => throw .divisionByZero : Evaluation Float)
      (fun store => (op.outcome x y).map (·, store)) fun _ => 0 := by
  simp only [BinaryOp.outcome]
  cases op.eval? x y with
  | some z => exact traces_pure z
  | none => exact traces_throw (by simp)

theorem traces_ite (b : Bool) (hp : Traces o p q n) (hp' : Traces o p' q' n') :
    Traces o (if b then p else p') (fun store => if b then q store else q' store)
      fun store => if b then n store else n' store := by
  cases b with
  | true => exact hp
  | false => exact hp'

theorem traces_congr (hp : Traces o p q n) (hq : ∀ store, q store = q' store)
    (hn : ∀ store, n store = n' store) : Traces o p q' n' := by
  have hq' : q = q' := funext hq
  have hn' : n = n' := funext hn
  rwa [hq', hn'] at hp

/-- Opening a level takes one of those that are left. -/
theorem traces_nested (hp : Traces o p q n) :
    Traces o (nested o p) q fun store => n store + 1 where
  depth s := by
    unfold nested
    split
    · rfl
    · have hdepth := hp.depth { s with depth := s.depth + 1 }
      cases hr : p { s with depth := s.depth + 1 } with
      | ok a t | error a t =>
        rw [hr] at hdepth
        exact congrArg (· - 1) hdepth
  outcome_eq s := by
    unfold nested
    by_cases hlimit : o.limit ≤ s.depth
    · have hcut : o.limit - s.depth < n s.store + 1 := by omega
      rw [if_pos hlimit, if_pos hcut, Nat.max_eq_left hlimit]
      rfl
    · have houtcome := hp.outcome_eq { s with depth := s.depth + 1 }
      have hleft : (o.limit - s.depth < n s.store + 1) = (o.limit - (s.depth + 1) < n s.store) := by
        apply propext
        omega
      have hmax : max s.depth o.limit = max (s.depth + 1) o.limit := by omega
      rw [if_neg hlimit]
      simp only [hleft, hmax, ← houtcome]
      cases p { s with depth := s.depth + 1 } <;> rfl
  uncut := hp.uncut

/-- What runs second starts at the depth of what runs first, and only if that does not fail. -/
theorem traces_bind {f : α → Evaluation β} {g : α → Store → Except EvalError (β × Store)}
    {m : α → Store → Nat} (hp : Traces o p q n) (hf : ∀ a, Traces o (f a) (g a) (m a)) :
    Traces o (p >>= f) (fun store => q store >>= fun r => g r.1 r.2)
      fun store => Tree.reachThen (n store) (q store) fun r => m r.1 r.2 where
  depth s := by
    have hdepth := hp.depth s
    simp only [bind, EStateM.bind]
    cases hr : p s with
    | ok a t =>
      rw [hr] at hdepth
      exact ((hf a).depth t).trans hdepth
    | error e t =>
      rw [hr] at hdepth
      exact hdepth
  outcome_eq s := by
    have hdepth := hp.depth s
    have houtcome := hp.outcome_eq s
    simp only [bind, EStateM.bind]
    by_cases hcut : o.limit - s.depth < n s.store
    · -- The first part is cut off already.
      rw [if_pos hcut] at houtcome
      rw [if_pos (Nat.lt_of_lt_of_le hcut (Tree.le_reachThen _ _ _))]
      cases hr : p s with
      | ok a t =>
        rw [hr] at houtcome
        cases houtcome
      | error e t =>
        rw [hr] at houtcome
        cases houtcome
        rfl
    · -- The second part has as many levels left as the first one, which was not cut off.
      rw [if_neg hcut] at houtcome
      rw [← houtcome]
      cases hr : p s with
      | ok a t =>
        rw [hr] at hdepth
        have hleft : (o.limit - s.depth < m a t.store) =
            (o.limit - s.depth < max (n s.store) (m a t.store)) := by
          apply propext
          omega
        have hsecond := (hf a).outcome_eq t
        simp only [show t.depth = s.depth from hdepth, hleft] at hsecond
        exact hsecond
      | error e t => exact (if_neg hcut).symm
  uncut store d l := by
    have hfirst := hp.uncut store d l
    cases hq : q store with
    | ok r => exact (hf r.1).uncut r.2 d l
    | error e =>
      rw [hq] at hfirst
      exact fun h => hfirst (congrArg _ (Except.error.inj h))

end Steps

/-- An expression gives its value, and the store stays as it is. -/
theorem traces_value (e : Tree) :
    Traces o (value o e) (fun store => (e.meaning o.lenient store).map (·, store))
      fun store => e.valueReach o.lenient store := by
  induction e with
  | number x => exact traces_nested (traces_pure x)
  | var x => exact traces_nested (traces_read x)
  | boolean b => exact traces_nested (traces_pure (Number.ofBool b))
  | unary op e ih =>
    apply traces_congr (traces_nested (traces_bind ih fun v => traces_pure (op.eval v)))
    · intro store
      simp only [Tree.meaning]
      cases e.meaning o.lenient store <;> rfl
    · intro store
      simp only [Tree.valueReach, Tree.reachThen_zero]
  | binary op l r ihl ihr =>
    have hop := traces_bind ihl fun x => traces_bind ihr (traces_outcome op x)
    apply traces_congr (traces_nested hop)
    · intro store
      simp only [Tree.meaning]
      cases l.meaning o.lenient store with
      | error err => rfl
      | ok x =>
        simp only [Except.map, bind, Except.bind]
        cases r.meaning o.lenient store <;> rfl
    · intro store
      simp only [Tree.valueReach, Tree.reachThen_map, Tree.reachThen_zero]
      rfl
  | assign | ifThen | ifElse | program => exact traces_nested (traces_throw (by simp))

theorem traces_execAll_of_forall {ss : List Tree}
    (h : ∀ s ∈ ss, Traces o (exec o s) (fun store => (s.effect o.lenient store).map ((), ·))
      fun store => s.reach o.lenient store) :
    Traces o (execAll o ss) (fun store => (Tree.effects o.lenient store ss).map ((), ·))
      fun store => Tree.reachAll o.lenient store ss := by
  induction ss with
  | nil => exact traces_pure ()
  | cons s ss ih =>
    have hs := h s List.mem_cons_self
    have hss := ih fun u hu => h u (List.mem_cons_of_mem s hu)
    apply traces_congr (traces_bind hs fun _ => hss)
    · intro store
      simp only [Tree.effects]
      cases s.effect o.lenient store <;> rfl
    · intro store
      simp only [Tree.reachAll, Tree.reachThen_map]
      rfl

/-- A statement has its effect. -/
theorem traces_exec (t : Tree) :
    Traces o (exec o t) (fun store => (t.effect o.lenient store).map ((), ·))
      fun store => t.reach o.lenient store := by
  induction t with
  | number | var | boolean | unary | binary =>
    apply traces_congr (traces_nested (traces_bind (traces_value _) fun _ => traces_pure ()))
    · intro store
      simp only [Tree.effect]
      cases Tree.meaning .. <;> rfl
    · intro store
      simp only [Tree.reach, Tree.reachThen_zero]
  | assign x e =>
    apply traces_congr (traces_nested (traces_bind (traces_value e) (traces_write x)))
    · intro store
      simp only [Tree.effect]
      cases e.meaning o.lenient store <;> rfl
    · intro store
      simp only [Tree.reach, Tree.reachThen_zero]
  | ifThen c s _ ihs =>
    have hif (v : Float) := traces_ite (Number.isTrue v) ihs (traces_pure ())
    apply traces_congr (traces_nested (traces_bind (traces_value c) hif))
    · intro store
      simp only [Tree.effect]
      cases c.meaning o.lenient store with
      | error err => rfl
      | ok v =>
        simp only [Except.map, bind, Except.bind]
        cases Number.isTrue v <;> rfl
    · intro store
      simp only [Tree.reach, Tree.reachThen_map]
      rfl
  | ifElse c s t _ ihs iht =>
    have hif (v : Float) := traces_ite (Number.isTrue v) ihs iht
    apply traces_congr (traces_nested (traces_bind (traces_value c) hif))
    · intro store
      simp only [Tree.effect]
      cases c.meaning o.lenient store with
      | error err => rfl
      | ok v =>
        simp only [Except.map, bind, Except.bind]
        cases Number.isTrue v <;> rfl
    · intro store
      simp only [Tree.reach, Tree.reachThen_map]
      rfl
  | program ss ih => exact traces_nested (traces_execAll_of_forall ih)

theorem traces_execAll (ss : List Tree) :
    Traces o (execAll o ss) (fun store => (Tree.effects o.lenient store ss).map ((), ·))
      fun store => Tree.reachAll o.lenient store ss :=
  traces_execAll_of_forall fun t _ => traces_exec t

/-- No depth is too deep for what statements mean. -/
theorem effects_uncut (lenient : Bool) (store : Store) (ss : List Tree) (d l : Nat) :
    Tree.effects lenient store ss ≠ .error (.tooDeep d l) := by
  intro h
  apply (traces_execAll (o := ⟨lenient, 0⟩) ss).uncut store d l
  simp only [h]
  rfl

/-- A program answers what its statements mean, unless they reach a deeper level than the limit. -/
theorem answer_program (o : EvalOptions) (ss : List Tree) (s : Session) :
    answer (program o ss s) =
      if o.limit < Tree.reachAll o.lenient ∅ ss then .error (cutOff o)
      else Tree.effects o.lenient ∅ ss := by
  have hprogram : answer (program o ss s) =
      (outcome (execAll o ss { s with store := ∅, depth := 0 })).map Prod.snd := by
    unfold program
    cases execAll o ss { s with store := ∅, depth := 0 } <;> rfl
  have houtcome := (traces_execAll (o := o) ss).outcome_eq { s with store := ∅, depth := 0 }
  simp only [Nat.sub_zero, Nat.zero_max] at houtcome
  rw [hprogram, houtcome]
  split
  · rfl
  · cases Tree.effects o.lenient ∅ ss <;> rfl

end Evaluation

end StackLang
