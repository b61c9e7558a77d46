import StackLang.Evaluation
import StackLang.Proofs.TreeShape

namespace StackLang

namespace Tree

/-- The names that the value of a tree may depend on. A statement in the place of a value is refused
before anything in it is read. -/
def valueReads : Tree → List String
  | var x => [x]
  | unary _ e => e.valueReads
  | binary _ l r => l.valueReads ++ r.valueReads
  | _ => []

mutual

/-- The names that a statement may read. -/
def reads : Tree → List String
  | assign _ e => e.valueReads
  | ifThen c s => c.valueReads ++ s.reads
  | ifElse c s t => c.valueReads ++ (s.reads ++ t.reads)
  | program ss => readsAll ss
  | e => e.valueReads

def readsAll : List Tree → List String
  | [] => []
  | s :: ss => s.reads ++ readsAll ss

end

mutual

/-- The names that a statement may assign. A statement in the place of a value is never run. -/
def targets : Tree → List String
  | assign x _ => [x]
  | ifThen _ s => s.targets
  | ifElse _ s t => s.targets ++ t.targets
  | program ss => targetsAll ss
  | _ => []

def targetsAll : List Tree → List String
  | [] => []
  | s :: ss => s.targets ++ targetsAll ss

end

end Tree

namespace Evaluation

variable {α : Type} {o o' : EvalOptions}

/-- The session that an evaluation leaves behind, also where it fails. -/
def left : EStateM.Result EvalError Session α → Session
  | .ok _ s | .error _ s => s

/-- What an evaluation answers. -/
def answer : EStateM.Result EvalError Session α → Except EvalError α
  | .ok a _ => .ok a
  | .error e _ => .error e

theorem answer_eq_ok {r : EStateM.Result EvalError Session α} {a : α} (h : answer r = .ok a) :
    r = .ok a (left r) := by
  cases r <;> cases h
  rfl

theorem answer_eq_error {r : EStateM.Result EvalError Session α} {e : EvalError}
    (h : answer r = .error e) : r = .error e (left r) := by
  cases r <;> cases h
  rfl

theorem read_eq (x : String) (s : Session) :
    read o x s = match s.store[x]? with
      | some v => .ok v s
      | none =>
        if o.lenient then .ok 0 (s.note (.assumedZero x)) else .error (.undefinedVariable x) s := by
  change (match s.store[x]? with
    | some v => (pure v : Evaluation Float)
    | none => _) s = _
  cases s.store[x]? with
  | some v => rfl
  | none =>
    cases o with
    | mk lenient limit => cases lenient <;> rfl

/-- A relation that the steps of an evaluation under two options have, and that what is built from
such steps keeps. Only the variables in `reads` and `writes` are read and written. -/
structure Closed (o o' : EvalOptions) (reads writes : String → Prop)
    (Q : ∀ α : Type, Evaluation α → Evaluation α → Prop) : Prop where
  pure : ∀ {α : Type} (a : α), Q α (Pure.pure a) (Pure.pure a)
  /-- Only a read misses a variable. -/
  throw : ∀ {α : Type} {e : EvalError}, (∀ x, e ≠ .undefinedVariable x) →
    Q α (MonadExcept.throw e) (MonadExcept.throw e)
  read : ∀ {x : String}, reads x → Q Float (read o x) (read o' x)
  write : ∀ {x : String} (v : Float), writes x → Q Unit (write x v) (write x v)
  bind : ∀ {α β : Type} {p p' : Evaluation α} {f f' : α → Evaluation β}, Q α p p' →
    (∀ a, Q β (f a) (f' a)) → Q β (p >>= f) (p' >>= f')
  nested : ∀ {α : Type} {p p' : Evaluation α}, Q α p p' → Q α (nested o p) (nested o' p')

namespace Closed

variable {reads writes : String → Prop} {Q : ∀ α : Type, Evaluation α → Evaluation α → Prop}
  {e t : Tree} {ss : List Tree}

theorem ite (b : Bool) {p p' q q' : Evaluation α} (hp : Q α p p') (hq : Q α q q') :
    Q α (if b then p else q) (if b then p' else q') := by
  cases b with
  | true => exact hp
  | false => exact hq

variable (hQ : Closed o o' reads writes Q)
include hQ

theorem value (hreads : ∀ x ∈ e.valueReads, reads x) : Q Float (value o e) (value o' e) := by
  induction e with
  | number x => exact hQ.nested (hQ.pure x)
  | var x => exact hQ.nested (hQ.read (hreads x (List.mem_singleton_self x)))
  | boolean b => exact hQ.nested (hQ.pure (Number.ofBool b))
  | unary op e ih => exact hQ.nested (hQ.bind (ih hreads) fun v => hQ.pure (op.eval v))
  | binary op l r ihl ihr =>
    rw [Tree.valueReads, List.forall_mem_append] at hreads
    refine hQ.nested (hQ.bind (ihl hreads.1) fun x => hQ.bind (ihr hreads.2) fun y => ?_)
    cases op.eval? x y with
    | some z => exact hQ.pure z
    | none => exact hQ.throw (by simp)
  | assign | ifThen | ifElse | program => exact hQ.nested (hQ.throw (by simp))

theorem execAll_of_forall
    (h : ∀ s ∈ ss, (∀ x ∈ s.reads, reads x) → (∀ x ∈ s.targets, writes x) →
      Q Unit (exec o s) (exec o' s))
    (hreads : ∀ x ∈ Tree.readsAll ss, reads x) (hwrites : ∀ x ∈ Tree.targetsAll ss, writes x) :
    Q Unit (execAll o ss) (execAll o' ss) := by
  induction ss with
  | nil => exact hQ.pure ()
  | cons s ss ih =>
    rw [Tree.readsAll, List.forall_mem_append] at hreads
    rw [Tree.targetsAll, List.forall_mem_append] at hwrites
    have hs := h s List.mem_cons_self hreads.1 hwrites.1
    have hss := ih (fun u hu => h u (List.mem_cons_of_mem s hu)) hreads.2 hwrites.2
    exact hQ.bind hs fun _ => hss

theorem exec (hreads : ∀ x ∈ t.reads, reads x) (hwrites : ∀ x ∈ t.targets, writes x) :
    Q Unit (exec o t) (exec o' t) := by
  induction t with
  | number | var | boolean | unary | binary =>
    exact hQ.nested (hQ.bind (hQ.value hreads) fun _ => hQ.pure ())
  | assign x e =>
    have hx := hwrites x (List.mem_singleton_self x)
    exact hQ.nested (hQ.bind (hQ.value hreads) fun v => hQ.write v hx)
  | ifThen c s _ ihs =>
    rw [Tree.reads, List.forall_mem_append] at hreads
    refine hQ.nested (hQ.bind (hQ.value hreads.1) fun v => ?_)
    exact ite (Number.isTrue v) (ihs hreads.2 hwrites) (hQ.pure ())
  | ifElse c s t _ ihs iht =>
    rw [Tree.reads, List.forall_mem_append, List.forall_mem_append] at hreads
    rw [Tree.targets, List.forall_mem_append] at hwrites
    refine hQ.nested (hQ.bind (hQ.value hreads.1) fun v => ?_)
    exact ite (Number.isTrue v) (ihs hreads.2.1 hwrites.1) (iht hreads.2.2 hwrites.2)
  | program ss ih => exact hQ.nested (hQ.execAll_of_forall ih hreads hwrites)

theorem execAll (hreads : ∀ x ∈ Tree.readsAll ss, reads x)
    (hwrites : ∀ x ∈ Tree.targetsAll ss, writes x) : Q Unit (execAll o ss) (execAll o' ss) :=
  hQ.execAll_of_forall (fun _ _ => hQ.exec) hreads hwrites

end Closed

end Evaluation

end StackLang
