import StackLang.Proofs.Levels
import Mathlib.Control.Monad.Basic

namespace StackLang

namespace Tree

/-- No program stands anywhere in the tree. -/
def ProgramFree : Tree → Prop
  | number _ | var _ | boolean _ => True
  | unary _ e | assign _ e => e.ProgramFree
  | binary _ l r => l.ProgramFree ∧ r.ProgramFree
  | ifThen c s => c.ProgramFree ∧ s.ProgramFree
  | ifElse c s t => c.ProgramFree ∧ s.ProgramFree ∧ t.ProgramFree
  | program _ => False

end Tree

namespace Evaluation

variable {α β : Type} {o : EvalOptions} {names : List String}

section Relation

variable {R : Store → Store → Prop}

/-- Wherever `p` stops, `R` relates the store it started with to the one it leaves. -/
def Relates (R : Store → Store → Prop) (p : Evaluation α) : Prop :=
  ∀ s, R s.store (left (p s)).store

theorem relates_nested {p : Evaluation α} (hrefl : ∀ store, R store store) (hp : Relates R p) :
    Relates R (nested o p) := by
  intro s
  unfold nested
  split
  · exact hrefl s.store
  · have hs := hp { s with depth := s.depth + 1 }
    cases hr : p { s with depth := s.depth + 1 } with
    | ok a t | error a t =>
      rw [hr] at hs
      exact hs

theorem relates_bind {p : Evaluation α} {f : α → Evaluation β}
    (htrans : ∀ {σ τ υ}, R σ τ → R τ υ → R σ υ) (hp : Relates R p) (hf : ∀ a, Relates R (f a)) :
    Relates R (p >>= f) := by
  intro s
  have hs := hp s
  simp only [bind, EStateM.bind]
  cases hr : p s with
  | ok a t =>
    rw [hr] at hs
    exact htrans hs (hf a t)
  | error e t =>
    rw [hr] at hs
    exact hs

/-- A variable that is missing is not added by reading it, be it an error or a zero. -/
theorem left_read (x : String) (s : Session) : (left (read o x s)).store = s.store := by
  rw [read_eq]
  split
  · rfl
  · split <;> rfl

theorem closed_relates {writes : String → Prop} (hrefl : ∀ store, R store store)
    (htrans : ∀ {σ τ υ}, R σ τ → R τ υ → R σ υ)
    (hwrite : ∀ store x v, writes x → R store (store.insert x v)) :
    Closed o o (fun _ => True) writes fun _ p _ => Relates R p where
  pure _ s := hrefl s.store
  throw _ s := hrefl s.store
  read _ s := by
    rw [left_read]
    exact hrefl s.store
  write v hx s := hwrite s.store _ v hx
  bind := relates_bind htrans
  nested := relates_nested hrefl

end Relation

/-- Wherever `p` stops, the store is as it was. -/
abbrev Keeps (p : Evaluation α) : Prop := Relates (fun store store' => store' = store) p

theorem keeps_value (e : Tree) : Keeps (value o e) := by
  have hclosed : Closed o o (fun _ => True) (fun _ => False) fun _ p _ => Keeps p :=
    closed_relates (fun _ => rfl) (fun h h' => h'.trans h) fun _ _ _ => False.elim
  exact hclosed.value fun _ _ => trivial

/-- `p` writes one of `names` or nothing, and where it fails it has written nothing. -/
def WritesOne (names : List String) (p : Evaluation α) : Prop :=
  ∀ s, match p s with
    | .ok _ t => t.store = s.store ∨ ∃ x ∈ names, ∃ v, t.store = s.store.insert x v
    | .error _ t => t.store = s.store

theorem writesOne_write {x : String} (hx : x ∈ names) (v : Float) : WritesOne names (write x v) :=
  fun _ => .inr ⟨x, hx, v, rfl⟩

theorem writesOne_nested {p : Evaluation α} (hp : WritesOne names p) :
    WritesOne names (nested o p) := by
  intro s
  unfold nested
  by_cases hlimit : o.limit ≤ s.depth
  · rw [if_pos hlimit]
  · have hs := hp { s with depth := s.depth + 1 }
    rw [if_neg hlimit]
    cases hr : p { s with depth := s.depth + 1 } with
    | ok a t | error a t =>
      rw [hr] at hs
      exact hs

/-- Nothing may be written before the last part. -/
theorem writesOne_bind {p : Evaluation α} {f : α → Evaluation β} (hp : Keeps p)
    (hf : ∀ a, WritesOne names (f a)) : WritesOne names (p >>= f) := by
  intro s
  have hs := hp s
  simp only [bind, EStateM.bind]
  cases hr : p s with
  | ok a t =>
    rw [hr] at hs
    have ht := hf a t
    simp only [left] at hs
    rwa [hs] at ht
  | error e t =>
    rw [hr] at hs
    exact hs

theorem writesOne_ite (b : Bool) {p q : Evaluation α} (hp : WritesOne names p)
    (hq : WritesOne names q) : WritesOne names (if b then p else q) := by
  cases b with
  | true => exact hp
  | false => exact hq

/-- On every path through a statement, the only write is the last step. Two statements in a row may
write twice, so this is not closed under all that trees are built from. -/
theorem writesOne_exec {t : Tree} (ht : t.ProgramFree) (hnames : t.targets ⊆ names) :
    WritesOne names (exec o t) := by
  have hdone : WritesOne names (pure ()) := fun _ => .inl rfl
  induction t with
  | number | var | boolean | unary | binary =>
    exact writesOne_nested (writesOne_bind (keeps_value _) fun _ => hdone)
  | assign x e =>
    have hx := hnames (List.mem_singleton_self x)
    exact writesOne_nested (writesOne_bind (keeps_value e) (writesOne_write hx))
  | ifThen c s _ ihs =>
    refine writesOne_nested (writesOne_bind (keeps_value c) fun v => ?_)
    exact writesOne_ite (Number.isTrue v) (ihs ht.2 hnames) hdone
  | ifElse c s t _ ihs iht =>
    obtain ⟨hs, hts⟩ := List.append_subset.mp hnames
    refine writesOne_nested (writesOne_bind (keeps_value c) fun v => ?_)
    exact writesOne_ite (Number.isTrue v) (ihs ht.2.1 hs) (iht ht.2.2 hts)
  | program ss => exact absurd ht id

/-- Only `names` may differ between two stores. -/
def SameOff (names : List String) (store store' : Store) : Prop :=
  ∀ x, x ∉ names → store'[x]? = store[x]?

/-- Whatever statements do, also programs and also those that fail on their way, they write only
what they may assign. -/
theorem frame_execAll (ss : List Tree) :
    Relates (SameOff (Tree.targetsAll ss)) (execAll o ss) := by
  have hwrite (store : Store) (x : String) (v : Float) (hx : x ∈ Tree.targetsAll ss) :
      SameOff (Tree.targetsAll ss) store (store.insert x v) := by
    intro y hy
    have hne : x ≠ y := fun h => hy (h ▸ hx)
    exact Std.ExtTreeMap.getElem?_insert.trans (by simp [hne])
  have hclosed : Closed o o (fun _ => True) (· ∈ Tree.targetsAll ss)
      fun _ p _ => Relates (SameOff (Tree.targetsAll ss)) p :=
    closed_relates (fun _ _ _ => rfl) (fun h h' x hx => (h' x hx).trans (h x hx)) hwrite
  exact hclosed.execAll (fun _ _ => trivial) fun _ hx => hx

/-- Writing a value that a variable already has changes nothing. -/
theorem insert_of_getElem? {store : Store} {x : String} {v : Float} (h : store[x]? = some v) :
    store.insert x v = store := by
  apply Std.ExtTreeMap.ext_getElem?
  intro y
  rw [Std.ExtTreeMap.getElem?_insert]
  split
  · next hxy =>
    rw [Std.LawfulEqCmp.eq_of_compare hxy] at h
    exact h.symm
  · rfl

theorem effect_of_exec {t : Tree} {s s' : Session} (h : exec o t s = .ok () s') :
    t.effect o.lenient s.store = .ok s'.store := by
  have houtcome := (traces_exec (o := o) t).outcome_eq s
  rw [h] at houtcome
  split at houtcome
  · cases houtcome
  · cases he : t.effect o.lenient s.store with
    | ok store =>
      rw [he] at houtcome
      cases houtcome
      rfl
    | error e =>
      rw [he] at houtcome
      cases houtcome

/-- From any session and under any options, a statement without programs in it that fails leaves
the store as it was. One that succeeds leaves the store it means, which is the one before or differs
from it in one variable, one that the statement may assign. An expression leaves the store as it
was. -/
theorem exec_atomic (o : EvalOptions) (s : Session) {t : Tree} (ht : t.ProgramFree) :
    (∀ e s', exec o t s = .error e s' → s'.store = s.store) ∧
    (∀ s', exec o t s = .ok () s' → t.effect o.lenient s.store = .ok s'.store ∧
      (s'.store = s.store ∨
        ∃ x ∈ t.targets, ∃ v, s.store[x]? ≠ some v ∧ s'.store = s.store.insert x v)) ∧
    ∀ e, (left (value o e s)).store = s.store := by
  have hs := writesOne_exec (o := o) ht (List.Subset.refl t.targets) s
  refine ⟨?_, ?_, fun e => keeps_value e s⟩
  · intro e s' hr
    rw [hr] at hs
    exact hs
  · intro s' hr
    rw [hr] at hs
    refine ⟨effect_of_exec hr, ?_⟩
    rcases hs with hsame | ⟨x, hx, v, hwrite⟩
    · exact .inl hsame
    · by_cases hv : s.store[x]? = some v
      · rw [insert_of_getElem? hv] at hwrite
        exact .inl hwrite
      · exact .inr ⟨x, hx, v, hv, hwrite⟩

/-- A statement whose outer condition reads `x` and whose inner one reads `y`, with a branch that
assigns `x` and one that divides by `w`. -/
def guardedWrite : Tree :=
  .ifThen (.var "x") (.ifElse (.binary .lt (.var "y") (.number 2))
    (.assign "x" (.binary .add (.var "x") (.number 4)))
    (.assign "z" (.binary .div (.number 1) (.var "w"))))

/-- A session in which `w` is zero and `x` is one. -/
def guardedSession (y : Float) : Session :=
  { Session.start with store := (((∅ : Store).insert "w" 0).insert "x" 1).insert "y" y }

theorem guardedWrite_atomic :
    guardedWrite.ProgramFree ∧
    (∃ s', exec ⟨false, 5⟩ guardedWrite (guardedSession 3) = .error .divisionByZero s' ∧
      s'.store = (guardedSession 3).store) ∧
    ∃ s', exec ⟨false, 5⟩ guardedWrite (guardedSession 1) = .ok () s' ∧
      guardedWrite.effect false (guardedSession 1).store = .ok s'.store ∧
      (s'.store = (guardedSession 1).store ∨ ∃ x ∈ guardedWrite.targets, ∃ v,
        (guardedSession 1).store[x]? ≠ some v ∧
          s'.store = (guardedSession 1).store.insert x v) := by
  have hfree : guardedWrite.ProgramFree := by simp [guardedWrite, Tree.ProgramFree]
  have hfails : answer (exec ⟨false, 5⟩ guardedWrite (guardedSession 3)) =
      .error .divisionByZero := by decide +kernel
  have hworks : answer (exec ⟨false, 5⟩ guardedWrite (guardedSession 1)) = .ok () := by
    decide +kernel
  have hfail := answer_eq_error hfails
  have hwork := answer_eq_ok hworks
  exact ⟨hfree, ⟨_, hfail, (exec_atomic _ _ hfree).1 _ _ hfail⟩, _, hwork,
    (exec_atomic _ _ hfree).2.1 _ hwork⟩

end Evaluation

end StackLang
