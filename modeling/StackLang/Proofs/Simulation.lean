import StackLang.Proofs.Meaning
import StackLang.Proofs.StackDepth

namespace StackLang

/-- The error of a tree and the fault of its code have the same cause. -/
inductive SameCause : EvalError → Fault → Prop where
  | undefinedVariable (name : String) (pc : Nat) :
    SameCause (.undefinedVariable name) (.undefinedVariable name pc)
  | divisionByZero (pc : Nat) : SameCause .divisionByZero (.divisionByZero pc)

namespace Machine

variable {m : Machine} {α β : Type}

/-- The instructions `is` stand at address `pc`. -/
def Holds (m : Machine) (pc : Nat) (is : List Instruction) : Prop :=
  ∀ (k : Nat) (i : Instruction), is[k]? = some i → m.code[pc + k]? = some i

theorem Holds.head {pc : Nat} {i : Instruction} {is : List Instruction}
    (h : m.Holds pc (i :: is)) : m.code[pc]? = some i :=
  h 0 i rfl

theorem Holds.left {pc : Nat} {is js : List Instruction} (h : m.Holds pc (is ++ js)) :
    m.Holds pc is := by
  intro k i hk
  apply h k i
  rw [List.getElem?_append_left (List.getElem?_eq_some_iff.mp hk).1, hk]

theorem Holds.right {pc : Nat} {is js : List Instruction} (h : m.Holds pc (is ++ js)) :
    m.Holds (pc + is.length) js := by
  intro k i hk
  rw [Nat.add_assoc]
  apply h (is.length + k) i
  rw [List.getElem?_append_right (by omega), Nat.add_sub_cancel_left, hk]

theorem Holds.tail {pc : Nat} {i : Instruction} {is : List Instruction}
    (h : m.Holds pc (i :: is)) : m.Holds (pc + 1) is := by
  have happend : m.Holds pc ([i] ++ is) := h
  exact happend.right

theorem runFor_of_step_ok {s t : State} {i : Instruction} (hi : m.code[s.pc]? = some i)
    (ht : m.step i s = .ok t) (n : Nat) : m.runFor (n + 1) s = m.runFor n t := by
  rw [runFor]
  simp only [hi, ht]

theorem runFor_of_step_error {s : State} {i : Instruction} {fault : Fault}
    (hi : m.code[s.pc]? = some i) (hf : m.step i s = .error fault) (n : Nat) :
    m.runFor (n + 1) s = .failed fault := by
  rw [runFor]
  simp only [hi, hf]

theorem runFor_halted {s : State} (hs : m.code[s.pc]? = none) (n : Nat) :
    m.runFor n s = .halted s.store := by
  rw [runFor]
  simp only [hs]

/-- A run from `s` comes to `t`. As every step moves on, it takes no more steps than there are
addresses between the two. -/
def Reaches (m : Machine) (s t : State) : Prop :=
  ∃ k, s.pc + k ≤ t.pc ∧ ∀ n, m.runFor (k + n) s = m.runFor n t

/-- A run from `s` ends in a fault before it leaves the code. -/
def Fails (m : Machine) (s : State) (fault : Fault) : Prop :=
  ∃ k, s.pc + k ≤ m.code.size ∧ ∀ n, m.runFor (k + n) s = .failed fault

theorem reaches_refl (s : State) : m.Reaches s s :=
  ⟨0, Nat.le_refl s.pc, fun n => by rw [Nat.zero_add]⟩

theorem Reaches.trans {s t u : State} (hst : m.Reaches s t) (htu : m.Reaches t u) :
    m.Reaches s u := by
  obtain ⟨k, hk, hrun⟩ := hst
  obtain ⟨j, hj, hrun'⟩ := htu
  refine ⟨k + j, by omega, fun n => ?_⟩
  rw [Nat.add_assoc, hrun, hrun']

theorem Reaches.fails {s t : State} {fault : Fault} (hst : m.Reaches s t)
    (ht : m.Fails t fault) : m.Fails s fault := by
  obtain ⟨k, hk, hrun⟩ := hst
  obtain ⟨j, hj, hrun'⟩ := ht
  refine ⟨k + j, by omega, fun n => ?_⟩
  rw [Nat.add_assoc, hrun, hrun']

theorem reaches_step {s t : State} {i : Instruction} (hi : m.code[s.pc]? = some i)
    (ht : m.step i s = .ok t) (hlt : s.pc < t.pc) : m.Reaches s t :=
  ⟨1, hlt, fun n => by rw [Nat.add_comm, runFor_of_step_ok hi ht]⟩

theorem fails_step {s : State} {i : Instruction} {fault : Fault}
    (hi : m.code[s.pc]? = some i) (hf : m.step i s = .error fault) : m.Fails s fault := by
  have hlt : s.pc < m.code.size := (Array.getElem?_eq_some_iff.mp hi).1
  exact ⟨1, hlt, fun n => by rw [Nat.add_comm, runFor_of_step_error hi hf]⟩

/-- A run from `s` does what `r` says: it comes to a state that fits the value of `r`, or it
ends in a fault with the cause of the error of `r`. -/
def Delivers (m : Machine) (s : State) (r : Except EvalError α) (P : α → State → Prop) : Prop :=
  match r with
  | .ok a => ∃ t, m.Reaches s t ∧ P a t
  | .error e => ∃ fault, SameCause e fault ∧ m.Fails s fault

theorem Reaches.delivers {s t : State} {r : Except EvalError α} {P : α → State → Prop}
    (hst : m.Reaches s t) (h : m.Delivers t r P) : m.Delivers s r P := by
  cases r with
  | ok a =>
    obtain ⟨u, htu, hu⟩ := h
    exact ⟨u, hst.trans htu, hu⟩
  | error e =>
    obtain ⟨fault, hcause, hf⟩ := h
    exact ⟨fault, hcause, hst.fails hf⟩

theorem Delivers.bind {s : State} {r : Except EvalError α} {f : α → Except EvalError β}
    {P : α → State → Prop} {Q : β → State → Prop} (h : m.Delivers s r P)
    (hf : ∀ a t, P a t → m.Delivers t (f a) Q) : m.Delivers s (r >>= f) Q := by
  cases r with
  | ok a =>
    obtain ⟨t, hst, ht⟩ := h
    exact hst.delivers (hf a t ht)
  | error e => exact h

/-- Further code that leaves the result as it is. -/
theorem Delivers.then {s : State} {r : Except EvalError α} {P Q : α → State → Prop}
    (h : m.Delivers s r P) (hf : ∀ a t, P a t → m.Delivers t (.ok a) Q) : m.Delivers s r Q := by
  cases r with
  | ok a =>
    obtain ⟨t, hst, ht⟩ := h
    exact hst.delivers (hf a t ht)
  | error e => exact h

/-- What an instruction without operands, or with the operands it needs, does in one step. -/
theorem delivers_step {s t : State} {i : Instruction} {a : α} {P : α → State → Prop}
    (hi : m.code[s.pc]? = some i) (ht : m.step i s = .ok t) (hlt : s.pc < t.pc) (hP : P a t) :
    m.Delivers s (.ok a) P :=
  ⟨t, reaches_step hi ht hlt, hP⟩

theorem delivers_load {pc : Nat} {x : String} (hi : m.code[pc]? = some (.load x))
    (stack : List Float) (store : Store) :
    m.Delivers ⟨pc, stack, store⟩ ((Tree.var x).meaning false store)
      (fun v t => t = ⟨pc + 1, v :: stack, store⟩) := by
  cases hx : store[x]? with
  | some v =>
    have hstep : m.step (.load x) ⟨pc, stack, store⟩ = .ok ⟨pc + 1, v :: stack, store⟩ := by
      simp only [step, hx]
      rfl
    simp only [Tree.meaning, hx]
    exact delivers_step hi hstep (Nat.lt_succ_self pc) rfl
  | none =>
    have hstep : m.step (.load x) ⟨pc, stack, store⟩ = .error (.undefinedVariable x pc) := by
      simp only [step, hx]
    simp only [Tree.meaning, hx]
    exact ⟨_, .undefinedVariable x pc, fails_step hi hstep⟩

theorem delivers_binary {pc : Nat} {op : BinaryOp} (hi : m.code[pc]? = some (.binary op))
    (x y : Float) (stack : List Float) (store : Store) :
    m.Delivers ⟨pc, y :: x :: stack, store⟩ (op.outcome x y)
      (fun z t => t = ⟨pc + 1, z :: stack, store⟩) := by
  cases hz : op.eval? x y with
  | some z =>
    have hstep : m.step (.binary op) ⟨pc, y :: x :: stack, store⟩ =
        .ok ⟨pc + 1, z :: stack, store⟩ := by
      simp only [step, hz]
      rfl
    simp only [BinaryOp.outcome, hz]
    exact delivers_step hi hstep (Nat.lt_succ_self pc) rfl
  | none =>
    have hstep : m.step (.binary op) ⟨pc, y :: x :: stack, store⟩ =
        .error (.divisionByZero pc) := by
      simp only [step, hz]
    simp only [BinaryOp.outcome, hz]
    exact ⟨_, .divisionByZero pc, fails_step hi hstep⟩

/-- The code of an expression puts its value on the stack. -/
theorem delivers_expression {e : Tree} (he : e.IsExpression) {n pc : Nat}
    (h : m.Holds pc (e.lower n)) (stack : List Float) (store : Store) :
    m.Delivers ⟨pc, stack, store⟩ (e.meaning false store)
      (fun v t => t = ⟨pc + (e.lower n).length, v :: stack, store⟩) := by
  induction he generalizing n pc stack with
  | number x => exact delivers_step h.head rfl (Nat.lt_succ_self pc) rfl
  | var x => exact delivers_load h.head stack store
  | boolean b => exact delivers_step h.head rfl (Nat.lt_succ_self pc) rfl
  | @unary op e he ih =>
    refine (ih h.left stack).bind ?_
    rintro v t rfl
    refine delivers_step h.right.head rfl (Nat.lt_succ_self _) ?_
    simp only [Tree.lower, List.length_append, List.length_singleton]
    rfl
  | @binary op l r hl hr ihl ihr =>
    refine (ihl h.left.left stack).bind ?_
    rintro x t rfl
    refine (ihr h.left.right (x :: stack)).bind ?_
    rintro y t rfl
    have hop := h.right.head
    rw [List.length_append, ← Nat.add_assoc] at hop
    have hd := delivers_binary hop x y stack store
    simpa only [Tree.lower, List.length_append, List.length_singleton, Nat.add_assoc] using hd

/-- The run has come to address `pc` with the given store; what it left on the stack no longer
matters. -/
def Stands (pc : Nat) (store : Store) (t : State) : Prop := t.pc = pc ∧ t.store = store

/-- A label is passed. -/
theorem reaches_label {pc : Nat} {l : String} (hi : m.code[pc]? = some (.label l))
    (stack : List Float) (store : Store) :
    m.Reaches ⟨pc, stack, store⟩ ⟨pc + 1, stack, store⟩ :=
  reaches_step hi rfl (Nat.lt_succ_self pc)

theorem reaches_branch {pc : Nat} {l : String} (hi : m.code[pc]? = some (.jumpIfFalse l))
    {v : Float} (hv : Number.isTrue v = true) (stack : List Float) (store : Store) :
    m.Reaches ⟨pc, v :: stack, store⟩ ⟨pc + 1, stack, store⟩ := by
  have hstep : m.step (.jumpIfFalse l) ⟨pc, v :: stack, store⟩ = .ok ⟨pc + 1, stack, store⟩ := by
    simp only [step, hv, if_true]
    rfl
  exact reaches_step hi hstep (Nat.lt_succ_self pc)

theorem reaches_jumpIfFalse (hm : m.Resolved) {pc a : Nat} {l : String}
    (hi : m.code[pc]? = some (.jumpIfFalse l)) (hl : m.code[a]? = some (.label l)) (ha : pc < a)
    {v : Float} (hv : Number.isTrue v = false) (stack : List Float) (store : Store) :
    m.Reaches ⟨pc, v :: stack, store⟩ ⟨a, stack, store⟩ := by
  have hstep : m.step (.jumpIfFalse l) ⟨pc, v :: stack, store⟩ = .ok ⟨a, stack, store⟩ := by
    simp only [step, hv, hm a l hl, Bool.false_eq_true, if_false]
  exact reaches_step hi hstep ha

theorem reaches_jump (hm : m.Resolved) {pc a : Nat} {l : String}
    (hi : m.code[pc]? = some (.jump l)) (hl : m.code[a]? = some (.label l)) (ha : pc < a)
    (stack : List Float) (store : Store) :
    m.Reaches ⟨pc, stack, store⟩ ⟨a, stack, store⟩ := by
  have hstep : m.step (.jump l) ⟨pc, stack, store⟩ = .ok ⟨a, stack, store⟩ := by
    simp only [step, hm a l hl]
  exact reaches_step hi hstep ha

/-- The code of a conditional runs the branch that the condition selects. -/
theorem delivers_conditional (hm : m.Resolved) {pc : Nat} {onFalse onEnd : String}
    {cond body other : List Instruction}
    (h : m.Holds pc (Code.conditional onFalse onEnd cond body other))
    {stack : List Float} {store : Store} {r : Except EvalError Float}
    {x y : Except EvalError Store}
    (hc : m.Holds pc cond → m.Delivers ⟨pc, stack, store⟩ r
      (fun v t => t = ⟨pc + cond.length, v :: stack, store⟩))
    (hx : ∀ pc', m.Holds pc' body →
      m.Delivers ⟨pc', stack, store⟩ x (Stands (pc' + body.length)))
    (hy : ∀ pc', m.Holds pc' other →
      m.Delivers ⟨pc', stack, store⟩ y (Stands (pc' + other.length))) :
    m.Delivers ⟨pc, stack, store⟩ (r >>= fun v => if Number.isTrue v then x else y)
      (Stands (pc + (Code.conditional onFalse onEnd cond body other).length)) := by
  -- The parts of the code, each at its address.
  have htest := h.right
  have hbody := htest.tail
  have hskip := hbody.right
  have hfalse := hskip.tail.head
  have hother := hskip.tail.tail
  have hend := hother.right.head
  have hlen : pc + (Code.conditional onFalse onEnd cond body other).length =
      pc + cond.length + 1 + body.length + 1 + 1 + other.length + 1 := by
    simp only [Code.conditional, List.length_append, List.length_cons, List.length_nil]
    omega
  rw [hlen]
  refine (hc h.left).bind ?_
  rintro v t rfl
  cases hv : Number.isTrue v with
  | true =>
    refine (reaches_branch htest.head hv stack store).delivers ?_
    refine (hx _ hbody.left).then ?_
    rintro _ ⟨_, stack', store'⟩ ⟨rfl, rfl⟩
    have hjump := reaches_jump hm hskip.head hend (by omega) stack' store'
    exact ⟨_, hjump.trans (reaches_label hend stack' store'), rfl, rfl⟩
  | false =>
    refine (reaches_jumpIfFalse hm htest.head hfalse (by omega) hv stack store).delivers ?_
    refine (reaches_label hfalse stack store).delivers ?_
    refine (hy _ hother.left).then ?_
    rintro _ ⟨_, stack', store'⟩ ⟨rfl, rfl⟩
    exact ⟨_, reaches_label hend stack' store', rfl, rfl⟩

theorem delivers_effects {ss : List Tree}
    (h : ∀ s ∈ ss, ∀ n pc, m.Holds pc (s.lower n) → ∀ stack store,
      m.Delivers ⟨pc, stack, store⟩ (s.effect false store) (Stands (pc + (s.lower n).length)))
    {n pc : Nat} (hss : m.Holds pc (Tree.lowerAll n ss)) (stack : List Float) (store : Store) :
    m.Delivers ⟨pc, stack, store⟩ (Tree.effects false store ss)
      (Stands (pc + (Tree.lowerAll n ss).length)) := by
  induction ss generalizing n pc stack store with
  | nil => exact ⟨_, reaches_refl _, rfl, rfl⟩
  | cons s ss ih =>
    refine (h s (by simp) n pc hss.left stack store).bind ?_
    rintro _ ⟨_, stack', store'⟩ ⟨rfl, rfl⟩
    have hrest := ih (fun u hu => h u (by simp [hu])) hss.right stack' store'
    rwa [Nat.add_assoc, ← List.length_append] at hrest

/-- The code of a statement changes the store as the statement does. -/
theorem delivers_statement (hm : m.Resolved) {s : Tree} (hs : s.IsStatement) {n pc : Nat}
    (h : m.Holds pc (s.lower n)) (stack : List Float) (store : Store) :
    m.Delivers ⟨pc, stack, store⟩ (s.effect false store) (Stands (pc + (s.lower n).length)) := by
  induction hs generalizing n pc stack store with
  | @expression e he =>
    rw [Tree.effect_expression false store he]
    refine (delivers_expression he h stack store).bind (f := fun _ => .ok store) ?_
    rintro v t rfl
    exact ⟨_, reaches_refl _, rfl, rfl⟩
  | @assign x e he =>
    refine (delivers_expression he h.left stack store).bind ?_
    rintro v t rfl
    refine delivers_step h.right.head rfl (Nat.lt_succ_self _) ⟨?_, rfl⟩
    simp only [Tree.lower, List.length_append, List.length_singleton]
    rfl
  | @ifThen c s hc hs ih =>
    -- A missing branch is an empty one.
    have hother (pc' : Nat) (_ : m.Holds pc' []) :
        m.Delivers ⟨pc', stack, store⟩ (.ok store)
          (Stands (pc' + ([] : List Instruction).length)) :=
      ⟨_, reaches_refl _, rfl, rfl⟩
    exact delivers_conditional hm h (fun hcode => delivers_expression hc hcode stack store)
      (fun pc' hcode => ih hcode stack store) hother
  | @ifElse c s t hc hs ht ihs iht =>
    exact delivers_conditional hm h (fun hcode => delivers_expression hc hcode stack store)
      (fun pc' hcode => ihs hcode stack store) (fun pc' hcode => iht hcode stack store)
  | @program ss hss ih =>
    exact delivers_effects (fun s hs n pc hcode => ih s hs hcode) h stack store

/-- What a run shows of the outcome `r`: its store, or a fault with the cause of its error. -/
def Answers (p : Progress) (r : Except EvalError Store) : Prop :=
  match r with
  | .ok store => p = .halted store
  | .error e => ∃ fault, SameCause e fault ∧ p = .failed fault

/-- Loading the code of statements and running it, for at least as many steps as there are
instructions, answers what the statements mean. -/
theorem execute_answers {ss : List Tree} (hs : ∀ s ∈ ss, s.IsStatement) {n : Nat}
    (hn : (Tree.lowerAll 0 ss).length ≤ n) :
    Answers (execute n (Tree.lowerAll 0 ss)) (Tree.effects false ∅ ss) := by
  obtain ⟨m, hload, hcode, hm⟩ := Tree.load_lowerAll ss
  have hsize : m.code.size = (Tree.lowerAll 0 ss).length := by rw [hcode, List.size_toArray]
  have hholds : m.Holds 0 (Tree.lowerAll 0 ss) := by
    intro k i hk
    rw [Nat.zero_add, hcode, List.getElem?_toArray, hk]
  have hd := delivers_effects (fun s h n pc hcode => delivers_statement hm (hs s h) hcode)
    hholds [] ∅
  simp only [execute, hload]
  cases hr : Tree.effects false ∅ ss with
  | ok store =>
    rw [hr] at hd
    obtain ⟨t, ⟨k, hk, hrun⟩, hpc, hstore⟩ := hd
    -- Each of the `k` steps moves on by one address at least, and the last one leaves the code.
    have hk' : k ≤ n := by
      simp only [Nat.zero_add] at hk hpc
      omega
    have hhalt : m.code[t.pc]? = none := by
      rw [hpc, Array.getElem?_eq_none]
      omega
    have hend := hrun (n - k)
    rw [Nat.add_sub_cancel' hk', runFor_halted hhalt, hstore] at hend
    exact hend
  | error e =>
    rw [hr] at hd
    obtain ⟨fault, hcause, k, hk, hrun⟩ := hd
    have hk' : k ≤ n := by
      simp only [Nat.zero_add] at hk
      omega
    have hend := hrun (n - k)
    rw [Nat.add_sub_cancel' hk'] at hend
    exact ⟨fault, hcause, hend⟩

end Machine

end StackLang
