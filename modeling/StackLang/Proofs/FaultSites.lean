import StackLang.Proofs.LabelResolution

namespace StackLang

/-- Only a division has no value, and only one by zero. -/
theorem BinaryOp.eval?_eq_none_iff {op : BinaryOp} {x y : Float} :
    op.eval? x y = none ↔ op = .div ∧ (y == 0) = true := by
  cases op <;> simp [eval?]

namespace Machine

variable {m : Machine} {i : Instruction} {s t : State} {fault : Fault}

/-- The instruction cannot be executed in the state, for the reason that the fault tells. -/
inductive Refuses : Instruction → State → Fault → Prop where
  | undefinedVariable {x : String} {s : State} : x ∉ s.store →
    Refuses (.load x) s (.undefinedVariable x s.pc)
  | divisionByZero {x y : Float} {rest : List Float} {s : State} : s.stack = y :: x :: rest →
    (y == 0) = true → Refuses (.binary .div) s (.divisionByZero s.pc)
  | stackUnderflow {i : Instruction} {s : State} : s.stack.length < i.pops →
    Refuses i s (.stackUnderflow i s.pc)

theorem refuses_of_step (h : m.step i s = .error fault) : Refuses i s fault := by
  obtain ⟨pc, stack, store⟩ := s
  cases i with
  | push x | jump l | label l => cases h
  | load x =>
    simp only [step] at h
    split at h
    · cases h
    · next hx =>
      cases h
      apply Refuses.undefinedVariable
      intro hmem
      rw [Std.ExtTreeMap.mem_iff_isSome_getElem?, hx] at hmem
      cases hmem
  | store x | unary op | jumpIfFalse l =>
    cases stack with
    | nil =>
      cases h
      exact .stackUnderflow Nat.zero_lt_one
    | cons v rest => cases h
  | binary op =>
    -- The second operand may be missing as well as both.
    rcases stack with _ | ⟨y, _ | ⟨x, rest⟩⟩
    · cases h
      exact .stackUnderflow (Nat.zero_lt_succ 1)
    · cases h
      exact .stackUnderflow (Nat.lt_succ_self 1)
    · simp only [step] at h
      split at h
      · cases h
      · next hnone =>
        obtain ⟨rfl, hy⟩ := BinaryOp.eval?_eq_none_iff.mp hnone
        cases h
        exact .divisionByZero rfl hy

theorem Refuses.pc_eq (h : Refuses i s fault) : fault.pc = s.pc := by
  cases h <;> rfl

/-- A step leaves the variables as they are, or adds the one that the instruction stores. -/
theorem store_of_step (h : m.step i s = .ok t) :
    (t.store = s.store ∧ ∀ x, i ≠ .store x) ∨
      ∃ x v, i = .store x ∧ t.store = s.store.insert x v := by
  cases executes_of_step h with
  | store x hs => exact .inr ⟨x, _, rfl, rfl⟩
  | _ => exact .inl ⟨rfl, by simp⟩

theorem mem_store_of_step (h : m.step i s = .ok t) (x : String) :
    x ∈ t.store ↔ x ∈ s.store ∨ i = .store x := by
  rcases store_of_step h with ⟨hsame, hi⟩ | ⟨y, v, rfl, hinsert⟩
  · rw [hsame]
    simp [hi x]
  · rw [hinsert, Std.ExtTreeMap.mem_insert, Std.compare_eq_iff_eq, or_comm, Instruction.store.injEq]

/-- Where a run has come to, there are the variables that it started with and those that it has
stored on the way. -/
theorem mem_store_of_visited {n : Nat} {earlier later : List State}
    (h : m.visited n s = earlier ++ t :: later) (x : String) :
    x ∈ t.store ↔ x ∈ s.store ∨ ∃ u ∈ earlier, m.code[u.pc]? = some (.store x) := by
  induction n generalizing s earlier with
  | zero => simp [visited_zero] at h
  | succ n ih =>
    cases hi : m.code[s.pc]? with
    | none => simp [visited_halted hi] at h
    | some i =>
      cases hu : m.step i s with
      | error fault =>
        rw [visited_of_step_error hi hu] at h
        obtain ⟨rfl, rfl, -⟩ : earlier = [] ∧ s = t ∧ later = [] := by
          cases earlier with
          | nil => simpa using h
          | cons e earlier => simp at h
        simp
      | ok u =>
        rw [visited_of_step_ok hi hu] at h
        cases earlier with
        | nil =>
          obtain rfl : s = t := (List.cons.inj h).1
          simp
        | cons e earlier =>
          obtain ⟨rfl, hrest⟩ := List.cons.inj h
          -- The first step may have stored the variable, or one of the later ones.
          rw [ih hrest, mem_store_of_step hu, or_assoc, List.exists_mem_cons_iff, hi,
            Option.some.injEq]

/-- A run that fails has executed the instruction that cannot be executed as its last one. -/
theorem visited_of_failed {n : Nat} (h : m.runFor n s = .failed fault) :
    ∃ earlier t i, m.visited n s = earlier ++ [t] ∧ m.code[t.pc]? = some i ∧
      m.step i t = .error fault := by
  induction n generalizing s with
  | zero =>
    rw [runFor] at h
    cases hi : m.code[s.pc]? <;> simp [hi] at h
  | succ n ih =>
    cases hi : m.code[s.pc]? with
    | none =>
      rw [runFor_halted hi] at h
      cases h
    | some i =>
      cases hu : m.step i s with
      | error fault' =>
        rw [runFor_of_step_error hi hu] at h
        cases h
        exact ⟨[], s, i, visited_of_step_error hi hu n, hi, hu⟩
      | ok u =>
        rw [runFor_of_step_ok hi hu] at h
        obtain ⟨earlier, t, j, hvisited, hj, hfails⟩ := ih h
        refine ⟨s :: earlier, t, j, ?_, hj, hfails⟩
        rw [visited_of_step_ok hi hu, hvisited, List.cons_append]

/-- If a run of loaded code stops with a fault, the fault has the address of the instruction that
was executed last. An undefined variable is one that this instruction loads and that was stored by no
instruction executed before; a division by zero is a division with a zero on top of the stack; and
an underflow names the instruction, for which the stack is too low. No other faults arise in a
run. -/
theorem fault_names_instruction {is : List Instruction} (hload : load is = .ok m) {n : Nat}
    (hrun : execute n is = .failed fault) :
    ∃ earlier s i, m.visited n .start = earlier ++ [s] ∧ s.pc = fault.pc ∧
      is[fault.pc]? = some i ∧
      (∀ x pc, fault = .undefinedVariable x pc →
        i = .load x ∧ ∀ u ∈ earlier, is[u.pc]? ≠ some (.store x)) ∧
      (∀ pc, fault = .divisionByZero pc →
        i = .binary .div ∧ ∃ y rest, s.stack = y :: rest ∧ (y == 0) = true) ∧
      (∀ j pc, fault = .stackUnderflow j pc → j = i ∧ s.stack.length < i.pops) ∧
      (∀ l pc, fault ≠ .unresolvedLabel l pc) ∧
      ∀ l first second, fault ≠ .duplicateLabel l first second := by
  have hcode (a : Nat) : m.code[a]? = is[a]? := by
    rw [(resolved_of_load hload).1, List.getElem?_toArray]
  rw [execute, hload] at hrun
  obtain ⟨earlier, s, i, hvisited, hi, hfails⟩ := visited_of_failed hrun
  have hrefuses := refuses_of_step hfails
  have hpc := hrefuses.pc_eq
  refine ⟨earlier, s, i, hvisited, hpc.symm, ?_, ?_, ?_, ?_, ?_, ?_⟩
  · rw [hpc, ← hcode, hi]
  · rintro x pc rfl
    cases hrefuses with
    | undefinedVariable hx =>
      refine ⟨rfl, fun u hu hstore => hx ?_⟩
      rw [mem_store_of_visited hvisited]
      exact .inr ⟨u, hu, (hcode u.pc).trans hstore⟩
  · rintro pc rfl
    cases hrefuses with
    | divisionByZero hstack hy => exact ⟨rfl, _, _, hstack, hy⟩
  · rintro j pc rfl
    cases hrefuses with
    | stackUnderflow hlow => exact ⟨rfl, hlow⟩
  · rintro l pc rfl
    cases hrefuses
  · rintro l first second rfl
    cases hrefuses

/-- Counts down from 2 in a loop, then loads a variable that is stored only after it. -/
def countdownCode : List Instruction :=
  [.push 2, .store "n", .label "again", .load "n", .push 1, .binary .sub, .store "n", .load "n",
    .jumpIfFalse "done", .jump "again", .label "done", .load "m", .store "m"]

/-- A division by the zero with a negative sign. -/
def negativeZeroCode : List Instruction := [.push 1, .push (-0), .binary .div]

/-- An addition with one operand. -/
def halfAddition : List Instruction := [.push 1, .binary .add]

theorem countdownCode_fault_named :
    (∃ m, load countdownCode = .ok m ∧
      execute 40 countdownCode = .failed (.undefinedVariable "m" 11) ∧
      ∃ earlier s, m.visited 40 .start = earlier ++ [s] ∧ s.pc = 11 ∧
        ∀ u ∈ earlier, countdownCode[u.pc]? ≠ some (.store "m")) ∧
    (∃ m, load negativeZeroCode = .ok m ∧
      execute 3 negativeZeroCode = .failed (.divisionByZero 2) ∧
      ∃ earlier s y rest, m.visited 3 .start = earlier ++ [s] ∧ s.pc = 2 ∧
        s.stack = y :: rest ∧ (y == 0) = true) ∧
    ∃ m, load halfAddition = .ok m ∧
      execute 2 halfAddition = .failed (.stackUnderflow (.binary .add) 1) ∧
      ∃ earlier s, m.visited 2 .start = earlier ++ [s] ∧ s.pc = 1 ∧ s.stack.length < 2 := by
  refine ⟨?_, ?_, ?_⟩
  · have hload : load countdownCode = .ok ⟨_, [("done", 10), ("again", 2)]⟩ := rfl
    have hrun : execute 40 countdownCode = .failed (.undefinedVariable "m" 11) := rfl
    obtain ⟨earlier, s, i, hvisited, hpc, -, hundefined, -⟩ := fault_names_instruction hload hrun
    exact ⟨_, hload, hrun, earlier, s, hvisited, hpc, (hundefined "m" 11 rfl).2⟩
  · have hload : load negativeZeroCode = .ok ⟨_, []⟩ := rfl
    have hrun : execute 3 negativeZeroCode = .failed (.divisionByZero 2) := rfl
    obtain ⟨earlier, s, i, hvisited, hpc, -, -, hdiv, -⟩ := fault_names_instruction hload hrun
    obtain ⟨-, y, rest, hstack, hy⟩ := hdiv 2 rfl
    exact ⟨_, hload, hrun, earlier, s, y, rest, hvisited, hpc, hstack, hy⟩
  · have hload : load halfAddition = .ok ⟨_, []⟩ := rfl
    have hrun : execute 2 halfAddition = .failed (.stackUnderflow (.binary .add) 1) := rfl
    obtain ⟨earlier, s, i, hvisited, hpc, -, -, -, hlow, -⟩ := fault_names_instruction hload hrun
    obtain ⟨rfl, hlength⟩ := hlow (.binary .add) 1 rfl
    exact ⟨_, hload, hrun, earlier, s, hvisited, hpc, hlength⟩

end Machine

end StackLang
