import Mathlib.Order.Bounds.Defs
import StackLang.Proofs.FaultSites
import StackLang.Proofs.StackHeight

namespace StackLang

namespace Machine

variable {m : Machine} {i : Instruction} {s t : State}

/-- Operands are missed before anything else can go wrong. -/
theorem step_of_length_lt (h : s.stack.length < i.pops) :
    m.step i s = .error (.stackUnderflow i s.pc) := by
  cases hstep : m.step i s with
  | ok t => exact absurd (stack_of_step hstep).1 (Nat.not_le.mpr h)
  | error fault =>
    cases refuses_of_step hstep with
    | undefinedVariable _ => exact absurd h (Nat.not_lt_zero _)
    | divisionByZero hstack _ =>
      rw [hstack] at h
      exact absurd h (Nat.not_lt.mpr (Nat.le_add_left 2 _))
    | stackUnderflow _ => rfl

theorem step_underflow_iff :
    (∃ j pc, m.step i s = .error (.stackUnderflow j pc)) ↔ s.stack.length < i.pops := by
  constructor
  · rintro ⟨j, pc, hstep⟩
    cases refuses_of_step hstep with
    | stackUnderflow hlow => exact hlow
  · intro h
    exact ⟨i, s.pc, step_of_length_lt h⟩

/-- With the operands at hand, only a load and a division can fail. -/
theorem step_of_pops_le (h : i.pops ≤ s.stack.length) :
    (∃ t, m.step i s = .ok t) ∨ (∃ x, i = .load x ∧ x ∉ s.store) ∨
      ∃ y rest, i = .binary .div ∧ s.stack = y :: rest ∧ (y == 0) = true := by
  cases hstep : m.step i s with
  | ok t => exact .inl ⟨t, rfl⟩
  | error fault =>
    cases refuses_of_step hstep with
    | undefinedVariable hx => exact .inr (.inl ⟨_, rfl, hx⟩)
    | divisionByZero hstack hy => exact .inr (.inr ⟨_, _, rfl, hstack, hy⟩)
    | stackUnderflow hlow => exact absurd h (Nat.not_le.mpr hlow)

theorem drop_of_step (h : m.step i s = .ok t) :
    t.stack.drop i.pushes = s.stack.drop i.pops := by
  obtain ⟨-, out, hout, hstack⟩ := stack_of_step h
  rw [hstack, ← hout, List.drop_left]

/-- The instruction at which `s` stands leads to `t`. -/
def Steps (m : Machine) (s t : State) : Prop :=
  ∃ i, m.code[s.pc]? = some i ∧ m.step i s = .ok t

/-- A run that is in the first state comes to the second. -/
abbrev Run (m : Machine) : State → State → Prop := Relation.ReflTransGen m.Steps

/-- Inside the code, a run that completes takes a step, and what is left of it completes too. -/
theorem exists_steps_of_halted {n : Nat} {store : Store} (h : m.runFor n s = .halted store)
    (hi : m.code[s.pc]? = some i) : ∃ t k, m.Steps s t ∧ m.runFor k t = .halted store := by
  cases n with
  | zero =>
    rw [runFor] at h
    simp [hi] at h
  | succ n =>
    cases ht : m.step i s with
    | error fault =>
      rw [runFor_of_step_error hi ht] at h
      cases h
    | ok t =>
      rw [runFor_of_step_ok hi ht] at h
      exact ⟨t, n, ⟨i, hi, ht⟩, h⟩

/-- No instruction jumps. -/
def Straight (m : Machine) : Prop :=
  ∀ (a : Nat) (i : Instruction), m.code[a]? = some i → i.target? = none

section Straight

variable {is : List Instruction} {n : Nat} {store : Store}

theorem Straight.pc_of_steps (hm : m.Straight) (h : m.Steps s t) : t.pc = s.pc + 1 := by
  obtain ⟨i, hi, ht⟩ := h
  rcases pc_of_step ht with hnext | ⟨l, hl, -⟩
  · exact hnext
  · rw [hm s.pc i hi] at hl
    cases hl

theorem Straight.length_of_steps (hm : m.Straight) (hcode : m.code = is.toArray)
    (h : m.Steps s t) (hs : s.stack.length = Code.height 0 is s.pc) :
    t.stack.length = Code.height 0 is t.pc := by
  have hpc := hm.pc_of_steps h
  obtain ⟨i, hi, ht⟩ := h
  rw [hcode, List.getElem?_toArray] at hi
  rw [hpc, Code.height_succ 0 hi, length_of_step ht, hs]

/-- The stack of a run is as high as the pass is at the same address. -/
theorem Straight.length_of_run (hm : m.Straight) (hcode : m.code = is.toArray)
    (h : m.Run .start t) : t.stack.length = Code.height 0 is t.pc := by
  induction h with
  | refl => rfl
  | tail _ hstep ih => exact hm.length_of_steps hcode hstep ih

/-- A run that completes comes to every address and to the end of the code. -/
theorem Straight.exists_run (hm : m.Straight) (h : m.runFor n .start = .halted store) {a : Nat}
    (ha : a ≤ m.code.size) :
    ∃ t k, m.Run .start t ∧ t.pc = a ∧ m.runFor k t = .halted store := by
  -- That the rest completes is what gives the step to the next address.
  induction a with
  | zero => exact ⟨.start, n, .refl, rfl, h⟩
  | succ a ih =>
    obtain ⟨t, k, hrun, rfl, hrest⟩ := ih (Nat.le_of_succ_le ha)
    obtain ⟨u, k', hstep, hrest'⟩ := exists_steps_of_halted hrest (Array.getElem?_eq_getElem ha)
    exact ⟨u, k', hrun.tail hstep, hm.pc_of_steps hstep, hrest'⟩

/-- The highest stack of a run that completes is the highest point of the pass. -/
theorem Straight.isGreatest_deepest (hm : m.Straight) (hcode : m.code = is.toArray)
    (h : m.runFor n .start = .halted store) :
    IsGreatest {d | ∃ t, m.Run .start t ∧ t.stack.length = d} (Code.deepest 0 is) := by
  constructor
  · -- The pass may be highest after the last instruction, so the end of the code counts too.
    obtain ⟨a, ha, hheight⟩ := Code.exists_height_eq_deepest 0 is
    have hsize : a ≤ m.code.size := by rwa [hcode, List.size_toArray]
    obtain ⟨t, _, hrun, rfl, -⟩ := hm.exists_run h hsize
    exact ⟨t, hrun, (hm.length_of_run hcode hrun).trans hheight⟩
  · rintro d ⟨t, hrun, rfl⟩
    rw [hm.length_of_run hcode hrun]
    exact Code.height_le_deepest 0 t.pc

end Straight

/-- Whatever the instruction, the operands and the variables are: a step underflows exactly if there
are fewer operands than the instruction takes; if there are enough, it fails only for a variable that
is not there and for a division by zero; and if it succeeds, the stack has lost what the instruction
takes and gained what it puts down, and below that it is as it was. So if a run of code without jumps
completes, the stack size of the code is the greatest height that the stack has in the run. -/
theorem stack_effect_exact :
    (∀ (m : Machine) (i : Instruction) (s : State),
      ((∃ j pc, m.step i s = .error (.stackUnderflow j pc)) ↔ s.stack.length < i.pops) ∧
      (i.pops ≤ s.stack.length →
        (∃ t, m.step i s = .ok t) ∨ (∃ x, i = .load x ∧ x ∉ s.store) ∨
          ∃ y rest, i = .binary .div ∧ s.stack = y :: rest ∧ (y == 0) = true) ∧
      ∀ t, m.step i s = .ok t →
        i.pops ≤ s.stack.length ∧ t.stack.length = s.stack.length - i.pops + i.pushes ∧
          t.stack.drop i.pushes = s.stack.drop i.pops) ∧
    ∀ (is : List Instruction) (n : Nat) (store : Store), (∀ i ∈ is, i.target? = none) →
      execute n is = .halted store →
      ∃ m, load is = .ok m ∧
        IsGreatest {d | ∃ t, m.Run .start t ∧ t.stack.length = d}
          (Code.ofInstructions is).maxStack := by
  refine ⟨fun m i s => ⟨step_underflow_iff, step_of_pops_le, fun t h => ?_⟩, ?_⟩
  · exact ⟨(stack_of_step h).1, length_of_step h, drop_of_step h⟩
  · intro is n store hplain hrun
    cases hload : load is with
    | error fault =>
      rw [execute, hload] at hrun
      cases hrun
    | ok m =>
      rw [execute, hload] at hrun
      have hcode := (resolved_of_load hload).1
      have hm : m.Straight := by
        intro a i hi
        rw [hcode, List.getElem?_toArray] at hi
        exact hplain i (List.mem_of_getElem? hi)
      exact ⟨m, rfl, hm.isGreatest_deepest hcode hrun⟩

/-- Reaches its highest point in the middle, passes a label and leaves a value behind. -/
def straightCode : List Instruction :=
  [.push 1, .push 2, .push 3, .binary .sub, .binary .div, .store "x", .label "rest", .load "x",
    .unary .neg]

-- One operand of two is an underflow as well, and a division takes nothing but its two operands.
theorem straightCode_stack_effect :
    (∃ j pc, (⟨#[], []⟩ : Machine).step (.binary .add) ⟨4, [1], ∅⟩ =
      .error (.stackUnderflow j pc)) ∧
    (∃ t, (⟨#[], []⟩ : Machine).step (.binary .div) ⟨4, [2, 6, 7, 8], ∅⟩ = .ok t ∧
      t.stack.length = 3 ∧ t.stack.drop 1 = [7, 8]) ∧
    ∃ m store, load straightCode = .ok m ∧ execute 9 straightCode = .halted store ∧
      IsGreatest {d | ∃ t, m.Run .start t ∧ t.stack.length = d} 3 := by
  obtain ⟨hstep, hrun⟩ := stack_effect_exact
  refine ⟨?_, ?_, ?_⟩
  · exact (hstep _ (.binary .add) ⟨4, [1], ∅⟩).1.mpr (by decide)
  · have hdiv : (⟨#[], []⟩ : Machine).step (.binary .div) ⟨4, [2, 6, 7, 8], ∅⟩ =
        .ok ⟨5, [6 / 2, 7, 8], ∅⟩ := rfl
    obtain ⟨-, hlength, hdrop⟩ := (hstep _ _ _).2.2 _ hdiv
    exact ⟨_, hdiv, hlength, hdrop⟩
  · have hplain : ∀ i ∈ straightCode, i.target? = none := by
      simp [straightCode, Instruction.target?]
    obtain ⟨store, hhalts⟩ : ∃ store, execute 9 straightCode = .halted store := ⟨_, rfl⟩
    obtain ⟨m, hload, hgreatest⟩ := hrun straightCode 9 store hplain hhalts
    exact ⟨m, store, hload, hhalts, hgreatest⟩

end Machine

end StackLang
