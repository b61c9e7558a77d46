import StackLang.Proofs.ForwardRun
import Mathlib.Logic.Relation

/-! The height of the operand stack. A straight pass over the code gives each address a height. The
code of statements never jumps to where the pass is lower, so on whatever path a run comes to an
address, its stack is no higher than the pass is there. -/
namespace StackLang

namespace Code

/-- The height of a straight pass that starts at `d`, before the instruction at the given address. -/
def height (d : Nat) : List Instruction → Nat → Nat
  | _, 0 => d
  | [], _ + 1 => d
  | i :: is, a + 1 => height (d - i.pops + i.pushes) is a

section Height

variable {is js : List Instruction} {i : Instruction}

theorem height_nil (d a : Nat) : height d [] a = d := by
  cases a <;> rfl

theorem height_append_left {a : Nat} (d : Nat) (ha : a ≤ is.length) :
    height d (is ++ js) a = height d is a := by
  induction is generalizing d a with
  | nil =>
    obtain rfl : a = 0 := Nat.le_zero.mp ha
    cases js <;> rfl
  | cons i is ih =>
    cases a with
    | zero => rfl
    | succ a => exact ih _ (Nat.le_of_succ_le_succ ha)

theorem height_append_right (d a : Nat) :
    height d (is ++ js) (is.length + a) = height (height d is is.length) js a := by
  induction is generalizing d with
  | nil => rw [List.nil_append, List.length_nil, Nat.zero_add, height]
  | cons i is ih =>
    rw [List.cons_append, List.length_cons, Nat.add_right_comm]
    exact ih _

theorem height_succ {a : Nat} (d : Nat) (h : is[a]? = some i) :
    height d is (a + 1) = height d is a - i.pops + i.pushes := by
  induction is generalizing d a with
  | nil => cases h
  | cons j is ih =>
    cases a with
    | zero =>
      cases h
      cases is <;> rfl
    | succ a => exact ih _ h

theorem height_le_deepest (d a : Nat) : height d is a ≤ deepest d is := by
  induction is generalizing d a with
  | nil => exact Nat.le_of_eq (height_nil d a)
  | cons i is ih =>
    cases a with
    | zero => exact Nat.le_max_left _ _
    | succ a => exact Nat.le_trans (ih _ a) (Nat.le_max_right _ _)

theorem exists_height_eq_deepest (d : Nat) (is : List Instruction) :
    ∃ a, a ≤ is.length ∧ height d is a = deepest d is := by
  induction is generalizing d with
  | nil => exact ⟨0, Nat.le_refl 0, rfl⟩
  | cons i is ih =>
    obtain ⟨a, ha, heq⟩ := ih (d - i.pops + i.pushes)
    by_cases hle : deepest (d - i.pops + i.pushes) is ≤ d
    · exact ⟨0, Nat.zero_le _, (Nat.max_eq_left hle).symm⟩
    · refine ⟨a + 1, Nat.succ_le_succ ha, ?_⟩
      rw [height, heq, deepest, Nat.max_eq_right (by omega)]

end Height

/-- A straight pass goes from `d` to `d'`, and no jump leads to where the pass is lower. -/
structure Climbs (d d' : Nat) (is : List Instruction) : Prop where
  ends : height d is is.length = d'
  rises : ∀ (p : Nat) (i : Instruction) (l : String), is[p]? = some i → i.target? = some l →
    ∃ q : Nat, is[q]? = some (.label l) ∧ height d is (p + 1) ≤ height d is q

section Climbs

variable {is js : List Instruction} {i : Instruction} {d d' d'' : Nat}

theorem climbs_nil (d : Nat) : Climbs d d [] where
  ends := rfl
  rises := by
    intro p i l hp
    simp at hp

theorem Climbs.cons (h : Climbs d' d'' is) (hd : d - i.pops + i.pushes = d')
    (hi : ∀ l, i.target? = some l → ∃ q : Nat, is[q]? = some (.label l) ∧ d' ≤ height d' is q) :
    Climbs d d'' (i :: is) := by
  subst hd
  refine ⟨h.ends, fun p j l hp hl => ?_⟩
  cases p with
  | zero =>
    obtain rfl : i = j := by simpa using hp
    obtain ⟨q, hq, hle⟩ := hi l hl
    refine ⟨q + 1, by simpa using hq, ?_⟩
    rw [height_succ d hp]
    exact hle
  | succ p =>
    obtain ⟨q, hq, hle⟩ := h.rises p j l (by simpa using hp) hl
    exact ⟨q + 1, by simpa using hq, hle⟩

/-- An instruction that does not jump. -/
theorem climbs_plain (hi : i.target? = none) (hd : d - i.pops + i.pushes = d') :
    Climbs d d' [i] :=
  (climbs_nil d').cons hd (by simp [hi])

theorem Climbs.append (hi : Climbs d d' is) (hj : Climbs d' d'' js) : Climbs d d'' (is ++ js) where
  ends := by rw [List.length_append, height_append_right, hi.ends, hj.ends]
  rises := by
    intro p i l hp hl
    by_cases hlt : p < is.length
    · rw [List.getElem?_append_left hlt] at hp
      obtain ⟨q, hq, hle⟩ := hi.rises p i l hp hl
      have hql := (List.getElem?_eq_some_iff.mp hq).1
      refine ⟨q, by rw [List.getElem?_append_left hql, hq], ?_⟩
      rw [height_append_left d hlt, height_append_left d (Nat.le_of_lt hql)]
      exact hle
    · obtain ⟨k, rfl⟩ := Nat.exists_eq_add_of_le (Nat.le_of_not_lt hlt)
      rw [List.getElem?_append_right (by omega), Nat.add_sub_cancel_left] at hp
      obtain ⟨q, hq, hle⟩ := hj.rises k i l hp hl
      refine ⟨is.length + q, ?_, ?_⟩
      · rw [List.getElem?_append_right (by omega), Nat.add_sub_cancel_left, hq]
      · rw [Nat.add_assoc, height_append_right, height_append_right, hi.ends]
        exact hle

/-- A jump over a branch skips what the branch leaves, and no branch takes anything away. -/
theorem climbs_conditional {onFalse onEnd : String} {cond body other : List Instruction}
    (hc : Climbs d (d + 1) cond) (hs : Climbs d d' body) (ht : Climbs d' d'' other)
    (hd : d ≤ d') (hd' : d' ≤ d'') :
    Climbs d d'' (conditional onFalse onEnd cond body other) := by
  have hstop : Climbs d' d'' (other ++ [.label onEnd]) := ht.append (climbs_plain rfl rfl)
  have hother : Climbs d' d'' (.label onFalse :: (other ++ [.label onEnd])) :=
    hstop.cons rfl (by simp [Instruction.target?])
  have hskip : Climbs d' d'' (.jump onEnd :: .label onFalse :: (other ++ [.label onEnd])) := by
    refine hother.cons rfl fun l hl => ⟨other.length + 1, ?_, ?_⟩
    · cases hl
      simp
    · change d' ≤ height d' (other ++ [.label onEnd]) (other.length + 0)
      rw [height_append_right, ht.ends]
      exact hd'
  refine hc.append ((hs.append hskip).cons rfl fun l hl => ⟨body.length + 1, ?_, ?_⟩)
  · cases hl
    simp
  · rw [height_append_right, hs.ends]
    exact hd

end Climbs

end Code

namespace Tree

open Code

theorem climbs_expression {e : Tree} (he : e.IsExpression) (n d : Nat) :
    Climbs d (d + 1) (e.lower n) := by
  induction he generalizing n d with
  | number x | var x | boolean b => exact climbs_plain rfl rfl
  | unary op he ih => exact (ih n d).append (climbs_plain rfl rfl)
  | binary op hl hr ihl ihr =>
    exact ((ihl n d).append (ihr _ (d + 1))).append (climbs_plain rfl rfl)

theorem climbs_lowerAll {ss : List Tree}
    (h : ∀ s ∈ ss, ∀ n d, ∃ d', d ≤ d' ∧ Climbs d d' (s.lower n)) (n d : Nat) :
    ∃ d', d ≤ d' ∧ Climbs d d' (lowerAll n ss) := by
  induction ss generalizing n d with
  | nil => exact ⟨d, Nat.le_refl d, climbs_nil d⟩
  | cons s ss ih =>
    obtain ⟨d', hd, hs⟩ := h s (by simp) n d
    obtain ⟨d'', hd', hss⟩ := ih (fun u hu => h u (by simp [hu])) (n + s.branches) d'
    exact ⟨d'', Nat.le_trans hd hd', hs.append hss⟩

theorem climbs_statement {s : Tree} (hs : s.IsStatement) (n d : Nat) :
    ∃ d', d ≤ d' ∧ Climbs d d' (s.lower n) := by
  induction hs generalizing n d with
  | expression he => exact ⟨d + 1, by omega, climbs_expression he n d⟩
  | assign x he =>
    exact ⟨d, Nat.le_refl d, (climbs_expression he n d).append (climbs_plain rfl rfl)⟩
  | @ifThen c s hc hs ih =>
    obtain ⟨d', hd, hbody⟩ := ih (n + 1 + c.branches) d
    exact ⟨d', hd, climbs_conditional (climbs_expression hc (n + 1) d) hbody (climbs_nil d') hd
      (Nat.le_refl d')⟩
  | @ifElse c s t hc hs ht ihs iht =>
    obtain ⟨d', hd, hbody⟩ := ihs (n + 1 + c.branches) d
    obtain ⟨d'', hd', hother⟩ := iht (n + 1 + c.branches + s.branches) d'
    exact ⟨d'', Nat.le_trans hd hd',
      climbs_conditional (climbs_expression hc (n + 1) d) hbody hother hd hd'⟩
  | program hss ih => exact climbs_lowerAll ih n d

end Tree

namespace Machine

variable {m : Machine} {s t : State} {i : Instruction}

/-- A step takes what the instruction takes, puts down what it puts down and leaves the rest. -/
theorem stack_of_step (h : m.step i s = .ok t) :
    i.pops ≤ s.stack.length ∧
      ∃ out, out.length = i.pushes ∧ t.stack = out ++ s.stack.drop i.pops := by
  cases executes_of_step h with
  | push x | load hx => exact ⟨Nat.zero_le _, [_], rfl, rfl⟩
  | store x hs | goOn l hs | branch l hs =>
    rw [hs]
    exact ⟨Nat.le_add_left 1 _, [], rfl, rfl⟩
  | unary op hs =>
    rw [hs]
    exact ⟨Nat.le_add_left 1 _, [_], rfl, rfl⟩
  | binary hs hz =>
    rw [hs]
    exact ⟨Nat.le_add_left 2 _, [_], rfl, rfl⟩
  | jump l | label l => exact ⟨Nat.zero_le _, [], rfl, rfl⟩

theorem length_of_step (h : m.step i s = .ok t) :
    t.stack.length = s.stack.length - i.pops + i.pushes := by
  obtain ⟨_, out, hout, hstack⟩ := stack_of_step h
  rw [hstack, List.length_append, List.length_drop, hout, Nat.add_comm]

/-- A step whatever the operands and the variables hold, so that a conditional jump may go either
way. -/
def MayStep (m : Machine) (s t : State) : Prop :=
  ∃ (i : Instruction) (stack : List Float) (store : Store), m.code[s.pc]? = some i ∧
    stack.length = s.stack.length ∧ m.step i ⟨s.pc, stack, store⟩ = .ok t

/-- Any way through the code. -/
abbrev Path (m : Machine) : State → State → Prop := Relation.ReflTransGen m.MayStep

theorem mayStep_of_step (hi : m.code[s.pc]? = some i) (ht : m.step i s = .ok t) : m.MayStep s t :=
  ⟨i, s.stack, s.store, hi, rfl, ht⟩

theorem path_of_mem_visited {n : Nat} (h : t ∈ m.visited n s) : m.Path s t := by
  induction n generalizing s with
  | zero => simp [visited_zero] at h
  | succ n ih =>
    cases hi : m.code[s.pc]? with
    | none => simp [visited_halted hi] at h
    | some i =>
      cases hu : m.step i s with
      | error fault =>
        rw [visited_of_step_error hi hu, List.mem_singleton] at h
        rw [h]
      | ok u =>
        rw [visited_of_step_ok hi hu, List.mem_cons] at h
        rcases h with rfl | h
        · exact .refl
        · exact .head (mayStep_of_step hi hu) (ih h)

section Height

variable {is : List Instruction} {d : Nat}

theorem MayStep.length_le (hm : m.Resolved) (hcode : m.code = is.toArray)
    (hc : Code.Climbs 0 d is) (h : m.MayStep s t)
    (hs : s.stack.length ≤ Code.height 0 is s.pc) :
    t.stack.length ≤ Code.height 0 is t.pc := by
  obtain ⟨i, stack, store, hi, hlength, hstep⟩ := h
  have hget : is[s.pc]? = some i := by rwa [hcode, List.getElem?_toArray] at hi
  have hafter : t.stack.length ≤ Code.height 0 is (s.pc + 1) := by
    rw [Code.height_succ 0 hget, length_of_step hstep, hlength]
    omega
  -- Straight on, that is the height itself; a jump leads to where the pass is no lower.
  rcases pc_of_step hstep with hnext | ⟨l, hl, hjump⟩
  · rwa [hnext]
  · obtain ⟨q, hq, hle⟩ := hc.rises s.pc i l hget hl
    have htarget : m.target l = q := by
      apply hm
      rw [hcode, List.getElem?_toArray, hq]
    rw [hjump, htarget]
    exact Nat.le_trans hafter hle

/-- On no path is the stack higher than the pass is at the same address. -/
theorem Path.length_le (hm : m.Resolved) (hcode : m.code = is.toArray)
    (hc : Code.Climbs 0 d is) (h : m.Path .start t) :
    t.stack.length ≤ Code.height 0 is t.pc := by
  induction h with
  | refl => exact Nat.zero_le _
  | tail _ hstep ih => exact hstep.length_le hm hcode hc ih

theorem Path.length_le_deepest (hm : m.Resolved) (hcode : m.code = is.toArray)
    (hc : Code.Climbs 0 d is) (h : m.Path .start t) : t.stack.length ≤ Code.deepest 0 is :=
  Nat.le_trans (h.length_le hm hcode hc) (Code.height_le_deepest 0 t.pc)

end Height

end Machine

end StackLang
