import StackLang.Proofs.Labels

namespace StackLang

namespace Tree

/-- How many operands the evaluation of an expression holds at once. -/
def need : Tree → Nat
  | unary _ e => e.need
  | binary _ l r => max l.need (1 + r.need)
  | _ => 1

theorem need_pos (e : Tree) : 0 < e.need := by
  induction e with
  | unary op e ih => exact ih
  | binary op l r ihl ihr =>
    simp only [need]
    omega
  | _ => exact Nat.one_pos

end Tree

namespace Code

/-- A pass ends no lower than where it starts. -/
theorem le_of_deepest?_eq_ok {is : List Instruction} {d r : Nat} (h : deepest? d is = .ok r) :
    d ≤ r := by
  cases is with
  | nil =>
    cases h
    exact Nat.le_refl d
  | cons i is =>
    rw [deepest?] at h
    split at h
    · cases h
    · cases hd : deepest? (d - i.pops + i.pushes) is with
      | error u =>
        rw [hd] at h
        cases h
      | ok r' =>
        rw [hd] at h
        cases h
        exact Nat.le_max_left d r'

/-- Compiled code has the instructions of its statements and the stack of a pass over them. -/
theorem of_compile_eq_ok {ss : List Tree} {code : Code} (h : compile ss = .ok code) :
    code.instructions = Tree.lowerAll 0 ss ∧
      deepest? 0 (Tree.lowerAll 0 ss) = .ok code.maxStack := by
  rw [compile] at h
  cases hd : deepest? 0 (Tree.lowerAll 0 ss) with
  | error u =>
    simp only [hd] at h
    cases h
  | ok r =>
    simp only [hd] at h
    cases h
    exact ⟨rfl, rfl⟩

/-- A pass over `is` that starts at `d` lacks no operands, leaves `d'` values and holds `w` of
them on the way, whatever comes after. -/
def Passes (is : List Instruction) (d d' w : Nat) : Prop :=
  ∀ rest, deepest? d (is ++ rest) = (deepest? d' rest).map (max w)

theorem passes_nil (d : Nat) : Passes [] d d d := by
  intro rest
  cases hd : deepest? d rest with
  | error u => rw [List.nil_append, hd]; rfl
  | ok r =>
    have hr := le_of_deepest?_eq_ok hd
    rw [List.nil_append, hd, Except.map, Nat.max_eq_right hr]

theorem passes_singleton {i : Instruction} {d : Nat} (h : i.pops ≤ d) :
    Passes [i] d (d - i.pops + i.pushes) d := by
  intro rest
  rw [List.singleton_append, deepest?, if_neg (by omega)]

theorem Passes.append {is js : List Instruction} {d d' d'' w v : Nat} (hi : Passes is d d' w)
    (hj : Passes js d' d'' v) : Passes (is ++ js) d d'' (max w v) := by
  intro rest
  rw [List.append_assoc, hi, hj]
  cases deepest? d'' rest with
  | error u => rfl
  | ok r => simp only [Except.map, Nat.max_assoc]

/-- The height on the way only counts where it is above the end. -/
theorem Passes.congr {is : List Instruction} {d d' w v : Nat} (h : Passes is d d' w)
    (hv : max w d' = max v d') : Passes is d d' v := by
  intro rest
  rw [h]
  cases hd : deepest? d' rest with
  | error u => rfl
  | ok r =>
    have hr := le_of_deepest?_eq_ok hd
    have hmax : max w r = max v r := by omega
    simp only [Except.map, hmax]

theorem Passes.deepest? {is : List Instruction} {d d' w : Nat} (h : Passes is d d' w) :
    deepest? d is = .ok (max w d') := by
  have hnil := h []
  rwa [List.append_nil] at hnil

/-- A straight pass goes through both branches of a conditional, one after the other. -/
theorem passes_conditional {onFalse onEnd : String} {cond body other : List Instruction}
    {d d' d'' w v u : Nat} (hc : Passes cond d (d + 1) w) (hs : Passes body d d' v)
    (ht : Passes other d' d'' u) :
    Passes (conditional onFalse onEnd cond body other) d d''
      (max w (max (d + 1) (max v (max d' (max d' (max u d'')))))) := by
  have htest := passes_singleton (i := .jumpIfFalse onFalse) (d := d + 1)
    (by simp [Instruction.pops])
  have hskip := passes_singleton (i := .jump onEnd) (Nat.zero_le d')
  have hfalse := passes_singleton (i := .label onFalse) (Nat.zero_le d')
  have hend := passes_singleton (i := .label onEnd) (Nat.zero_le d'')
  exact hc.append (htest.append (hs.append (hskip.append (hfalse.append (ht.append hend)))))

end Code

namespace Tree

open Code

theorem passes_expression {e : Tree} (he : e.IsExpression) (n d : Nat) :
    Passes (e.lower n) d (d + 1) (d + e.need) := by
  induction he generalizing n d with
  | number x | var x | boolean b =>
    refine (passes_singleton (Nat.zero_le d)).congr ?_
    simp only [need, Instruction.pops, Instruction.pushes]
    omega
  | @unary op e he ih =>
    have hop := passes_singleton (i := .unary op) (d := d + 1) (by simp [Instruction.pops])
    refine ((ih n d).append hop).congr ?_
    simp only [need, Instruction.pops, Instruction.pushes]
    omega
  | @binary op l r hl hr ihl ihr =>
    have hop := passes_singleton (i := .binary op) (d := d + 1 + 1) (by simp [Instruction.pops])
    have hneed := r.need_pos
    refine (((ihl n d).append (ihr (n + l.branches) (d + 1))).append hop).congr ?_
    simp only [need, Instruction.pops, Instruction.pushes]
    omega

theorem passes_lowerAll {ss : List Tree}
    (h : ∀ s ∈ ss, ∀ n d, ∃ d' w, d ≤ d' ∧ Passes (s.lower n) d d' w) (n d : Nat) :
    ∃ d' w, d ≤ d' ∧ Passes (lowerAll n ss) d d' w := by
  induction ss generalizing n d with
  | nil => exact ⟨d, d, Nat.le_refl d, passes_nil d⟩
  | cons s ss ih =>
    obtain ⟨d', w, hd, hs⟩ := h s (by simp) n d
    obtain ⟨d'', v, hd', hss⟩ := ih (fun u hu => h u (by simp [hu])) (n + s.branches) d'
    exact ⟨d'', _, Nat.le_trans hd hd', hs.append hss⟩

/-- A pass over a statement takes nothing from the stack that was there before it. -/
theorem passes_statement {s : Tree} (hs : s.IsStatement) (n d : Nat) :
    ∃ d' w, d ≤ d' ∧ Passes (s.lower n) d d' w := by
  induction hs generalizing n d with
  | expression he => exact ⟨d + 1, _, by omega, passes_expression he n d⟩
  | assign x he =>
    have hop := passes_singleton (i := .store x) (d := d + 1) (by simp [Instruction.pops])
    exact ⟨d, _, Nat.le_refl d, (passes_expression he n d).append hop⟩
  | @ifThen c s hc hs ih =>
    obtain ⟨d', w, hd, hbody⟩ := ih (n + 1 + c.branches) d
    exact ⟨d', _, hd, passes_conditional (passes_expression hc (n + 1) d) hbody (passes_nil d')⟩
  | @ifElse c s t hc hs ht ihs iht =>
    obtain ⟨d', w, hd, hbody⟩ := ihs (n + 1 + c.branches) d
    obtain ⟨d'', v, hd', hother⟩ := iht (n + 1 + c.branches + s.branches) d'
    exact ⟨d'', _, Nat.le_trans hd hd',
      passes_conditional (passes_expression hc (n + 1) d) hbody hother⟩
  | program hss ih => exact passes_lowerAll ih n d

/-- Statements always compile. -/
theorem compile_statements {ss : List Tree} (hs : ∀ s ∈ ss, s.IsStatement) :
    ∃ code, Code.compile ss = .ok code ∧ code.instructions = lowerAll 0 ss := by
  obtain ⟨d', w, _, hp⟩ := passes_lowerAll (fun s h => passes_statement (hs s h)) 0 0
  refine ⟨⟨lowerAll 0 ss, max w d'⟩, ?_, rfl⟩
  simp only [Code.compile, hp.deepest?, Except.map]

end Tree

end StackLang
