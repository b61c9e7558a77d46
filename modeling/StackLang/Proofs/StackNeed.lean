import StackLang.Proofs.StackHeight

namespace StackLang

namespace Tree

/-- The statements that leave nothing on the stack: no expression stands in the place of one. -/
inductive IsAction : Tree → Prop where
  | assign (x : String) {e : Tree} : IsExpression e → IsAction (.assign x e)
  | ifThen {c s : Tree} : IsExpression c → IsAction s → IsAction (.ifThen c s)
  | ifElse {c s t : Tree} :
    IsExpression c → IsAction s → IsAction t → IsAction (.ifElse c s t)
  | program {ss : List Tree} : (∀ s ∈ ss, IsAction s) → IsAction (.program ss)

theorem IsAction.isStatement {s : Tree} (h : s.IsAction) : s.IsStatement := by
  induction h with
  | assign x he => exact .assign x he
  | ifThen hc _ ih => exact .ifThen hc ih
  | ifElse hc _ _ ihs iht => exact .ifElse hc ihs iht
  | program _ ih => exact .program ih

mutual

/-- The expressions of a statement: what it assigns and what its conditions are. -/
def expressions : Tree → List Tree
  | assign _ e => [e]
  | ifThen c s => c :: s.expressions
  | ifElse c s t => c :: (s.expressions ++ t.expressions)
  | program ss => expressionsAll ss
  | e => [e]

def expressionsAll : List Tree → List Tree
  | [] => []
  | s :: ss => s.expressions ++ expressionsAll ss

end

/-- How many operands the most demanding of some expressions holds at once. -/
def mostNeed : List Tree → Nat
  | [] => 0
  | e :: es => max e.need (mostNeed es)

theorem mostNeed_append (es fs : List Tree) :
    mostNeed (es ++ fs) = max (mostNeed es) (mostNeed fs) := by
  induction es with
  | nil => exact (Nat.zero_max _).symm
  | cons e es ih => rw [List.cons_append, mostNeed, mostNeed, ih, Nat.max_assoc]

end Tree

namespace Code

/-- A pass that lacks no operands is as deep as one that does not look for them. -/
theorem deepest_of_deepest? {is : List Instruction} {d r : Nat} (h : deepest? d is = .ok r) :
    deepest d is = r := by
  induction is generalizing d r with
  | nil =>
    cases h
    rfl
  | cons i is ih =>
    rw [deepest?] at h
    split at h
    · cases h
    · cases hd : deepest? (d - i.pops + i.pushes) is with
      | error u =>
        rw [hd] at h
        cases h
      | ok r' =>
        rw [hd] at h
        cases h
        rw [deepest, ih hd]

/-- The stack size of compiled code is that of a straight pass, taken with or without a look for
missing operands. -/
theorem maxStack_of_compile {ss : List Tree} {code : Code} (h : compile ss = .ok code) :
    deepest? 0 (Tree.lowerAll 0 ss) = .ok code.maxStack ∧
      deepest 0 (Tree.lowerAll 0 ss) = code.maxStack := by
  obtain ⟨-, hd⟩ := of_compile_eq_ok h
  exact ⟨hd, deepest_of_deepest? hd⟩

end Code

namespace Tree

open Code

theorem passes_actions {ss : List Tree}
    (h : ∀ s ∈ ss, ∀ n d, Passes (s.lower n) d d (d + mostNeed s.expressions)) (n d : Nat) :
    Passes (lowerAll n ss) d d (d + mostNeed (expressionsAll ss)) := by
  induction ss generalizing n with
  | nil => exact passes_nil d
  | cons s ss ih =>
    have hs := h s (by simp) n d
    have hss := ih (fun u hu => h u (by simp [hu])) (n + s.branches)
    refine (hs.append hss).congr ?_
    rw [expressionsAll, mostNeed_append]
    omega

/-- A pass over a statement that leaves nothing holds what its most demanding expression does. -/
theorem passes_action {s : Tree} (hs : s.IsAction) (n d : Nat) :
    Passes (s.lower n) d d (d + mostNeed s.expressions) := by
  induction hs generalizing n d with
  | @assign x e he =>
    have hop := passes_singleton (i := .store x) (d := d + 1) (by simp [Instruction.pops])
    have hneed := e.need_pos
    refine ((passes_expression he n d).append hop).congr ?_
    simp only [expressions, mostNeed]
    omega
  | @ifThen c s hc hs ih =>
    have hbody := ih (n + 1 + c.branches) d
    have hneed := c.need_pos
    refine (passes_conditional (passes_expression hc (n + 1) d) hbody (passes_nil d)).congr ?_
    simp only [expressions, mostNeed]
    omega
  | @ifElse c s t hc hs ht ihs iht =>
    have hbody := ihs (n + 1 + c.branches) d
    have hother := iht (n + 1 + c.branches + s.branches) d
    have hneed := c.need_pos
    refine (passes_conditional (passes_expression hc (n + 1) d) hbody hother).congr ?_
    simp only [expressions, mostNeed, mostNeed_append]
    omega
  | program hss ih => exact passes_actions ih n d

end Tree

namespace Machine

variable {m : Machine} {s : State} {i : Instruction}

/-- The instructions `is` at `pc` take `d` operands to `d'` in a straight pass, and from any state
before them that has `d` operands there is a path to each of their addresses on which the stack is
as high there as the pass is. -/
structure Covers (m : Machine) (pc d d' : Nat) (is : List Instruction) : Prop where
  ends : Code.height d is is.length = d'
  paths : ∀ s : State, s.pc = pc → s.stack.length = d → ∀ a, a ≤ is.length →
    ∃ t, m.Path s t ∧ t.pc = pc + a ∧ t.stack.length = Code.height d is a

section Covers

variable {is js : List Instruction} {pc d d' d'' : Nat}

/-- With ones for operands and a store that has the variable, only a jump does not go on. -/
theorem exists_step_next (m : Machine) {k : Nat} (hops : i.pops ≤ k) (hi : ∀ l, i ≠ .jump l)
    (pc : Nat) :
    ∃ store t, m.step i ⟨pc, List.replicate k 1, store⟩ = .ok t ∧ t.pc = pc + 1 := by
  cases i with
  | push x | label l => exact ⟨∅, _, rfl, rfl⟩
  | load x =>
    let store : Store := (∅ : Store).insert x 1
    refine ⟨store, ⟨pc + 1, 1 :: List.replicate k 1, store⟩, ?_, rfl⟩
    simp only [step, store, Std.ExtTreeMap.getElem?_insert_self]
    rfl
  | store x | unary op =>
    obtain ⟨k, rfl⟩ := Nat.exists_eq_add_of_le' hops
    exact ⟨∅, _, rfl, rfl⟩
  | binary op =>
    obtain ⟨k, rfl⟩ := Nat.exists_eq_add_of_le' hops
    -- Only a division by zero has no value.
    obtain ⟨z, hz⟩ : ∃ z, op.eval? 1 1 = some z := by
      cases op <;> exact ⟨_, rfl⟩
    refine ⟨∅, ⟨pc + 1, z :: List.replicate k 1, ∅⟩, ?_, rfl⟩
    simp only [Instruction.pops, List.replicate_succ, step, hz]
    rfl
  | jump l => exact absurd rfl (hi l)
  | jumpIfFalse l =>
    obtain ⟨k, rfl⟩ := Nat.exists_eq_add_of_le' hops
    have htrue : Number.isTrue 1 = true := by decide +kernel
    refine ⟨∅, ⟨pc + 1, List.replicate k 1, ∅⟩, ?_, rfl⟩
    simp only [Instruction.pops, List.replicate_succ, step, htrue]
    rfl

theorem mayStep_next (hi : m.code[s.pc]? = some i) (hops : i.pops ≤ s.stack.length)
    (hjump : ∀ l, i ≠ .jump l) :
    ∃ t, m.MayStep s t ∧ t.pc = s.pc + 1 ∧
      t.stack.length = s.stack.length - i.pops + i.pushes := by
  obtain ⟨store, t, hstep, hpc⟩ := exists_step_next m hops hjump s.pc
  have hlength := length_of_step hstep
  rw [List.length_replicate] at hlength
  exact ⟨t, ⟨i, _, store, hi, List.length_replicate, hstep⟩, hpc, hlength⟩

theorem mayStep_false {l : String} (hi : m.code[s.pc]? = some (.jumpIfFalse l))
    (hs : s.stack.length = d + 1) :
    ∃ t, m.MayStep s t ∧ t.pc = m.target l ∧ t.stack.length = d := by
  have hfalse : Number.isTrue 0 = false := by decide +kernel
  refine ⟨⟨m.target l, List.replicate d 0, ∅⟩, ⟨_, List.replicate (d + 1) 0, ∅, hi, ?_, ?_⟩, rfl,
    List.length_replicate⟩
  · rw [List.length_replicate, hs]
  · simp only [List.replicate_succ, step, hfalse]
    rfl

theorem covers_nil (m : Machine) (pc d : Nat) : m.Covers pc d d [] where
  ends := rfl
  paths := by
    intro s hpc hs a ha
    obtain rfl : a = 0 := Nat.le_zero.mp ha
    exact ⟨s, .refl, hpc, hs⟩

theorem Covers.cons (h : m.Covers (pc + 1) d' d'' is) (hi : m.code[pc]? = some i)
    (hops : i.pops ≤ d) (hjump : ∀ l, i ≠ .jump l) (hd : d - i.pops + i.pushes = d') :
    m.Covers pc d d'' (i :: is) := by
  subst hd
  refine ⟨h.ends, fun s hpc hs a ha => ?_⟩
  cases a with
  | zero => exact ⟨s, .refl, hpc, hs⟩
  | succ a =>
    subst hpc hs
    obtain ⟨u, hstep, hupc, hu⟩ := mayStep_next hi hops hjump
    obtain ⟨t, hpath, htpc, ht⟩ := h.paths u hupc hu a (Nat.le_of_succ_le_succ ha)
    exact ⟨t, .head hstep hpath, by omega, ht⟩

theorem Covers.append (hi : m.Covers pc d d' is) (hj : m.Covers (pc + is.length) d' d'' js) :
    m.Covers pc d d'' (is ++ js) where
  ends := by rw [List.length_append, Code.height_append_right, hi.ends, hj.ends]
  paths := by
    intro s hpc hs a ha
    rw [List.length_append] at ha
    rcases Nat.le_total a is.length with hle | hge
    · rw [Code.height_append_left d hle]
      exact hi.paths s hpc hs a hle
    · obtain ⟨k, rfl⟩ := Nat.exists_eq_add_of_le hge
      obtain ⟨u, hsu, hupc, hu⟩ := hi.paths s hpc hs is.length (Nat.le_refl _)
      rw [hi.ends] at hu
      obtain ⟨t, hut, htpc, ht⟩ := hj.paths u hupc hu k (by omega)
      rw [Code.height_append_right, hi.ends]
      exact ⟨t, hsu.trans hut, by omega, ht⟩

/-- An instruction that goes on to the next. -/
theorem covers_singleton (hi : m.code[pc]? = some i) (hops : i.pops ≤ d) (hjump : ∀ l, i ≠ .jump l)
    (hd : d - i.pops + i.pushes = d') : m.Covers pc d d' [i] :=
  (covers_nil m (pc + 1) d').cons hi hops hjump hd

/-- Where every height is reached, so is the highest. -/
theorem Covers.exists_path (h : m.Covers 0 0 d' is) :
    ∃ t, m.Path .start t ∧ t.stack.length = Code.deepest 0 is := by
  obtain ⟨a, ha, hheight⟩ := Code.exists_height_eq_deepest 0 is
  obtain ⟨t, hpath, _, ht⟩ := h.paths .start rfl rfl a ha
  exact ⟨t, hpath, ht.trans hheight⟩

/-- The code after a branch is reached past the branch, so the jump at its end need not be taken. -/
theorem Covers.skip {l l' : String} (hbody : m.Covers (pc + 1) d d is)
    (hrest : m.Covers (pc + 1 + is.length + 1) d d' js) (hi : m.code[pc]? = some (.jumpIfFalse l))
    (hl : m.target l = pc + 1 + is.length + 1) :
    m.Covers pc (d + 1) d' (.jumpIfFalse l :: (is ++ .jump l' :: js)) := by
  have hinner : m.Covers pc (d + 1) d (.jumpIfFalse l :: is) :=
    hbody.cons hi (Nat.le_add_left 1 d) (by simp) rfl
  have hheight (a : Nat) :
      Code.height (d + 1) (.jumpIfFalse l :: (is ++ .jump l' :: js)) (is.length + 1 + (a + 1)) =
        Code.height d js a :=
    calc Code.height (d + 1) ((.jumpIfFalse l :: is) ++ .jump l' :: js) (is.length + 1 + (a + 1))
      _ = Code.height (Code.height (d + 1) (.jumpIfFalse l :: is) (is.length + 1))
          (.jump l' :: js) (a + 1) := Code.height_append_right (d + 1) (a + 1)
      _ = Code.height d (.jump l' :: js) (a + 1) := by rw [← List.length_cons, hinner.ends]
      _ = Code.height d js a := rfl
  constructor
  · have hends := hheight js.length
    rw [hrest.ends] at hends
    rw [List.length_cons, List.length_append, List.length_cons, Nat.add_right_comm]
    exact hends
  · intro s hpc hs a ha
    -- The condition is false on the way past the branch, and true on the way into it.
    rcases Nat.lt_or_ge (is.length + 1) a with hlt | hle
    · obtain ⟨k, rfl⟩ := Nat.exists_eq_add_of_lt hlt
      subst hpc
      obtain ⟨u, hstep, hupc, hu⟩ := mayStep_false hi hs
      simp only [List.length_cons, List.length_append] at ha
      obtain ⟨t, hpath, htpc, ht⟩ := hrest.paths u (hupc.trans hl) hu k (by omega)
      exact ⟨t, .head hstep hpath, by omega, ht.trans (hheight k).symm⟩
    · rw [← List.cons_append, Code.height_append_left (d + 1) hle]
      exact hinner.paths s hpc hs a hle

theorem covers_conditional {onFalse onEnd : String} {cond body other : List Instruction}
    (hm : m.Resolved) (h : m.Holds pc (Code.conditional onFalse onEnd cond body other))
    (hc : m.Covers pc d (d + 1) cond) (hs : m.Covers (pc + cond.length + 1) d d body)
    (ht : m.Covers (pc + cond.length + 1 + body.length + 1 + 1) d d other) :
    m.Covers pc d d (Code.conditional onFalse onEnd cond body other) := by
  have hrest := h.right.tail.right.tail
  have hstop := covers_singleton hrest.tail.right.head (Nat.zero_le d) (by simp) rfl
  have helse := (ht.append hstop).cons hrest.head (Nat.zero_le d) (by simp) rfl
  exact hc.append (hs.skip helse h.right.head (hm _ _ hrest.head))

end Covers

end Machine

namespace Tree

open Machine

variable {m : Machine} {pc : Nat}

theorem covers_expression {e : Tree} (he : e.IsExpression) (n d : Nat)
    (h : m.Holds pc (e.lower n)) : m.Covers pc d (d + 1) (e.lower n) := by
  induction he generalizing n d pc with
  | number x | var x | boolean b =>
    exact covers_singleton h.head (Nat.zero_le d) (by simp) rfl
  | unary op he ih =>
    exact (ih n d h.left).append
      (covers_singleton h.right.head (Nat.le_add_left 1 d) (by simp) rfl)
  | binary op hl hr ihl ihr =>
    have hoperands := (ihl n d h.left.left).append (ihr _ (d + 1) h.left.right)
    exact hoperands.append (covers_singleton h.right.head (Nat.le_add_left 2 d) (by simp) rfl)

theorem covers_actions {ss : List Tree}
    (hs : ∀ s ∈ ss, ∀ pc n d, m.Holds pc (s.lower n) → m.Covers pc d d (s.lower n)) (n d : Nat)
    (h : m.Holds pc (lowerAll n ss)) : m.Covers pc d d (lowerAll n ss) := by
  induction ss generalizing pc n with
  | nil => exact covers_nil m pc d
  | cons s ss ih =>
    have hrest := ih (fun u hu => hs u (by simp [hu])) (n + s.branches) h.right
    exact (hs s (by simp) pc n d h.left).append hrest

/-- Every part of a statement that leaves nothing can be reached. -/
theorem covers_action (hm : m.Resolved) {s : Tree} (hs : s.IsAction) (n d : Nat)
    (h : m.Holds pc (s.lower n)) : m.Covers pc d d (s.lower n) := by
  induction hs generalizing pc n d with
  | assign x he =>
    exact (covers_expression he n d h.left).append
      (covers_singleton h.right.head (Nat.le_add_left 1 d) (by simp) rfl)
  | ifThen hc hs ih =>
    exact covers_conditional hm h (covers_expression hc _ d h.left)
      (ih _ d h.right.tail.left) (covers_nil m _ d)
  | ifElse hc hs ht ihs iht =>
    exact covers_conditional hm h (covers_expression hc _ d h.left)
      (ihs _ d h.right.tail.left) (iht _ d h.right.tail.right.tail.tail.left)
  | program hss ih => exact covers_actions (fun s hs _ n d => ih s hs n d) n d h

end Tree

/-- Statements compile to code that can be loaded, and its stack size is the one of a straight pass
over it. If no statement leaves a value behind, that size is what the most demanding expression
needs, and some path comes to it. On no path, and so in no run, is the stack ever higher. -/
theorem maxStack_is_need {ss : List Tree} (hs : ∀ s ∈ ss, s.IsStatement) :
    ∃ code m, Code.compile ss = .ok code ∧ Machine.load code.instructions = .ok m ∧
      code.maxStack = (Code.ofInstructions code.instructions).maxStack ∧
      ((∀ s ∈ ss, s.IsAction) → code.maxStack = Tree.mostNeed (Tree.expressionsAll ss) ∧
        ∃ t, m.Path .start t ∧ t.stack.length = code.maxStack) ∧
      (∀ t, m.Path .start t → t.stack.length ≤ code.maxStack) ∧
      ∀ n, ∀ s ∈ m.visited n .start, s.stack.length ≤ code.maxStack ∧
        ∀ i t, m.code[s.pc]? = some i → m.step i s = .ok t →
          t.stack.length ≤ code.maxStack := by
  obtain ⟨code, hcompile, his⟩ := Tree.compile_statements hs
  obtain ⟨m, hload, hcode, hm⟩ := Tree.load_lowerAll ss
  obtain ⟨hpass, hdeepest⟩ := Code.maxStack_of_compile hcompile
  have hpath {t : Machine.State} (h : m.Path .start t) : t.stack.length ≤ code.maxStack := by
    obtain ⟨d, _, hclimbs⟩ := Tree.climbs_lowerAll (fun s h => Tree.climbs_statement (hs s h)) 0 0
    rw [← hdeepest]
    exact h.length_le_deepest hm hcode hclimbs
  refine ⟨code, m, hcompile, ?_, ?_, ?_, fun t => hpath, ?_⟩
  · rw [his, hload]
  · rw [Code.ofInstructions, his, hdeepest]
  · intro hactions
    constructor
    · have hneed := (Tree.passes_actions (fun s h => Tree.passes_action (hactions s h)) 0 0).deepest?
      rw [hpass, Nat.zero_add, Nat.max_zero] at hneed
      exact Except.ok.inj hneed
    · -- Every address is reached at the height of the pass, so its highest point is too.
      have hholds : m.Holds 0 (Tree.lowerAll 0 ss) := by
        intro k i hk
        rw [hcode, Nat.zero_add, List.getElem?_toArray, hk]
      have hcovers := Tree.covers_actions (fun s h _ => Tree.covers_action hm (hactions s h)) 0 0
        hholds
      rw [← hdeepest]
      exact hcovers.exists_path
  · intro n s hmem
    have hvisited := Machine.path_of_mem_visited hmem
    exact ⟨hpath hvisited, fun i t hi ht => hpath (hvisited.tail (Machine.mayStep_of_step hi ht))⟩

/-- Branches that leave two values, one value or none, and then a division by zero. -/
def unevenStatements : List Tree :=
  [.ifElse (.boolean true) (.program [.number 1, .number 2]) (.number 3),
    .ifThen (.boolean false) (.number 4),
    .assign "x" (.binary .div (.number 1) (.number 0))]

/-- The most demanding expression stands in a branch that a run does not take. -/
def branchingActions : List Tree :=
  [.ifElse (.binary .lt (.number 1) (.number 2)) (.assign "x" (.unary .neg (.number 3)))
    (.ifThen (.boolean true) (.program [.assign "y"
      (.binary .add (.number 4) (.binary .mul (.number 5) (.binary .pow (.number 6) (.var "x"))))]))]

-- A straight pass goes through both branches, so the first size is above what any run needs.
theorem unevenStatements_fit_maxStack :
    (∃ code m, Code.compile unevenStatements = .ok code ∧
      Machine.load code.instructions = .ok m ∧ code.maxStack = 6 ∧
      ∀ s ∈ m.visited 30 .start, s.stack.length ≤ 6) ∧
    ∃ code m, Code.compile branchingActions = .ok code ∧
      Machine.load code.instructions = .ok m ∧ code.maxStack = 4 ∧
      (∃ t, m.Path .start t ∧ t.stack.length = 4) ∧
      ∀ s ∈ m.visited 30 .start, s.stack.length ≤ 4 := by
  constructor
  · have hs : ∀ s ∈ unevenStatements, s.IsStatement := by
      have hnumber (x : Float) : (Tree.number x).IsStatement := .expression (.number x)
      simp only [unevenStatements, List.forall_mem_cons]
      refine ⟨.ifElse (.boolean true) (.program ?_) (hnumber 3),
        .ifThen (.boolean false) (hnumber 4),
        .assign "x" (.binary .div (.number 1) (.number 0)), by simp⟩
      simp [hnumber]
    obtain ⟨code, m, hcompile, hload, _, _, _, hvisited⟩ := maxStack_is_need hs
    have hsize : (Code.compile unevenStatements).toOption.map Code.maxStack = some 6 := by
      decide +kernel
    rw [hcompile] at hsize
    have hsix : code.maxStack = 6 := Option.some.inj hsize
    exact ⟨code, m, hcompile, hload, hsix, fun s h => hsix ▸ (hvisited 30 s h).1⟩
  · have hinner : (Tree.program [.assign "y" (.binary .add (.number 4) (.binary .mul (.number 5)
        (.binary .pow (.number 6) (.var "x"))))]).IsAction := by
      refine .program ?_
      rw [List.forall_mem_singleton]
      exact .assign "y" (.binary .add (.number 4) (.binary .mul (.number 5)
        (.binary .pow (.number 6) (.var "x"))))
    have hactions : ∀ s ∈ branchingActions, s.IsAction := by
      rw [branchingActions, List.forall_mem_singleton]
      exact .ifElse (.binary .lt (.number 1) (.number 2)) (.assign "x" (.unary .neg (.number 3)))
        (.ifThen (.boolean true) hinner)
    obtain ⟨code, m, hcompile, hload, _, hneed, _, hvisited⟩ :=
      maxStack_is_need (fun s h => (hactions s h).isStatement)
    obtain ⟨hmax, hpath⟩ := hneed hactions
    have hfour : code.maxStack = 4 := hmax.trans (by decide +kernel)
    rw [hfour] at hpath
    exact ⟨code, m, hcompile, hload, hfour, hpath, fun s h => hfour ▸ (hvisited 30 s h).1⟩

end StackLang
