import StackLang.Proofs.ForwardRun

/-! Code that is emitted statement by statement. A generator writes all the code of a statement and
counts its labels on; only then a builder takes the instructions one by one, and keeps the depth of
the stack. Both go on from one statement to the next, so it does not matter how statements are
grouped into programs. -/
namespace StackLang

/-- What a generator has written, and the number that it gives to the next labels. -/
structure Draft where
  next : Nat
  out : List Instruction

def Draft.push (d : Draft) (i : Instruction) : Draft := { d with out := d.out ++ [i] }

namespace Tree

mutual

/-- Writes the code of a tree at the end of a draft. -/
def write (d : Draft) : Tree → Draft
  | number x => d.push (.push x)
  | var x => d.push (.load x)
  | boolean b => d.push (.push (Number.ofBool b))
  | unary op e => (e.write d).push (.unary op)
  | binary op l r => (r.write (l.write d)).push (.binary op)
  | assign x e => (e.write d).push (.store x)
  | ifThen c s =>
    let tested := (c.write { d with next := d.next + 1 }).push (.jumpIfFalse (elseLabel d.next))
    let taken := (s.write tested).push (.jump (endLabel d.next))
    (taken.push (.label (elseLabel d.next))).push (.label (endLabel d.next))
  | ifElse c s t =>
    let tested := (c.write { d with next := d.next + 1 }).push (.jumpIfFalse (elseLabel d.next))
    let taken := (s.write tested).push (.jump (endLabel d.next))
    (t.write (taken.push (.label (elseLabel d.next)))).push (.label (endLabel d.next))
  | program ss => writeAll d ss

def writeAll (d : Draft) : List Tree → Draft
  | [] => d
  | s :: ss => writeAll (s.write d) ss

end

/-- What one generator writes for each tree of a list. -/
def generateEach (n : Nat) : List Tree → List (List Instruction)
  | [] => []
  | s :: ss =>
    let d := s.write ⟨n, []⟩
    d.out :: generateEach d.next ss

theorem writeAll_eq {ss : List Tree}
    (h : ∀ s ∈ ss, ∀ d, s.write d = ⟨d.next + s.branches, d.out ++ s.lower d.next⟩) (d : Draft) :
    writeAll d ss = ⟨d.next + branchesAll ss, d.out ++ lowerAll d.next ss⟩ := by
  induction ss generalizing d with
  | nil => simp [writeAll, branchesAll, lowerAll]
  | cons s ss ih =>
    obtain ⟨hs, hss⟩ := List.forall_mem_cons.mp h
    rw [writeAll, hs d, ih hss, branchesAll, lowerAll]
    simp only [Nat.add_assoc, List.append_assoc]

/-- Whatever a generator has written and counted so far, it appends the code of the tree. -/
theorem write_eq (t : Tree) (d : Draft) :
    t.write d = ⟨d.next + t.branches, d.out ++ t.lower d.next⟩ := by
  induction t generalizing d with
  | number x => rfl
  | var x => rfl
  | boolean b => rfl
  | unary op e ih => simp [write, ih, Draft.push, branches, lower]
  | binary op l r ihl ihr => simp [write, ihl, ihr, Draft.push, branches, lower, Nat.add_assoc]
  | assign x e ih => simp [write, ih, Draft.push, branches, lower]
  | ifThen c s ihc ihs =>
    -- The `if` takes its number before its parts are written.
    have hnext : d.next + 1 + c.branches + s.branches =
        d.next + (c.branches + s.branches + 1) := by omega
    simp [write, ihc, ihs, Draft.push, branches, lower, hnext]
  | ifElse c s t ihc ihs iht =>
    have hnext : d.next + 1 + c.branches + s.branches + t.branches =
        d.next + (c.branches + s.branches + t.branches + 1) := by omega
    simp [write, ihc, ihs, iht, Draft.push, branches, lower, hnext]
  | program ss ih => exact writeAll_eq ih d

theorem generateEach_eq (n : Nat) (ss : List Tree) : generateEach n ss = lowerEach n ss := by
  induction ss generalizing n with
  | nil => rfl
  | cons s ss ih => rw [generateEach, lowerEach, write_eq, List.nil_append, ih]

/-- The statements as one tree. -/
def group : List Tree → Tree
  | [t] => t
  | ts => .program ts

mutual

/-- The statements of a tree, with those of its programs in their place. Programs are left only
where a form has other than one statement. -/
def spread : Tree → List Tree
  | number x => [.number x]
  | var x => [.var x]
  | boolean b => [.boolean b]
  | unary op e => [.unary op (group e.spread)]
  | binary op l r => [.binary op (group l.spread) (group r.spread)]
  | assign x e => [.assign x (group e.spread)]
  | ifThen c s => [.ifThen (group c.spread) (group s.spread)]
  | ifElse c s t => [.ifElse (group c.spread) (group s.spread) (group t.spread)]
  | program ss => spreadAll ss

def spreadAll : List Tree → List Tree
  | [] => []
  | s :: ss => s.spread ++ spreadAll ss

end

theorem writeAll_append (d : Draft) (ss ts : List Tree) :
    writeAll d (ss ++ ts) = writeAll (writeAll d ss) ts := by
  induction ss generalizing d with
  | nil => rfl
  | cons s ss ih => rw [List.cons_append, writeAll, ih, writeAll]

theorem write_group (d : Draft) (ts : List Tree) : (group ts).write d = writeAll d ts := by
  unfold group
  split
  · rfl
  · rw [write]

theorem writeAll_spreadAll {ss : List Tree} (h : ∀ s ∈ ss, ∀ d, writeAll d s.spread = s.write d)
    (d : Draft) : writeAll d (spreadAll ss) = writeAll d ss := by
  induction ss generalizing d with
  | nil => rfl
  | cons s ss ih =>
    obtain ⟨hs, hss⟩ := List.forall_mem_cons.mp h
    rw [spreadAll, writeAll_append, hs d, ih hss, writeAll]

/-- Programs leave no trace in what is written. -/
theorem writeAll_spread (t : Tree) (d : Draft) : writeAll d t.spread = t.write d := by
  induction t generalizing d with
  | number x => rfl
  | var x => rfl
  | boolean b => rfl
  | program ss ih => rw [spread, write, writeAll_spreadAll ih]
  | _ => simp only [spread, writeAll, write, write_group, *]

theorem mem_spreadAll {u : Tree} {ss : List Tree} :
    u ∈ spreadAll ss ↔ ∃ s ∈ ss, u ∈ s.spread := by
  induction ss with
  | nil => simp [spreadAll]
  | cons s ss ih => simp [spreadAll, ih]

theorem ne_program_of_mem_spread {t u : Tree} (h : u ∈ t.spread) (inner : List Tree) :
    u ≠ .program inner := by
  induction t with
  | program ss ih =>
    obtain ⟨s, hs, hu⟩ := mem_spreadAll.mp h
    exact ih s hs hu
  | _ =>
    obtain rfl := List.mem_singleton.mp h
    exact Tree.noConfusion

end Tree

/-- A compiler on its way. -/
structure Builder where
  /-- The number for the next labels. -/
  next : Nat
  instructions : List Instruction
  /-- The stack that a straight pass over the instructions leaves. -/
  depth : Nat
  deepest : Nat
  depth_le : depth ≤ deepest

namespace Builder

def start : Builder := ⟨0, [], 0, 0, Nat.le_refl 0⟩

def emit (b : Builder) (i : Instruction) : Except Underflow Builder :=
  if b.depth < i.pops then .error ⟨i.pops, b.depth⟩
  else
    let depth := b.depth - i.pops + i.pushes
    .ok ⟨b.next, b.instructions ++ [i], depth, max b.deepest depth, Nat.le_max_right _ _⟩

def renumber (n : Nat) (b : Builder) : Builder := { b with next := n }

@[simp]
theorem next_renumber (b : Builder) (n : Nat) : (b.renumber n).next = n := rfl

/-- Adds a statement. Its code is generated whole before the first instruction is emitted. -/
def add (b : Builder) (t : Tree) : Except Underflow Builder :=
  let d := t.write ⟨b.next, []⟩
  d.out.foldlM emit (b.renumber d.next)

def code (b : Builder) : Code := ⟨b.instructions, b.deepest⟩

/-- Compiles a tree that is added at once. -/
def compileOne (t : Tree) : Except Underflow Code := (start.add t).map code

/-- Compiles statements that are added one after the other. -/
def compileEach (ss : List Tree) : Except Underflow Code := (ss.foldlM add start).map code

section

variable {b : Builder} {i : Instruction}

theorem emit_of_lt (h : b.depth < i.pops) : b.emit i = .error ⟨i.pops, b.depth⟩ := if_pos h

theorem emit_of_not_lt (h : ¬ b.depth < i.pops) :
    b.emit i = .ok ⟨b.next, b.instructions ++ [i], b.depth - i.pops + i.pushes,
      max b.deepest (b.depth - i.pops + i.pushes), Nat.le_max_right _ _⟩ := if_neg h

end

/-- The code and the underflow of emitted instructions are those of a straight pass. -/
theorem foldlM_emit (is : List Instruction) (b : Builder) :
    (is.foldlM emit b).map code =
      (Code.deepest? b.depth is).map fun d => ⟨b.instructions ++ is, max b.deepest d⟩ := by
  induction is generalizing b with
  | nil =>
    have hmax : max b.deepest b.depth = b.deepest := Nat.max_eq_left b.depth_le
    simp only [Code.deepest?, Except.map, hmax, List.append_nil]
    rfl
  | cons i is ih =>
    rw [List.foldlM_cons, Code.deepest?]
    by_cases hpops : b.depth < i.pops
    · rw [emit_of_lt hpops, if_pos hpops]
      rfl
    · rw [emit_of_not_lt hpops, if_neg hpops]
      apply (ih _).trans
      cases hd : Code.deepest? (b.depth - i.pops + i.pushes) is with
      | error u => rfl
      | ok d =>
        -- Both sides take the maximum over the same depths, in another order.
        have hle := Code.le_of_deepest?_eq_ok hd
        have hdepth := b.depth_le
        have hmax : max (max b.deepest (b.depth - i.pops + i.pushes)) d =
            max b.deepest (max b.depth d) := by omega
        simp only [Except.map, hmax, List.append_assoc, List.singleton_append]

theorem emit_renumber (b : Builder) (n : Nat) (i : Instruction) :
    (b.renumber n).emit i = (b.emit i).map (renumber n) := by
  by_cases hpops : b.depth < i.pops
  · rw [emit_of_lt hpops]
    exact emit_of_lt (b := b.renumber n) hpops
  · rw [emit_of_not_lt hpops]
    exact emit_of_not_lt (b := b.renumber n) hpops

/-- What is emitted does not depend on the labels that come next. -/
theorem foldlM_emit_renumber (is : List Instruction) (b : Builder) (n : Nat) :
    is.foldlM emit (b.renumber n) = (is.foldlM emit b).map (renumber n) := by
  induction is generalizing b with
  | nil => rfl
  | cons i is ih =>
    rw [List.foldlM_cons, List.foldlM_cons, emit_renumber]
    cases b.emit i with
    | error u => rfl
    | ok c => exact ih c

theorem add_eq (b : Builder) (t : Tree) :
    b.add t = ((t.lower b.next).foldlM emit b).map (renumber (b.next + t.branches)) := by
  rw [add, Tree.write_eq, List.nil_append, foldlM_emit_renumber]

/-- Statements that are added one by one give the code that is generated for them all at once. -/
theorem foldlM_add (ss : List Tree) (b : Builder) :
    ss.foldlM add b = ((Tree.lowerAll b.next ss).foldlM emit b).map
      (renumber (b.next + Tree.branchesAll ss)) := by
  induction ss generalizing b with
  | nil => rfl
  | cons s ss ih =>
    rw [List.foldlM_cons, add_eq, Tree.lowerAll, List.foldlM_append, Tree.branchesAll,
      ← Nat.add_assoc]
    cases (s.lower b.next).foldlM emit b with
    | error u => rfl
    | ok c =>
      -- The rest is emitted after `c`, and its labels are numbered on from those of `s`.
      apply (ih (c.renumber (b.next + s.branches))).trans
      rw [foldlM_emit_renumber, next_renumber]
      change _ = ((Tree.lowerAll (b.next + s.branches) ss).foldlM emit c).map _
      cases (Tree.lowerAll (b.next + s.branches) ss).foldlM emit c <;> rfl

/-- A program is added as its statements are, from wherever the compiler has come to. -/
theorem add_program (b : Builder) (ss : List Tree) : b.add (.program ss) = ss.foldlM add b := by
  rw [add_eq, foldlM_add, Tree.lower, Tree.branches]

theorem foldlM_add_splice (b : Builder) (front inner back : List Tree) :
    (front ++ .program inner :: back).foldlM add b =
      (front ++ (inner ++ back)).foldlM add b := by
  simp only [List.foldlM_append, List.foldlM_cons, add_program]

theorem add_program_spreadAll (b : Builder) (ss : List Tree) :
    b.add (.program (Tree.spreadAll ss)) = b.add (.program ss) := by
  have hwrite (d : Draft) : (Tree.program (Tree.spreadAll ss)).write d = (Tree.program ss).write d :=
    Tree.writeAll_spread (.program ss) d
  rw [add, hwrite, add]

theorem compileEach_eq (ss : List Tree) : compileEach ss = Code.compile ss := by
  have hcode (n : Nat) (r : Except Underflow Builder) :
      (r.map (renumber n)).map code = r.map code := by
    cases r <;> rfl
  rw [compileEach, foldlM_add, hcode, foldlM_emit, Code.compile]
  simp only [start, List.nil_append, Nat.zero_max]

end Builder

namespace Code

theorem compileOne_program (ss : List Tree) : Builder.compileOne (.program ss) = compile ss := by
  calc Builder.compileOne (.program ss)
      = Builder.compileEach ss := by
        rw [Builder.compileOne, Builder.add_program, Builder.compileEach]
    _ = compile ss := Builder.compileEach_eq ss

theorem compile_splice (front inner back : List Tree) :
    compile (front ++ .program inner :: back) = compile (front ++ (inner ++ back)) := by
  calc compile (front ++ .program inner :: back)
      = Builder.compileEach (front ++ .program inner :: back) := (Builder.compileEach_eq _).symm
    _ = Builder.compileEach (front ++ (inner ++ back)) := by
        rw [Builder.compileEach, Builder.foldlM_add_splice, Builder.compileEach]
    _ = compile (front ++ (inner ++ back)) := Builder.compileEach_eq _

theorem compile_spreadAll (ss : List Tree) : compile (Tree.spreadAll ss) = compile ss := by
  calc compile (Tree.spreadAll ss)
      = Builder.compileOne (.program (Tree.spreadAll ss)) := (compileOne_program _).symm
    _ = Builder.compileOne (.program ss) := by
        rw [Builder.compileOne, Builder.add_program_spreadAll, Builder.compileOne]
    _ = compile ss := compileOne_program ss

end Code

/-- Programs are transparent. Statements that are added one by one, a program of them that is added
at once and the code of the whole list all come to the same code, or to the same underflow. So does
every list with the statements of a program in its place, at any depth and for all programs
together. The instructions are what one generator writes for the statements, one after the other. -/
theorem compile_regrouped (ss : List Tree) :
    Builder.compileEach ss = Code.compile ss ∧
    Builder.compileOne (.program ss) = Code.compile ss ∧
    Code.compile [.program ss] = Code.compile ss ∧
    (∀ front inner back, ss = front ++ .program inner :: back →
      Code.compile (front ++ (inner ++ back)) = Code.compile ss) ∧
    Code.compile (Tree.spreadAll ss) = Code.compile ss ∧
    (∀ t ∈ Tree.spreadAll ss, ∀ inner, t ≠ .program inner) ∧
    Tree.generateEach 0 ss = Tree.lowerEach 0 ss ∧
    ∀ code, Code.compile ss = .ok code →
      code.instructions = (Tree.generateEach 0 ss).flatten := by
  refine ⟨Builder.compileEach_eq ss, Code.compileOne_program ss, ?_, ?_,
    Code.compile_spreadAll ss, ?_, Tree.generateEach_eq 0 ss, ?_⟩
  · simpa using Code.compile_splice [] ss []
  · rintro front inner back rfl
    exact (Code.compile_splice front inner back).symm
  · intro t ht inner
    exact Tree.ne_program_of_mem_spread (t := .program ss) ht inner
  · intro code hcode
    rw [Tree.generateEach_eq, Tree.flatten_lowerEach, (Code.of_compile_eq_ok hcode).1]

/-- Programs in programs, in a branch and without statements. -/
def groupedBranches : List Tree :=
  [.program [.ifThen (.boolean true) (.program [.assign "x" (.number 1), .program [.number 2]]),
      .program [.program [], .ifThen (.var "x") (.assign "y" (.number 3))]],
    .ifThen (.var "y") (.program [.assign "z" (.number 4)])]

/-- A sum finds only the value that the first statement has left. -/
def groupedFault : List Tree :=
  [.number 1, .program [.ifThen (.boolean true) (.assign "x" (.number 2)),
      .program [.binary .add (.program []) (.assign "y" (.number 3))]], .number 4]

-- The sum is in a program of a program, and fails alike when it is a statement of its own.
theorem groupedBranches_compile_regrouped :
    (∃ code, Code.compile groupedBranches = .ok code ∧ code.maxStack = 2 ∧
      Code.compile (Tree.spreadAll groupedBranches) = .ok code ∧
      (Tree.spreadAll groupedBranches).length = 3 ∧
      code.instructions = (Tree.generateEach 0 groupedBranches).flatten) ∧
    Code.compile groupedFault = .error ⟨2, 1⟩ ∧
    Code.compile [.program groupedFault] = .error ⟨2, 1⟩ ∧
    Code.compile [.number 1, .ifThen (.boolean true) (.assign "x" (.number 2)),
      .program [.binary .add (.program []) (.assign "y" (.number 3))], .number 4] =
        .error ⟨2, 1⟩ := by
  constructor
  · obtain ⟨-, -, -, -, hspread, -, -, hcode⟩ := compile_regrouped groupedBranches
    obtain ⟨code, hok, hmax⟩ : ∃ code, Code.compile groupedBranches = .ok code ∧
        code.maxStack = 2 := ⟨_, rfl, rfl⟩
    exact ⟨code, hok, hmax, hspread.trans hok, rfl, hcode code hok⟩
  · obtain ⟨-, -, hprogram, hsplice, -⟩ := compile_regrouped groupedFault
    have hfails : Code.compile groupedFault = .error ⟨2, 1⟩ := by rfl
    exact ⟨hfails, hprogram.trans hfails, (hsplice [.number 1] _ [.number 4] rfl).trans hfails⟩

end StackLang
