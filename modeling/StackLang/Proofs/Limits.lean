import StackLang.Code.Lowering
import StackLang.Proofs.ErrorIsolation
import StackLang.Proofs.Levels
import StackLang.Proofs.StoreChanges

namespace StackLang

namespace Tree

variable {lenient : Bool}

theorem reachAll_eq {ss : List Tree} {store store' : Store}
    (h : ∀ s ∈ ss, s.branches = 0 → ∀ store store', s.effect lenient store = .ok store' →
      s.reach lenient store = s.levels)
    (hbranches : branchesAll ss = 0) (heffect : effects lenient store ss = .ok store') :
    reachAll lenient store ss = mostLevels ss := by
  induction ss generalizing store with
  | nil => rfl
  | cons s ss ih =>
    rw [branchesAll, Nat.add_eq_zero_iff] at hbranches
    rw [effects] at heffect
    cases hs : s.effect lenient store with
    | error e =>
      rw [hs] at heffect
      cases heffect
    | ok next =>
      rw [hs] at heffect
      have hfirst := h s List.mem_cons_self hbranches.1 store next hs
      have hrest := ih (fun u hu => h u (List.mem_cons_of_mem s hu)) hbranches.2 heffect
      rw [reachAll, hs, reachThen, hfirst, hrest, mostLevels]

/-- A statement that succeeds reaches all its levels if no branch of it is left out. -/
theorem reach_eq {t : Tree} {store store' : Store} (hbranches : t.branches = 0)
    (heffect : t.effect lenient store = .ok store') : t.reach lenient store = t.levels := by
  induction t generalizing store store' with
  | number x | var x | boolean b | unary op e | binary op l r | assign x e =>
    simp only [effect] at heffect
    cases hv : meaning lenient store _ with
    | ok v => exact congrArg Nat.succ (valueReach_eq hv)
    | error err =>
      rw [hv] at heffect
      cases heffect
  | ifThen c s =>
    rw [branches] at hbranches
    omega
  | ifElse c s t =>
    rw [branches] at hbranches
    omega
  | program ss ih =>
    rw [branches] at hbranches
    rw [reach, levels, reachAll_eq (fun s hs h store store' => ih s hs h) hbranches heffect]

theorem mostLevels_le {ss : List Tree} {n : Nat} (h : ∀ s ∈ ss, s.levels ≤ n) :
    mostLevels ss ≤ n := by
  induction ss with
  | nil => exact Nat.zero_le n
  | cons s ss ih =>
    rw [List.forall_mem_cons] at h
    exact Nat.max_le.mpr ⟨h.1, ih h.2⟩

end Tree

namespace Evaluation

variable {α : Type}

/-- The depth limit is not what ended the evaluation. -/
def Settled (r : Except EvalError α) : Prop := ∀ d l, r ≠ .error (.tooDeep d l)

section Program

variable {o : EvalOptions} {ss : List Tree} {s : Session}

theorem settled_iff :
    Settled (answer (program o ss s)) ↔ Tree.reachAll o.lenient ∅ ss ≤ o.limit := by
  constructor
  · intro h
    by_contra hdeep
    apply h o.limit o.limit
    rw [answer_program, if_pos (Nat.lt_of_not_le hdeep)]
  · intro hreach d l h
    rw [answer_program, if_neg (Nat.not_lt.mpr hreach)] at h
    exact effects_uncut _ _ ss d l h

/-- Where nothing is cut off, the limit plays no part in the answer. -/
theorem answer_of_settled (h : Settled (answer (program o ss s))) :
    answer (program o ss s) = Tree.effects o.lenient ∅ ss := by
  rw [answer_program, if_neg (Nat.not_lt.mpr (settled_iff.mp h))]

theorem settled_of_levels (h : ∀ u ∈ ss, u.levels ≤ o.limit) :
    Settled (answer (program o ss s)) := by
  rw [settled_iff]
  calc Tree.reachAll o.lenient ∅ ss
    _ ≤ Tree.mostLevels ss := Tree.reachAll_le ∅ fun u _ store => Tree.reach_le store u
    _ ≤ o.limit := Tree.mostLevels_le h

/-- Without conditionals, a program that succeeds needs all the levels that it has. -/
theorem reachAll_of_ok {store : Store} (hbranches : Tree.branchesAll ss = 0)
    (hok : answer (program o ss s) = .ok store) :
    Tree.reachAll o.lenient ∅ ss = Tree.mostLevels ss := by
  have hsettled : Settled (answer (program o ss s)) := by
    intro d l h
    rw [hok] at h
    cases h
  rw [answer_of_settled hsettled] at hok
  exact Tree.reachAll_eq (fun u _ hu store store' => Tree.reach_eq hu) hbranches hok

end Program

/-- Under each policy, of the statements of a program: if a limit does not cut them off, a higher one
gives the same answer; a limit of as many levels as each of them has does not cut them off; and a
single statement without conditionals that succeeds under a limit of as many levels as it has is cut
off by every lower one. -/
theorem depth_limit_only_cuts (lenient : Bool) (s t : Session) :
    (∀ (ss : List Tree) (m m' : Nat), m ≤ m' → Settled (answer (program ⟨lenient, m⟩ ss s)) →
      answer (program ⟨lenient, m'⟩ ss t) = answer (program ⟨lenient, m⟩ ss s)) ∧
    (∀ (ss : List Tree) (m : Nat), (∀ u ∈ ss, u.levels ≤ m) →
      Settled (answer (program ⟨lenient, m⟩ ss s))) ∧
    ∀ (u : Tree) (store : Store), u.branches = 0 →
      answer (program ⟨lenient, u.levels⟩ [u] s) = .ok store →
      ∀ m, m < u.levels → answer (program ⟨lenient, m⟩ [u] t) = .error (.tooDeep m m) := by
  refine ⟨?_, ?_, ?_⟩
  · intro ss m m' hle hsettled
    -- What the statements reach does not depend on the limit, nor on the session.
    have hreach : Tree.reachAll lenient ∅ ss ≤ m := settled_iff.mp hsettled
    have hsettled' : Settled (answer (program ⟨lenient, m'⟩ ss t)) :=
      settled_iff.mpr (Nat.le_trans hreach hle)
    rw [answer_of_settled hsettled, answer_of_settled hsettled']
  · intro ss m hlevels
    exact settled_of_levels hlevels
  · intro u store hbranches hok m hm
    have hall : Tree.branchesAll [u] = 0 := by rw [Tree.branchesAll, Tree.branchesAll, hbranches]
    have hreach : Tree.reachAll lenient ∅ [u] = u.levels :=
      (reachAll_of_ok hall hok).trans (Nat.max_zero u.levels)
    rw [answer_program, if_pos (by rwa [hreach])]

/-- Three statements of which the second has a branch that is never taken and would fail. -/
def steppedStatements : List Tree :=
  [.assign "x" (.unary .neg (.number 4)),
    .ifElse (.binary .lt (.var "x") (.number 0)) (.program [.assign "y" (.var "x"), .var "y"])
      (.assign "y" (.unary .not (.unary .not (.unary .not (.number 0))))),
    .assign "z" (.binary .div (.number 1) (.number 0))]

-- The untaken branch is counted among the levels, so the limit 4 is enough where 6 are counted. With
-- the limit 3 the second statement is cut off, with higher ones the third one fails by itself.
theorem steppedStatements_only_cut :
    Tree.mostLevels steppedStatements = 6 ∧
    (answer (program ⟨false, 3⟩ steppedStatements .start)).map (·.size) = .error (.tooDeep 3 3) ∧
    (answer (program ⟨false, 4⟩ steppedStatements .start)).map (·.size) = .error .divisionByZero ∧
    answer (program ⟨false, 9⟩ steppedStatements .start) =
      answer (program ⟨false, 4⟩ steppedStatements .start) ∧
    Settled (answer (program ⟨false, 6⟩ steppedStatements .start)) ∧
    answer (program ⟨false, 2⟩ [.assign "x" (.unary .neg (.number 4))] .start) =
      .error (.tooDeep 2 2) := by
  have hcut : (answer (program ⟨false, 3⟩ steppedStatements .start)).map (·.size) =
      .error (.tooDeep 3 3) := by decide +kernel
  have hfails : (answer (program ⟨false, 4⟩ steppedStatements .start)).map (·.size) =
      .error .divisionByZero := by decide +kernel
  have hlevels : ∀ u ∈ steppedStatements, u.levels ≤ 6 := by decide
  have hworks : (answer (program ⟨false, 3⟩ [.assign "x" (.unary .neg (.number 4))] .start)).map
      (·.size) = .ok 1 := by decide +kernel
  obtain ⟨hraise, henough, hneeded⟩ := depth_limit_only_cuts false .start .start
  refine ⟨by decide, hcut, hfails, hraise _ 4 9 (by decide) ?_, henough _ 6 hlevels, ?_⟩
  · intro d l h
    rw [h] at hfails
    cases hfails
  · have hbelow := hneeded (.assign "x" (.unary .neg (.number 4)))
    generalize hr : answer (program ⟨false, 3⟩ [.assign "x" (.unary .neg (.number 4))] .start) = r
      at hworks
    cases r with
    | error e => cases hworks
    | ok store => exact hbelow store rfl hr 2 (by decide)

end Evaluation

/-- The nesting limit cut no statement off. -/
def Outcome.Settled (o : Outcome) : Prop := ∀ e ∈ o.errors, ∀ n, e.cause ≠ .tooDeep n

/-- If a nesting limit cuts no statement off, a higher one gives the same outcome for the same
tokens: the same statements, and the same errors at the same places. -/
theorem nesting_limit_only_cuts (tokens : List Token) {limit limit' : Nat} (hle : limit ≤ limit')
    (hsettled : (parse limit tokens).Settled) : parse limit' tokens = parse limit tokens := by
  -- The two runs stand before the same tokens, and the second one may open more levels.
  have hstart : Cursor.Parted ⟨0, [], limit' - limit⟩ (.ofTokens limit tokens)
      (.ofTokens limit' tokens) := by
    refine ⟨⟨?_, rfl, .inl rfl, rfl, ?_, fun _ => rfl⟩, .inl rfl⟩
    · exact (List.append_nil _).symm
    · exact (Nat.add_sub_cancel' hle).symm
  have hsame := hstart.statements_shift rfl (.inr hsettled)
  rwa [Outcome.shift_zero] at hsame

/-- The tokens of `x = (-1); y = ; if (x) z = 2`: two levels, and a fault after them. -/
def nestedTokens : List Token :=
  placed 0 [(.identifier, "x"), (.assign, "="), (.lparen, "("), (.sign .minus, "-"), (.number, "1"),
    (.rparen, ")"), (.semicolon, ";"), (.identifier, "y"), (.assign, "="), (.semicolon, ";"),
    (.ifWord, "if"), (.lparen, "("), (.identifier, "x"), (.rparen, ")"), (.identifier, "z"),
    (.assign, "="), (.number, "2")]

-- The limit 1 cuts the first statement off. The limit 2 reports the fault of the second one only,
-- and so does every higher one.
theorem nestedTokens_only_cut :
    ¬ (parse 1 nestedTokens).Settled ∧
      (parse 2 nestedTokens).errors.map (·.cause) = [.unexpectedToken .expression "';'"] ∧
      (parse 2 nestedTokens).Settled ∧ parse 9 nestedTokens = parse 2 nestedTokens := by
  have hcut : ∃ e ∈ (parse 1 nestedTokens).errors, e.cause = .tooDeep 1 := by decide +kernel
  have hfault : (parse 2 nestedTokens).errors.map (·.cause) =
      [.unexpectedToken .expression "';'"] := by decide +kernel
  have hsettled : (parse 2 nestedTokens).Settled := by
    intro e he n hn
    have hmem := List.mem_map_of_mem (f := (·.cause)) he
    rw [hfault, List.mem_singleton, hn] at hmem
    cases hmem
  refine ⟨?_, hfault, hsettled, nesting_limit_only_cuts _ (by decide) hsettled⟩
  intro h
  obtain ⟨e, he, hdeep⟩ := hcut
  exact h e he 1 hdeep

end StackLang
