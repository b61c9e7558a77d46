import StackLang.Proofs.Simulation

namespace StackLang

namespace Machine

variable {m : Machine} {s t : State} {i : Instruction}

/-- What an instruction does if it can be executed, one rule for each way. -/
inductive Executes (m : Machine) (s : State) : Instruction → State → Prop where
  | push (x : Float) : Executes m s (.push x) (s.next (x :: s.stack))
  | load {x : String} {v : Float} : s.store[x]? = some v →
    Executes m s (.load x) (s.next (v :: s.stack))
  | store (x : String) {v : Float} {rest : List Float} : s.stack = v :: rest →
    Executes m s (.store x) { s.next rest with store := s.store.insert x v }
  | unary (op : UnaryOp) {x : Float} {rest : List Float} : s.stack = x :: rest →
    Executes m s (.unary op) (s.next (op.eval x :: rest))
  | binary {op : BinaryOp} {x y z : Float} {rest : List Float} : s.stack = y :: x :: rest →
    op.eval? x y = some z → Executes m s (.binary op) (s.next (z :: rest))
  | jump (l : String) : Executes m s (.jump l) { s with pc := m.target l }
  | goOn (l : String) {v : Float} {rest : List Float} : s.stack = v :: rest →
    Number.isTrue v = true → Executes m s (.jumpIfFalse l) (s.next rest)
  | branch (l : String) {v : Float} {rest : List Float} : s.stack = v :: rest →
    Number.isTrue v = false →
    Executes m s (.jumpIfFalse l) { s with pc := m.target l, stack := rest }
  | label (l : String) : Executes m s (.label l) (s.next s.stack)

theorem executes_of_step (h : m.step i s = .ok t) : m.Executes s i t := by
  obtain ⟨pc, stack, store⟩ := s
  cases i with
  | push x =>
    cases h
    exact .push x
  | load x =>
    simp only [step] at h
    split at h
    · next hx =>
      cases h
      exact .load hx
    · cases h
  | store x =>
    cases stack with
    | nil => cases h
    | cons v rest =>
      cases h
      exact .store x rfl
  | unary op =>
    cases stack with
    | nil => cases h
    | cons v rest =>
      cases h
      exact .unary op rfl
  | binary op =>
    rcases stack with _ | ⟨y, _ | ⟨x, rest⟩⟩
    · cases h
    · cases h
    · simp only [step] at h
      split at h
      · next hz =>
        cases h
        exact .binary rfl hz
      · cases h
  | jump l =>
    cases h
    exact .jump l
  | jumpIfFalse l =>
    cases stack with
    | nil => cases h
    | cons v rest =>
      simp only [step] at h
      -- A conditional jump does one or the other.
      cases hv : Number.isTrue v with
      | true =>
        rw [hv] at h
        cases h
        exact .goOn l rfl hv
      | false =>
        rw [hv] at h
        cases h
        exact .branch l rfl hv
  | label l =>
    cases h
    exact .label l

/-- A step leads to the next instruction, or where the instruction jumps. -/
theorem pc_of_step (h : m.step i s = .ok t) :
    t.pc = s.pc + 1 ∨ ∃ l, i.target? = some l ∧ t.pc = m.target l := by
  cases executes_of_step h with
  | jump l | branch l => exact .inr ⟨l, rfl, rfl⟩
  | _ => exact .inl rfl

/-- Every jump leads to a higher address. -/
def Ascending (m : Machine) : Prop :=
  ∀ (a : Nat) (i : Instruction) (l : String), m.code[a]? = some i → i.target? = some l →
    a < m.target l

theorem Resolved.ascending (hm : m.Resolved) {is : List Instruction} (hcode : m.code = is.toArray)
    (hf : Code.Forward is) : m.Ascending := by
  intro a i l ha hl
  rw [hcode, List.getElem?_toArray] at ha
  obtain ⟨q, haq, hq⟩ := hf a i l ha hl
  have htarget : m.target l = q := by
    apply hm
    rw [hcode, List.getElem?_toArray, hq]
  rw [htarget]
  exact haq

theorem Ascending.lt_pc (hm : m.Ascending) (hi : m.code[s.pc]? = some i)
    (ht : m.step i s = .ok t) : s.pc < t.pc := by
  rcases pc_of_step ht with hnext | ⟨l, hl, hjump⟩
  · omega
  · rw [hjump]
    exact hm s.pc i l hi hl

theorem visited_zero (m : Machine) (s : State) : m.visited 0 s = [] := by
  rw [visited]
  cases m.code[s.pc]? <;> rfl

theorem visited_halted (hs : m.code[s.pc]? = none) (n : Nat) : m.visited n s = [] := by
  rw [visited]
  simp only [hs]

theorem visited_of_step_ok (hi : m.code[s.pc]? = some i) (ht : m.step i s = .ok t) (n : Nat) :
    m.visited (n + 1) s = s :: m.visited n t := by
  rw [visited]
  simp only [hi, ht]

theorem visited_of_step_error {fault : Fault} (hi : m.code[s.pc]? = some i)
    (hf : m.step i s = .error fault) (n : Nat) : m.visited (n + 1) s = [s] := by
  rw [visited]
  simp only [hi, hf]

/-- No address is visited twice, and none below the first. -/
theorem Ascending.visited (hm : m.Ascending) (n : Nat) (s : State) :
    ((m.visited n s).map State.pc).Pairwise (· < ·) ∧ ∀ u ∈ m.visited n s, s.pc ≤ u.pc := by
  induction n generalizing s with
  | zero => simp [visited_zero]
  | succ n ih =>
    cases hi : m.code[s.pc]? with
    | none => simp [visited_halted hi]
    | some i =>
      cases ht : m.step i s with
      | error fault => simp [visited_of_step_error hi ht]
      | ok t =>
        obtain ⟨hpairs, hle⟩ := ih t
        have hlt := hm.lt_pc hi ht
        -- Whatever comes after this step is at the address it leads to or above.
        have habove : ∀ u ∈ m.visited n t, s.pc < u.pc := by
          intro u hu
          exact Nat.lt_of_lt_of_le hlt (hle u hu)
        rw [visited_of_step_ok hi ht]
        constructor
        · rw [List.map_cons, List.pairwise_cons, List.forall_mem_map]
          exact ⟨habove, hpairs⟩
        · rw [List.forall_mem_cons]
          exact ⟨Nat.le_refl _, fun u hu => Nat.le_of_lt (habove u hu)⟩

/-- A run stops within as many steps as there are instructions from its start on, and more steps
than that change nothing. -/
theorem Ascending.runFor (hm : m.Ascending) (s : State) :
    (∃ store, ∀ n, m.code.size ≤ s.pc + n → m.runFor n s = .halted store) ∨
      ∃ fault, ∀ n, m.code.size ≤ s.pc + n → m.runFor n s = .failed fault := by
  -- The induction is on the number of instructions that are left.
  induction hleft : m.code.size - s.pc using Nat.strongRecOn generalizing s with
  | _ left ih =>
    cases hi : m.code[s.pc]? with
    | none => exact .inl ⟨s.store, fun n _ => runFor_halted hi n⟩
    | some i =>
      have hinside : s.pc < m.code.size := (Array.getElem?_eq_some_iff.mp hi).1
      -- Inside the code, enough steps are at least one.
      have hsucc {n : Nat} (hn : m.code.size ≤ s.pc + n) : ∃ k, n = k + 1 :=
        Nat.exists_eq_add_one.mpr (by omega)
      cases ht : m.step i s with
      | error fault =>
        refine .inr ⟨fault, fun n hn => ?_⟩
        obtain ⟨k, rfl⟩ := hsucc hn
        exact runFor_of_step_error hi ht k
      | ok t =>
        have hlt := hm.lt_pc hi ht
        have hrun {n : Nat} (hn : m.code.size ≤ s.pc + n) :
            ∃ k, m.code.size ≤ t.pc + k ∧ m.runFor n s = m.runFor k t := by
          obtain ⟨k, rfl⟩ := hsucc hn
          exact ⟨k, by omega, runFor_of_step_ok hi ht k⟩
        rcases ih _ (by omega) t rfl with ⟨store, hstop⟩ | ⟨fault, hstop⟩
        · refine .inl ⟨store, fun n hn => ?_⟩
          obtain ⟨k, hk, hn⟩ := hrun hn
          rw [hn, hstop k hk]
        · refine .inr ⟨fault, fun n hn => ?_⟩
          obtain ⟨k, hk, hn⟩ := hrun hn
          rw [hn, hstop k hk]

end Machine

namespace Tree

/-- Trees that are lowered one by one, with labels that are numbered on, give the code that they
give together. -/
theorem flatten_lowerEach (n : Nat) (ss : List Tree) :
    (lowerEach n ss).flatten = lowerAll n ss := by
  induction ss generalizing n with
  | nil => rfl
  | cons s ss ih => rw [lowerEach, lowerAll, List.flatten_cons, ih]

end Tree

/-- Whatever trees are lowered one after the other, from whatever label number on: the labels of
their code are distinct; each jump has exactly one definition of its label, which comes after it;
and the code can be loaded, a run of it visits ever higher addresses, and within as many steps as it
has instructions the run stops. -/
theorem lowered_runs_ascend (n : Nat) (ss : List Tree) :
    let is := (Tree.lowerEach n ss).flatten
    (Code.labels is).Nodup ∧
    (∀ (p : Nat) (i : Instruction) (l : String), is[p]? = some i → i.target? = some l →
      ∃ q, p < q ∧ ∀ a : Nat, is[a]? = some (.label l) ↔ a = q) ∧
    ∃ m, Machine.load is = .ok m ∧
      (∀ k, ((m.visited k .start).map Machine.State.pc).Pairwise (· < ·)) ∧
      ((∃ store, ∀ k, is.length ≤ k → Machine.execute k is = .halted store) ∨
        ∃ fault, ∀ k, is.length ≤ k → Machine.execute k is = .failed fault) := by
  intro is
  have his : is = Tree.lowerAll n ss := Tree.flatten_lowerEach n ss
  have hfits := Tree.fits_lowerAll (fun s (_ : s ∈ ss) => Tree.fits_lower s) n
  rw [← his] at hfits
  obtain ⟨m, hload, hcode, hm⟩ := Machine.load_eq hfits.nodup hfits.forward.defined
  have hasc := hm.ascending hcode hfits.forward
  refine ⟨hfits.nodup, ?_, m, hload, fun k => (hasc.visited k .start).1, ?_⟩
  · intro p i l hp hl
    obtain ⟨q, hpq, hq⟩ := hfits.forward p i l hp hl
    refine ⟨q, hpq, fun a => ⟨fun ha => ?_, fun ha => ha ▸ hq⟩⟩
    -- Both addresses are the one that the loaded table has for the label.
    have htarget {b : Nat} (hb : is[b]? = some (.label l)) : m.target l = b := by
      apply hm
      rw [hcode, List.getElem?_toArray, hb]
    exact (htarget ha).symm.trans (htarget hq)
  · have hstops := hasc.runFor .start
    have hsize : m.code.size = is.length := by rw [hcode, List.size_toArray]
    simpa only [hsize, Machine.execute, hload, Machine.State.start, Nat.zero_add] using hstops

/-- Trees with a conditional in a condition, in an operand and in a branch. The parser builds none
but the last. -/
def nestedBranches : List Tree :=
  [.ifThen (.ifThen (.boolean true) (.number 1)) (.assign "x" (.number 2)),
    .binary .add (.ifElse (.boolean true) (.number 3) (.number 4)) (.number 5),
    .ifElse (.boolean false) (.assign "x" (.number 6))
      (.ifThen (.boolean true) (.assign "y" (.var "x")))]

-- The labels are numbered from 8 on, so their numbers differ in length too.
theorem nestedBranches_run_ascends :
    let is := (Tree.lowerEach 8 nestedBranches).flatten
    (∃ q, 6 < q ∧ ∀ a : Nat, is[a]? = some (.label "else_8") ↔ a = q) ∧
    ∃ m, Machine.load is = .ok m ∧ ((m.visited 35 .start).map Machine.State.pc).Pairwise (· < ·) ∧
      ((∃ store, Machine.execute 35 is = .halted store) ∨
        ∃ fault, Machine.execute 35 is = .failed fault) := by
  obtain ⟨-, hjumps, m, hload, hvisited, hstops⟩ := lowered_runs_ascend 8 nestedBranches
  have hjump := hjumps 6 (.jumpIfFalse "else_8") "else_8" (by decide +kernel) rfl
  have hlength : (Tree.lowerEach 8 nestedBranches).flatten.length ≤ 35 := by decide +kernel
  refine ⟨hjump, m, hload, hvisited 35, ?_⟩
  rcases hstops with ⟨store, hstop⟩ | ⟨fault, hstop⟩
  · exact .inl ⟨store, hstop 35 hlength⟩
  · exact .inr ⟨fault, hstop 35 hlength⟩

end StackLang
