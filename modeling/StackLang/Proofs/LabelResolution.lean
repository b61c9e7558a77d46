import Mathlib.Data.List.Induction
import StackLang.Proofs.ForwardRun

namespace StackLang

namespace Code

variable {is front back : List Instruction} {l : String}

/-- Every jump has its label. -/
def Defined (is : List Instruction) : Prop :=
  ∀ i ∈ is, ∀ l, i.target? = some l → l ∈ labels is

/-- The first instruction that defines a label again, and where the label was defined first. -/
structure FirstRepeat (is : List Instruction) (l : String) (first second : Nat) : Prop where
  again : is[second]? = some (.label l)
  defined : is[first]? = some (.label l)
  lt : first < second
  no_definition_before : ∀ k < first, is[k]? ≠ some (.label l)
  no_repeat_before : ∀ k < second, ∀ l', is[k]? = some (.label l') →
    ∀ j < k, is[j]? ≠ some (.label l')

/-- The first jump whose label is defined nowhere. -/
structure FirstMissing (is : List Instruction) (l : String) (pc : Nat) : Prop where
  jump : ∃ i, is[pc]? = some i ∧ i.target? = some l
  undefined : ∀ k : Nat, is[k]? ≠ some (.label l)
  defined_before : ∀ k < pc, ∀ i l', is[k]? = some i → i.target? = some l' →
    ∃ a : Nat, is[a]? = some (.label l')

theorem eq_of_nodup_labels (hn : (labels is).Nodup) {j k : Nat} (hj : is[j]? = some (.label l))
    (hk : is[k]? = some (.label l)) : j = k := by
  have hkeys : ((definitions 0 is).map Prod.fst).Nodup := by rwa [map_fst_definitions]
  have hlj := lookup_of_mem hkeys (mem_definitions 0 hj)
  have hlk := lookup_of_mem hkeys (mem_definitions 0 hk)
  rw [hlj] at hlk
  simpa using hlk

/-- Labels that repeat do so somewhere for the first time. -/
theorem exists_first_repeat (h : ¬ (labels is).Nodup) :
    ∃ front l back, is = front ++ .label l :: back ∧ (labels front).Nodup ∧ l ∈ labels front := by
  induction is using List.reverseRecOn with
  | nil => exact absurd List.nodup_nil h
  | append_singleton is i ih =>
    by_cases hn : (labels is).Nodup
    · -- The last instruction is the one that repeats a label.
      cases i with
      | label l =>
        refine ⟨is, l, [], rfl, hn, ?_⟩
        by_contra hl
        apply h
        rw [labels_append, List.nodup_append]
        refine ⟨hn, List.nodup_singleton l, ?_⟩
        rintro a ha b hb rfl
        exact hl (List.mem_singleton.mp hb ▸ ha)
      | _ =>
        rw [labels_append, labels_cons_of_none rfl, labels_nil, List.append_nil] at h
        exact absurd hn h
    · obtain ⟨front, l, back, rfl, hfront, hl⟩ := ih hn
      exact ⟨front, l, back ++ [i], by simp, hfront, hl⟩

theorem firstRepeat_of_split {first : Nat} (hn : (labels front).Nodup)
    (hl : front[first]? = some (.label l)) :
    FirstRepeat (front ++ .label l :: back) l first front.length := by
  have hlt := (List.getElem?_eq_some_iff.mp hl).1
  have hfront {k : Nat} (hk : k < front.length) :
      (front ++ .label l :: back)[k]? = front[k]? := List.getElem?_append_left hk
  refine ⟨by simp, by rw [hfront hlt, hl], hlt, ?_, ?_⟩
  · intro k hk hkl
    rw [hfront (by omega)] at hkl
    have heq := eq_of_nodup_labels hn hkl hl
    omega
  · intro k hk l' hkl j hj hjl
    rw [hfront hk] at hkl
    rw [hfront (by omega)] at hjl
    have heq := eq_of_nodup_labels hn hjl hkl
    omega

/-- If some jump lacks its label, one does so first. -/
theorem exists_first_missing (h : ¬ Defined is) :
    ∃ front i l back, is = front ++ i :: back ∧ i.target? = some l ∧ l ∉ labels is ∧
      ∀ j ∈ front, ∀ l', j.target? = some l' → l' ∈ labels is := by
  let lacks (i : Instruction) : Bool := i.target?.any (· ∉ labels is)
  have hlacks {i : Instruction} : lacks i = true ↔ ∃ l, i.target? = some l ∧ l ∉ labels is := by
    simp [lacks, Option.any_eq_true]
  have hsome : (is.find? lacks).isSome = true := by
    unfold Defined at h
    push Not at h
    obtain ⟨i, hi, l, hl, hnot⟩ := h
    exact List.find?_isSome.mpr ⟨i, hi, hlacks.mpr ⟨l, hl, hnot⟩⟩
  obtain ⟨i, hfind⟩ := Option.isSome_iff_exists.mp hsome
  obtain ⟨hi, front, back, hsplit, hfront⟩ := List.find?_eq_some_iff_append.mp hfind
  obtain ⟨l, hl, hnot⟩ := hlacks.mp hi
  refine ⟨front, i, l, back, hsplit, hl, hnot, fun j hj l' hl' => ?_⟩
  by_contra hmissing
  have hfalse := hfront j hj
  rw [hlacks.mpr ⟨l', hl', hmissing⟩] at hfalse
  cases hfalse

theorem firstMissing_of_split {i : Instruction} (hi : i.target? = some l)
    (hl : l ∉ labels (front ++ i :: back))
    (hfront : ∀ j ∈ front, ∀ l', j.target? = some l' → l' ∈ labels (front ++ i :: back)) :
    FirstMissing (front ++ i :: back) l front.length where
  jump := ⟨i, by simp, hi⟩
  undefined := fun k hk => hl (mem_labels.mpr ⟨k, hk⟩)
  defined_before := by
    intro k hk j l' hj hl'
    rw [List.getElem?_append_left hk] at hj
    exact mem_labels.mp (hfront j (List.mem_of_getElem? hj) l' hl')

end Code

namespace Machine

variable {is front back : List Instruction} {l : String}

/-- The table of a sequence goes on with the table of what comes before. -/
theorem addLabels_append (known : List (String × Nat)) (a : Nat) (is js : List Instruction) :
    addLabels known a (is ++ js) =
      (addLabels known a is).bind fun table => addLabels table (a + is.length) js := by
  induction is generalizing known a with
  | nil => rfl
  | cons i is ih =>
    have hlength : a + (i :: is).length = a + 1 + is.length := by
      rw [List.length_cons]
      omega
    rw [hlength]
    cases i with
    | label l =>
      simp only [List.cons_append, addLabels]
      cases known.lookup l with
      | some first => rfl
      | none => exact ih _ (a + 1)
    | _ => exact ih known (a + 1)

/-- The second definition of a label is reported with the first. -/
theorem addLabels_of_repeat {first : Nat} (hn : (Code.labels front).Nodup)
    (hl : front[first]? = some (.label l)) :
    addLabels [] 0 (front ++ .label l :: back) =
      .error (.duplicateLabel l first front.length) := by
  rw [addLabels_append, addLabels_of_nodup hn]
  simp only [Except.bind, addLabels, lookup_definitions hn hl, Nat.zero_add]

theorem lookup_definitions_eq_none (hl : l ∉ Code.labels is) :
    (Code.definitions 0 is).reverse.lookup l = none := by
  rw [List.lookup_eq_none_iff]
  intro x hx
  apply bne_iff_ne.mpr
  rintro rfl
  apply hl
  rw [← Code.map_fst_definitions is 0]
  exact List.mem_map_of_mem (List.mem_reverse.mp hx)

theorem load_of_repeat {first : Nat} (hn : (Code.labels front).Nodup)
    (hl : front[first]? = some (.label l)) :
    load (front ++ .label l :: back) = .error (.duplicateLabel l first front.length) := by
  rw [load, addLabels_of_repeat hn hl]
  rfl

theorem load_of_missing {i : Instruction} (hn : (Code.labels (front ++ i :: back)).Nodup)
    (hi : i.target? = some l) (hl : l ∉ Code.labels (front ++ i :: back))
    (hfront : ∀ j ∈ front, ∀ l', j.target? = some l' →
      l' ∈ Code.labels (front ++ i :: back)) :
    load (front ++ i :: back) = .error (.unresolvedLabel l front.length) := by
  have htable : (Code.definitions 0 (front ++ i :: back)).reverse.lookup l = none :=
    lookup_definitions_eq_none hl
  -- The search passes over what comes before, and stops at the jump itself.
  have hmissing : missing? (Code.definitions 0 (front ++ i :: back)).reverse 0
      (front ++ i :: back) = some (.unresolvedLabel l front.length) := by
    rw [missing?_append fun j hj l' hl' => isSome_lookup_definitions hn (hfront j hj l' hl'),
      missing?, hi, Option.filter_some, htable, Nat.zero_add]
    rfl
  simp only [load, addLabels_of_nodup hn, bind, Except.bind, hmissing]
  rfl

/-- Loaded code has distinct labels, and all that it jumps to. -/
theorem nodup_of_load {m : Machine} (h : load is = .ok m) : (Code.labels is).Nodup := by
  by_contra hn
  obtain ⟨front, l, back, rfl, hfront, hl⟩ := Code.exists_first_repeat hn
  obtain ⟨first, hfirst⟩ := Code.mem_labels.mp hl
  rw [load_of_repeat hfront hfirst] at h
  cases h

theorem defined_of_load {m : Machine} (h : load is = .ok m) : Code.Defined is := by
  have hn := nodup_of_load h
  by_contra hd
  obtain ⟨front, i, l, back, rfl, hi, hl, hfront⟩ := Code.exists_first_missing hd
  rw [load_of_missing hn hi hl hfront] at h
  cases h

theorem resolved_of_load {m : Machine} (h : load is = .ok m) :
    m.code = is.toArray ∧ m.Resolved := by
  obtain ⟨m', hload, hcode, hm⟩ := load_eq (nodup_of_load h) (defined_of_load h)
  rw [h] at hload
  cases hload
  exact ⟨hcode, hm⟩

theorem Resolved.lookup_eq {m : Machine} (hm : m.Resolved) {a : Nat}
    (ha : m.code[a]? = some (.label l)) : m.labels.lookup l = some a := by
  have htarget := hm a l ha
  have hlt := (Array.getElem?_eq_some_iff.mp ha).1
  rw [target] at htarget
  cases hlookup : m.labels.lookup l with
  | some b => simpa [hlookup] using htarget
  | none =>
    -- Without an entry the jump would lead to the end of the code, where no label is.
    rw [hlookup, Option.getD_none] at htarget
    omega

/-- A label that loaded code jumps to is defined at one address, and the table has it. -/
theorem exists_address {m : Machine} (h : load is = .ok m) {i : Instruction} (hi : i ∈ is)
    (hl : i.target? = some l) :
    ∃ a, (∀ b : Nat, is[b]? = some (.label l) ↔ b = a) ∧ m.labels.lookup l = some a ∧
      m.target l = a := by
  obtain ⟨hcode, hm⟩ := resolved_of_load h
  obtain ⟨a, ha⟩ := Code.mem_labels.mp (defined_of_load h i hi l hl)
  have hlabel : m.code[a]? = some (.label l) := by rwa [hcode, List.getElem?_toArray]
  refine ⟨a, fun b => ⟨fun hb => ?_, fun hb => hb ▸ ha⟩, hm.lookup_eq hlabel, hm a l hlabel⟩
  exact Code.eq_of_nodup_labels (nodup_of_load h) hb ha

/-- In the state `s` the instruction to run jumps to the label `l`. -/
inductive Jumps (m : Machine) (s : State) (l : String) : Prop where
  | always : m.code[s.pc]? = some (.jump l) → Jumps m s l
  | onFalse {v : Float} {rest : List Float} : m.code[s.pc]? = some (.jumpIfFalse l) →
    s.stack = v :: rest → Number.isTrue v = false → Jumps m s l

/-- A jump that is taken goes to where its label is. -/
theorem Jumps.step_eq {m : Machine} {s : State} (h : m.Jumps s l) :
    ∃ i t, m.code[s.pc]? = some i ∧ i.target? = some l ∧ m.step i s = .ok t ∧
      t.pc = m.target l := by
  obtain ⟨pc, stack, store⟩ := s
  cases h with
  | always hi => exact ⟨_, _, hi, rfl, rfl, rfl⟩
  | @onFalse v rest hi hstack hv =>
    obtain rfl : stack = v :: rest := hstack
    refine ⟨_, ⟨m.target l, rest, store⟩, hi, rfl, ?_, rfl⟩
    simp only [step, hv]
    rfl

/-- A run of one more instruction goes on where a step leads to. -/
theorem mem_visited_of_step {m : Machine} {i : Instruction} {s t : State}
    (hi : m.code[s.pc]? = some i) (ht : m.step i s = .ok t) (hnext : t.pc < m.code.size)
    {n : Nat} {u : State} (hs : s ∈ m.visited n u) : t ∈ m.visited (n + 1) u := by
  induction n generalizing u with
  | zero => simp [visited_zero] at hs
  | succ n ih =>
    cases hj : m.code[u.pc]? with
    | none => simp [visited_halted hj] at hs
    | some j =>
      cases hv : m.step j u with
      | error fault =>
        -- The run stops at this instruction, and it is not the one that steps to `t`.
        obtain rfl : s = u := by simpa [visited_of_step_error hj hv] using hs
        obtain rfl : i = j := Option.some.inj (hi.symm.trans hj)
        cases ht.symm.trans hv
      | ok v =>
        rw [visited_of_step_ok hj hv] at hs ⊢
        apply List.mem_cons_of_mem
        rcases List.mem_cons.mp hs with rfl | hs
        · obtain rfl : i = j := Option.some.inj (hi.symm.trans hj)
          obtain rfl : t = v := Except.ok.inj (ht.symm.trans hv)
          rw [visited, Array.getElem?_eq_getElem hnext]
          exact List.mem_cons_self
        · exact ih hs

/-- Label resolution is exact. Code is loaded if and only if no label is defined twice and every
jump has its label. If labels are defined twice, the first instruction that does so is reported,
whatever jumps lack their labels; if none is, the first jump that lacks its label. Loaded code has
every label that it names in its table, and wherever a run of it takes a jump, the run goes on at
the one definition of the label. -/
theorem load_exact (is : List Instruction) :
    ((∃ m, load is = .ok m) ↔ (Code.labels is).Nodup ∧ Code.Defined is) ∧
    (¬ (Code.labels is).Nodup → ∃ l first second, Code.FirstRepeat is l first second ∧
      load is = .error (.duplicateLabel l first second)) ∧
    ((Code.labels is).Nodup → ¬ Code.Defined is → ∃ l pc, Code.FirstMissing is l pc ∧
      load is = .error (.unresolvedLabel l pc)) ∧
    ∀ m, load is = .ok m →
      (∀ i ∈ is, ∀ l, i.target? = some l → (m.labels.lookup l).isSome) ∧
      ∀ n u s, s ∈ m.visited n u → ∀ l, m.Jumps s l → ∃ i, ∃ t ∈ m.visited (n + 1) u,
        is[s.pc]? = some i ∧ m.step i s = .ok t ∧ m.labels.lookup l = some t.pc ∧
        ∀ a : Nat, is[a]? = some (.label l) ↔ a = t.pc := by
  refine ⟨⟨?_, ?_⟩, ?_, ?_, ?_⟩
  · rintro ⟨m, hload⟩
    exact ⟨nodup_of_load hload, defined_of_load hload⟩
  · rintro ⟨hn, hd⟩
    obtain ⟨m, hload, -, -⟩ := load_eq hn hd
    exact ⟨m, hload⟩
  · intro hn
    obtain ⟨front, l, back, rfl, hfront, hl⟩ := Code.exists_first_repeat hn
    obtain ⟨first, hfirst⟩ := Code.mem_labels.mp hl
    exact ⟨l, first, front.length, Code.firstRepeat_of_split hfront hfirst,
      load_of_repeat hfront hfirst⟩
  · intro hn hd
    obtain ⟨front, i, l, back, rfl, hi, hl, hfront⟩ := Code.exists_first_missing hd
    exact ⟨l, front.length, Code.firstMissing_of_split hi hl hfront,
      load_of_missing hn hi hl hfront⟩
  · intro m hload
    have hcode : ∀ a : Nat, m.code[a]? = is[a]? := by
      intro a
      rw [(resolved_of_load hload).1, List.getElem?_toArray]
    constructor
    · intro i hi l hl
      obtain ⟨a, -, hlookup, -⟩ := exists_address hload hi hl
      rw [hlookup]
      rfl
    · intro n u s hs l hjump
      obtain ⟨i, t, hi, hl, ht, hpc⟩ := hjump.step_eq
      have hi' := (hcode s.pc).symm.trans hi
      obtain ⟨a, hunique, hlookup, htarget⟩ :=
        exists_address hload (List.mem_of_getElem? hi') hl
      obtain rfl : t.pc = a := hpc.trans htarget
      -- The label is an instruction of the code, so the run is not at its end there.
      have hlabel : m.code[t.pc]? = some (.label l) := by rw [hcode, hunique]
      have hnext := (Array.getElem?_eq_some_iff.mp hlabel).1
      exact ⟨i, t, mem_visited_of_step hi ht hnext hs, hi', ht, hlookup, hunique⟩

/-- Labels that repeat twice over, and jumps without a label before and after them. -/
def tangledCode : List Instruction :=
  [.jump "nowhere", .label "a", .label "b", .jump "a", .label "b", .label "a", .jump "gone"]

/-- A jump that lacks its label between one that leads back and one that lacks its label too. -/
def danglingCode : List Instruction :=
  [.label "top", .jump "top", .load "x", .jumpIfFalse "gone", .jump "nowhere"]

/-- A loop that never ends. -/
def loopingCode : List Instruction :=
  [.jump "test", .label "body", .label "test", .push 0, .jumpIfFalse "body"]

-- The label that is reported is neither the first one of the code nor in its first jump.
theorem tangledCode_load_exact :
    (¬ (Code.labels tangledCode).Nodup ∧ Code.FirstRepeat tangledCode "b" 2 4 ∧
      load tangledCode = .error (.duplicateLabel "b" 2 4)) ∧
    ((Code.labels danglingCode).Nodup ∧ ¬ Code.Defined danglingCode ∧
      Code.FirstMissing danglingCode "gone" 3 ∧
      load danglingCode = .error (.unresolvedLabel "gone" 3)) ∧
    ∃ m, load loopingCode = .ok m ∧ ∃ s ∈ m.visited 4 .start, s.pc = 4 ∧ m.Jumps s "body" ∧
      ∃ t ∈ m.visited 5 .start, t.pc = 1 := by
  refine ⟨?_, ?_, ?_⟩
  · have hrepeats : ¬ (Code.labels tangledCode).Nodup := by decide
    have hfails : load tangledCode = .error (.duplicateLabel "b" 2 4) := by rfl
    obtain ⟨l, first, second, hfirst, hload⟩ := (load_exact tangledCode).2.1 hrepeats
    rw [hfails] at hload
    cases hload
    exact ⟨hrepeats, hfirst, hfails⟩
  · have hnodup : (Code.labels danglingCode).Nodup := by decide
    have hlacks : ¬ Code.Defined danglingCode := by
      intro hdefined
      have hmem := hdefined (.jumpIfFalse "gone") (by decide) "gone" rfl
      revert hmem
      decide
    have hfails : load danglingCode = .error (.unresolvedLabel "gone" 3) := by rfl
    obtain ⟨l, pc, hfirst, hload⟩ := (load_exact danglingCode).2.2.1 hnodup hlacks
    rw [hfails] at hload
    cases hload
    exact ⟨hnodup, hlacks, hfirst, hfails⟩
  · let m : Machine := ⟨loopingCode.toArray, [("test", 2), ("body", 1)]⟩
    let s : State := ⟨4, [0], ∅⟩
    have hload : load loopingCode = .ok m := by rfl
    have hvisited : m.visited 4 .start = [⟨0, [], ∅⟩, ⟨2, [], ∅⟩, ⟨3, [], ∅⟩, s] := by rfl
    have hs : s ∈ m.visited 4 .start := by
      rw [hvisited]
      exact List.mem_of_getElem? (i := 3) rfl
    have hjumps : m.Jumps s "body" := .onFalse rfl rfl (by decide)
    obtain ⟨-, t, ht, -, -, -, hlabel⟩ :=
      ((load_exact loopingCode).2.2.2 m hload).2 4 _ s hs _ hjumps
    exact ⟨m, hload, s, hs, rfl, hjumps, t, ht, ((hlabel 1).mp rfl).symm⟩

end Machine

end StackLang
