import StackLang.Code.Lowering
import StackLang.Machine
import StackLang.Proofs.TreeShape
import Std.Data.String.ToNat
import Mathlib.Data.List.Nodup

namespace StackLang

/-- The label that an instruction defines. -/
def Instruction.label? : Instruction → Option String
  | label l => some l
  | _ => none

namespace Code

/-- The labels that a sequence defines, in order. -/
def labels (is : List Instruction) : List String := is.filterMap Instruction.label?

@[simp] theorem labels_nil : labels [] = [] := rfl

@[simp] theorem labels_append (is js : List Instruction) :
    labels (is ++ js) = labels is ++ labels js := by
  simp [labels]

@[simp] theorem labels_cons_label (l : String) (is : List Instruction) :
    labels (.label l :: is) = l :: labels is := rfl

@[simp] theorem labels_cons_jump (l : String) (is : List Instruction) :
    labels (.jump l :: is) = labels is := rfl

@[simp] theorem labels_cons_jumpIfFalse (l : String) (is : List Instruction) :
    labels (.jumpIfFalse l :: is) = labels is := rfl

theorem labels_cons_of_none {i : Instruction} (hi : i.label? = none) (is : List Instruction) :
    labels (i :: is) = labels is := by
  simp [labels, hi]

theorem mem_labels {l : String} {is : List Instruction} :
    l ∈ labels is ↔ ∃ k : Nat, is[k]? = some (.label l) := by
  have hlabel (i : Instruction) : i.label? = some l ↔ i = .label l := by
    cases i <;> simp [Instruction.label?]
  rw [labels, List.mem_filterMap]
  simp only [hlabel, exists_eq_right]
  exact List.mem_iff_getElem?

theorem definitions_cons_of_none {i : Instruction} (hi : i.label? = none) (a : Nat)
    (is : List Instruction) : definitions a (i :: is) = definitions (a + 1) is := by
  cases i with
  | label l => cases hi
  | _ => rfl

theorem map_fst_definitions (is : List Instruction) (a : Nat) :
    (definitions a is).map Prod.fst = labels is := by
  induction is generalizing a with
  | nil => rfl
  | cons i is ih =>
    cases hi : i.label? with
    | none => rw [definitions_cons_of_none hi, labels_cons_of_none hi, ih]
    | some l =>
      obtain rfl : i = .label l := by
        cases i <;> simp_all [Instruction.label?]
      simp only [definitions, List.map_cons, ih, labels_cons_label]

theorem mem_definitions {is : List Instruction} {k : Nat} {l : String} (a : Nat)
    (h : is[k]? = some (.label l)) : (l, a + k) ∈ definitions a is := by
  induction is generalizing a k with
  | nil => simp at h
  | cons i is ih =>
    cases k with
    | zero =>
      obtain rfl : i = .label l := by simpa using h
      simp [definitions]
    | succ k =>
      have hk : (l, a + 1 + k) ∈ definitions (a + 1) is := ih (a + 1) (by simpa using h)
      have ha : a + (k + 1) = a + 1 + k := by omega
      rw [ha]
      cases i with
      | label l' => exact List.mem_cons_of_mem _ hk
      | _ => exact hk

/-- The code of a conditional, from the codes of its condition and its branches. -/
def conditional (onFalse onEnd : String) (cond body other : List Instruction) :
    List Instruction :=
  cond ++ .jumpIfFalse onFalse :: (body ++ .jump onEnd :: .label onFalse ::
    (other ++ [.label onEnd]))

/-- Every jump leads to a label of the sequence that comes after it. -/
def Forward (is : List Instruction) : Prop :=
  ∀ (p : Nat) (i : Instruction) (l : String), is[p]? = some i → i.target? = some l →
    ∃ q : Nat, p < q ∧ is[q]? = some (.label l)

theorem forward_nil : Forward [] := by
  intro p i l hp
  simp at hp

theorem Forward.cons {i : Instruction} {is : List Instruction} (h : Forward is)
    (hi : ∀ l, i.target? = some l → l ∈ labels is) : Forward (i :: is) := by
  intro p j l hp hl
  cases p with
  | zero =>
    obtain rfl : i = j := by simpa using hp
    obtain ⟨q, hq⟩ := mem_labels.mp (hi l hl)
    exact ⟨q + 1, by omega, by simpa using hq⟩
  | succ p =>
    obtain ⟨q, hpq, hq⟩ := h p j l (by simpa using hp) hl
    exact ⟨q + 1, by omega, by simpa using hq⟩

theorem Forward.append {is js : List Instruction} (hi : Forward is) (hj : Forward js) :
    Forward (is ++ js) := by
  intro p i l hp hl
  by_cases hlt : p < is.length
  · rw [List.getElem?_append_left hlt] at hp
    obtain ⟨q, hpq, hq⟩ := hi p i l hp hl
    have hql := (List.getElem?_eq_some_iff.mp hq).1
    exact ⟨q, hpq, by rw [List.getElem?_append_left hql, hq]⟩
  · rw [List.getElem?_append_right (by omega)] at hp
    obtain ⟨q, hpq, hq⟩ := hj _ i l hp hl
    refine ⟨is.length + q, by omega, ?_⟩
    rw [List.getElem?_append_right (by omega), Nat.add_sub_cancel_left, hq]

theorem Forward.defined {is : List Instruction} (h : Forward is) :
    ∀ i ∈ is, ∀ l, i.target? = some l → l ∈ labels is := by
  intro i hi l hl
  obtain ⟨p, hp⟩ := List.mem_iff_getElem?.mp hi
  obtain ⟨q, _, hq⟩ := h p i l hp hl
  exact mem_labels.mpr ⟨q, hq⟩

end Code

theorem lookup_of_mem {ps : List (String × Nat)} (hn : (ps.map Prod.fst).Nodup) {l : String}
    {a : Nat} (h : (l, a) ∈ ps) : ps.lookup l = some a := by
  induction ps with
  | nil => simp at h
  | cons p ps ih =>
    obtain ⟨hp, hps⟩ := List.nodup_cons.mp hn
    rcases List.mem_cons.mp h with rfl | h
    · simp
    · have hne : l ≠ p.1 := by
        rintro rfl
        exact hp (List.mem_map.mpr ⟨(p.1, a), h, rfl⟩)
      rw [List.lookup_cons, beq_false_of_ne hne]
      exact ih hps h

namespace Machine

/-- Distinct labels that are not known yet are all added. -/
theorem addLabels_eq {is : List Instruction} (hn : (Code.labels is).Nodup) (a : Nat)
    (known : List (String × Nat)) (hk : ∀ l ∈ Code.labels is, known.lookup l = none) :
    addLabels known a is = .ok ((Code.definitions a is).reverse ++ known) := by
  induction is generalizing a known with
  | nil => rfl
  | cons i is ih =>
    cases i with
    | label l =>
      simp only [Code.labels_cons_label, List.nodup_cons, List.mem_cons] at hn hk
      have htail : ∀ l' ∈ Code.labels is, List.lookup l' ((l, a) :: known) = none := by
        intro l' hl'
        have hne : l' ≠ l := by
          rintro rfl
          exact hn.1 hl'
        rw [List.lookup_cons, beq_false_of_ne hne]
        exact hk l' (Or.inr hl')
      -- The table grows at its front, so the definitions stand in it the other way round.
      simp only [addLabels, hk l (Or.inl rfl), ih hn.2 (a + 1) _ htail, Code.definitions,
        List.reverse_cons, List.append_assoc, List.cons_append, List.nil_append]
    | _ => exact ih hn (a + 1) known hk

/-- Jumps whose labels the table has are passed over. -/
theorem missing?_append {labels : List (String × Nat)} {is : List Instruction}
    (h : ∀ i ∈ is, ∀ l, i.target? = some l → (labels.lookup l).isSome) (a : Nat)
    (rest : List Instruction) :
    missing? labels a (is ++ rest) = missing? labels (a + is.length) rest := by
  induction is generalizing a with
  | nil => rfl
  | cons i is ih =>
    have hi : i.target?.filter (fun l => (labels.lookup l).isNone) = none := by
      rw [Option.filter_eq_none_iff]
      intro l hl
      simpa [Option.isSome_iff_ne_none] using h i (by simp) l hl
    simp only [List.cons_append, missing?, hi, ih (fun j hj => h j (by simp [hj])) (a + 1),
      List.length_cons, Nat.add_assoc, Nat.add_comm 1]

/-- The table of distinct labels. -/
theorem addLabels_of_nodup {is : List Instruction} (hn : (Code.labels is).Nodup) :
    addLabels [] 0 is = .ok (Code.definitions 0 is).reverse := by
  rw [addLabels_eq hn 0 [] fun _ _ => rfl, List.append_nil]

theorem lookup_definitions {is : List Instruction} (hn : (Code.labels is).Nodup) {k : Nat}
    {l : String} (h : is[k]? = some (.label l)) :
    (Code.definitions 0 is).reverse.lookup l = some k := by
  have hkeys : ((Code.definitions 0 is).reverse.map Prod.fst).Nodup := by
    rw [List.map_reverse, Code.map_fst_definitions, List.nodup_reverse]
    exact hn
  have hmem := Code.mem_definitions 0 h
  rw [Nat.zero_add] at hmem
  exact lookup_of_mem hkeys (List.mem_reverse.mpr hmem)

theorem isSome_lookup_definitions {is : List Instruction} (hn : (Code.labels is).Nodup)
    {l : String} (hl : l ∈ Code.labels is) :
    ((Code.definitions 0 is).reverse.lookup l).isSome := by
  obtain ⟨k, hk⟩ := Code.mem_labels.mp hl
  rw [lookup_definitions hn hk]
  rfl

/-- Every jump to a label of the code leads there. -/
def Resolved (m : Machine) : Prop :=
  ∀ (a : Nat) (l : String), m.code[a]? = some (.label l) → m.target l = a

theorem load_eq {is : List Instruction} (hn : (Code.labels is).Nodup)
    (ht : ∀ i ∈ is, ∀ l, i.target? = some l → l ∈ Code.labels is) :
    ∃ m, load is = .ok m ∧ m.code = is.toArray ∧ m.Resolved := by
  let table := (Code.definitions 0 is).reverse
  have hadd : addLabels [] 0 is = .ok table := addLabels_of_nodup hn
  have hmissing : missing? table 0 is = none := by
    have hpass := missing?_append
      (fun i hi l hl => isSome_lookup_definitions hn (ht i hi l hl)) 0 []
    rwa [List.append_nil] at hpass
  refine ⟨⟨is.toArray, table⟩, ?_, rfl, ?_⟩
  · simp only [load, hadd, bind, Except.bind, hmissing]
    rfl
  · intro a l ha
    rw [List.getElem?_toArray] at ha
    simp only [target, table, lookup_definitions hn ha, Option.getD_some]

end Machine

namespace Tree

theorem elseLabel_toList (n : Nat) :
    (elseLabel n).toList = ['e', 'l', 's', 'e', '_'] ++ n.repr.toList := by
  simp [elseLabel, toString]

theorem endLabel_toList (n : Nat) :
    (endLabel n).toList = ['e', 'n', 'd', '_'] ++ n.repr.toList := by
  simp [endLabel, toString]

/-- Labels that are made of one word and a number differ if their numbers do. -/
theorem label_injective {label : Nat → String} {word : List Char}
    (hlabel : ∀ n, (label n).toList = word ++ n.repr.toList) {a b : Nat}
    (h : label a = label b) : a = b := by
  have hl := congrArg String.toList h
  rw [hlabel, hlabel] at hl
  exact Nat.repr_injective (String.toList_inj.mp (List.append_cancel_left hl))

theorem elseLabel_ne_endLabel (a b : Nat) : elseLabel a ≠ endLabel b := by
  intro h
  have hl := congrArg String.toList h
  rw [elseLabel_toList, endLabel_toList] at hl
  simp at hl

/-- A label with a number from `a` up to but not including `b`. -/
def Minted (a b : Nat) (l : String) : Prop :=
  ∃ k, a ≤ k ∧ k < b ∧ (l = elseLabel k ∨ l = endLabel k)

theorem Minted.mono {a b a' b' : Nat} {l : String} (h : Minted a b l) (ha : a' ≤ a) (hb : b ≤ b') :
    Minted a' b' l := by
  obtain ⟨k, hak, hkb, hl⟩ := h
  exact ⟨k, by omega, by omega, hl⟩

/-- Labels from separate ranges differ. -/
theorem Minted.ne {a b c : Nat} {l l' : String} (h : Minted a b l) (h' : Minted b c l') :
    l ≠ l' := by
  rintro rfl
  obtain ⟨k, _, hkb, hl⟩ := h
  obtain ⟨k', hbk', _, hl'⟩ := h'
  have hk : k = k' := by
    rcases hl with rfl | rfl <;> rcases hl' with hl' | hl'
    · exact label_injective elseLabel_toList hl'
    · exact absurd hl' (elseLabel_ne_endLabel k k')
    · exact absurd hl'.symm (elseLabel_ne_endLabel k' k)
    · exact label_injective endLabel_toList hl'
  omega

/-- Code whose labels take the numbers from `a` to `b`, each once, and whose jumps lead forward
to labels of its own. -/
structure Fits (a b : Nat) (is : List Instruction) : Prop where
  le : a ≤ b
  minted : ∀ l ∈ Code.labels is, Minted a b l
  nodup : (Code.labels is).Nodup
  forward : Code.Forward is

theorem fits_nil (a : Nat) : Fits a a [] where
  le := Nat.le_refl a
  minted := by simp
  nodup := by simp
  forward := Code.forward_nil

/-- An instruction that neither defines a label nor jumps. -/
theorem fits_plain (a : Nat) {i : Instruction} (hl : i.label? = none) (ht : i.target? = none) :
    Fits a a [i] where
  le := Nat.le_refl a
  minted := by simp [Code.labels_cons_of_none hl]
  nodup := by simp [Code.labels_cons_of_none hl]
  forward := Code.forward_nil.cons (by simp [ht])

theorem Fits.append {a b c : Nat} {is js : List Instruction} (hi : Fits a b is)
    (hj : Fits b c js) : Fits a c (is ++ js) where
  le := Nat.le_trans hi.le hj.le
  minted := by
    intro l hl
    rw [Code.labels_append, List.mem_append] at hl
    rcases hl with hl | hl
    · exact (hi.minted l hl).mono (Nat.le_refl a) hj.le
    · exact (hj.minted l hl).mono hi.le (Nat.le_refl c)
  nodup := by
    rw [Code.labels_append, List.nodup_append]
    exact ⟨hi.nodup, hj.nodup, fun l hl l' hl' => (hi.minted l hl).ne (hj.minted l' hl')⟩
  forward := hi.forward.append hj.forward

/-- The labels of a conditional take the number before those of its parts. -/
theorem fits_conditional {n b c d : Nat} {cond body other : List Instruction}
    (hc : Fits (n + 1) b cond) (hs : Fits b c body) (ht : Fits c d other) :
    Fits n d (Code.conditional (elseLabel n) (endLabel n) cond body other) := by
  have hinner := (hc.append hs).append ht
  have hlt : n < d := hinner.le
  -- Where the two labels stand among those of the parts matters to the jumps only.
  have hperm : (Code.labels (Code.conditional (elseLabel n) (endLabel n) cond body other)).Perm
      (elseLabel n :: endLabel n :: Code.labels (cond ++ body ++ other)) := by
    rw [List.perm_iff_count]
    intro l
    simp only [Code.conditional, Code.labels_append, Code.labels_cons_label, Code.labels_cons_jump,
      Code.labels_cons_jumpIfFalse, Code.labels_nil, List.count_append, List.count_cons,
      List.count_nil]
    omega
  have helse : Minted n (n + 1) (elseLabel n) := ⟨n, by omega, by omega, Or.inl rfl⟩
  have hend : Minted n (n + 1) (endLabel n) := ⟨n, by omega, by omega, Or.inr rfl⟩
  refine ⟨Nat.le_of_lt hlt, ?_, ?_, ?_⟩
  · intro l hl
    rw [hperm.mem_iff, List.mem_cons, List.mem_cons] at hl
    rcases hl with rfl | rfl | hl
    · exact helse.mono (Nat.le_refl n) hlt
    · exact hend.mono (Nat.le_refl n) hlt
    · exact (hinner.minted l hl).mono (Nat.le_succ n) (Nat.le_refl d)
  · rw [hperm.nodup_iff, List.nodup_cons, List.nodup_cons, List.mem_cons]
    refine ⟨?_, ?_, hinner.nodup⟩
    · rintro (h | h)
      · exact elseLabel_ne_endLabel n n h
      · exact helse.ne (hinner.minted _ h) rfl
    · intro h
      exact hend.ne (hinner.minted _ h) rfl
  · have hstop := Code.forward_nil.cons (i := .label (endLabel n)) (by simp [Instruction.target?])
    have hother := (ht.forward.append hstop).cons (i := .label (elseLabel n))
      (by simp [Instruction.target?])
    have hbody := hs.forward.append (hother.cons (i := .jump (endLabel n))
      (by simp [Instruction.target?]))
    exact hc.forward.append (hbody.cons (by simp [Instruction.target?]))

theorem fits_lowerAll {ss : List Tree}
    (h : ∀ s ∈ ss, ∀ n, Fits n (n + s.branches) (s.lower n)) (n : Nat) :
    Fits n (n + branchesAll ss) (lowerAll n ss) := by
  induction ss generalizing n with
  | nil => exact fits_nil n
  | cons s ss ih =>
    have hs := h s (by simp) n
    have hss := ih (fun u hu => h u (by simp [hu])) (n + s.branches)
    rw [branchesAll, lowerAll, ← Nat.add_assoc]
    exact hs.append hss

/-- Every tree lowers to code with labels of its own. -/
theorem fits_lower (t : Tree) (n : Nat) : Fits n (n + t.branches) (t.lower n) := by
  induction t generalizing n with
  | number x | var x | boolean b => exact fits_plain n rfl rfl
  | unary op e ih | assign x e ih => exact (ih n).append (fits_plain _ rfl rfl)
  | binary op l r ihl ihr =>
    have hop : Fits (n + l.branches + r.branches) _ [.binary op] := fits_plain _ rfl rfl
    have h := ((ihl n).append (ihr (n + l.branches))).append hop
    rwa [Nat.add_assoc] at h
  | ifThen c s ihc ihs =>
    have h := fits_conditional (ihc (n + 1)) (ihs (n + 1 + c.branches)) (fits_nil _)
    have hn : n + (c.branches + s.branches + 1) = n + 1 + c.branches + s.branches := by omega
    rw [branches, hn]
    exact h
  | ifElse c s t ihc ihs iht =>
    have h := fits_conditional (ihc (n + 1)) (ihs (n + 1 + c.branches))
      (iht (n + 1 + c.branches + s.branches))
    have hn : n + (c.branches + s.branches + t.branches + 1) =
        n + 1 + c.branches + s.branches + t.branches := by omega
    rw [branches, hn]
    exact h
  | program ss ih => exact fits_lowerAll ih n

/-- The code of any list of trees can be loaded, and its jumps lead where they should. -/
theorem load_lowerAll (ss : List Tree) :
    ∃ m, Machine.load (lowerAll 0 ss) = .ok m ∧ m.code = (lowerAll 0 ss).toArray ∧ m.Resolved := by
  have h : Fits 0 (0 + branchesAll ss) (lowerAll 0 ss) := fits_lowerAll (fun s _ => fits_lower s) 0
  exact Machine.load_eq h.nodup h.forward.defined

end Tree

end StackLang
