import StackLang.Proofs.LabelResolution
import StackLang.Proofs.NumberText

namespace StackLang

/-- The text ends in the given way. -/
def EndsIn (s ending : String) : Prop := ending.toList <:+ s.toList

theorem endsIn_append (s ending : String) : EndsIn (s ++ ending) ending := by
  rw [EndsIn, String.toList_append]
  exact List.suffix_append _ _

namespace Code

variable {is : List Instruction} {i : Instruction} {l : String} {a t : Nat}

/-- A number that is written in decimal and right-aligned to at least the given number of
columns. -/
structure Aligned (columns n : Nat) (s : String) : Prop where
  blanks : ∃ k, s.toList = List.replicate k ' ' ++ (toString n).toList
  length : s.length = max columns (toString n).length

theorem aligned_addressText (a : Nat) : Aligned 4 a (addressText a) where
  blanks := ⟨4 - (toString a).length, by simp [addressText]⟩
  length := by
    simp only [addressText, String.length_append, String.length_ofList, List.length_replicate]
    omega

/-- The address at which a label is defined last. -/
structure LastDefinition (is : List Instruction) (l : String) (t : Nat) : Prop where
  defined : is[t]? = some (.label l)
  last : ∀ k, t < k → is[k]? ≠ some (.label l)

theorem definitions_append (a : Nat) (is js : List Instruction) :
    definitions a (is ++ js) = definitions a is ++ definitions (a + is.length) js := by
  induction is generalizing a with
  | nil => rfl
  | cons i is ih =>
    have hlength : a + (i :: is).length = a + 1 + is.length := by
      rw [List.length_cons]
      omega
    rw [hlength, List.cons_append]
    cases i with
    | label l => exact congrArg ((l, a) :: ·) (ih (a + 1))
    | _ => exact ih (a + 1)

/-- The table of the listing has the last definition of each label. -/
theorem lastDefinition_of_lookup (h : (definitions 0 is).reverse.lookup l = some t) :
    LastDefinition is l t := by
  induction is using List.reverseRecOn with
  | nil => cases h
  | append_singleton is i ih =>
    rw [definitions_append, List.reverse_append, Nat.zero_add] at h
    by_cases hi : i = .label l
    · subst hi
      obtain rfl : is.length = t := by simpa [definitions] using h
      refine ⟨by simp, fun k hk => ?_⟩
      have hend : (is ++ [Instruction.label l]).length ≤ k := by
        rw [List.length_append, List.length_singleton]
        omega
      simp [List.getElem?_eq_none hend]
    · -- The last instruction does not define the label, so the table before it decides.
      have hbefore : (definitions 0 is).reverse.lookup l = some t := by
        cases i with
        | label l' =>
          have hne : l ≠ l' := by
            rintro rfl
            exact hi rfl
          rwa [definitions, definitions, List.reverse_singleton, List.singleton_append,
            List.lookup_cons, beq_false_of_ne hne] at h
        | _ => exact h
      obtain ⟨hdefined, hlast⟩ := ih hbefore
      have hlt := (List.getElem?_eq_some_iff.mp hdefined).1
      refine ⟨by rw [List.getElem?_append_left hlt, hdefined], fun k hk => ?_⟩
      by_cases hin : k < is.length
      · rw [List.getElem?_append_left hin]
        exact hlast k hk
      · rw [List.getElem?_append_right (by omega), List.getElem?_singleton]
        split
        · simpa using hi
        · simp

theorem not_mem_labels_of_lookup (h : (definitions 0 is).reverse.lookup l = none) :
    l ∉ labels is := by
  rw [List.lookup_eq_none_iff] at h
  intro hl
  rw [← map_fst_definitions is 0] at hl
  obtain ⟨x, hx, rfl⟩ := List.mem_map.mp hl
  have hne := h x (List.mem_reverse.mpr hx)
  simp at hne

/-- The entries of a listing, in order. -/
def entries (is : List Instruction) : List String :=
  is.mapIdx (line (definitions 0 is).reverse)

/-- What the entry of an instruction shows after the address: labels are outdented, and a jump
shows the last definition of its label or that there is none. -/
inductive Shows (is : List Instruction) : Instruction → String → Prop where
  | label (l : String) : Shows is (.label l) s!"  {l}:\n"
  | plain {i : Instruction} : i.label? = none → i.target? = none →
    Shows is i s!"      {i.text}\n"
  | resolved {i : Instruction} {l : String} {t : Nat} : i.target? = some l →
    LastDefinition is l t → Shows is i s!"      {i.text} (to @{t})\n"
  | unresolved {i : Instruction} {l : String} : i.target? = some l → l ∉ labels is →
    Shows is i s!"      {i.text} (unresolved)\n"

theorem line_shows (is : List Instruction) (a : Nat) (i : Instruction) :
    ∃ rest, line (definitions 0 is).reverse a i = addressText a ++ rest ∧ Shows is i rest := by
  have hmargin : toString (addressText a) = addressText a := rfl
  cases i with
  | label l => exact ⟨_, by simp [line, hmargin, String.append_assoc], .label l⟩
  | jump l | jumpIfFalse l =>
    cases h : (definitions 0 is).reverse.lookup l with
    | some t =>
      refine ⟨_, ?_, .resolved rfl (lastDefinition_of_lookup h)⟩
      simp [line, hmargin, Instruction.target?, h, String.append_assoc]
    | none =>
      refine ⟨_, ?_, .unresolved rfl (not_mem_labels_of_lookup h)⟩
      simp [line, hmargin, Instruction.target?, h, String.append_assoc]
  | _ =>
    refine ⟨_, ?_, .plain rfl rfl⟩
    simp [line, hmargin, Instruction.target?, String.append_assoc]

/-- The entry at an address shows the instruction that stands there. -/
theorem exists_entry (h : is[a]? = some i) :
    ∃ rest, (entries is)[a]? = some (addressText a ++ rest) ∧ Shows is i rest := by
  obtain ⟨rest, hline, hshows⟩ := line_shows is a i
  refine ⟨rest, ?_, hshows⟩
  rw [entries, List.getElem?_mapIdx, h, Option.map_some, hline]

/-- A resolved jump does not look like an unresolved one: the last character before the bracket
that is closed is a digit. -/
theorem not_endsIn_unresolved (s : String) (t : Nat) :
    ¬ EndsIn (s ++ s!" (to @{t})\n") "(unresolved)\n" := by
  intro h
  obtain ⟨hne, hdigit⟩ := Number.isDigits_toDigits t
  obtain ⟨ds, x, hx⟩ : ∃ ds x, Nat.toDigits 10 t = ds ++ [x] :=
    ⟨_, _, (List.dropLast_append_getLast hne).symm⟩
  have hlast : [x, ')', '\n'] <:+ (s ++ s!" (to @{t})\n").toList := by
    refine ⟨s.toList ++ (" (to @".toList ++ ds), ?_⟩
    simp [toString, hx]
  have hletter : ['d', ')', '\n'] <:+ (s ++ s!" (to @{t})\n").toList := by
    apply List.IsSuffix.trans _ h
    decide
  have heq : ['d', ')', '\n'] = [x, ')', '\n'] :=
    (List.suffix_of_suffix_length_le hletter hlast (Nat.le_refl 3)).eq_of_length rfl
  obtain rfl : 'd' = x := (List.cons.inj heq).1
  have hfalse := hdigit 'd' (by simp [hx])
  revert hfalse
  decide

theorem Shows.endsIn_target {rest : String} (h : Shows is i rest) (hi : i.target? = some l)
    (hl : l ∈ labels is) (margin : String) :
    ∃ t, LastDefinition is l t ∧ EndsIn (margin ++ rest) s!"(to @{t})\n" := by
  cases h with
  | label | plain => simp_all [Instruction.target?]
  | @resolved _ l' t hi' hlast =>
    obtain rfl : l = l' := Option.some.inj (hi.symm.trans hi')
    refine ⟨t, hlast, ?_⟩
    have hsplit : margin ++ s!"      {i.text} (to @{t})\n" =
        (margin ++ s!"      {i.text} ") ++ s!"(to @{t})\n" := by
      simp [toString, ← String.toList_inj]
    rw [hsplit]
    exact endsIn_append _ _
  | unresolved hi' hnot =>
    cases hi.symm.trans hi'
    exact absurd hl hnot

/-- Among the entries of jumps, those without a definition can be told by how they end. -/
theorem Shows.endsIn_unresolved_iff {rest : String} (h : Shows is i rest) (hi : i.target? = some l)
    (margin : String) : EndsIn (margin ++ rest) "(unresolved)\n" ↔ l ∉ labels is := by
  cases h with
  | label | plain => simp_all [Instruction.target?]
  | @resolved _ l' t hi' hlast =>
    obtain rfl : l = l' := Option.some.inj (hi.symm.trans hi')
    have hsplit : margin ++ s!"      {i.text} (to @{t})\n" =
        (margin ++ s!"      {i.text}") ++ s!" (to @{t})\n" := by
      simp [String.append_assoc]
    rw [hsplit]
    exact iff_of_false (not_endsIn_unresolved _ t) fun hnot =>
      hnot (mem_labels.mpr ⟨t, hlast.defined⟩)
  | unresolved hi' hnot =>
    cases hi.symm.trans hi'
    refine iff_of_true ?_ hnot
    have hsplit : margin ++ s!"      {i.text} (unresolved)\n" =
        (margin ++ s!"      {i.text} ") ++ "(unresolved)\n" := by
      simp [toString, ← String.toList_inj]
    rw [hsplit]
    exact endsIn_append _ _

/-- The entry at the address belongs to a jump and shows no target. -/
def Unresolved (is : List Instruction) (a : Nat) : Prop :=
  ∃ i l e, is[a]? = some i ∧ i.target? = some l ∧ (entries is)[a]? = some e ∧
    EndsIn e "(unresolved)\n"

theorem unresolved_iff :
    Unresolved is a ↔ ∃ i l, is[a]? = some i ∧ i.target? = some l ∧ l ∉ labels is := by
  constructor
  · rintro ⟨i, l, e, hi, hl, he, hends⟩
    obtain ⟨rest, hentry, hshows⟩ := exists_entry hi
    obtain rfl : e = addressText a ++ rest := Option.some.inj (he.symm.trans hentry)
    exact ⟨i, l, hi, hl, (hshows.endsIn_unresolved_iff hl _).mp hends⟩
  · rintro ⟨i, l, hi, hl, hnot⟩
    obtain ⟨rest, hentry, hshows⟩ := exists_entry hi
    exact ⟨i, l, _, hi, hl, hentry, (hshows.endsIn_unresolved_iff hl _).mpr hnot⟩

/-- Without repeated labels, loading fails at the first entry that shows no target. -/
theorem load_unresolved_iff (hn : (labels is).Nodup) :
    (∃ l, Machine.load is = .error (.unresolvedLabel l a)) ↔
      Unresolved is a ∧ ∀ k < a, ¬ Unresolved is k := by
  by_cases hd : Defined is
  · -- Every jump is shown with a target, and the code can be loaded.
    obtain ⟨m, hload, -, -⟩ := Machine.load_eq hn hd
    have hnone : ¬ Unresolved is a := by
      rw [unresolved_iff]
      rintro ⟨i, l, hi, hl, hnot⟩
      exact hnot (hd i (List.mem_of_getElem? hi) l hl)
    refine iff_of_false ?_ fun h => hnone h.1
    rintro ⟨l, hfails⟩
    cases hload.symm.trans hfails
  · obtain ⟨front, i, l, back, rfl, hi, hl, hfront⟩ := exists_first_missing hd
    have hload := Machine.load_of_missing hn hi hl hfront
    have hhere : Unresolved (front ++ i :: back) front.length :=
      unresolved_iff.mpr ⟨i, l, by simp, hi, hl⟩
    have hbefore : ∀ k < front.length, ¬ Unresolved (front ++ i :: back) k := by
      intro k hk hunresolved
      obtain ⟨j, l', hj, hl', hnot⟩ := unresolved_iff.mp hunresolved
      rw [List.getElem?_append_left hk] at hj
      exact hnot (hfront j (List.mem_of_getElem? hj) l' hl')
    constructor
    · rintro ⟨l', hfails⟩
      cases hload.symm.trans hfails
      exact ⟨hhere, hbefore⟩
    · -- There is only one first entry.
      rintro ⟨hunresolved, hfirst⟩
      obtain rfl : front.length = a := by
        apply Nat.le_antisymm
        · exact Nat.le_of_not_lt fun hlt => hbefore a hlt hunresolved
        · exact Nat.le_of_not_lt fun hlt => hfirst _ hlt hhere
      exact ⟨l, hload⟩

/-- A listing is made of one entry for each instruction, in order, which starts with the aligned
address and shows the instruction. If the code can be loaded, every jump is shown with the address
that the machine jumps to. If no label is defined twice, a jump is shown without an address if and
only if its label has no definition, and the first such entry is where loading fails. -/
theorem listing_shows_jumps (is : List Instruction) :
    (ofInstructions is).listing = String.join (entries is) ∧
    (entries is).length = is.length ∧
    (∀ (a : Nat) (i : Instruction), is[a]? = some i → ∃ margin rest,
      (entries is)[a]? = some (margin ++ rest) ∧ Aligned 4 a margin ∧ Shows is i rest) ∧
    (∀ m, Machine.load is = .ok m → ∀ (a : Nat) (i : Instruction) (l : String),
      is[a]? = some i → i.target? = some l →
        ∃ e, (entries is)[a]? = some e ∧ EndsIn e s!"(to @{m.target l})\n") ∧
    ((labels is).Nodup →
      (∀ (a : Nat) (i : Instruction) (l : String), is[a]? = some i → i.target? = some l →
        ∃ e, (entries is)[a]? = some e ∧
          (EndsIn e "(unresolved)\n" ↔ ∀ k : Nat, is[k]? ≠ some (.label l))) ∧
      ∀ pc, (∃ l, Machine.load is = .error (.unresolvedLabel l pc)) ↔
        Unresolved is pc ∧ ∀ k < pc, ¬ Unresolved is k) := by
  refine ⟨rfl, List.length_mapIdx, ?_, ?_, ?_⟩
  · intro a i hi
    obtain ⟨rest, hentry, hshows⟩ := exists_entry hi
    exact ⟨addressText a, rest, hentry, aligned_addressText a, hshows⟩
  · intro m hload a i l hi hl
    obtain ⟨rest, hentry, hshows⟩ := exists_entry hi
    have hmem := List.mem_of_getElem? hi
    obtain ⟨t, hlast, hends⟩ :=
      hshows.endsIn_target hl (Machine.defined_of_load hload i hmem l hl) (addressText a)
    -- The last definition is the only one, and the machine has it too.
    obtain ⟨b, hunique, -, htarget⟩ := Machine.exists_address hload hmem hl
    have ht : m.target l = t := htarget.trans ((hunique t).mp hlast.defined).symm
    rw [ht]
    exact ⟨_, hentry, hends⟩
  · intro hn
    refine ⟨fun a i l hi hl => ?_, fun pc => load_unresolved_iff hn⟩
    obtain ⟨rest, hentry, hshows⟩ := exists_entry hi
    refine ⟨_, hentry, ?_⟩
    rw [hshows.endsIn_unresolved_iff hl, mem_labels, not_exists]

/-- A loop with a jump back and one out. -/
def circularCode : List Instruction :=
  [.label "top", .load "x", .jumpIfFalse "end", .jump "top", .label "end"]

/-- Two jumps without a label after one that has its label. -/
def severedCode : List Instruction :=
  [.jump "b", .push 1, .jumpIfFalse "a", .label "b", .jump "c"]

theorem circularCode_listing_shows :
    (∃ m, Machine.load circularCode = .ok m ∧
      ∃ e, (entries circularCode)[2]? = some e ∧
        EndsIn e ("(to @" ++ toString (m.target "end") ++ ")\n")) ∧
    (labels severedCode).Nodup ∧
      Machine.load severedCode = .error (.unresolvedLabel "a" 2) ∧
      Unresolved severedCode 2 ∧ (∀ k < 2, ¬ Unresolved severedCode k) ∧
      ∃ margin rest, (entries severedCode)[4]? = some (margin ++ rest) ∧ Aligned 4 4 margin ∧
        Shows severedCode (.jump "c") rest := by
  obtain ⟨-, -, -, htargets, -⟩ := listing_shows_jumps circularCode
  obtain ⟨-, -, hentries, -, hunresolved⟩ := listing_shows_jumps severedCode
  have hload : Machine.load circularCode = .ok ⟨_, [("end", 4), ("top", 0)]⟩ := rfl
  have hfails : Machine.load severedCode = .error (.unresolvedLabel "a" 2) := rfl
  have hnodup : (labels severedCode).Nodup := by decide
  obtain ⟨hhere, hbefore⟩ := ((hunresolved hnodup).2 2).mp ⟨"a", hfails⟩
  exact ⟨⟨_, hload, htargets _ hload 2 (.jumpIfFalse "end") "end" rfl rfl⟩, hnodup, hfails, hhere,
    hbefore, hentries 4 (.jump "c") rfl⟩

end Code

end StackLang
