import StackLang.Proofs.StoreChanges

namespace StackLang

namespace Tree

/-- The statements that set each of `names` to zero. -/
def zeros (names : List String) : List Tree := names.map fun x => .assign x (.number 0)

end Tree

/-- The second store is the first one with zeros for those of `names` that the first one lacks. -/
def Store.Padded (names : List String) (store padded : Store) : Prop :=
  ∀ x, padded[x]? = store[x]?.or (if x ∈ names then some 0 else none)

namespace Store

variable {names : List String} {store padded : Store}

theorem Padded.eq (h : Padded [] store padded) : padded = store := by
  apply Std.ExtTreeMap.ext_getElem?
  intro x
  simpa using h x

theorem Padded.insert (h : Padded names store padded) (x : String) (v : Float) :
    Padded names (store.insert x v) (padded.insert x v) := by
  intro y
  rw [Std.ExtTreeMap.getElem?_insert, Std.ExtTreeMap.getElem?_insert]
  split
  · rfl
  · exact h y

end Store

namespace Evaluation

variable {α β : Type} {limit : Nat} {names : List String} {missing : String → Prop}

/-- From sessions of one depth whose stores differ by the zeros for `names`, the strict evaluation
`q` ends like the lenient one `p`, or it fails at one of the `missing` variables. -/
def Mirrors (names : List String) (missing : String → Prop) (p q : Evaluation α) : Prop :=
  ∀ s t, t.depth = s.depth → Store.Padded names s.store t.store →
    match q t with
    | .ok a t' => ∃ s', p s = .ok a s' ∧ t'.depth = s'.depth ∧ Store.Padded names s'.store t'.store
    | .error e _ => (∃ x, missing x ∧ e = .undefinedVariable x) ∨
      (∃ s', p s = .error e s') ∧ ∀ x, e ≠ .undefinedVariable x

theorem mirrors_pure (a : α) : Mirrors names missing (pure a) (pure a) :=
  fun s _ hdepth hstore => ⟨s, rfl, hdepth, hstore⟩

theorem mirrors_throw {e : EvalError} (he : ∀ x, e ≠ .undefinedVariable x) :
    Mirrors names missing (throw e : Evaluation α) (throw e) :=
  fun s _ _ _ => .inr ⟨⟨s, rfl⟩, he⟩

theorem mirrors_write (x : String) (v : Float) :
    Mirrors names missing (write x v) (write x v) :=
  fun _ _ hdepth hstore => ⟨_, rfl, hdepth, hstore.insert x v⟩

/-- A variable that neither store has is one of the missing ones. -/
theorem mirrors_read {x : String} (hx : x ∈ names ∨ missing x) :
    Mirrors names missing (read ⟨true, limit⟩ x) (read ⟨false, limit⟩ x) := by
  intro s t hdepth hstore
  rw [read_eq, read_eq, hstore x]
  cases s.store[x]? with
  | some v => exact ⟨s, rfl, hdepth, hstore⟩
  | none =>
    by_cases hmem : x ∈ names
    · rw [if_pos hmem]
      exact ⟨_, rfl, hdepth, hstore⟩
    · rw [if_neg hmem]
      exact .inl ⟨x, hx.resolve_left hmem, rfl⟩

/-- Both sides are cut off at the same depth. -/
theorem mirrors_nested {p q : Evaluation α} (h : Mirrors names missing p q) :
    Mirrors names missing (nested ⟨true, limit⟩ p) (nested ⟨false, limit⟩ q) := by
  intro s t hdepth hstore
  unfold nested
  rw [hdepth]
  by_cases hlimit : limit ≤ s.depth
  · rw [if_pos hlimit, if_pos hlimit]
    exact .inr ⟨⟨s, rfl⟩, by simp⟩
  · rw [if_neg hlimit, if_neg hlimit]
    have hinner := h { s with depth := s.depth + 1 } { t with depth := s.depth + 1 } rfl hstore
    cases hq : q { t with depth := s.depth + 1 } with
    | ok a t' =>
      rw [hq] at hinner
      obtain ⟨s', hp, hdepth', hstore'⟩ := hinner
      rw [hp]
      exact ⟨_, rfl, congrArg (· - 1) hdepth', hstore'⟩
    | error e t' =>
      rw [hq] at hinner
      apply hinner.imp_right
      rintro ⟨⟨s', hp⟩, he⟩
      rw [hp]
      exact ⟨⟨_, rfl⟩, he⟩

theorem mirrors_bind {p q : Evaluation α} {f g : α → Evaluation β}
    (hp : Mirrors names missing p q) (hf : ∀ a, Mirrors names missing (f a) (g a)) :
    Mirrors names missing (p >>= f) (q >>= g) := by
  intro s t hdepth hstore
  have hfirst := hp s t hdepth hstore
  simp only [bind, EStateM.bind]
  cases hq : q t with
  | ok a t' =>
    rw [hq] at hfirst
    obtain ⟨s', hs, hdepth', hstore'⟩ := hfirst
    rw [hs]
    exact hf a s' t' hdepth' hstore'
  | error e t' =>
    rw [hq] at hfirst
    apply hfirst.imp_right
    rintro ⟨⟨s', hs⟩, he⟩
    rw [hs]
    exact ⟨⟨s', rfl⟩, he⟩

/-- The two policies part only where a variable is read that neither store has. -/
theorem closed_mirrors :
    Closed ⟨true, limit⟩ ⟨false, limit⟩ (fun x => x ∈ names ∨ missing x) (fun _ => True)
      fun _ => Mirrors names missing where
  pure := mirrors_pure
  throw := mirrors_throw
  read := mirrors_read
  write v _ := mirrors_write _ v
  bind := mirrors_bind
  nested := mirrors_nested

/-- An assignment of a number takes two levels and does not fail. -/
theorem exec_zero {o : EvalOptions} {s : Session} (h : s.depth + 2 ≤ o.limit) (x : String) :
    exec o (.assign x (.number 0)) s = .ok () { s with store := s.store.insert x 0 } := by
  have hfirst : ¬ o.limit ≤ s.depth := by omega
  have hsecond : ¬ o.limit ≤ s.depth + 1 := by omega
  simp only [exec, value, nested, bind, EStateM.bind, if_neg hfirst, if_neg hsecond]
  rfl

theorem execAll_zeros {o : EvalOptions} {s : Session} (h : names = [] ∨ s.depth + 2 ≤ o.limit) :
    ∃ t, execAll o (Tree.zeros names) s = .ok () t ∧ t.depth = s.depth ∧
      ∀ x, t.store[x]? = if x ∈ names then some 0 else s.store[x]? := by
  induction names generalizing s with
  | nil => exact ⟨s, rfl, rfl, fun x => by simp⟩
  | cons z names ih =>
    have hroom : s.depth + 2 ≤ o.limit := h.resolve_left (List.cons_ne_nil z names)
    obtain ⟨t, ht, hdepth, hstore⟩ :=
      ih (s := { s with store := s.store.insert z 0 }) (.inr hroom)
    refine ⟨t, ?_, hdepth, ?_⟩
    · simp only [Tree.zeros, List.map_cons, execAll, bind, EStateM.bind, exec_zero hroom]
      exact ht
    · intro x
      rw [hstore, Std.ExtTreeMap.getElem?_insert]
      by_cases hx : x ∈ names
      · simp [hx]
      · by_cases hz : z = x
        · simp [hz]
        · simp [hx, hz, Ne.symm hz]

theorem execAll_append {o : EvalOptions} {ss us : List Tree} {s t : Session}
    (h : execAll o ss s = .ok () t) : execAll o (ss ++ us) s = execAll o us t := by
  induction ss generalizing s with
  | nil =>
    cases h
    rfl
  | cons u ss ih =>
    simp only [List.cons_append, execAll, bind, EStateM.bind] at h ⊢
    cases hr : exec o u s with
    | ok a s' =>
      rw [hr] at h
      exact ih h
    | error e s' =>
      rw [hr] at h
      cases h

/-- Two answers that differ by the zeros for `names` only. -/
def Alike (names : List String) : Except EvalError Store → Except EvalError Store → Prop
  | .ok store, .ok padded => Store.Padded names store padded
  | .error e, .error e' => e = e'
  | _, _ => False

/-- A lenient program and the strict one over zeros answer alike, unless the strict one misses a
variable that it was not given. -/
theorem program_alike (missing : String → Prop) {ss : List Tree}
    (hreads : ∀ x ∈ Tree.readsAll ss, x ∈ names ∨ missing x)
    (hroom : names = [] ∨ 2 ≤ limit) (s t : Session) :
    (∃ x, missing x ∧ answer (program ⟨false, limit⟩ (Tree.zeros names ++ ss) t) =
      .error (.undefinedVariable x)) ∨
    Alike names (answer (program ⟨true, limit⟩ ss s))
      (answer (program ⟨false, limit⟩ (Tree.zeros names ++ ss) t)) ∧
      ∀ x, answer (program ⟨true, limit⟩ ss s) ≠ .error (.undefinedVariable x) := by
  -- Both start on empty stores; after the zeros the strict one has them.
  obtain ⟨t', hzeros, hdepth, hlookup⟩ :=
    execAll_zeros (o := ⟨false, limit⟩) (s := { t with store := ∅, depth := 0 })
      (hroom.imp_right fun h => by simpa using h)
  have hpadded : Store.Padded names (∅ : Store) t'.store := by
    intro x
    rw [hlookup x]
    simp
  have hboth : Mirrors names missing (execAll ⟨true, limit⟩ ss) (execAll ⟨false, limit⟩ ss) :=
    closed_mirrors.execAll hreads fun _ _ => trivial
  have hmirror := hboth { s with store := ∅, depth := 0 } t' hdepth hpadded
  simp only [program, execAll_append hzeros]
  cases hq : execAll ⟨false, limit⟩ ss t' with
  | ok a t'' =>
    rw [hq] at hmirror
    obtain ⟨s', hp, -, hstore⟩ := hmirror
    rw [hp]
    refine .inr ⟨hstore, fun x hx => ?_⟩
    cases hx
  | error e t'' =>
    rw [hq] at hmirror
    rcases hmirror with ⟨x, hx, rfl⟩ | ⟨⟨s', hp⟩, he⟩
    · exact .inl ⟨x, hx, rfl⟩
    · rw [hp]
      refine .inr ⟨rfl, fun x hx => he x ?_⟩
      cases hx
      rfl

theorem Alike.eq {r r' : Except EvalError Store} (h : Alike [] r r') : r = r' := by
  cases r with
  | ok store =>
    cases r' with
    | ok padded => rw [Store.Padded.eq h]
    | error e' => cases h
  | error e =>
    cases r' with
    | ok padded => cases h
    | error e' => exact congrArg _ h

/-- Where the strict policy misses no variable, the lenient one answers the same. -/
theorem lenient_of_strict {ss : List Tree} {s t : Session}
    (h : ∀ x, answer (program ⟨false, limit⟩ ss t) ≠ .error (.undefinedVariable x)) :
    answer (program ⟨true, limit⟩ ss s) = answer (program ⟨false, limit⟩ ss t) := by
  have hreads : ∀ x ∈ Tree.readsAll ss, x ∈ ([] : List String) ∨ True := fun _ _ => .inr trivial
  rcases program_alike (fun _ => True) hreads (.inl rfl) s t with ⟨x, -, hx⟩ | ⟨halike, -⟩
  · exact absurd hx (h x)
  · exact halike.eq

/-- A program assigns every variable that it leaves. -/
theorem mem_targetsAll_of_program {o : EvalOptions} {ss : List Tree} {s : Session} {store : Store}
    (h : answer (program o ss s) = .ok store) {x : String} (hx : x ∈ store) :
    x ∈ Tree.targetsAll ss := by
  by_contra htarget
  have hframe := frame_execAll (o := o) ss { s with store := ∅, depth := 0 } x htarget
  simp only [program] at h
  cases hr : execAll o ss { s with store := ∅, depth := 0 } with
  | error e t =>
    rw [hr] at h
    cases h
  | ok a t =>
    rw [hr] at h hframe
    cases h
    simp only [left, Std.ExtTreeMap.getElem?_empty] at hframe
    rw [Std.ExtTreeMap.mem_iff_isSome_getElem?, hframe] at hx
    cases hx

/-- A program that is given every variable it may read as zero answers, under the strict policy and
with room for an assignment, what the program itself answers under the lenient policy: the same
error, or its store and zeros for exactly those of `names` that its store lacks. The lenient policy
misses no variable. It adds none to the store either: no expression changes the store, and every
variable of the final one is a target of the program. It answers what the strict policy answers
unless that one misses a variable. -/
theorem lenient_program_over_zeros {limit : Nat} (hlimit : 2 ≤ limit) {ss : List Tree}
    {names : List String} (hreads : ∀ x ∈ Tree.readsAll ss, x ∈ names) (s t u : Session) :
    let lenient := answer (program ⟨true, limit⟩ ss s)
    Alike names lenient (answer (program ⟨false, limit⟩ (Tree.zeros names ++ ss) t)) ∧
    (∀ x, lenient ≠ .error (.undefinedVariable x)) ∧
    (∀ e s, (left (value ⟨true, limit⟩ e s)).store = s.store) ∧
    (∀ store, lenient = .ok store → ∀ x ∈ store, x ∈ Tree.targetsAll ss) ∧
    ((∀ x, answer (program ⟨false, limit⟩ ss u) ≠ .error (.undefinedVariable x)) →
      lenient = answer (program ⟨false, limit⟩ ss u)) := by
  intro lenient
  have hnames : ∀ x ∈ Tree.readsAll ss, x ∈ names ∨ False := fun x hx => .inl (hreads x hx)
  -- No variable is missing, so the strict program fails at none.
  rcases program_alike (fun _ => False) hnames (.inr hlimit) s t with
    ⟨x, hx, -⟩ | ⟨halike, hdefined⟩
  · cases hx
  · refine ⟨halike, hdefined, fun e s => keeps_value e s, ?_, lenient_of_strict⟩
    intro store hstore x hx
    exact mem_targetsAll_of_program hstore hx

/-- Statements that read `a` in a condition and `d` in a value before anything is assigned. -/
def defaultedReads : List Tree :=
  [.ifElse (.var "a") (.assign "b" (.number 1)) (.assign "c" (.binary .sub (.number 2) (.var "d"))),
    .program [.assign "a" (.binary .div (.var "c") (.number 4)), .var "b"]]

-- The strict policy misses `a`. Over zeros it ends with `a`, `c` and the names that are never
-- assigned, of which `e` is not read either.
theorem defaultedReads_over_zeros :
    2 ≤ 4 ∧ (∀ x ∈ Tree.readsAll defaultedReads, x ∈ ["d", "a", "b", "a", "e", "c"]) ∧
    (answer (program ⟨false, 4⟩ defaultedReads .start)).map (·.size) =
      .error (.undefinedVariable "a") ∧
    ∃ store padded, answer (program ⟨true, 4⟩ defaultedReads .start) = .ok store ∧
      answer (program ⟨false, 4⟩
        (Tree.zeros ["d", "a", "b", "a", "e", "c"] ++ defaultedReads) .start) = .ok padded ∧
      Store.Padded ["d", "a", "b", "a", "e", "c"] store padded ∧ store.size = 2 ∧
      ∀ x ∈ store, x ∈ Tree.targetsAll defaultedReads := by
  have hreads : ∀ x ∈ Tree.readsAll defaultedReads, x ∈ ["d", "a", "b", "a", "e", "c"] := by decide
  have hsize : (answer (program ⟨true, 4⟩ defaultedReads .start)).map (·.size) = .ok 2 := by
    decide +kernel
  have hboth := lenient_program_over_zeros (by decide : 2 ≤ 4) hreads .start .start .start
  refine ⟨by decide, hreads, by decide +kernel, ?_⟩
  dsimp only at hboth
  generalize answer (program ⟨true, 4⟩ defaultedReads .start) = r at hsize hboth ⊢
  generalize answer (program ⟨false, 4⟩ (Tree.zeros _ ++ defaultedReads) .start) = r' at hboth ⊢
  obtain ⟨halike, -, -, htargets, -⟩ := hboth
  cases r with
  | error e => cases hsize
  | ok store =>
    cases r' with
    | error e => cases halike
    | ok padded =>
      exact ⟨store, padded, rfl, rfl, halike, Except.ok.inj hsize, htargets store rfl⟩

end Evaluation

end StackLang
