import Mathlib.Data.List.DropRight
import Mathlib.Data.Prod.Lex
import StackLang.Proofs.ErrorPlaces

namespace StackLang

namespace Lines

/-- The offsets after each line feed; the first character has the given offset. -/
def feeds (offset : Nat) : List Char → List Nat
  | [] => []
  | c :: cs =>
    let next := offset + c.utf8Size
    if c = '\n' then next :: feeds next cs else feeds next cs

/-- The offsets at which the lines of a text start. -/
def starts (source : String) : List Nat := 0 :: feeds 0 source.toList

/-- The text between two offsets. There is none if they are in the wrong order, or if one of them
is inside a character or beyond the end. -/
def slice? (source : String) (start stop : Nat) : Option String :=
  if h : String.Pos.Raw.IsValid source ⟨start⟩ ∧ String.Pos.Raw.IsValid source ⟨stop⟩ ∧
      start ≤ stop then
    some (source.extract (source.pos ⟨start⟩ h.1) (source.pos ⟨stop⟩ h.2.1))
  else none

/-- The line and the column of an offset. The line is the number of lines that start no later, and
the column counts the characters since the last of them starts. -/
def position? (source : String) (offset : Nat) : Option (Nat × Nat) :=
  match ((starts source).takeWhile (· ≤ offset)).length with
  | 0 => none
  | k + 1 =>
    ((starts source)[k]?).bind fun start =>
      (slice? source start offset).map fun front => (k + 1, front.length + 1)

section Feeds

variable {cs ds : List Char} {n : Nat}

theorem feeds_append (offset : Nat) (cs ds : List Char) : feeds offset (cs ++ ds) =
    feeds offset cs ++ feeds (offset + (String.ofList cs).utf8ByteSize) ds := by
  induction cs generalizing offset with
  | nil => rfl
  | cons c cs ih =>
    rw [List.cons_append, feeds, feeds, ih, size_cons, Nat.add_assoc]
    split <;> rfl

/-- A line that is not the first starts after a character of the text. -/
theorem bounds_of_mem_feeds {offset : Nat} (h : n ∈ feeds offset cs) :
    offset < n ∧ n ≤ offset + (String.ofList cs).utf8ByteSize := by
  induction cs generalizing offset with
  | nil => cases h
  | cons c cs ih =>
    have hpos := c.utf8Size_pos
    have hlater (h : n ∈ feeds (offset + c.utf8Size) cs) :
        offset < n ∧ n ≤ offset + (c.utf8Size + (String.ofList cs).utf8ByteSize) := by
      have hbounds := ih h
      omega
    rw [size_cons]
    simp only [feeds] at h
    split at h
    · rcases List.mem_cons.mp h with rfl | h
      · omega
      · exact hlater h
    · exact hlater h

theorem length_feeds (offset : Nat) (cs : List Char) :
    (feeds offset cs).length = cs.count '\n' := by
  induction cs generalizing offset with
  | nil => rfl
  | cons c cs ih =>
    simp only [feeds]
    split
    · next hc => rw [List.length_cons, ih, hc, List.count_cons_self]
    · next hc => rw [ih, List.count_cons_of_ne hc]

theorem feeds_sorted (offset : Nat) (cs : List Char) : (feeds offset cs).Pairwise (· < ·) := by
  induction cs generalizing offset with
  | nil => exact .nil
  | cons c cs ih =>
    simp only [feeds]
    split
    · exact .cons (fun n hn => (bounds_of_mem_feeds hn).1) (ih _)
    · exact ih _

theorem starts_sorted (source : String) : (starts source).Pairwise (· < ·) :=
  .cons (fun _ hn => (bounds_of_mem_feeds hn).1) (feeds_sorted 0 source.toList)

theorem starts_append (before rest : String) :
    starts (before ++ rest) = starts before ++ feeds before.utf8ByteSize rest.toList := by
  rw [starts, String.toList_append, feeds_append, String.ofList_toList, Nat.zero_add]
  rfl

/-- What comes after an offset starts no line before it. -/
theorem takeWhile_starts (before rest : String) :
    (starts (before ++ rest)).takeWhile (· ≤ before.utf8ByteSize) = starts before := by
  have hbefore : ∀ n ∈ starts before, decide (n ≤ before.utf8ByteSize) = true := by
    intro n hn
    apply decide_eq_true
    rcases List.mem_cons.mp hn with rfl | hn
    · exact Nat.zero_le _
    · have hle := (bounds_of_mem_feeds hn).2
      rwa [String.ofList_toList, Nat.zero_add] at hle
  have hrest : (feeds before.utf8ByteSize rest.toList).takeWhile (· ≤ before.utf8ByteSize) = [] := by
    rw [List.takeWhile_eq_nil_iff]
    intro hpos hle
    have hlt := (bounds_of_mem_feeds (List.getElem_mem hpos)).1
    exact absurd (of_decide_eq_true hle) (Nat.not_le.mpr hlt)
  rw [starts_append, List.takeWhile_append_of_pos hbefore, hrest, List.append_nil]

/-- The last line that starts in a text starts after its last line feed. -/
theorem getElem?_starts (cs : List Char) :
    (0 :: feeds 0 cs)[cs.count '\n']? =
      some (String.ofList (cs.rdropWhile (· ≠ '\n'))).utf8ByteSize := by
  induction cs using List.reverseRecOn with
  | nil => rfl
  | append_singleton cs c ih =>
    rw [feeds_append, List.count_append]
    by_cases hc : c = '\n'
    · -- The table ends with the line that starts here.
      subst hc
      have hfeed : feeds (0 + (String.ofList cs).utf8ByteSize) ['\n'] =
          [(String.ofList (cs ++ ['\n'])).utf8ByteSize] := by
        rw [Nat.zero_add, size_append]
        rfl
      have hlength : (feeds 0 cs).length = cs.count '\n' := length_feeds 0 cs
      rw [hfeed, List.rdropWhile_concat_neg _ _ _ (by simp), ← hlength]
      simp
    · have hfeed : feeds (0 + (String.ofList cs).utf8ByteSize) [c] = [] := if_neg hc
      have hcount : List.count '\n' [c] = 0 := List.count_eq_zero.mpr (by simpa using Ne.symm hc)
      rw [hfeed, List.append_nil, hcount, Nat.add_zero,
        List.rdropWhile_concat_pos _ _ _ (by simpa using hc)]
      exact ih

end Feeds

theorem slice?_append (front middle back : String) :
    slice? (front ++ middle ++ back) front.utf8ByteSize (front ++ middle).utf8ByteSize =
      some middle := by
  have hstart : String.Pos.Raw.IsValid (front ++ middle ++ back) ⟨front.utf8ByteSize⟩ := by
    apply String.Pos.Raw.isValid_iff_exists_append.mpr
    exact ⟨front, middle ++ back, String.append_assoc, rfl⟩
  have hstop : String.Pos.Raw.IsValid (front ++ middle ++ back)
      ⟨(front ++ middle).utf8ByteSize⟩ := by
    apply String.Pos.Raw.isValid_iff_exists_append.mpr
    exact ⟨front ++ middle, back, rfl, rfl⟩
  have hle : front.utf8ByteSize ≤ (front ++ middle).utf8ByteSize := by
    rw [String.utf8ByteSize_append]
    exact Nat.le_add_right _ _
  rw [slice?, dif_pos ⟨hstart, hstop, hle⟩]
  congr 1
  apply String.toByteArray_inj.mp
  rw [String.toByteArray_extract, String.offset_pos, String.offset_pos, String.toByteArray_append,
    ← String.size_toByteArray, ← String.size_toByteArray, ByteArray.extract_append_size_left,
    String.toByteArray_append]
  exact ByteArray.extract_append_eq_right rfl ByteArray.size_append

/-- The table tells every offset that is between two characters. -/
theorem position?_append (before rest : String) :
    position? (before ++ rest) before.utf8ByteSize =
      some (1 + before.toList.count '\n',
        1 + (before.toList.rtakeWhile (· ≠ '\n')).length) := by
  let front := String.ofList (before.toList.rdropWhile (· ≠ '\n'))
  let line := String.ofList (before.toList.rtakeWhile (· ≠ '\n'))
  have hbefore : front ++ line = before := by
    rw [← String.ofList_append, List.rdropWhile_append_rtakeWhile, String.ofList_toList]
  have hcount : ((starts (before ++ rest)).takeWhile (· ≤ before.utf8ByteSize)).length =
      before.toList.count '\n' + 1 := by
    rw [takeWhile_starts, starts, List.length_cons, length_feeds]
  have hstart : (starts (before ++ rest))[before.toList.count '\n']? =
      some front.utf8ByteSize := by
    have hinside : (starts before)[before.toList.count '\n']? = some front.utf8ByteSize :=
      getElem?_starts before.toList
    have hlt := (List.getElem?_eq_some_iff.mp hinside).1
    rw [starts_append, List.getElem?_append_left hlt, hinside]
  have hslice : slice? (before ++ rest) front.utf8ByteSize before.utf8ByteSize = some line := by
    have happend := slice?_append front line rest
    rwa [hbefore] at happend
  rw [position?, hcount]
  simp only [hstart, hslice, Option.bind_some, Option.map_some, line, String.length_ofList,
    Nat.add_comm 1]

end Lines

namespace Position

theorem line_advanceBy (cs : List Char) :
    (start.advanceBy cs).line = 1 + cs.count '\n' := by
  induction cs using List.reverseRecOn with
  | nil => rfl
  | append_singleton cs c ih =>
    rw [advanceBy_concat, List.count_append, ← Nat.add_assoc, ← ih]
    by_cases hc : c = '\n'
    · subst hc
      rfl
    · rw [(advance_other _ hc).1, List.count_singleton, if_neg (by simpa using hc)]
      rfl

theorem column_advanceBy (cs : List Char) :
    (start.advanceBy cs).column = 1 + (cs.rtakeWhile (· ≠ '\n')).length := by
  induction cs using List.reverseRecOn with
  | nil => rfl
  | append_singleton cs c ih =>
    rw [advanceBy_concat]
    by_cases hc : c = '\n'
    · subst hc
      rw [List.rtakeWhile_concat_neg _ _ _ (by simp)]
      rfl
    · rw [(advance_other _ hc).2, List.rtakeWhile_concat_pos _ _ _ (by simpa using hc), ih,
        List.length_append, List.length_singleton, Nat.add_assoc]

/-- Positions are ordered by their lines, and in one line by their columns. -/
def key (p : Position) : ℕ ×ₗ ℕ := toLex (p.line, p.column)

theorem key_lt_advance (p : Position) (c : Char) : p.key < (p.advance c).key := by
  rw [key, key, Prod.Lex.toLex_lt_toLex]
  by_cases hc : c = '\n'
  · subst hc
    exact .inl (Nat.lt_succ_self _)
  · obtain ⟨hline, hcolumn⟩ := p.advance_other hc
    rw [hline, hcolumn]
    exact .inr ⟨rfl, Nat.lt_succ_self _⟩

end Position

namespace Place

/-- Where a place starts. -/
def key (place : Place) : ℕ ×ₗ ℕ := toLex (place.line, place.column)

end Place

/-- Places that come one after the other, the first of them not before `p`. -/
structure Onward (p : Position) (places : List Place) : Prop where
  after_start : ∀ place ∈ places, p.key ≤ place.key
  increasing : places.Pairwise (·.key < ·.key)

theorem onward_single (p : Position) (word : List Char) : Onward p [p.place word] where
  after_start := by
    rw [List.forall_mem_singleton]
    exact le_rfl
  increasing := List.pairwise_singleton _ _

section Onward

variable {p : Position} {c : Char} {places : List Place}

theorem Onward.lt (h : Onward (p.advance c) places) : ∀ place ∈ places, p.key < place.key :=
  fun place hplace => (p.key_lt_advance c).trans_le (h.after_start place hplace)

theorem Onward.advance (h : Onward (p.advance c) places) : Onward p places where
  after_start := fun place hplace => (h.lt place hplace).le
  increasing := h.increasing

theorem Onward.cons (h : Onward (p.advance c) places) (word : List Char) :
    Onward p (p.place word :: places) where
  after_start := List.forall_mem_cons.mpr ⟨le_rfl, h.advance.after_start⟩
  increasing := .cons h.lt h.increasing

end Onward

namespace Scan

/-- The places of all that a scan gives, in order. -/
def places (s : Scan) : List Place := s.tokens.map (·.place) ++ [stopPlace s.last]

theorem isIn_of_mem_places {source : String} {place : Place} (h : place ∈ (scan source).places) :
    place.IsIn source.toList := by
  obtain ⟨htokens, hstop⟩ := scan_isIn source
  rw [places, List.mem_append, List.mem_map, List.mem_singleton] at h
  rcases h with ⟨t, ht, rfl⟩ | rfl
  · exact htokens t ht
  · exact hstop

/-- A scan goes forward only. -/
theorem onward_run (p : Position) (skip : Nat) (cs : List Char) :
    Onward p (run p skip cs).places := by
  induction cs generalizing p skip with
  | nil => exact onward_single p []
  | cons c cs ih =>
    cases skip with
    | succ k => exact (ih (p.advance c) k).advance
    | zero =>
      rw [run]
      split
      · exact (ih (p.advance c) _).advance
      · exact (ih (p.advance c) _).cons _
      · exact onward_single p _
      · exact onward_single p _

end Scan

/-- Every token, the end mark and an error stand where the source has them: the line counts the line
feeds before the start, and the column the characters after the last of those. The table of the
sorted line starts gives the same line and column, without cutting a character or looking past the
table. In the order of the scan, the lines and columns strictly increase. -/
theorem scan_places_counted (source : String) :
    (∀ place ∈ (scan source).places, ∃ before rest : String, source = before ++ rest ∧
      place.span.start = before.utf8ByteSize ∧
      place.line = 1 + before.toList.count '\n' ∧
      place.column = 1 + (before.toList.rtakeWhile (· ≠ '\n')).length ∧
      Lines.position? source place.span.start = some (place.line, place.column)) ∧
    (Lines.starts source).Pairwise (· < ·) ∧
    (scan source).places.Pairwise fun p q =>
      toLex (p.line, p.column) < toLex (q.line, q.column) := by
  refine ⟨?_, Lines.starts_sorted source, (Scan.onward_run .start 0 source.toList).increasing⟩
  intro place hplace
  obtain ⟨before, word, rest, htext, rfl⟩ := Scan.isIn_of_mem_places hplace
  have hsource : source = .ofList before ++ .ofList (word ++ rest) := by
    rw [← String.ofList_append, ← htext, String.ofList_toList]
  have hspan := Position.span_place_start before word
  have hline := Position.line_advanceBy before
  have hcolumn := Position.column_advanceBy before
  have htable := Lines.position?_append (.ofList before) (.ofList (word ++ rest))
  rw [← hsource, String.toList_ofList, ← hline, ← hcolumn] at htable
  refine ⟨.ofList before, .ofList (word ++ rest), hsource, ?_, ?_, ?_, ?_⟩
  · rw [hspan]
    rfl
  · rw [String.toList_ofList]
    exact hline
  · rw [String.toList_ofList]
    exact hcolumn
  · rw [hspan]
    exact htable

/-- Wide characters in comments, one of them over a line end, before a character of no token. -/
def wideSource : String := "// é\nx /* 字\n é */ = $"

theorem wideSource_places_counted :
    (scan wideSource).places.map (fun p => (p.span.start, p.line, p.column)) =
      [(6, 2, 1), (22, 3, 7), (24, 3, 9)] ∧
    Lines.position? wideSource 6 = some (2, 1) ∧ Lines.position? wideSource 22 = some (3, 7) ∧
    Lines.position? wideSource 24 = some (3, 9) := by
  have hplaces : (scan wideSource).places.map (fun p => (p.span.start, p.line, p.column)) =
      [(6, 2, 1), (22, 3, 7), (24, 3, 9)] := by decide +kernel
  have htable : ∀ x ∈ [(6, 2, 1), (22, 3, 7), (24, 3, 9)],
      Lines.position? wideSource x.1 = some x.2 := by
    intro x hx
    rw [← hplaces] at hx
    obtain ⟨place, hplace, rfl⟩ := List.mem_map.mp hx
    obtain ⟨_, _, _, _, _, _, hposition⟩ := (scan_places_counted wideSource).1 place hplace
    exact hposition
  exact ⟨hplaces, htable (6, 2, 1) (by decide), htable (22, 3, 7) (by decide),
    htable (24, 3, 9) (by decide)⟩

end StackLang
