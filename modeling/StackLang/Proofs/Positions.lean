import StackLang.Token.Scan

namespace StackLang

section Sizes

theorem size_append (cs ds : List Char) : (String.ofList (cs ++ ds)).utf8ByteSize =
    (String.ofList cs).utf8ByteSize + (String.ofList ds).utf8ByteSize := by
  rw [String.ofList_append, String.utf8ByteSize_append]

theorem size_cons (c : Char) (cs : List Char) :
    (String.ofList (c :: cs)).utf8ByteSize = c.utf8Size + (String.ofList cs).utf8ByteSize := by
  rw [String.ofList_cons, String.utf8ByteSize_append, String.utf8ByteSize_singleton]

theorem length_le_size (cs : List Char) : cs.length ≤ (String.ofList cs).utf8ByteSize := by
  induction cs with
  | nil => exact Nat.zero_le _
  | cons c cs ih =>
    have hpos := c.utf8Size_pos
    rw [size_cons, List.length_cons]
    omega

theorem size_eq_length_iff {cs : List Char} :
    (String.ofList cs).utf8ByteSize = cs.length ↔ ∀ c ∈ cs, c.utf8Size = 1 := by
  induction cs with
  | nil => exact ⟨fun _ => List.forall_mem_nil _, fun _ => rfl⟩
  | cons c cs ih =>
    have hpos := c.utf8Size_pos
    have hle := length_le_size cs
    rw [size_cons, List.length_cons, List.forall_mem_cons, ← ih]
    omega

end Sizes

/-- The bytes that a word takes after the characters `before`. -/
def Span.after (before word : List Char) : Span :=
  ⟨(String.ofList before).utf8ByteSize, (String.ofList (before ++ word)).utf8ByteSize⟩

namespace Position

variable (p : Position)

theorem advanceBy_concat (cs : List Char) (c : Char) :
    p.advanceBy (cs ++ [c]) = (p.advanceBy cs).advance c := by
  rw [advanceBy, List.foldl_append]
  rfl

theorem advance_feed : (p.advance '\n').line = p.line + 1 ∧ (p.advance '\n').column = 1 :=
  ⟨rfl, rfl⟩

theorem advance_other {c : Char} (hc : c ≠ '\n') :
    (p.advance c).line = p.line ∧ (p.advance c).column = p.column + 1 := by
  rw [advance, if_neg hc]
  exact ⟨rfl, rfl⟩

theorem offset_advanceBy (cs : List Char) :
    (p.advanceBy cs).offset = p.offset + (String.ofList cs).utf8ByteSize := by
  induction cs generalizing p with
  | nil => rfl
  | cons c cs ih =>
    have hc : (p.advance c).offset = p.offset + c.utf8Size := by
      unfold advance
      split <;> rfl
    change ((p.advance c).advanceBy cs).offset = _
    rw [ih, hc, size_cons, Nat.add_assoc]

variable {p}

/-- A place is told by the characters before it. -/
theorem span_place {before : List Char} (hp : p.offset = (String.ofList before).utf8ByteSize)
    (word : List Char) : (p.place word).span = .after before word := by
  rw [place, Span.after, offset_advanceBy, hp, size_append]

end Position

/-- A place of a text: where the characters `word` stand in it after `before`. -/
def Place.IsIn (text : List Char) (place : Place) : Prop :=
  ∃ before word rest, text = before ++ (word ++ rest) ∧
    place = (Position.start.advanceBy before).place word

theorem Position.span_place_start (before word : List Char) :
    ((Position.start.advanceBy before).place word).span = .after before word := by
  apply Position.span_place
  rw [Position.offset_advanceBy]
  exact Nat.zero_add _

/-- The place of what stopped a scan. -/
def Scan.stopPlace : Except LexError Token → Place
  | .ok mark => mark.place
  | .error e => e.place

end StackLang
