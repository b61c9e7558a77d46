import StackLang.Proofs.Positions
import StackLang.Proofs.TokenRules

namespace StackLang

open Lexeme

/-- A gap that `rest` follows: pieces one after the other. -/
inductive IsGap : List Char → List Char → Prop where
  | nil (rest : List Char) : IsGap [] rest
  | cons {piece gap rest : List Char} : IsPiece piece (gap ++ rest) → IsGap gap rest →
    IsGap (piece ++ gap) rest

/-- `Tiles before text tokens last`: a text that stands after the characters `before` consists of
the tokens with gaps around them. It ends with a gap before the end mark, or with a gap before a
place where no token can start. -/
inductive Tiles : List Char → List Char → List Token → Except LexError Token → Prop where
  | mark {before gap : List Char} {m : Token} : IsGap gap [] → m.kind = .endMark →
    m.lexeme = "" → m.place.span = .after (before ++ gap) [] → Tiles before gap [] (.ok m)
  | token {before gap word rest : List Char} {t : Token} {ts : List Token}
    {last : Except LexError Token} : IsGap gap (word ++ rest) → ¬ StartsGap (word ++ rest) →
      IsLongest t.kind word (word ++ rest) → t.lexeme = .ofList word →
        t.place.span = .after (before ++ gap) word →
          Tiles (before ++ gap ++ word) rest ts last →
            Tiles before (gap ++ (word ++ rest)) (t :: ts) last
  | openComment {before gap rest : List Char} {e : LexError} : IsGap gap ('/' :: '*' :: rest) →
    ¬ ['*', '/'] <:+: rest → e.cause = .unterminatedComment →
      e.place.span = .after (before ++ gap) ['/', '*'] →
        Tiles before (gap ++ '/' :: '*' :: rest) [] (.error e)
  | unexpected {before gap rest : List Char} {c : Char} {e : LexError} : IsGap gap (c :: rest) →
    ¬ StartsGap (c :: rest) → (∀ k w, Spells k w → ¬ w <+: c :: rest) →
      e.cause = .unexpectedCharacter c → e.place.span = .after (before ++ gap) [c] →
        Tiles before (gap ++ c :: rest) [] (.error e)

/-- A piece of a gap belongs to the first gap of what follows it. -/
theorem Tiles.cons_piece {before piece text : List Char} {ts : List Token}
    {last : Except LexError Token} (hp : IsPiece piece text)
    (h : Tiles (before ++ piece) text ts last) : Tiles before (piece ++ text) ts last := by
  have hassoc (gap : List Char) : before ++ piece ++ gap = before ++ (piece ++ gap) :=
    List.append_assoc _ _ _
  cases h with
  | mark hgap hk hl hs =>
    rw [hassoc] at hs
    rw [← List.append_nil text] at hp
    exact .mark (.cons hp hgap) hk hl hs
  | token hgap hstart hlongest hl hs htiles =>
    rw [hassoc] at hs htiles
    rw [← List.append_assoc]
    exact .token (.cons hp hgap) hstart hlongest hl hs htiles
  | openComment hgap hopen hc hs =>
    rw [hassoc] at hs
    rw [← List.append_assoc]
    exact .openComment (.cons hp hgap) hopen hc hs
  | unexpected hgap hstart hnone hc hs =>
    rw [hassoc] at hs
    rw [← List.append_assoc]
    exact .unexpected (.cons hp hgap) hstart hnone hc hs

namespace Scan

variable {c : Char} {cs rest : List Char} {kind : Kind}

theorem run_of_blank {piece : List Char} (p : Position) (htext : c :: cs = piece ++ rest)
    (hs : Lexeme.start c cs = .blank piece.length) (hne : piece ≠ []) :
    run p 0 (c :: cs) = run (p.advanceBy piece) 0 rest := by
  obtain ⟨d, ds, rfl⟩ := List.exists_cons_of_ne_nil hne
  rw [List.cons_append] at htext
  obtain ⟨rfl, rfl⟩ := List.cons.inj htext
  rw [run]
  simp only [hs, List.length_cons, Nat.add_sub_cancel]
  exact run_skip (p.advance c) ds rest

theorem run_of_token {word : List Char} (p : Position) (htext : c :: cs = word ++ rest)
    (hs : Lexeme.start c cs = .token kind word.length) (hne : word ≠ []) :
    run p 0 (c :: cs) =
      push ⟨kind, .ofList word, p.place word⟩ (run (p.advanceBy word) 0 rest) := by
  obtain ⟨d, ds, rfl⟩ := List.exists_cons_of_ne_nil hne
  rw [List.cons_append] at htext
  obtain ⟨rfl, rfl⟩ := List.cons.inj htext
  rw [run]
  simp only [hs, List.length_cons, Nat.add_sub_cancel, List.take_succ_cons, List.take_left]
  rw [run_skip]
  rfl

/-- Every text is tiled by what scanning it gives. -/
theorem tiles_run (p : Position) {before : List Char} (text : List Char)
    (hp : p.offset = (String.ofList before).utf8ByteSize) :
    Tiles before text (run p 0 text).tokens (run p 0 text).last := by
  -- Each turn takes at least one character, so the induction is on the length.
  generalize hn : text.length = n
  induction n using Nat.strongRecOn generalizing p before text with
  | _ n ih =>
  subst hn
  -- Whatever is found here comes after an empty gap.
  have hp' : p.offset = (String.ofList (before ++ [])).utf8ByteSize := by
    rwa [List.append_nil]
  have hafter (word : List Char) :
      (p.advanceBy word).offset = (String.ofList (before ++ word)).utf8ByteSize := by
    rw [Position.offset_advanceBy, hp, size_append]
  cases text with
  | nil => exact .mark (.nil []) rfl rfl (Position.span_place hp' [])
  | cons c cs =>
    have hfound := found_start c cs
    generalize hs : Lexeme.start c cs = l at hfound
    cases hfound with
    | @blank piece rest htext hpiece =>
      have hlen := congrArg List.length htext
      have hpos : 0 < piece.length := List.length_pos_iff.mpr hpiece.ne_nil
      rw [List.length_append] at hlen
      have hrest := ih rest.length (by omega) _ rest (hafter piece) rfl
      rw [run_of_blank p htext hs hpiece.ne_nil, htext]
      exact hrest.cons_piece hpiece
    | @token kind word hstart hlongest =>
      obtain ⟨rest, htext⟩ := hlongest.starts
      have hlen := congrArg List.length htext
      have hne := hlongest.spelled.ne_nil
      have hpos : 0 < word.length := List.length_pos_iff.mpr hne
      rw [List.length_append] at hlen
      have hrest := ih rest.length (by omega) _ rest (hafter word) rfl
      rw [run_of_token p htext.symm hs hne]
      rw [← htext] at hstart hlongest ⊢
      rw [← List.append_nil before] at hrest
      exact Tiles.token (.nil _) hstart hlongest rfl (Position.span_place hp' word) hrest
    | @openComment rest htext hopen =>
      rw [run]
      simp only [hs, htext]
      exact Tiles.openComment (.nil _) hopen rfl (Position.span_place hp' _)
    | unexpected hstart hnone =>
      rw [run]
      simp only [hs]
      exact Tiles.unexpected (.nil _) hstart hnone rfl (Position.span_place hp' _)

/-- The spans of all that a scan gives, in order. -/
def spans (s : Scan) : List Span := s.tokens.map (·.place.span) ++ [(stopPlace s.last).span]

theorem spans_cons (t : Token) (ts : List Token) (last : Except LexError Token) :
    (mk (t :: ts) last).spans = t.place.span :: (mk ts last).spans := rfl

end Scan

namespace Tiles

variable {before text : List Char} {ts : List Token} {last : Except LexError Token}

/-- Nothing is found before the start of the text. -/
theorem size_le_start (h : Tiles before text ts last) :
    ∀ s ∈ (Scan.mk ts last).spans, (String.ofList before).utf8ByteSize ≤ s.start := by
  induction h with
  | mark _ _ _ hs | openComment _ _ _ hs | unexpected _ _ _ _ hs =>
    intro s hmem
    rw [List.mem_singleton.mp hmem, Scan.stopPlace, hs, Span.after, size_append]
    exact Nat.le_add_right _ _
  | @token before gap word rest t ts last _ _ _ _ hs _ ih =>
    intro s hmem
    rw [Scan.spans_cons] at hmem
    rcases List.mem_cons.mp hmem with rfl | hmem
    · rw [hs, Span.after, size_append]
      exact Nat.le_add_right _ _
    · have hrest := ih s hmem
      rw [size_append, size_append] at hrest
      omega

/-- What is found comes in order, and nothing is found twice. -/
theorem spans_pairwise (h : Tiles before text ts last) :
    (Scan.mk ts last).spans.Pairwise (·.stop ≤ ·.start) := by
  induction h with
  | mark | openComment | unexpected => exact List.pairwise_singleton _ _
  | token _ _ _ _ hs htiles ih =>
    rw [Scan.spans_cons, hs]
    refine List.pairwise_cons.mpr ⟨?_, ih⟩
    intro s hmem
    exact htiles.size_le_start s hmem

/-- A token is a slice of the text, and its span says which. -/
theorem exists_slice (h : Tiles before text ts last) :
    ∀ t ∈ ts, ∃ front back, before ++ text = front ++ (t.lexeme.toList ++ back) ∧
      t.place.span = .after front t.lexeme.toList := by
  induction h with
  | mark | openComment | unexpected => exact nofun
  | @token before gap word rest t ts last _ _ _ hl hs _ ih =>
    intro u hmem
    rcases List.mem_cons.mp hmem with rfl | hmem
    · rw [hl, String.toList_ofList]
      exact ⟨before ++ gap, rest, by simp, hs⟩
    · simpa using ih u hmem

/-- Only the end of the text has an end mark. -/
theorem kind_ne_endMark (h : Tiles before text ts last) : ∀ t ∈ ts, t.kind ≠ .endMark := by
  induction h with
  | mark | openComment | unexpected => exact nofun
  | token _ _ hlongest _ _ _ ih =>
    intro u hmem
    rcases List.mem_cons.mp hmem with rfl | hmem
    · intro hk
      have hspelled := hlongest.spelled
      rw [hk] at hspelled
      cases hspelled
    · exact ih u hmem

theorem mark_span {m : Token} (h : Tiles before text ts (.ok m)) :
    m.place.span = .after (before ++ text) [] := by
  generalize hlast : Except.ok m = last at h
  induction h with
  | mark _ _ _ hs =>
    cases hlast
    exact hs
  | token _ _ _ _ _ _ ih => simpa using ih hlast
  | openComment | unexpected => cases hlast

end Tiles

/-- A scan tiles the source: its tokens are the longest that their places allow, the gaps between
them are white space and comments, and it ends with an end mark after the whole text or with an
error at the first place where no token can start. So the spans come in order without overlapping,
each token is the slice of the source that its span tells, and the end mark has the empty span at
the end. -/
theorem scan_tiles (source : String) :
    Tiles [] source.toList (scan source).tokens (scan source).last ∧
      (scan source).spans.Pairwise (·.stop ≤ ·.start) ∧
      (∀ t ∈ (scan source).tokens, t.kind ≠ .endMark ∧
        ∃ front back : String, source = front ++ t.lexeme ++ back ∧
          t.place.span = ⟨front.utf8ByteSize, (front ++ t.lexeme).utf8ByteSize⟩) ∧
      ∀ m, (scan source).last = .ok m →
        m.place.span = ⟨source.utf8ByteSize, source.utf8ByteSize⟩ := by
  have htiles : Tiles [] source.toList (scan source).tokens (scan source).last :=
    Scan.tiles_run .start source.toList rfl
  refine ⟨htiles, htiles.spans_pairwise, ?_, ?_⟩
  · intro t ht
    obtain ⟨front, back, htext, hspan⟩ := htiles.exists_slice t ht
    refine ⟨htiles.kind_ne_endMark t ht, .ofList front, .ofList back, ?_, ?_⟩
    · rw [List.nil_append] at htext
      rw [← String.ofList_toList (s := source), htext]
      simp [String.append_assoc]
    · rw [hspan]
      simp [Span.after]
  · intro m hm
    rw [hm] at htiles
    rw [htiles.mark_span]
    simp [Span.after]

/-- Comments that look closed too early or hold wide characters, and tokens that start alike. -/
def mixedText : String := "iffy/*/é*/== 2.5**7 // ***/\n"

theorem scan_mixedText_tiles :
    (scan mixedText).tokens.map (·.lexeme) = ["iffy", "==", "2.5", "**", "7"] ∧
      ∃ m, (scan mixedText).last = .ok m ∧ m.place.span = ⟨29, 29⟩ := by
  refine ⟨by decide +kernel, _, rfl, ?_⟩
  exact (scan_tiles mixedText).2.2.2 _ rfl

end StackLang
