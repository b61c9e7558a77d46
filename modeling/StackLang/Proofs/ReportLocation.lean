import StackLang.Report
import StackLang.Proofs.ErrorPlaces
import StackLang.Proofs.NumberText
import StackLang.Proofs.ReportLines
import StackLang.Proofs.SourceSafety

/-! Where reports point. A report takes the byte offsets of an error for character offsets and has
lines of its own, so it tells the line and the column of the error for some texts only. -/
namespace StackLang

namespace Report

/-- The report of one diagnostic, without colour. -/
def text (source : String) (d : Diagnostic) : String :=
  String.join ((ofDiagnostic source.toList d).map (Piece.write false))

def headerText (d : Diagnostic) : String := String.join ((header d).map (Piece.write false))

/-- The part of a report that tells a line and a column. -/
def pointer (line column : Nat) : String := s!"╭─[ <input>:{line}:{column} ]\n"

/-- After its first line, the report tells the given line and column. -/
def PointsTo (source : String) (d : Diagnostic) (line column : Nat) : Prop :=
  ∃ margin tail, text source d = headerText d ++ (spaces margin ++ (pointer line column ++ tail))

theorem report_compilation (source : String) (ds : List Diagnostic) :
    (Failure.compilation ds).report false source = String.join (ds.map (text source)) := by
  change String.join ((ds.flatMap (ofDiagnostic source.toList)).map (Piece.write false)) = _
  induction ds with
  | nil => rfl
  | cons d ds ih =>
    rw [List.flatMap_cons, List.map_append, String.join_append, ih, List.map_cons, String.join_cons]
    rfl

theorem pointer_eq (line column : Nat) : pointer line column =
    "╭─[ <input>:" ++ toString line ++ ":" ++ toString column ++ " ]\n" := rfl

theorem join_location (l : Line) (span : Span) :
    String.join ((location l span).map (Piece.write false)) =
      spaces (numberWidth l + 2) ++ (pointer (l.index + 1) (span.start - l.offset + 1) ++
        (spaces (numberWidth l + 2) ++ "│\n")) := by
  have hpieces : (location l span).map (Piece.write false) =
      [spaces (numberWidth l + 2), "╭", "─", "[",
        " <input>:" ++ toString (l.index + 1) ++ ":" ++ toString (span.start - l.offset + 1) ++ " ",
        "]", "\n", spaces (numberWidth l + 2), "│", "\n"] := rfl
  rw [hpieces, pointer_eq]
  apply String.toList_inj.mp
  simp

section Text

variable {source : String} {d : Diagnostic}

theorem text_of_none (h : lineOf? source.toList d.span = none) : text source d = headerText d := by
  have hpieces : ofDiagnostic source.toList d = header d := by
    unfold ofDiagnostic
    rw [h, List.append_nil]
  rw [text, hpieces, headerText]

theorem text_of_line {l : Line} (h : lineOf? source.toList d.span = some l) :
    ∃ tail, text source d = headerText d ++ (spaces (numberWidth l + 2) ++
      (pointer (l.index + 1) (d.span.start - l.offset + 1) ++ tail)) := by
  obtain ⟨rest, hpieces⟩ : ∃ rest, ofDiagnostic source.toList d =
      header d ++ (location l d.span ++ rest) := by
    unfold ofDiagnostic
    rw [h]
    simp only [List.append_assoc]
    exact ⟨_, rfl⟩
  refine ⟨spaces (numberWidth l + 2) ++ "│\n" ++ String.join (rest.map (Piece.write false)), ?_⟩
  rw [text, hpieces, List.map_append, String.join_append, List.map_append, String.join_append,
    join_location]
  simp only [String.append_assoc]
  rfl

/-- A run of characters and what ends it are told apart. -/
theorem append_inj_of_head {p : Char → Bool} {cs ds xs ys : List Char}
    (hcs : ∀ c ∈ cs, p c = true) (hds : ∀ c ∈ ds, p c = true) (hxs : ∀ c ∈ xs.head?, p c = false)
    (hys : ∀ c ∈ ys.head?, p c = false) (h : cs ++ xs = ds ++ ys) : cs = ds ∧ xs = ys := by
  have htake := congrArg (List.takeWhile p) h
  have hdrop := congrArg (List.dropWhile p) h
  rw [takeWhile_of_head hcs hxs, takeWhile_of_head hds hys] at htake
  rw [dropWhile_of_head hcs hxs, dropWhile_of_head hds hys] at hdrop
  exact ⟨htake, hdrop⟩

theorem toList_pointer (margin line column : Nat) (tail : String) :
    (spaces margin ++ (pointer line column ++ tail)).toList =
      List.replicate margin ' ' ++ ("╭─[ <input>:".toList ++ (Nat.toDigits 10 line ++ ':' ::
        (Nat.toDigits 10 column ++ ' ' :: ']' :: '\n' :: tail.toList))) := by
  rw [pointer_eq, spaces]
  simp [Nat.toString_eq_repr]

/-- A report tells one line and one column. -/
theorem pointer_inj {m n line line' column column' : Nat} {tail tail' : String}
    (h : spaces m ++ (pointer line column ++ tail) =
      spaces n ++ (pointer line' column' ++ tail')) : line = line' ∧ column = column' := by
  have hspace (n : Nat) : ∀ c ∈ List.replicate n ' ', (c == ' ') = true := by
    intro c hc
    rw [(List.mem_replicate.mp hc).2]
    rfl
  have hdigit (n : Nat) := (Number.isDigits_toDigits n).digit
  have hvalue {n m : Nat} (h : Nat.toDigits 10 n = Nat.toDigits 10 m) : n = m := by
    rw [← Nat.ofDigitChars_ten_toDigits (n := n), h, Nat.ofDigitChars_ten_toDigits]
  have hlists := congrArg String.toList h
  rw [toList_pointer, toList_pointer] at hlists
  obtain ⟨-, hlists⟩ := append_inj_of_head (hspace m) (hspace n) (by simp) (by simp) hlists
  have hlists := List.append_cancel_left hlists
  obtain ⟨hline, hlists⟩ :=
    append_inj_of_head (hdigit line) (hdigit line') (by simp) (by simp) hlists
  have hlists := (List.cons.inj hlists).2
  obtain ⟨hcolumn, -⟩ :=
    append_inj_of_head (hdigit column) (hdigit column') (by simp) (by simp) hlists
  exact ⟨hvalue hline, hvalue hcolumn⟩

/-- What a report tells is read from its line table. -/
theorem pointsTo_iff {line column : Nat} :
    PointsTo source d line column ↔ ∃ l, lineOf? source.toList d.span = some l ∧
      l.index + 1 = line ∧ d.span.start - l.offset + 1 = column := by
  cases hl : lineOf? source.toList d.span with
  | none =>
    refine ⟨?_, nofun⟩
    rintro ⟨margin, tail, htext⟩
    rw [text_of_none hl] at htext
    have hlength := congrArg (fun s => s.toList.length) htext
    rw [String.toList_append, toList_pointer] at hlength
    simp at hlength
  | some l =>
    obtain ⟨rest, hrest⟩ := text_of_line hl
    constructor
    · rintro ⟨margin, tail, htext⟩
      rw [hrest] at htext
      obtain ⟨hline, hcolumn⟩ := pointer_inj (String.append_right_inj _ |>.mp htext)
      exact ⟨l, rfl, hline, hcolumn⟩
    · rintro ⟨_, ⟨⟩, rfl, rfl⟩
      exact ⟨_, rest, hrest⟩

end Text

/-- The texts in which a report tells where `word` stands, between `before` and `rest`: every
character before it is one byte, every line before it was ended by a line feed, it is not a line
of its own after a final line feed, and its bytes do not lead out of the text when they are counted
as characters. -/
structure Legible (before word rest : List Char) : Prop where
  narrow : ∀ c ∈ before, c.utf8Size = 1
  feeds : OnlyFeeds before (word ++ rest)
  ending : word ++ rest = [] → before.getLast? ≠ some '\n'
  inside : (String.ofList word).utf8ByteSize ≤ (word ++ rest).length + 1

section Offsets

variable {before word rest : List Char}

theorem lineOf?_eq_some_iff {text : List Char} {span : Span} {l : Line} :
    lineOf? text span = some l ↔
      (span.start < span.stop → span.stop - 1 ≤ text.length) ∧
        lineAt? text span.start = some l := by
  have hnone : (lineAt? text (span.stop - 1)).isNone ↔ text.length < span.stop - 1 := by
    rw [Option.isNone_iff_eq_none, lineAt?_eq_none_iff]
  unfold lineOf?
  split
  · next h =>
    rw [hnone] at h
    refine ⟨nofun, fun hl => ?_⟩
    have hle := hl.1 h.1
    omega
  · next h =>
    rw [hnone] at h
    refine ⟨fun hl => ⟨fun hlt => ?_, hl⟩, fun hl => hl.2⟩
    exact Nat.le_of_not_lt fun hout => h ⟨hlt, hout⟩

/-- The table counts up to an offset, which may lie past the word that it was taken for. -/
theorem walk_of_lineAt? {after : List Char} {b : Nat} {l : Line} (hb : before.length ≤ b)
    (h : lineAt? (before ++ after) b = some l) :
    b ≤ (before ++ after).length ∧
      walk (after.drop (b - before.length)) (0, 0) (before ++ after.take (b - before.length)) =
        (l.index, b - l.offset) := by
  have hle : b ≤ (before ++ after).length := by
    refine Nat.le_of_not_lt fun hout => ?_
    rw [lineAt?_eq_none_iff.mpr hout] at h
    cases h
  have htake : (before ++ after).take b = before ++ after.take (b - before.length) := by
    rw [List.take_append, List.take_of_length_le hb]
  have hdrop : (before ++ after).drop b = after.drop (b - before.length) := by
    rw [List.drop_append, List.drop_of_length_le hb, List.nil_append]
  obtain ⟨m, hm, -, hwalk⟩ := lineAt?_append ((before ++ after).take b) ((before ++ after).drop b)
  rw [List.take_append_drop, List.length_take_of_le hle, h] at hm
  cases hm
  rw [List.length_take_of_le hle, htake, hdrop] at hwalk
  exact ⟨hle, hwalk⟩

/-- The line table leads to the position of a word exactly if the text is legible there. -/
theorem lineOf?_place_iff {place : Place}
    (hplace : place = (Position.start.advanceBy before).place word) :
    (∃ l, lineOf? (before ++ (word ++ rest)) place.span = some l ∧ l.index + 1 = place.line ∧
      place.span.start - l.offset + 1 = place.column) ↔ Legible before word rest := by
  subst hplace
  have hbefore := length_le_size before
  rw [Position.span_place_start]
  simp only [lineOf?_eq_some_iff, Span.after, size_append, Position.place]
  constructor
  · rintro ⟨l, ⟨hinside, hl⟩, hline, hcolumn⟩
    obtain ⟨hle, hwalk⟩ := walk_of_lineAt? hbefore hl
    have hagrees : Agrees (l.index, (String.ofList before).utf8ByteSize - l.offset)
        (Position.start.advanceBy before) := ⟨hline.symm, hcolumn.symm⟩
    rw [← hwalk, agrees_walk_iff] at hagrees
    obtain ⟨hmore, hfeeds, hending⟩ := hagrees
    -- The table was asked for as many characters as there are bytes before the word. It counted
    -- no character of the word, so these are as many as there are characters.
    have hsame : (String.ofList before).utf8ByteSize = before.length := by
      have hnone := congrArg List.length hmore
      rw [List.length_take, List.length_nil] at hnone
      rw [List.length_append] at hle
      omega
    rw [hsame, Nat.sub_self, List.drop_zero] at hfeeds hending
    refine ⟨size_eq_length_iff.mp hsame, hfeeds, hending, ?_⟩
    rw [List.length_append] at hinside
    omega
  · rintro ⟨hnarrow, hfeeds, hending, hinside⟩
    have hsame := size_eq_length_iff.mpr hnarrow
    obtain ⟨l, hl, -, hwalk⟩ := lineAt?_append before (word ++ rest)
    have hagrees := agrees_walk_iff.mpr ⟨rfl, hfeeds, hending⟩
    rw [List.append_nil, hwalk] at hagrees
    rw [hsame]
    refine ⟨l, ⟨?_, hl⟩, hagrees.1.symm, hagrees.2.symm⟩
    rw [List.length_append]
    omega

/-- A text of one-byte characters whose lines are all ended by line feeds, the last one excepted,
is legible everywhere. -/
theorem legible_of_text {text : List Char} (htext : text = before ++ (word ++ rest))
    (hnarrow : ∀ c ∈ text, c.utf8Size = 1) (hfeeds : OnlyFeeds text [])
    (hlast : text.getLast? ≠ some '\n') : Legible before word rest := by
  subst htext
  refine ⟨fun c hc => hnarrow c (by simp [hc]), ?_, ?_, ?_⟩
  · intro u c v hbefore hends
    apply hfeeds u c (v ++ (word ++ rest))
    · rw [hbefore, List.append_assoc, List.cons_append]
    · rwa [List.append_nil]
  · intro hnil
    rwa [hnil, List.append_nil] at hlast
  · rw [size_eq_length_iff.mpr fun c hc => hnarrow c (by simp [hc]), List.length_append]
    omega

end Offsets

end Report

namespace Program

variable {limit : Nat} {source : String}

/-- What keeps a text from compiling: the diagnostic of each error, and its place. -/
inductive Finds (limit : Nat) (source : String) : Diagnostic → Place → Prop where
  | word {e : LexError} : tokenize source = .error e → Finds limit source e.diagnostic e.place
  | statement {tokens : List Token} {e : SyntaxError} : tokenize source = .ok tokens →
    e ∈ (parse limit tokens).errors → Finds limit source e.diagnostic e.place

theorem Finds.span_eq {d : Diagnostic} {place : Place} (h : Finds limit source d place) :
    d.span = place.span := by
  cases h <;> rfl

theorem Finds.isIn {d : Diagnostic} {place : Place} (h : Finds limit source d place) :
    place.IsIn source.toList := by
  cases h with
  | word htokens => exact isIn_of_tokenize_error htokens
  | statement htokens he => exact isIn_of_mem_errors htokens he

/-- A text that does not compile has a diagnostic for each error, and no other. -/
theorem diagnostics_of_compile {f : Failure} (h : compile limit source = .error f) :
    ∃ ds, f = .compilation ds ∧ ∀ d, d ∈ ds ↔ ∃ place, Finds limit source d place := by
  cases htokens : tokenize source with
  | error e =>
    simp only [compile, htokens] at h
    cases h
    refine ⟨_, rfl, fun d => ⟨fun hd => ?_, ?_⟩⟩
    · rw [List.mem_singleton.mp hd]
      exact ⟨e.place, .word htokens⟩
    · rintro ⟨place, hfinds⟩
      cases hfinds with
      | word htokens' =>
        rw [htokens] at htokens'
        cases htokens'
        exact List.mem_singleton.mpr rfl
      | statement htokens' =>
        rw [htokens] at htokens'
        cases htokens'
  | ok tokens =>
    simp only [compile, htokens] at h
    have hshape := parserShaped_of_tokenize htokens limit
    obtain ⟨code, hcode, -⟩ := Tree.compile_statements fun s hs => (hshape s hs).isStatement
    split at h
    · rw [hcode] at h
      cases h
    · cases h
      refine ⟨_, rfl, fun d => ⟨fun hd => ?_, ?_⟩⟩
      · obtain ⟨e, he, rfl⟩ := List.mem_map.mp hd
        exact ⟨e.place, .statement htokens he⟩
      · rintro ⟨place, hfinds⟩
        cases hfinds with
        | word htokens' =>
          rw [htokens] at htokens'
          cases htokens'
        | statement htokens' he =>
          rw [htokens] at htokens'
          cases htokens'
          exact List.mem_map_of_mem he

end Program

/-- What is written about a text that does not compile is one report for each error, and the report
of an error tells its line and its column exactly if the text is legible where the error stands. -/
theorem report_points_iff_legible (limit : Nat) (source : String) {f : Failure}
    (h : Program.compile limit source = .error f) :
    ∃ ds, f = .compilation ds ∧
      f.report false source = String.join (ds.map (Report.text source)) ∧
      (∀ d, d ∈ ds ↔ ∃ place, Program.Finds limit source d place) ∧
      ∀ d place, Program.Finds limit source d place → ∃ before word rest,
        source.toList = before ++ (word ++ rest) ∧
        place = (Position.start.advanceBy before).place word ∧
        (Report.PointsTo source d place.line place.column ↔ Report.Legible before word rest) := by
  obtain ⟨ds, rfl, hds⟩ := Program.diagnostics_of_compile h
  refine ⟨ds, rfl, Report.report_compilation source ds, hds, ?_⟩
  intro d place hfinds
  obtain ⟨before, word, rest, htext, hplace⟩ := hfinds.isIn
  refine ⟨before, word, rest, htext, hplace, ?_⟩
  rw [Report.pointsTo_iff, hfinds.span_eq, htext]
  exact Report.lineOf?_place_iff hplace

/-- An operand is missing in the second line, after a line that a carriage return ends too. -/
def missingOperand : String := "x = 1;\r\ny = * 2"

theorem missingOperand_report_points :
    ∃ f d place, Program.compile 1 missingOperand = .error f ∧
      Program.Finds 1 missingOperand d place ∧ place.line = 2 ∧ place.column = 5 ∧
      Report.PointsTo missingOperand d 2 5 := by
  have hfail : (Program.compile 1 missingOperand).toOption.isNone = true := by decide +kernel
  have hany : (tokenize missingOperand).toOption.any (fun tokens =>
      (parse 1 tokens).errors.any fun e => e.place.line = 2 && e.place.column = 5) = true := by
    decide +kernel
  obtain ⟨tokens, htokens, hany⟩ := exists_ok_of_any hany
  obtain ⟨e, he, hplace⟩ := List.any_eq_true.mp hany
  rw [Bool.and_eq_true, decide_eq_true_eq, decide_eq_true_eq] at hplace
  have hfinds : Program.Finds 1 missingOperand e.diagnostic e.place := .statement htokens he
  cases hc : Program.compile 1 missingOperand with
  | ok p =>
    rw [hc] at hfail
    cases hfail
  | error f =>
    obtain ⟨-, -, -, -, hpoints⟩ := report_points_iff_legible 1 missingOperand hc
    obtain ⟨before, word, rest, htext, -, hiff⟩ := hpoints _ _ hfinds
    have hnarrow : (missingOperand.toList.all fun c => c.utf8Size = 1) = true := by decide +kernel
    have hlegible : Report.Legible before word rest := by
      apply Report.legible_of_text htext
      · intro c hc
        exact of_decide_eq_true (List.all_eq_true.mp hnarrow c hc)
      · decide +kernel
      · decide +kernel
    rw [hplace.1, hplace.2] at hiff
    exact ⟨f, _, _, rfl, hfinds, hplace.1, hplace.2, hiff.mpr hlegible⟩

/-- A comment with a character of two bytes, and then a character that starts no token. -/
def wideComment : String := "/*é*/&"

theorem wideComment_report_points_past :
    ∃ d place, Program.Finds defaultNesting wideComment d place ∧ place.line = 1 ∧
      place.column = 6 ∧ ¬ Report.PointsTo wideComment d 1 6 ∧
      Report.PointsTo wideComment d 1 7 := by
  have htokens : tokenize wideComment =
      .error ⟨.unexpectedCharacter '&', ⟨⟨6, 7⟩, 1, 6⟩⟩ := rfl
  have hline : Report.lineOf? wideComment.toList ⟨6, 7⟩ = some ⟨0, 0, wideComment.toList⟩ := by
    decide +kernel
  refine ⟨_, _, .word htokens, rfl, rfl, ?_, ?_⟩
  · rw [Report.pointsTo_iff]
    rintro ⟨l, hl, -, hcolumn⟩
    have hsame := hline.symm.trans hl
    cases hsame
    cases hcolumn
  · exact Report.pointsTo_iff.mpr ⟨_, hline, rfl, rfl⟩

end StackLang
