import StackLang.Program
import StackLang.Report.Line
import StackLang.Text.Width

/-! Reports: a diagnostic with the source line it points at. A report is a list of painted
pieces, which can be written with or without colour. Spans are taken as character offsets. -/
namespace StackLang

namespace Report

inductive Ink where
  | error | warning | advice
  | frame | gutter
  | source | mark
  | help
deriving DecidableEq, Repr

/-- The terminal's parameters for a colour. -/
def Ink.code : Ink → String
  | error => "31"
  | warning => "33"
  | advice => "38;5;147"
  | frame => "38;5;246"
  | gutter => "38;5;240"
  | source => "38;5;249"
  | mark => "38;5;155"
  | help => "38;5;115"

structure Piece where
  ink : Option Ink
  text : String
deriving DecidableEq, Repr

def plain (text : String) : Piece := ⟨none, text⟩

def paint (ink : Ink) (text : String) : Piece := ⟨some ink, text⟩

def newline : Piece := plain "\n"

def spaces (n : Nat) : String := .ofList (List.replicate n ' ')

def Piece.write (color : Bool) (p : Piece) : String :=
  match p.ink with
  | some ink => if color then s!"\x1b[{ink.code}m{p.text}\x1b[0m" else p.text
  | none => p.text

def severityInk : Severity → Ink
  | .error => .error
  | .warning => .warning
  | .info => .advice

def severityTitle : Severity → String
  | .error => "Error"
  | .warning => "Warning"
  | .info => "Advice"

/-- The first line. A code takes at least two columns. -/
def header (d : Diagnostic) : List Piece :=
  let code := match d.code with
    | some c => s!"[{c}{spaces (2 - c.length)}] "
    | none => ""
  [paint (severityInk d.severity) s!"{code}{severityTitle d.severity}:", plain " ",
    plain d.message, newline]

/-- The line that a span starts on, if the whole span lies in the text. -/
def lineOf? (source : List Char) (span : Span) : Option Line :=
  if span.start < span.stop ∧ (lineAt? source (span.stop - 1)).isNone then none
  else lineAt? source span.start

/-- How many columns a line number takes. -/
def numberWidth (l : Line) : Nat := (toString (l.index + 1)).length

def location (l : Line) (span : Span) : List Piece :=
  let margin := plain (spaces (numberWidth l + 2))
  [margin, paint .frame "╭", paint .frame "─", paint .frame "[",
    plain s!" <input>:{l.index + 1}:{span.start - l.offset + 1} ", paint .frame "]", newline,
    margin, paint .frame "│", newline]

/-- The left margin of a line without a number. -/
def gutter (l : Line) : List Piece :=
  [plain " ", paint .gutter (spaces (numberWidth l + 1) ++ "│"), plain " "]

def tabStop (column : Nat) : Nat := (column / 4 + 1) * 4 - column

/-- What is drawn for the character in the given column. -/
def glyphs (column : Nat) (c : Char) : List String :=
  if c = '\t' then List.replicate (tabStop column) " "
  else if Text.isWhite c then [" "]
  else [c.toString]

/-- How many cells the character in the given column takes. -/
def cells (column : Nat) (c : Char) : Nat :=
  if c = '\t' then tabStop column else if Text.isWhite c then 1 else Text.width c

def trimmed (l : Line) : List Char := (l.chars.reverse.dropWhile Text.isWhite).reverse

def covers (l : Line) (span : Span) (column : Nat) : Bool :=
  span.start ≤ l.offset + column && l.offset + column < span.stop

def sourceRow (l : Line) (span : Span) : List Piece :=
  let drawn := (trimmed l).mapIdx fun column c =>
    (glyphs column c).map (paint (if covers l span column then .mark else .source))
  [plain " ", paint .frame s!"{l.index + 1} │", plain " "] ++ drawn.flatten ++ [newline]

/-- One row of marks under the source: `cell` gives the first and the further cells of a
column. -/
def markRow (l : Line) (span : Span) (cell : Nat → Piece × Piece) : List Piece :=
  let count := span.stop - l.offset + 2
  let widths := ((trimmed l).mapIdx cells ++ List.replicate count 1).take count
  let drawn := widths.mapIdx fun column n =>
    match n with
    | 0 => []
    | k + 1 => (cell column).1 :: List.replicate k (cell column).2
  gutter l ++ drawn.flatten

/-- The rows that point at the span and carry its message. The arrow leaves the middle of the
span. -/
def arrow (l : Line) (d : Diagnostic) : List Piece :=
  let middle := (d.span.start + d.span.stop) / 2 - l.offset
  let both (p : Piece) := (p, p)
  let underline := markRow l d.span fun column =>
    if column = middle then
      if covers l d.span column then (paint .mark "┬", paint .mark "─")
      else (paint .mark "│", paint .mark " ")
    else if covers l d.span column then both (paint .mark "─")
    else both (plain " ")
  let tail := markRow l d.span fun column =>
    if column = middle then (paint .mark "╰", paint .mark "─")
    else if middle < column then both (paint .mark "─")
    else both (plain " ")
  underline ++ [newline] ++ tail ++ [plain s!" {d.message}", newline]

/-- The lines of a text, without their ends; the last line need not be ended. `current` holds the
line so far, its last character first. -/
def textLines (current : List Char) : List Char → List String
  | [] => if current.isEmpty then [] else [.ofList current.reverse]
  | '\r' :: '\n' :: cs => .ofList current.reverse :: textLines [] cs
  | '\n' :: cs => .ofList current.reverse :: textLines [] cs
  | c :: cs => textLines (c :: current) cs

def helpRows (l : Line) (help : Option String) : List Piece :=
  match help with
  | none => []
  | some text =>
    let rows := (textLines [] text.toList).mapIdx fun i row =>
      gutter l ++
        (if i = 0 then [paint .help "Help", plain ": "] else [plain (spaces 6)]) ++
        [plain row, newline]
    gutter l ++ [newline] ++ rows.flatten

def footer (l : Line) : List Piece :=
  [paint .frame (.ofList (List.replicate (numberWidth l + 2) '─') ++ "╯"), newline]

/-- The report of one diagnostic. A span outside the text is reported without a source line. -/
def ofDiagnostic (source : List Char) (d : Diagnostic) : List Piece :=
  header d ++ match lineOf? source d.span with
    | none => []
    | some l =>
      location l d.span ++
        (if l.offset + l.chars.length < d.span.stop then gutter l ++ [newline]
          else sourceRow l d.span ++ arrow l d) ++
        helpRows l d.help ++ footer l

end Report

/-- What a failure of a source text looks like to its author. -/
def Failure.report (color : Bool) (source : String) : Failure → String
  | compilation ds =>
    String.join ((ds.flatMap (Report.ofDiagnostic source.toList)).map (Report.Piece.write color))
  | lowering u => s!"{u.message}\n"
  | runtime f => s!"runtime error: {f.message}\n"
  | evaluation e => s!"evaluation error: {e.message}\n"

end StackLang
