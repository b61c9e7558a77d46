import StackLang.Text.Alphanumeric
import StackLang.Text.Control
import StackLang.Text.LineBreak

namespace StackLang.Text

/-- A piece of text that stays on one line, and the spaces after it, which are dropped at the end
of a line. -/
structure Word where
  chars : List Char
  spaces : List Char
deriving DecidableEq, Repr

namespace Word

def ofChars (cs : List Char) : Word :=
  let chars := (cs.reverse.dropWhile (· = ' ')).reverse
  ⟨chars, cs.drop chars.length⟩

end Word

/-- A break after one of these is left to the hyphens of the word. -/
def isHyphen (c : Char) : Bool := c == '-' || c == '\u00ad'

/-- Where the reading of words stands: the text of the word so far, control sequences that go to
the character after them, and the last character with its context. -/
structure WordScan where
  word : List Char
  pending : List Char
  last : Option (Char × BreakContext)

namespace WordScan

/-- Whether a word ends before `c`. -/
def breaksBefore (s : WordScan) (c : Char) : Bool :=
  match s.last with
  | none => false
  | some (a, x) => x.allows (.ofChar c) && !isHyphen a

def contextAfter (s : WordScan) (c : Char) : BreakContext :=
  match s.last with
  | none => .after (.ofChar c)
  | some (_, x) => x.next (.ofChar c)

/-- The texts of the words. -/
def run (s : WordScan) : List Signal → List (List Char)
  | [] => [s.word ++ s.pending]
  | .sequence cs :: signals => { s with pending := s.pending ++ cs }.run signals
  | .character c :: signals =>
    let last := some (c, s.contextAfter c)
    if s.breaksBefore c then s.word :: run ⟨s.pending ++ [c], [], last⟩ signals
    else run ⟨s.word ++ s.pending ++ [c], [], last⟩ signals

end WordScan

/-- Joins the last two of some texts. -/
def joinLast : List (List Char) → List (List Char)
  | [] => []
  | [a] => [a]
  | [a, b] => [a ++ b]
  | a :: rest => a :: joinLast rest

/-- The last character that is not part of a control sequence. -/
def lastCharacter? (signals : List Signal) : Option Char :=
  (signals.filterMap fun
    | .character c => some c
    | .sequence _ => none).getLast?

/-- The texts of the words of a line. A line that ends in a hyphen has its last two words
together. -/
def wordTexts (line : List Char) : List (List Char) :=
  let signals := Signal.ofChars line
  let texts := (WordScan.mk [] [] none).run signals
  let texts := if (lastCharacter? signals).any isHyphen then joinLast texts else texts
  texts.filter (· ≠ [])

/-- Cuts a text after each hyphen between two letters or digits; `before` is the text so far, read
backwards. -/
def splitHyphens (before : List Char) : List Char → List (List Char)
  | [] => [before.reverse]
  | '-' :: c :: cs =>
    if before.head?.any isAlphanumeric && isAlphanumeric c then
      ('-' :: before).reverse :: splitHyphens [] (c :: cs)
    else splitHyphens ('-' :: before) (c :: cs)
  | c :: cs => splitHyphens (c :: before) cs

/-- Gives the spaces to the last of some texts. -/
def withSpaces (spaces : List Char) : List (List Char) → List Word
  | [] => []
  | [cs] => [⟨cs, spaces⟩]
  | cs :: rest => ⟨cs, []⟩ :: withSpaces spaces rest

/-- Cuts a text into pieces of at most `limit` columns. -/
def cut (limit : Nat) (piece : List Char) (used : Nat) : List Signal → List (List Char)
  | [] => if piece = [] then [] else [piece]
  | s :: signals =>
    let n := s.columns
    if 0 < used && limit < used + n then piece :: cut limit s.chars n signals
    else cut limit (piece ++ s.chars) (used + n) signals

namespace Word

def split (w : Word) : List Word := withSpaces w.spaces (splitHyphens [] w.chars)

def fit (limit : Nat) (w : Word) : List Word :=
  if limit < columns w.chars then withSpaces w.spaces (cut limit [] 0 (Signal.ofChars w.chars))
  else [w]

end Word

/-- A line of words as text. -/
def lineText : List Word → List Char
  | [] => []
  | [w] => w.chars
  | w :: words => w.chars ++ w.spaces ++ lineText words

/-- Puts words on lines; `line` is the line so far and `used` its columns. -/
def fill (limit : Nat) (line : List Word) (used : Nat) : List Word → List (List Word)
  | [] => [line]
  | w :: words =>
    let n := columns w.chars
    let m := n + columns w.spaces
    if limit < used + n then line :: fill limit [w] m words
    else fill limit (line ++ [w]) (used + m) words

/-- The lines of at most `limit` columns for a text without line feeds. -/
def wrapLine (limit : Nat) (line : List Char) : List (List Char) :=
  let words := (wordTexts line).flatMap fun cs => (Word.ofChars cs).split.flatMap (Word.fit limit)
  (fill limit [] 0 words).map lineText

/-- The lines of at most `limit` columns for a text. Its own line feeds end a line as well. -/
def wrap (limit : Nat) (text : String) : List String :=
  ((text.splitOn "\n").flatMap fun line => wrapLine limit line.toList).map .ofList

end StackLang.Text
