import StackLang.Text.BreakClass

namespace StackLang.Text

open BreakClass

/-- What the rules look back at: the class of the last character that is neither a space nor a
mark, and what has followed it. -/
structure BreakContext where
  last : BreakClass
  spaced : Bool
  joined : Bool
  afterHebrew : Bool
  oddRegional : Bool
deriving DecidableEq, Repr

namespace BreakContext

/-- The context after a character with nothing before it that counts. -/
def after (k : BreakClass) : BreakContext :=
  match k with
  | space => ⟨alphabetic, true, false, false, false⟩
  | mark => ⟨alphabetic, false, false, false, false⟩
  | joiner => ⟨alphabetic, false, true, false, false⟩
  | k => ⟨k, false, false, false, k == regional⟩

/-- A line ends here in any case. -/
def endsLine (x : BreakContext) : Bool :=
  !x.spaced && [hardBreak, carriageReturn, lineFeed].contains x.last

/-- Marks join the character before them, unless that is a space or ends a line. -/
def takesMark (x : BreakContext) : Bool :=
  !x.spaced && !x.endsLine && x.last != zeroWidthSpace

def next (x : BreakContext) (k : BreakClass) : BreakContext :=
  if x.endsLine then after k
  else if k = space then { x with spaced := true, joined := false }
  else if (k = mark || k = joiner) && x.takesMark then { x with joined := k == joiner }
  else
    { after k with
      afterHebrew := !x.spaced && x.last == hebrew && (k == hyphen || k == breakAfter)
      oddRegional := k == regional && !(!x.spaced && x.last == regional && x.oddRegional) }

end BreakContext

def isLetter (k : BreakClass) : Bool := k == alphabetic || k == hebrew

def isPictorial (k : BreakClass) : Bool := k == ideograph || k == emojiBase || k == emojiModifier

def isKorean (k : BreakClass) : Bool :=
  [leadingJamo, vowelJamo, trailingJamo, openSyllable, closedSyllable].contains k

/-- Numbers stay together with their signs, points and units. -/
def holdsNumber (a b : BreakClass) : Bool :=
  match a, b with
  | closing, percent | closingParenthesis, percent | closing, currency
  | closingParenthesis, currency | numeric, percent | numeric, currency | percent, opening
  | percent, wideOpening | currency, opening | currency, wideOpening | percent, numeric
  | currency, numeric | hyphen, numeric | separator, numeric | numeric, numeric
  | slash, numeric => true
  | _, _ => false

/-- The parts of a syllable block stay together. -/
def holdsSyllable (a b : BreakClass) : Bool :=
  match a, b with
  | leadingJamo, leadingJamo | leadingJamo, vowelJamo | leadingJamo, openSyllable
  | leadingJamo, closedSyllable | vowelJamo, vowelJamo | vowelJamo, trailingJamo
  | openSyllable, vowelJamo | openSyllable, trailingJamo | trailingJamo, trailingJamo
  | closedSyllable, trailingJamo => true
  | _, _ => false

/-- Two classes that are not parted when they meet without a space. -/
def holds (a b : BreakClass) : Bool :=
  b == quotation || a == quotation ||
    (a != contingent && b != contingent &&
      ([breakAfter, hyphen, nonstarter, inseparable].contains b || a == breakBefore ||
        (a == slash && b == hebrew) ||
        (isLetter a && b == numeric) || (a == numeric && isLetter b) ||
        (a == currency && isPictorial b) || (isPictorial a && b == percent) ||
        ((a == currency || a == percent) && isLetter b) ||
        (isLetter a && (b == currency || b == percent)) ||
        holdsNumber a b || holdsSyllable a b ||
        (isKorean a && b == percent) || (a == currency && isKorean b) ||
        (isLetter a && isLetter b) || (a == separator && isLetter b) ||
        ((isLetter a || a == numeric) && b == opening) ||
        (a == closingParenthesis && (isLetter b || b == numeric)) ||
        (a == emojiBase && b == emojiModifier)))

/-- Two classes that are not parted even when spaces stand between them. -/
def holdsOverSpace (a b : BreakClass) : Bool :=
  [wordJoiner, closing, closingParenthesis, exclamation, separator, slash].contains b ||
    a == opening || a == wideOpening ||
    ((a == closing || a == closingParenthesis) && b == nonstarter) ||
    (a == longDash && b == longDash)

namespace BreakContext

/-- Whether the line may be broken before a character of class `k`. The first rule that speaks of
the place decides. -/
def allows (x : BreakContext) (k : BreakClass) : Bool :=
  if x.endsLine then !(x.last == carriageReturn && k == lineFeed)
  else if [hardBreak, carriageReturn, lineFeed, space, zeroWidthSpace].contains k then false
  else if x.last == zeroWidthSpace then true
  else if x.joined then false
  else if (k == mark || k == joiner) && x.takesMark then false
  else
    let b := if k == mark || k == joiner then alphabetic else k
    if !x.spaced && (x.last == wordJoiner || x.last == glue) then false
    else if b == glue && !x.spaced && x.last != breakAfter && x.last != hyphen then false
    else if holdsOverSpace x.last b then false
    else if x.spaced then true
    else
      !(holds x.last b || (x.afterHebrew && b != contingent) || (b == regional && x.oddRegional))

end BreakContext

end StackLang.Text
