import StackLang.Place

namespace StackLang

/-- The operator signs. Both `caret` and `starStar` stand for the power. -/
inductive Sign where
  | plus | minus | star | slash | percent | caret | starStar
  | eqEq | bangEq | lt | ltEq | gt | gtEq
  | andAnd | orOr | bang
deriving DecidableEq, Repr

namespace Sign

def all : List Sign :=
  [plus, minus, star, slash, percent, caret, starStar, eqEq, bangEq, lt, ltEq, gt, gtEq,
    andAnd, orOr, bang]

def text : Sign → String
  | plus => "+"
  | minus => "-"
  | star => "*"
  | slash => "/"
  | percent => "%"
  | caret => "^"
  | starStar => "**"
  | eqEq => "=="
  | bangEq => "!="
  | lt => "<"
  | ltEq => "<="
  | gt => ">"
  | gtEq => ">="
  | andAnd => "&&"
  | orOr => "||"
  | bang => "!"

end Sign

/-- What a token is. The kind `endMark` closes a token sequence. -/
inductive Kind where
  | number | identifier | boolean
  | assign
  | sign (s : Sign)
  | semicolon | lparen | rparen | lbrace | rbrace
  | ifWord | elseWord
  | endMark
deriving DecidableEq, Repr

namespace Kind

def startsStatement : Kind → Bool
  | ifWord | identifier => true
  | _ => false

/-- How a message names a token of this kind. -/
def description : Kind → String
  | number => "number"
  | identifier => "identifier"
  | boolean => "boolean"
  | assign => "'='"
  | sign s => s!"'{s.text}'"
  | semicolon => "';'"
  | lparen => "'('"
  | rparen => "')'"
  | lbrace => "'\x7b'"
  | rbrace => "'\x7d'"
  | ifWord => "'if'"
  | elseWord => "'else'"
  | endMark => "end of input"

/-- How a token dump names the kind. -/
def name : Kind → String
  | number => "NUMBER"
  | identifier => "IDENTIFIER"
  | boolean => "BOOLEAN"
  | assign => "ASSIGN"
  | sign _ => "OPERATOR"
  | semicolon => "SEMICOLON"
  | lparen => "LPAREN"
  | rparen => "RPAREN"
  | lbrace => "LBRACE"
  | rbrace => "RBRACE"
  | ifWord => "IF"
  | elseWord => "ELSE"
  | endMark => "END"

end Kind

structure Token where
  kind : Kind
  lexeme : String
  place : Place
deriving DecidableEq, Repr

namespace Token

def endMark (place : Place) : Token := ⟨.endMark, "", place⟩

def text (t : Token) : String :=
  s!"{t.kind.name}({t.lexeme}) at {t.place.span.start} " ++
    s!"[line:{t.place.line},col:{t.place.column}]"

/-- How a message names this token when it is not the one expected. -/
def description (t : Token) : String :=
  match t.kind with
  | .number => s!"number {t.lexeme}"
  | .identifier => s!"identifier '{t.lexeme}'"
  | .boolean => s!"'{t.lexeme}'"
  | k => k.description

end Token

end StackLang
