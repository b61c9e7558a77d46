import StackLang.Parser.Outcome

namespace StackLang.Command

/-- Options without a value. -/
inductive Flag where
  | tokens | tree | bytecode | eval | lenient
deriving DecidableEq, Repr

/-- Options with a value. -/
inductive Setting where
  | file | dot | nesting
deriving DecidableEq, Repr

def flag? (name : String) : Option Flag :=
  match name with
  | "--tokens" => some .tokens
  | "--ast" => some .tree
  | "--bytecode" => some .bytecode
  | "--eval" => some .eval
  | "--lenient" => some .lenient
  | _ => none

def setting? (name : String) : Option Setting :=
  match name with
  | "--file" => some .file
  | "--dot" => some .dot
  | "--max-depth" => some .nesting
  | _ => none

/-- The arguments by what they are, in order. -/
structure Arguments where
  flags : List Flag
  settings : List (Setting × String)
  texts : List String
deriving DecidableEq, Repr

/-- A dash alone is not an option. -/
def isOption (argument : String) : Bool :=
  match argument.toList with
  | '-' :: _ :: _ => true
  | _ => false

/-- An option's name, and its value if one is attached with an equals sign. -/
def splitValue (argument : String) : String × Option String :=
  let cs := argument.toList
  (.ofList (cs.takeWhile (· ≠ '=')),
    match cs.dropWhile (· ≠ '=') with
    | [] => none
    | _ :: value => some (.ofList value))

namespace Arguments

def addFlag (f : Flag) (a : Arguments) : Arguments := { a with flags := f :: a.flags }

def addSetting (s : Setting) (value : String) (a : Arguments) : Arguments :=
  { a with settings := (s, value) :: a.settings }

def addText (text : String) (a : Arguments) : Arguments := { a with texts := text :: a.texts }

/-- Sorts the arguments. There is no result if one of them is not understood: an unknown option,
a value for a flag, or a setting without a value. After `--` all arguments are texts. -/
def read? : List String → Option Arguments
  | [] => some ⟨[], [], []⟩
  | a :: rest =>
    if a = "--" then some ⟨[], [], rest⟩
    else if isOption a then
      match splitValue a with
      | (name, some value) =>
        match setting? name with
        | some s => (read? rest).map (addSetting s value)
        | none => none
      | (name, none) =>
        match flag? name, setting? name with
        | some f, _ => (read? rest).map (addFlag f)
        | none, none => none
        | none, some s =>
          match rest with
          | [] => none
          | value :: rest =>
            if isOption value then none else (read? rest).map (addSetting s value)
    else (read? rest).map (addText a)

end Arguments

structure Options where
  text : Option String
  file : Option String
  tokens : Bool
  tree : Bool
  bytecode : Bool
  dot : Option String
  eval : Bool
  lenient : Bool
  nesting : Nat
deriving DecidableEq, Repr

/-- A size: digits with an optional plus sign, below 2^64. -/
def size? (s : String) : Option Nat :=
  let digits := match s.toList with
    | '+' :: ds => ds
    | ds => ds
  if digits.isEmpty || !digits.all Char.isDigit then none
  else
    let n := Nat.ofDigitChars 10 digits 0
    if n < UInt64.size then some n else none

/-- Reads the command line. There is no result for a wrong use: besides arguments that are not
understood, an option or a program text given twice, an empty value, both a file and a text, and
leniency without evaluation. -/
def Options.read? (arguments : List String) : Option Options := do
  let a ← Arguments.read? arguments
  guard (a.flags.Nodup ∧ (a.settings.map (·.1)).Nodup ∧ a.texts.length ≤ 1)
  guard (a.settings.all fun (_, value) => value ≠ "")
  let nesting ← match a.settings.lookup .nesting with
    | some value => size? value
    | none => some defaultNesting
  let options : Options :=
    { text := a.texts.head?
      file := a.settings.lookup .file
      tokens := a.flags.contains .tokens
      tree := a.flags.contains .tree
      bytecode := a.flags.contains .bytecode
      dot := a.settings.lookup .dot
      eval := a.flags.contains .eval
      lenient := a.flags.contains .lenient
      nesting := nesting }
  guard (options.file.isNone ∨ options.text.isNone)
  guard (options.lenient → options.eval)
  return options

end StackLang.Command
