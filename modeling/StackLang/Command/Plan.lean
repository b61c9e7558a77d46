import StackLang.Command.Options
import StackLang.Report
import StackLang.Text.Wrap

namespace StackLang.Command

/-- Where a program text comes from outside the command line. -/
inductive Origin where
  | file (path : String)
  | standardInput
deriving DecidableEq, Repr

/-- What is printed, and the exit code. -/
structure Output where
  exit : Nat
  stdout : String
  stderr : String
deriving DecidableEq, Repr

/-- A plan goes on with the outcome of each step. A failed step gives the reason. -/
inductive Plan where
  | finish (output : Output)
  | read (origin : Origin) (resume : Except String ByteArray → Plan)
  | write (path text : String) (resume : Except String Unit → Plan)

/-- Messages are wrapped for a terminal of 80 columns, of which two stay free. -/
def messageWidth : Nat := 78

/-- A message: its first line stands after `first`, the others stand after `rest`, which takes as
many columns. -/
def message (first rest text : String) : String :=
  let lines := Text.wrap (messageWidth - Text.columns first.toList) text
  first ++ String.intercalate s!"\n{rest}" lines ++ "\n"

/-- The end of a command that could not read or write. -/
def ioFailure (stdout task reason : String) : Plan :=
  let what := message "  × " "  │ " s!"could not {task}"
  let why := message "  ╰─▶ " "      " reason
  .finish ⟨1, stdout, s!"Error: stackc::io\n\n{what}{why}\n"⟩

/-- The end of a command whose program failed. -/
def programFailure (stdout source : String) (f : Failure) : Plan :=
  .finish ⟨1, stdout, f.report true source ++ "Error:   × program failed\n\n"⟩

def decode (bytes : ByteArray) : Except String String :=
  (String.fromUTF8? bytes).elim (.error "stream did not contain valid UTF-8") .ok

/-- A titled list of lines. -/
def dump (title body : String) : String := s!"=== {title} ===\n{body}\n"

def unlines (lines : List String) : String := String.join (lines.map (· ++ "\n"))

/-- The tokens of a text; a text that cannot be read has none. -/
def tokenDump (source : String) : String :=
  match tokenize source with
  | .ok tokens => dump "Tokens" (unlines (tokens.map Token.text))
  | .error _ => ""

def variableLines (store : Store) : String :=
  unlines (store.toList.map fun (x, v) => s!"{x} = {Number.text v}")

namespace Options

variable (o : Options)

/-- The result of the program, by its trees or by its code. -/
def result (p : Program) : Except Failure Store :=
  if o.eval then
    match p.evaluate ⟨o.lenient, defaultDepth⟩ with
    | .ok store => .ok store
    | .error e => .error (.evaluation e)
  else
    match p.run with
    | .halted store => .ok store
    | .running s => .ok s.store
    | .failed f => .error (.runtime f)

/-- Runs a compiled program after `stdout` was printed. -/
def conclude (stdout : String) (p : Program) : Plan :=
  match o.result p with
  | .ok store => .finish ⟨0, stdout ++ variableLines store, ""⟩
  | .error f => programFailure stdout p.source f

/-- The parts of a compiled program that are to be printed. -/
def programDump (p : Program) : String :=
  (if o.tree then dump "AST" (unlines (p.statements.map Tree.text)) else "") ++
    (if o.bytecode then dump "Bytecode" p.code.listing else "")

/-- All that is done with a program text. -/
def interpret (source : String) : Plan :=
  let stdout := if o.tokens then tokenDump source else ""
  match Program.compile o.nesting source with
  | .error f => programFailure stdout source f
  | .ok p =>
    let stdout := stdout ++ o.programDump p
    match o.dot with
    | none => o.conclude stdout p
    | some path => .write path p.dot fun
      | .ok () => o.conclude stdout p
      | .error reason => ioFailure stdout s!"write {path}" reason

def plan : Plan :=
  match o.text with
  | some source => o.interpret source
  | none =>
    let (origin, task) := match o.file with
      | some path => (Origin.file path, s!"read {path}")
      | none => (Origin.standardInput, "read input")
    .read origin fun bytes =>
      match bytes.bind decode with
      | .ok source => o.interpret source
      | .error reason => ioFailure "" task reason

end Options

/-- The plan of a command line. A wrong use ends with code 2. -/
def plan (arguments : List String) : Plan :=
  match Options.read? arguments with
  | some o => o.plan
  | none => .finish ⟨2, "", ""⟩

end StackLang.Command
