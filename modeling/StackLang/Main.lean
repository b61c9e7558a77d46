import StackLang.Command.Plan

namespace StackLang.Command

/-- The system's reason for a failed operation. -/
def reason : IO.Error → String
  | .noFileOrDirectory _ code details => s!"{details} (os error {code})"
  | .inappropriateType _ code details => s!"{details} (os error {code})"
  | .permissionDenied _ code details => s!"{details} (os error {code})"
  | .alreadyExists _ code details => s!"{details} (os error {code})"
  | .invalidArgument _ code details => s!"{details} (os error {code})"
  | .resourceExhausted _ code details => s!"{details} (os error {code})"
  | .noSuchThing _ code details => s!"{details} (os error {code})"
  | .otherError code details => s!"{details} (os error {code})"
  | e => toString e

def attempt {α : Type} (act : IO α) : IO (Except String α) := do
  try return .ok (← act) catch e => return .error (reason e)

partial def readAll (input : IO.FS.Stream) (before : ByteArray) : IO ByteArray := do
  let more ← input.read 65536
  if more.isEmpty then return before else readAll input (before ++ more)

def readOrigin : Origin → IO ByteArray
  | .file path => do (← IO.FS.Handle.mk path .read).readBinToEnd
  | .standardInput => do readAll (← IO.getStdin) ByteArray.empty

def carryOut : Plan → IO UInt32
  | .finish o => do
    IO.print o.stdout
    IO.eprint o.stderr
    return .ofNat o.exit
  | .read origin resume => do carryOut (resume (← attempt (readOrigin origin)))
  | .write path text resume => do carryOut (resume (← attempt (IO.FS.writeFile path text)))

end StackLang.Command

def main (arguments : List String) : IO UInt32 :=
  StackLang.Command.carryOut (StackLang.Command.plan arguments)
