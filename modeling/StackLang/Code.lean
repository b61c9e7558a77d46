import StackLang.Instruction

namespace StackLang

structure Code where
  instructions : List Instruction
  /-- The deepest operand stack of a straight pass over the instructions. -/
  maxStack : Nat
deriving DecidableEq, Repr

namespace Code

/-- The deepest stack of a straight pass that starts at `depth`. A pass never goes below the
empty stack. -/
def deepest (depth : Nat) : List Instruction → Nat
  | [] => depth
  | i :: is => max depth (deepest (depth - i.pops + i.pushes) is)

def ofInstructions (is : List Instruction) : Code := ⟨is, deepest 0 is⟩

/-- The label definitions, in order; the first instruction has the given address. -/
def definitions (address : Nat) : List Instruction → List (String × Nat)
  | [] => []
  | .label l :: is => (l, address) :: definitions (address + 1) is
  | _ :: is => definitions (address + 1) is

/-- An address, right-aligned to at least four columns. -/
def addressText (address : Nat) : String :=
  let s := toString address
  .ofList (List.replicate (4 - s.length) ' ') ++ s

/-- The line of one instruction. A jump shows where it leads, by the given table. -/
def line (targets : List (String × Nat)) (address : Nat) (i : Instruction) : String :=
  let margin := addressText address
  match i with
  | .label l => s!"{margin}  {l}:\n"
  | _ =>
    match i.target? with
    | none => s!"{margin}      {i.text}\n"
    | some l =>
      match targets.lookup l with
      | some t => s!"{margin}      {i.text} (to @{t})\n"
      | none => s!"{margin}      {i.text} (unresolved)\n"

/-- One line for each instruction. Of several definitions of a label the last one is shown. -/
def listing (c : Code) : String :=
  let targets := (definitions 0 c.instructions).reverse
  String.join (c.instructions.mapIdx (line targets))

end Code

end StackLang
