import StackLang.Code
import StackLang.Store

/-! The stack machine. Labels are resolved before anything runs; then instructions run one
after the other until the program counter leaves the code. -/
namespace StackLang

/-- Why code cannot run on. -/
inductive Fault where
  | undefinedVariable (name : String) (pc : Nat)
  | divisionByZero (pc : Nat)
  | stackUnderflow (instruction : Instruction) (pc : Nat)
  | unresolvedLabel (label : String) (pc : Nat)
  | duplicateLabel (label : String) (first second : Nat)
deriving DecidableEq, Repr

namespace Fault

/-- The address of the instruction at fault. -/
def pc : Fault → Nat
  | undefinedVariable _ pc | divisionByZero pc | stackUnderflow _ pc | unresolvedLabel _ pc => pc
  | duplicateLabel _ _ second => second

def message : Fault → String
  | undefinedVariable x pc => s!"variable '{x}' is not defined (at instruction {pc})"
  | divisionByZero pc => s!"division by zero (at instruction {pc})"
  | stackUnderflow i pc => s!"stack underflow executing {i.text} (at instruction {pc})"
  | unresolvedLabel l pc => s!"jump to undefined label '{l}' (at instruction {pc})"
  | duplicateLabel l first second =>
    s!"label '{l}' defined twice (at instructions {first} and {second})"

end Fault

/-- Code with the address of each label. -/
structure Machine where
  code : Array Instruction
  labels : List (String × Nat)
deriving Repr

namespace Machine

/-- Adds the labels of the instructions from `address` on to those that are known. -/
def addLabels (known : List (String × Nat)) (address : Nat) :
    List Instruction → Except Fault (List (String × Nat))
  | [] => .ok known
  | .label l :: is =>
    match known.lookup l with
    | some first => .error (.duplicateLabel l first address)
    | none => addLabels ((l, address) :: known) (address + 1) is
  | _ :: is => addLabels known (address + 1) is

/-- The first jump from `address` on whose label is not in the table. -/
def missing? (labels : List (String × Nat)) (address : Nat) : List Instruction → Option Fault
  | [] => none
  | i :: is =>
    match i.target?.filter (fun l => (labels.lookup l).isNone) with
    | some l => some (.unresolvedLabel l address)
    | none => missing? labels (address + 1) is

/-- Resolves the labels of a program. A label that is defined twice is reported before any that
is missing. -/
def load (is : List Instruction) : Except Fault Machine := do
  let labels ← addLabels [] 0 is
  match missing? labels 0 is with
  | some fault => throw fault
  | none => return ⟨is.toArray, labels⟩

structure State where
  pc : Nat
  /-- The operands, the top one first. -/
  stack : List Float
  store : Store

namespace State

def start : State := ⟨0, [], ∅⟩

/-- The state after an instruction that leaves the given operands and does not jump. -/
def next (s : State) (stack : List Float) : State := { s with pc := s.pc + 1, stack }

end State

/-- Where a jump leads. An unknown label would lead to the end of the code. -/
def target (m : Machine) (label : String) : Nat := (m.labels.lookup label).getD m.code.size

/-- Runs one instruction. -/
def step (m : Machine) (i : Instruction) (s : State) : Except Fault State :=
  match i, s.stack with
  | .push x, rest => .ok (s.next (x :: rest))
  | .load x, rest =>
    match s.store[x]? with
    | some v => .ok (s.next (v :: rest))
    | none => .error (.undefinedVariable x s.pc)
  | .store x, v :: rest => .ok { s.next rest with store := s.store.insert x v }
  | .unary op, x :: rest => .ok (s.next (op.eval x :: rest))
  | .binary op, y :: x :: rest =>
    match op.eval? x y with
    | some z => .ok (s.next (z :: rest))
    | none => .error (.divisionByZero s.pc)
  | .jump l, _ => .ok { s with pc := m.target l }
  | .jumpIfFalse l, v :: rest =>
    .ok (if Number.isTrue v then s.next rest else { s with pc := m.target l, stack := rest })
  | .label _, rest => .ok (s.next rest)
  | i, _ => .error (.stackUnderflow i s.pc)

/-- How far a run has come. -/
inductive Progress where
  | running (state : State)
  | halted (store : Store)
  | failed (fault : Fault)

/-- Runs at most `n` instructions. -/
def runFor (m : Machine) (n : Nat) (s : State) : Progress :=
  match m.code[s.pc]? with
  | none => .halted s.store
  | some i =>
    match n with
    | 0 => .running s
    | n + 1 =>
      match m.step i s with
      | .ok t => m.runFor n t
      | .error fault => .failed fault

/-- Loads a program and runs at most `n` of its instructions. -/
def execute (n : Nat) (is : List Instruction) : Progress :=
  match load is with
  | .ok m => m.runFor n .start
  | .error fault => .failed fault

/-- The states in which the first `n` instructions of a run start, in order. -/
def visited (m : Machine) (n : Nat) (s : State) : List State :=
  match m.code[s.pc]? with
  | none => []
  | some i =>
    match n with
    | 0 => []
    | n + 1 =>
      s :: match m.step i s with
        | .ok t => m.visited n t
        | .error _ => []

end Machine

end StackLang
