import StackLang.Tree

namespace StackLang.Tree

inductive GraphEntry where
  | node (id : Nat) (label attributes : String)
  | edge (parent child : Nat) (role : String)
deriving DecidableEq, Repr

/-- The label of a node; `\n` in it is the line break of the DOT language. -/
def label (t : Tree) : String :=
  let detail := match t with
    | number x => some (Number.text x)
    | var x => some x
    | boolean b => some (boolText b)
    | unary op _ => some op.symbol
    | binary op .. => some op.symbol
    | assign x _ => some x
    | _ => none
  match detail with
  | some d => s!"{t.form}\\n{d}"
  | none => t.form

def attributes : Tree → String
  | ifThen .. | ifElse .. => ", shape=diamond"
  | program _ => ", shape=ellipse, color=blue"
  | _ => ""

def declaration (id : Nat) (t : Tree) : GraphEntry := .node id t.label t.attributes

/-- A drawing on its way. -/
structure Sketch where
  /-- The number for the next node. -/
  next : Nat
  entries : Array GraphEntry

namespace Sketch

def blank : Sketch := ⟨0, #[]⟩

def write (e : GraphEntry) : StateM Sketch Unit :=
  modify fun d => { d with entries := d.entries.push e }

/-- Takes the next number for the root of a tree and declares it. -/
def declare (t : Tree) : StateM Sketch Nat := do
  let id ← modifyGet fun d => (d.next, { d with next := d.next + 1 })
  write (declaration id t)
  return id

/-- Draws a child of the node `parent`, and then the edge that leads to it. -/
def attach (parent : Nat) (role : String) (child : StateM Sketch Nat) : StateM Sketch Unit := do
  let id ← child
  write (.edge parent id role)

end Sketch

open Sketch

mutual

/-- Draws a tree and gives the number of its root. -/
def draw : Tree → StateM Sketch Nat
  | number x => declare (number x)
  | var x => declare (var x)
  | boolean b => declare (boolean b)
  | unary op e => do
    let id ← declare (unary op e)
    attach id "expr" e.draw
    return id
  | binary op l r => do
    let id ← declare (binary op l r)
    attach id "left" l.draw
    attach id "right" r.draw
    return id
  | assign x e => do
    let id ← declare (assign x e)
    attach id "expr" e.draw
    return id
  | ifThen c s => do
    let id ← declare (ifThen c s)
    attach id "condition" c.draw
    attach id "then" s.draw
    return id
  | ifElse c s t => do
    let id ← declare (ifElse c s t)
    attach id "condition" c.draw
    attach id "then" s.draw
    attach id "else" t.draw
    return id
  | program ss => do
    let id ← declare (program ss)
    drawFrom id 0 ss
    return id

/-- Draws the statements of the program `parent`, from the `i`-th one on. -/
def drawFrom (parent i : Nat) : List Tree → StateM Sketch Unit
  | [] => return
  | s :: ss => do
    attach parent s!"stmt {i}" s.draw
    drawFrom parent (i + 1) ss

end

/-- The entries of a tree, in the order in which they are written. -/
def entries (t : Tree) : List GraphEntry := (t.draw .blank).2.entries.toList

/-- Quotes are the only characters of a label that are escaped. -/
def quoted (label : String) : String :=
  .ofList (label.toList.flatMap fun c => if c = '"' then ['\\', '"'] else [c])

def GraphEntry.text : GraphEntry → String
  | node id label attributes => s!"  node{id} [label=\"{quoted label}\"{attributes}];\n"
  | edge parent child role => s!"  node{parent} -> node{child} [label=\"{role}\"];\n"

def graphHeader : String :=
  "digraph AST \x7b\n  node [shape=box, fontname=\"Arial\", fontsize=10];\n" ++
    "  edge [fontname=\"Arial\", fontsize=8];\n\n"

/-- The DOT document of a tree. -/
def dot (t : Tree) : String :=
  graphHeader ++ String.join (t.entries.map GraphEntry.text) ++ "\x7d\n"

end StackLang.Tree
