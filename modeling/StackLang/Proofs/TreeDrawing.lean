import Mathlib.Data.List.Nodup
import StackLang.Proofs.TreeShape
import StackLang.Tree.Graph

namespace StackLang.Tree

mutual

/-- The number of nodes. -/
def size : Tree → Nat
  | number _ | var _ | boolean _ => 1
  | unary _ e | assign _ e => e.size + 1
  | binary _ l r => l.size + r.size + 1
  | ifThen c s => c.size + s.size + 1
  | ifElse c s t => c.size + s.size + t.size + 1
  | program ss => sizes ss + 1

def sizes : List Tree → Nat
  | [] => 0
  | s :: ss => s.size + sizes ss

end

/-- A subtree right below the root, and what it is there. -/
structure Child where
  role : String
  tree : Tree

/-- Nodes of the `i`-th child, with their positions seen from its parent. -/
def under (i : Nat) (nodes : List (List Nat × Tree)) : List (List Nat × Tree) :=
  nodes.map fun n => (i :: n.1, n.2)

mutual

/-- The nodes of a tree in pre-order. The position of a node tells which child to take at each
step from the root to the node. -/
def nodes : Tree → List (List Nat × Tree)
  | number x => [([], number x)]
  | var x => [([], var x)]
  | boolean b => [([], boolean b)]
  | unary op e => ([], unary op e) :: under 0 e.nodes
  | binary op l r => ([], binary op l r) :: (under 0 l.nodes ++ under 1 r.nodes)
  | assign x e => ([], assign x e) :: under 0 e.nodes
  | ifThen c s => ([], ifThen c s) :: (under 0 c.nodes ++ under 1 s.nodes)
  | ifElse c s t =>
    ([], ifElse c s t) :: (under 0 c.nodes ++ (under 1 s.nodes ++ under 2 t.nodes))
  | program ss => ([], program ss) :: nodesFrom 0 ss

/-- The nodes of the statements of a program, the first of which has the given index. -/
def nodesFrom (i : Nat) : List Tree → List (List Nat × Tree)
  | [] => []
  | s :: ss => under i s.nodes ++ nodesFrom (i + 1) ss

end

/-- The number of nodes of some children of one node. -/
def span (cs : List Child) : Nat := sizes (cs.map Child.tree)

section Children

end Children

section Drawing

open Sketch

end Drawing

section Numbers

variable {t u v : Tree} {cs ds : List Child} {c : Child} {i j k : Nat} {p q : List Nat}

end Numbers

namespace GraphEntry

end GraphEntry

section Entries

open scoped List

variable {t u v : Tree} {cs ds : List Child} {c : Child} {i k : Nat} {p : List Nat}

end Entries

section Joins

variable {t u v : Tree} {c : Child} {i k parent child : Nat} {p : List Nat} {role : String}

end Joins

end StackLang.Tree
