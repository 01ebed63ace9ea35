/-
YAML documents as trees. Every node has the line on which it starts. An alias stays a leaf of the
tree: it tells the number of the node that it stands for, which may be a node around it, and its
own place among the aliases of the document.
-/

import Pascaline.Bytes

namespace Pascaline.Yaml

/-- A node. The entries of a mapping are its keys and values in turn. -/
inductive Node where
  | scalar (line : Nat) (tag text : Bytes)
  | sequence (line : Nat) (tag : Bytes) (items : List Node)
  | mapping (line : Nat) (tag : Bytes) (entries : List Node)
  | alias (line : Nat) (name : Bytes) (number place : Nat)
  deriving Inhabited

namespace Node

def line : Node → Nat
  | .scalar line .. | .sequence line .. | .mapping line .. | .alias line .. => line

/-- The text of a scalar and the name of an alias; collections have none. -/
def text : Node → Bytes
  | .scalar _ _ text => text
  | .alias _ name _ _ => name
  | .sequence .. | .mapping .. => []

/-- A scalar with the tag of null. -/
def isNull : Node → Bool
  | .scalar _ tag _ => tag = "!!null"
  | _ => false

/-- The key that brings in the entries of other mappings. -/
def isMerge : Node → Bool
  | .scalar _ tag text => tag = "!!merge" && text = "<<"
  | _ => false

/-- Whether two nodes are of the same form, whatever they hold. -/
def sameForm : Node → Node → Bool
  | .scalar .., .scalar .. => true
  | .sequence .., .sequence .. => true
  | .mapping .., .mapping .. => true
  | .alias .., .alias .. => true
  | _, _ => false

mutual

/-- The number of nodes in a tree. -/
def size : Node → Nat
  | .scalar .. | .alias .. => 1
  | .sequence _ _ items => sizes items + 1
  | .mapping _ _ entries => sizes entries + 1

def sizes : List Node → Nat
  | [] => 0
  | node :: rest => node.size + sizes rest

end

end Node

/-- A document: its tree, and the nodes with anchors by their numbers. -/
structure Document where
  root : Node
  anchored : List (Nat × Node) := []
  deriving Inhabited

/-- The node that a node stands for: an alias stands for the node with its anchor. -/
def Document.target (document : Document) (node : Node) : Node :=
  match node with
  | .alias _ _ number _ => (document.anchored.lookup number).getD node
  | other => other

/-- Whether a node is or stands for a mapping. -/
def Document.isMapping (document : Document) (node : Node) : Bool :=
  match document.target node with
  | .mapping .. => true
  | _ => false

end Pascaline.Yaml
