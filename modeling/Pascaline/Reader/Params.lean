/-
Parameters in a document. A parameter is a mapping with a name and a type, and the key of a merge
brings in what other mappings have and it has not.
-/

import Pascaline.Reader.Value
import Pascaline.Tree

namespace Pascaline.Reader

/-- A parameter whose fields are being set: the fields that its mapping has set, and, inside a
merge, the names that are already taken. -/
structure Filling where
  param : Param := ⟨[], []⟩
  done : List Bytes := []
  taken : Option (List Bytes) := none

namespace Filling

/-- Whether a merge must leave a name alone. -/
def isTaken (filling : Filling) (name : Bytes) : Bool := filling.taken.any (·.contains name)

/-- Inside a merge, takes a name for what comes later. -/
def take (filling : Filling) (name : Bytes) : Filling :=
  { filling with taken := filling.taken.map (name :: ·) }

end Filling

/-- Sets the field of a name. Null leaves it as it is, and names other than those of the two fields
are ignored. -/
def setField (route : Route) (filling : Filling) (line : Nat) (name : Bytes)
    (value : Yaml.Node) : Convert Filling := do
  if name ≠ "name" ∧ name ≠ "type" then return filling
  else if filling.done.contains name then
    note (.repeatedField line name)
    return filling
  else
    let filling := { filling with done := name :: filling.done }
    match ← text route value with
    | none => return filling
    | some written =>
      let param := filling.param
      return { filling with param :=
        if name = "name" then { param with name := written } else { param with type := written } }

/-- Sets fields from the entries of a mapping, all but a merge. -/
def setFields (route : Route) (filling : Filling) : List Yaml.Node → Convert Filling
  | key :: value :: rest => do
    if key.isMerge then setFields route filling rest
    else match ← text route key with
      | none => setFields route filling rest
      | some name =>
        if filling.isTaken name then setFields route filling rest
        else setFields route (← setField route (filling.take name) key.line name value) rest
  | _ => return filling

/-- The value of the key of a merge. -/
def mergedNode? : List Yaml.Node → Option Yaml.Node
  | key :: value :: rest => if key.isMerge then some value else mergedNode? rest
  | _ => none

/-- The mappings that a merge brings in. -/
def mergedNodes : Yaml.Node → List Yaml.Node
  | .sequence _ _ items => items
  | other => [other]

/-- A mapping of texts has keys that are texts or merges. -/
def collectionOf (route : Route) (entries : List Yaml.Node) : Collection :=
  let isText (key : Yaml.Node) : Bool :=
    match route.document.target key with
    | .scalar _ tag _ => tag = "!!str" || tag = "!!merge"
    | _ => false
  if (keys entries).all isText then .textMapping else .mapping

/-- The text that a key is, if it is one. A collection cannot be compared with other keys, unless it
has no value for its repeated keys. -/
def keyText (route : Route) (key : Yaml.Node) : Convert (Option Bytes) := do
  let (_, key) ← route.arrive key
  match key with
  | .scalar _ tag written =>
    match ← resolveScalar tag written with
    | .text text => return some text
    | _ => return none
  | .sequence .. => throw (.collectionKey .sequence)
  | .mapping _ _ entries =>
    match repeatedKeys (keys entries) with
    | [] => throw (.collectionKey (collectionOf route entries))
    | repeated =>
      repeated.forM note
      return none
  | .alias .. => return none

/-- Sets fields from the entries of a mapping, and then from the mappings that are merged into it,
the first ones first. A name is taken by the first mapping that has it. -/
def fill (fuel : Nat) (route : Route) (filling : Filling) (entries : List Yaml.Node) :
    Convert Filling := do
  let filling ← setFields route { filling with done := [] } entries
  match mergedNode? entries, fuel with
  | none, _ => return filling
  | some _, 0 => throw .tooDeep
  | some merged, fuel + 1 =>
    let taken ← match filling.taken with
      | some taken => pure taken
      | none => (keys entries).filterMapM (keyText route)
    (mergedNodes merged).foldlM (fun filling node => do
      if !route.document.isMapping node then throw .notMergeable
      let (route, node) ← route.arrive node
      match node with
      | .mapping _ _ entries =>
        match repeatedKeys (keys entries) with
        | [] => fill fuel route filling entries
        | repeated =>
          repeated.forM note
          return filling
      | _ => return filling) { filling with taken := some taken }

/-- How deep merges can be nested. On one way every alias is followed once at most, and between two
of them the nodes lie inside each other. -/
def mergeDepth (document : Yaml.Document) (entries : List Yaml.Node) : Nat :=
  if (mergedNode? entries).isSome then (document.root.size + 1) * (document.root.size + 1) else 0

def param (route : Route) (node : Yaml.Node) : Convert (Option Param) := do
  let (route, node) ← route.arrive node
  match node with
  | .mapping _ _ entries =>
    match repeatedKeys (keys entries) with
    | [] =>
      return some (← fill (mergeDepth route.document entries) route {} entries).param
    | repeated =>
      repeated.forM note
      return none
  | other => convertHere .param (fun _ _ => none) other

/-- A list of parameters. Null elements are left out. -/
def params (route : Route) (node : Yaml.Node) : Convert (List Param) := do
  let (route, node) ← route.arrive node
  match node with
  | .sequence _ _ items => items.filterMapM (param route)
  | other => return (← convertHere .params (fun _ _ => none) other).getD []

end Pascaline.Reader
