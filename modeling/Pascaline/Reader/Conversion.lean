/-
Converting nodes of a document to values. A node that is not what is wanted is a mismatch, and all
mismatches are noted before the value is given up. Aliases are followed on the way.
-/

import Pascaline.Text.Quoted
import Pascaline.Yaml.Node
import Pascaline.Yaml.Resolution

namespace Pascaline.Reader

open Yaml (Document Scalar)

/-! ### Mismatches -/

/-- What a node is wanted to be. -/
inductive Wanted where
  | shortInteger
  | longInteger
  | real
  | boolean
  | string
  | param
  | params
  deriving DecidableEq

def Wanted.text : Wanted → Bytes
  | .shortInteger => "int32"
  | .longInteger => "int"
  | .real => "float64"
  | .boolean => "bool"
  | .string => "string"
  | .param => "ast.Param"
  | .params => "[]ast.Param"

/-- A reason why a value cannot be read. -/
inductive Mismatch where
  | form (line : Nat) (tag text : Bytes) (wanted : Wanted)
  | repeatedKey (line : Nat) (key : Bytes) (firstLine : Nat)
  | repeatedField (line : Nat) (field : Bytes)
  deriving DecidableEq

/-- The text of a scalar in a message. A long one is cut. -/
def excerpt (text : Bytes) : Bytes :=
  if 10 < text.length then " `" ++ text.take 7 ++ "...`" else " `" ++ text ++ "`"

def Mismatch.text : Mismatch → Bytes
  | .form line tag text wanted =>
    let shown := if tag = "!!seq" ∨ tag = "!!map" then text else excerpt text
    "line " ++ Bytes.ofNat line ++ ": cannot unmarshal " ++ tag ++ shown ++ " into " ++ wanted.text
  | .repeatedKey line key firstLine =>
    "line " ++ Bytes.ofNat line ++ ": mapping key " ++ Text.quote key ++
      " already defined at line " ++ Bytes.ofNat firstLine
  | .repeatedField line field =>
    "line " ++ Bytes.ofNat line ++ ": field " ++ field ++ " already set in type ast.Param"

/-- The collections that cannot be told apart as keys. -/
inductive Collection where
  | sequence
  | textMapping
  | mapping
  deriving DecidableEq

def Collection.text : Collection → Bytes
  | .sequence => "[]interface \x7b\x7d"
  | .textMapping => "map[string]interface \x7b\x7d"
  | .mapping => "map[interface \x7b\x7d]interface \x7b\x7d"

/-- Why a value was given up: a text does not fit its tag, an alias leads back to itself or aliases
lead to nearly all nodes, what should be merged cannot be, or there are mismatches. -/
inductive ValueFailure where
  | contradiction (found text tag : Bytes)
  | notBase64
  | selfContained (name : Bytes)
  | excessiveAliases
  | notMergeable
  | collectionKey (collection : Collection)
  | tooDeep
  | mismatches (list : List Mismatch)
  deriving DecidableEq

def ValueFailure.text : ValueFailure → Bytes
  | .contradiction found text tag =>
    "yaml: cannot decode " ++ found ++ " `" ++ text ++ "` as a " ++ tag
  | .notBase64 => "yaml: !!binary value contains invalid base64 data"
  | .selfContained name => "yaml: anchor '" ++ name ++ "' value contains itself"
  | .excessiveAliases => "yaml: document contains excessive aliasing"
  | .notMergeable => "yaml: map merge requires map or sequence of maps as the value"
  | .collectionKey collection =>
    "yaml: runtime error: hash of unhashable type " ++ collection.text
  | .tooDeep => "yaml: document is too deep"
  | .mismatches list =>
    "yaml: unmarshal errors:\n  " ++ Bytes.join "\n  " (list.map Mismatch.text)

/-! ### Conversions -/

/-- How far a conversion is: the mismatches noted, and how many nodes it has come to, all in all
and behind aliases. -/
structure Progress where
  noted : List Mismatch := []
  visited : Nat := 0
  behindAliases : Nat := 0

/-- Whether nearly all nodes were behind aliases. Up to 400000 nodes, 99 of a hundred may be; from
4000000 on, 10 of a hundred; and in between the part shrinks evenly. -/
def Progress.isExcessive (progress : Progress) : Bool :=
  let visited := progress.visited
  100 < progress.behindAliases && 1000 < visited &&
    if visited ≤ 400000 then 99 * visited < 100 * progress.behindAliases
    else if 4000000 ≤ visited then visited < 10 * progress.behindAliases
    else visited * (356400000 - 89 * (visited - 400000)) < 360000000 * progress.behindAliases

/-- A conversion goes on after a mismatch, but not after another failure. -/
abbrev Convert := StateT Progress (Except ValueFailure)

variable {Value : Type}

def note (mismatch : Mismatch) : Convert Unit :=
  modify fun progress => { progress with noted := progress.noted ++ [mismatch] }

/-- The value of a conversion without mismatches. -/
def Convert.result (conversion : Convert Value) : Except ValueFailure Value :=
  match conversion.run {} with
  | .ok (value, progress) =>
    match progress.noted with
    | [] => .ok value
    | noted => .error (.mismatches noted)
  | .error failure => .error failure

/-! ### Aliases -/

/-- The way to a node: the document, and the places of the aliases that were followed. -/
structure Route where
  document : Document
  followed : List Nat := []

/-- Counts a node. -/
def Route.visit (route : Route) : Convert Unit := do
  let progress ← get
  let progress := { progress with
    visited := progress.visited + 1
    behindAliases := progress.behindAliases + if route.followed.isEmpty then 0 else 1 }
  if progress.isExcessive then throw .excessiveAliases
  set progress

/-- Comes to a node. An alias leads on to the node that it stands for, but not twice on one way. -/
def Route.arrive (route : Route) (node : Yaml.Node) : Convert (Route × Yaml.Node) := do
  route.visit
  match node with
  | .alias _ name _ place =>
    if place ∈ route.followed then throw (.selfContained name)
    let behind := { route with followed := place :: route.followed }
    behind.visit
    return (behind, route.document.target node)
  | other => return (route, other)

/-! ### Keys -/

/-- The keys of a mapping. -/
def keys : List Yaml.Node → List Yaml.Node
  | key :: _ :: rest => key :: keys rest
  | _ => []

/-- All pairs of equal keys, in the order of the first key. -/
def repeatedKeys : List Yaml.Node → List Mismatch
  | [] => []
  | first :: rest =>
    (rest.filter fun key => first.sameForm key && first.text = key.text).map
      (fun key => .repeatedKey key.line key.text first.line) ++ repeatedKeys rest

/-! ### Scalars -/

/-- The value of a scalar with a tag. -/
def resolveScalar (tag text : Bytes) : Convert Scalar :=
  match Yaml.resolve tag text with
  | .ok scalar => return scalar
  | .error (.otherTag found) => throw (.contradiction found text tag)
  | .error .notBase64 => throw .notBase64

/-- Converts a scalar, when no alias is left. Null stands for the absence of a value. A collection
does not fit, and if it is a mapping with repeated keys, these are noted instead. -/
def convertHere (wanted : Wanted) (convert : Scalar → Bytes → Option Value) (node : Yaml.Node) :
    Convert (Option Value) := do
  match node with
  | .scalar line tag text =>
    match ← resolveScalar tag text with
    | .null => return none
    | scalar =>
      match convert scalar text with
      | some value => return some value
      | none =>
        note (.form line tag text wanted)
        return none
  | .sequence line tag _ =>
    note (.form line tag [] wanted)
    return none
  | .mapping line tag entries =>
    match repeatedKeys (keys entries) with
    | [] => note (.form line tag [] wanted)
    | repeated => repeated.forM note
    return none
  | .alias .. => return none

/-- Converts a scalar, or the one that an alias stands for. -/
def convertScalar (route : Route) (wanted : Wanted) (convert : Scalar → Bytes → Option Value)
    (node : Yaml.Node) : Convert (Option Value) := do
  let (_, node) ← route.arrive node
  convertHere wanted convert node

end Pascaline.Reader
