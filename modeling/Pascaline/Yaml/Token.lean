/-
Tokens of YAML: the marks of a document's structure and its scalars.
-/

import Pascaline.Bytes

namespace Pascaline.Yaml

/-- The kinds of tokens. A tag is a handle and what follows it; a scalar is plain or not. -/
inductive Token.Kind where
  | streamStart
  | streamEnd
  | versionDirective (major minor : Nat)
  | tagDirective (handle expansion : Bytes)
  | documentStart
  | documentEnd
  | blockSequenceStart
  | blockMappingStart
  | blockEnd
  | flowSequenceStart
  | flowSequenceEnd
  | flowMappingStart
  | flowMappingEnd
  | blockEntry
  | flowEntry
  | key
  | value
  | alias (name : Bytes)
  | anchor (name : Bytes)
  | tag (handle suffix : Bytes)
  | scalar (text : Bytes) (plain : Bool)
  deriving DecidableEq

/-- A token with the line on which it starts, counted from one. -/
structure Token where
  kind : Token.Kind
  line : Nat
  deriving DecidableEq

end Pascaline.Yaml
