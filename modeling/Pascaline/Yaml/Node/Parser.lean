/-
From tokens to a tree. Only the first document of a text is read. The tokens are looked at a few
places ahead, so an error behind the end of the document counts only if it is near.
-/

import Pascaline.Yaml.Node
import Pascaline.Yaml.Resolution
import Pascaline.Yaml.Token.Stream

namespace Pascaline.Yaml

/-- The tokens with the place of the next one, the anchors seen with the numbers of their nodes,
how many aliases were seen, the nodes that are complete, and the expansions of tag handles. -/
structure Parser where
  stream : Stream
  position : Nat := 0
  anchors : List (Bytes × Nat) := []
  aliases : Nat := 0
  complete : List (Nat × Node) := []
  handles : List (Bytes × Bytes) := []

abbrev Parse := StateT Parser (Except SyntaxError)

namespace Parse

/-- How many tokens are looked at, from the next one on. -/
def lookahead : Nat := 3

/-- The next token. -/
def peek : Parse Token := do
  let parser ← get
  match parser.stream.error with
  | some error =>
    if parser.stream.tokens.size < parser.position + lookahead then throw error
  | none => pure ()
  match parser.stream.tokens[parser.position]? with
  | some token => return token
  | none => throw ⟨0, "unexpected end of tokens"⟩

/-- Goes behind the next token. -/
def skip : Parse Unit := modify fun parser => { parser with position := parser.position + 1 }

def fail {Result : Type} (problem : String) : Parse Result := do throw ⟨(← peek).line, problem⟩

/-! ### Anchors and tags -/

/-- Gives the name of an anchor to the node that starts here, and a number to the node. -/
def register (anchor : Option Bytes) : Parse (Option Nat) := do
  match anchor with
  | none => return none
  | some name =>
    let number := (← get).anchors.length
    modify fun parser => { parser with anchors := (name, number) :: parser.anchors }
    return some number

/-- Keeps a complete node for the aliases of its anchor. -/
def completed (number : Option Nat) (node : Node) : Parse Node := do
  if let some number := number then
    modify fun parser => { parser with complete := (number, node) :: parser.complete }
  return node

/-- An alias stands for the last node before it with the anchor of that name. -/
def aliasNode (line : Nat) (name : Bytes) : Parse Node := do
  match (← get).anchors.lookup name with
  | some number =>
    let place := (← get).aliases
    modify fun parser => { parser with aliases := place + 1 }
    return .alias line name number place
  | none => fail "unknown anchor referenced"

/-- The namespace of the standard tags, which are written with two exclamation marks. -/
def standardTags : Bytes := "tag:yaml.org,2002:"

def shortTag (tag : Bytes) : Bytes :=
  if standardTags.isPrefixOf tag then "!!" ++ tag.drop standardTags.length else tag

/-- The handles that every document knows. -/
def defaultHandles : List (Bytes × Bytes) := [("!", "!"), ("!!", standardTags)]

def expandTag (handle suffix : Bytes) : Parse Bytes := do
  if handle = [] then return shortTag suffix
  else match ((← get).handles ++ defaultHandles).lookup handle with
    | some expansion => return shortTag (expansion ++ suffix)
    | none => fail "found undefined tag handle"

/-- The tag and the anchor before a node, and the line on which they start. -/
structure Properties where
  line : Nat
  tag : Option Bytes := none
  anchor : Option Bytes := none

/-- Reads an anchor and a tag, in any order. -/
def properties : Parse Properties := do
  let first ← peek
  match first.kind with
  | .anchor name =>
    skip
    match (← peek).kind with
    | .tag handle suffix =>
      skip
      return ⟨first.line, some (← expandTag handle suffix), some name⟩
    | _ => return ⟨first.line, none, some name⟩
  | .tag handle suffix =>
    skip
    match (← peek).kind with
    | .anchor name =>
      skip
      return ⟨first.line, some (← expandTag handle suffix), some name⟩
    | _ => return ⟨first.line, some (← expandTag handle suffix), none⟩
  | _ => return ⟨first.line, none, none⟩

/-- The tag of a node, unless it is the mark for having none. -/
def Properties.explicitTag? (properties : Properties) : Option Bytes :=
  properties.tag.filter fun tag => tag ≠ "!" && tag ≠ []

/-! ### Nodes -/

def nullNode (line : Nat) : Node := .scalar line "!!null" []

def scalarNode (properties : Properties) (text : Bytes) (plain : Bool) : Node :=
  let tag := properties.explicitTag?.getD (if plain then plainTag text else "!!str")
  .scalar properties.line tag text

/-- A node, or an empty one if the next token is one of those that cannot start a node here. -/
def nodeUnless (stops : Token.Kind → Bool) (empty : Token → Nat) (node : Parse Node) :
    Parse Node := do
  let token ← peek
  if stops token.kind then return nullNode (empty token) else node

def endsBlockEntry (kind : Token.Kind) : Bool := kind = .blockEntry || kind = .blockEnd

def endsIndentlessEntry (kind : Token.Kind) : Bool :=
  kind = .blockEntry || kind = .key || kind = .value || kind = .blockEnd

def endsBlockValue (kind : Token.Kind) : Bool :=
  kind = .key || kind = .value || kind = .blockEnd

def endsFlowPairKey (kind : Token.Kind) : Bool :=
  kind = .value || kind = .flowEntry || kind = .flowSequenceEnd

def endsFlowPairValue (kind : Token.Kind) : Bool := kind = .flowEntry || kind = .flowSequenceEnd

def endsFlowKey (kind : Token.Kind) : Bool :=
  kind = .value || kind = .flowEntry || kind = .flowMappingEnd

def endsFlowValue (kind : Token.Kind) : Bool := kind = .flowEntry || kind = .flowMappingEnd

mutual

/-- Parses a node. Block collections are only allowed in block context, and a sequence without
indentation only as a key or value of a block mapping. -/
def parseNode (fuel : Nat) (block indentless : Bool) : Parse Node := do
  match fuel with
  | 0 => fail "document is too deep"
  | fuel + 1 =>
    let first ← peek
    if let .alias name := first.kind then
      skip
      return ← aliasNode first.line name
    let given ← properties
    let line := given.line
    let token ← peek
    let number ← register given.anchor
    let sequence (items : Parse (List Node)) : Parse Node := do
      completed number (.sequence line (given.explicitTag?.getD "!!seq") (← items))
    let mapping (entries : Parse (List Node)) : Parse Node := do
      completed number (.mapping line (given.explicitTag?.getD "!!map") (← entries))
    match token.kind with
    | .scalar text plain =>
      skip
      completed number (scalarNode given text plain)
    | .flowSequenceStart =>
      skip
      sequence (parseFlowSequence fuel true)
    | .flowMappingStart =>
      skip
      mapping (parseFlowMapping fuel true)
    | .blockSequenceStart =>
      if block then
        skip
        sequence (parseBlockSequence fuel)
      else emptyNode given number
    | .blockMappingStart =>
      if block then
        skip
        mapping (parseBlockMapping fuel)
      else emptyNode given number
    | .blockEntry =>
      if indentless then sequence (parseIndentless fuel) else emptyNode given number
    | _ => emptyNode given number
where
  /-- A node of nothing but an anchor or a tag. -/
  emptyNode (given : Properties) (number : Option Nat) : Parse Node := do
    if given.anchor.isSome || given.tag.any (· ≠ []) then
      completed number (scalarNode given [] true)
    else fail "did not find expected node content"

/-- The entries of a block sequence and its end. -/
def parseBlockSequence (fuel : Nat) : Parse (List Node) := do
  match fuel with
  | 0 => fail "document is too deep"
  | fuel + 1 =>
    let token ← peek
    match token.kind with
    | .blockEntry =>
      skip
      let item ← nodeUnless endsBlockEntry (fun _ => token.line) (parseNode fuel true false)
      return item :: (← parseBlockSequence fuel)
    | .blockEnd =>
      skip
      return []
    | _ => fail "did not find expected '-' indicator"

/-- The entries of a sequence that is no deeper than the mapping around it. -/
def parseIndentless (fuel : Nat) : Parse (List Node) := do
  match fuel with
  | 0 => fail "document is too deep"
  | fuel + 1 =>
    let token ← peek
    match token.kind with
    | .blockEntry =>
      skip
      let item ← nodeUnless endsIndentlessEntry (fun _ => token.line) (parseNode fuel true false)
      return item :: (← parseIndentless fuel)
    | _ => return []

/-- The entries of a block mapping and its end. -/
def parseBlockMapping (fuel : Nat) : Parse (List Node) := do
  match fuel with
  | 0 => fail "document is too deep"
  | fuel + 1 =>
    let token ← peek
    match token.kind with
    | .key =>
      skip
      let key ← nodeUnless endsBlockValue (fun _ => token.line) (parseNode fuel true true)
      let next ← peek
      let value ← match next.kind with
        | .value =>
          skip
          nodeUnless endsBlockValue (fun _ => next.line) (parseNode fuel true true)
        | _ => pure (nullNode next.line)
      return key :: value :: (← parseBlockMapping fuel)
    | .blockEnd =>
      skip
      return []
    | _ => fail "did not find expected key"

/-- The entries of a flow sequence and its end. A pair without braces is a mapping. -/
def parseFlowSequence (fuel : Nat) (first : Bool) : Parse (List Node) := do
  match fuel with
  | 0 => fail "document is too deep"
  | fuel + 1 =>
    if (← peek).kind = .flowSequenceEnd then
      skip
      return []
    if !first then
      if (← peek).kind = .flowEntry then skip
      else fail "did not find expected ',' or ']'"
    let token ← peek
    match token.kind with
    | .flowSequenceEnd =>
      skip
      return []
    | .key =>
      skip
      let pair ← parseFlowPair fuel
      return .mapping token.line "!!map" pair :: (← parseFlowSequence fuel false)
    | _ =>
      let item ← parseNode fuel false false
      return item :: (← parseFlowSequence fuel false)

/-- A key and a value inside a flow sequence. -/
def parseFlowPair (fuel : Nat) : Parse (List Node) := do
  match fuel with
  | 0 => fail "document is too deep"
  | fuel + 1 =>
    let token ← peek
    let key ← if endsFlowPairKey token.kind then do
        skip
        pure (nullNode token.line)
      else parseNode fuel false false
    let next ← peek
    if next.kind = .value then
      skip
      let value ← nodeUnless endsFlowPairValue Token.line (parseNode fuel false false)
      return [key, value]
    else return [key, nullNode next.line]

/-- The entries of a flow mapping and its end. -/
def parseFlowMapping (fuel : Nat) (first : Bool) : Parse (List Node) := do
  match fuel with
  | 0 => fail "document is too deep"
  | fuel + 1 =>
    if (← peek).kind = .flowMappingEnd then
      skip
      return []
    if !first then
      if (← peek).kind = .flowEntry then skip
      else fail "did not find expected ',' or a closing brace"
    let token ← peek
    match token.kind with
    | .flowMappingEnd =>
      skip
      return []
    | .key =>
      skip
      let key ← nodeUnless endsFlowKey Token.line (parseNode fuel false false)
      let next ← peek
      let value ← match next.kind with
        | .value =>
          skip
          nodeUnless endsFlowValue Token.line (parseNode fuel false false)
        | _ => pure (nullNode next.line)
      return key :: value :: (← parseFlowMapping fuel false)
    | _ =>
      let key ← parseNode fuel false false
      let next ← peek
      return key :: nullNode next.line :: (← parseFlowMapping fuel false)

end

/-! ### Documents -/

/-- Reads the directives before a document. -/
def directives : Nat → Bool → Parse Unit
  | 0, _ => return ()
  | fuel + 1, versioned => do
    match (← peek).kind with
    | .versionDirective major minor =>
      if versioned then fail "found duplicate %YAML directive"
      if major ≠ 1 ∨ minor ≠ 1 then fail "found incompatible YAML document"
      skip
      directives fuel true
    | .tagDirective handle expansion =>
      if ((← get).handles.lookup handle).isSome then fail "found duplicate %TAG directive"
      modify fun parser => { parser with handles := (handle, expansion) :: parser.handles }
      skip
      directives fuel versioned
    | _ => return ()

/-- Tokens that leave a document behind its start mark empty. -/
def endsDocument : Token.Kind → Bool
  | .versionDirective .. | .tagDirective .. | .documentStart | .documentEnd | .streamEnd => true
  | _ => false

/-- The first document, if there is one. What follows it must be readable for a few tokens. -/
def document : Parse (Option Document) := do
  let size := (← get).stream.tokens.size
  let fuel := 4 * size + 16
  let _ ← peek
  skip
  let root ← match (← peek).kind with
    | .streamEnd => return none
    | .versionDirective .. | .tagDirective .. | .documentStart =>
      directives fuel false
      if (← peek).kind ≠ .documentStart then fail "did not find expected document start"
      skip
      nodeUnless endsDocument Token.line (parseNode fuel true false)
    | _ => parseNode fuel true false
  let _ ← peek
  return some ⟨root, (← get).complete⟩

end Parse

/-- The first document of a text. An empty text has none. -/
def parse (bytes : Bytes) : Except SyntaxError (Option Document) :=
  (Parse.document.run { stream := .ofInput (.ofBytes bytes) }).map Prod.fst

end Pascaline.Yaml
