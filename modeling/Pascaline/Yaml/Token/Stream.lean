/-
Cutting a document into tokens. In block context the columns of the lines open and close
collections. A mapping key is recognized only by the colon behind it, so every place where a key
may start is remembered until it is decided, and the marks of the key are then put before it.
-/

import Pascaline.Yaml.Input
import Pascaline.Yaml.Token
import Pascaline.Yaml.Token.Scalar

namespace Pascaline.Yaml

/-! ### The scanner -/

/-- A token that may turn out to be the start of a mapping key. A required one must do so. -/
structure KeyCandidate where
  token : Nat
  place : Cursor
  required : Bool

/-- The number of characters, which bounds all that is read, and whether they are the whole text;
the tokens cut so far with the last one first, and their number; the column of the block collection
around, the columns of those outside of it, and one possible key for each flow collection around,
the innermost first. -/
structure Scanner where
  size : Nat
  complete : Bool := true
  cursor : Cursor
  tokens : List Token := []
  count : Nat := 0
  indent : Int := -1
  indents : List Int := []
  flowLevel : Nat := 0
  keyAllowed : Bool := true
  candidates : List (Option KeyCandidate) := [none]

/-- The tokens in the order of the document. -/
def Scanner.cut (scanner : Scanner) : Array Token := scanner.tokens.reverse.toArray

/-- A step of the scanner. -/
abbrev Scan := EStateM SyntaxError Scanner

namespace Scan

def fail {Result : Type} (problem : String) : Scan Result := do
  throw ⟨(← get).cursor.line + 1, problem⟩

def cursor : Scan Cursor := return (← get).cursor

/-- Enough fuel for whatever takes a character in every round. -/
def fuel : Scan Nat := return (← get).size + 1

def moveTo (cursor : Cursor) : Scan Unit := modify fun scanner => { scanner with cursor }

def inBlock : Scan Bool := return (← get).flowLevel = 0

def allowKey (keyAllowed : Bool) : Scan Unit := modify fun scanner => { scanner with keyAllowed }

/-- Adds a token that starts at a place. -/
def push (kind : Token.Kind) (place : Cursor) : Scan Unit :=
  modify fun scanner =>
    { scanner with tokens := ⟨kind, place.line + 1⟩ :: scanner.tokens, count := scanner.count + 1 }

/-- Puts a token before those from an index on. -/
def insert (index : Nat) (kind : Token.Kind) (place : Cursor) : Scan Unit :=
  modify fun scanner =>
    { scanner with
      tokens := scanner.tokens.insertIdx (scanner.count - index) ⟨kind, place.line + 1⟩
      count := scanner.count + 1 }

/-- Adds a token of a number of characters and goes behind it. -/
def pushIndicator (kind : Token.Kind) (length : Nat) : Scan Unit := do
  let place ← cursor
  push kind place
  moveTo (Cursor.advanceBy length place)

/-! ### Keys -/

/-- Replaces the possible key of the innermost flow collection. -/
def setCandidate (candidate : Option KeyCandidate) : Scan Unit :=
  modify fun scanner => { scanner with candidates := candidate :: scanner.candidates.tail }

/-- Gives up the possible key, which is an error if it is required. -/
def dropCandidate : Scan Unit := do
  match (← get).candidates.head? with
  | some (some candidate) =>
    if candidate.required then fail "could not find expected ':'"
    else setCandidate none
  | _ => return ()

/-- Remembers the place here as the start of a possible key. -/
def saveCandidate : Scan Unit := do
  let scanner ← get
  if scanner.keyAllowed then
    dropCandidate
    setCandidate (some {
      token := scanner.count, place := scanner.cursor,
      required := scanner.flowLevel = 0 ∧ scanner.indent = scanner.cursor.column })

/-- The possible key that a colon here decides. A key stays within one line and 1024
characters. -/
def validCandidate? : Scan (Option KeyCandidate) := do
  let scanner ← get
  match scanner.candidates.head? with
  | some (some candidate) =>
    if candidate.place.line < scanner.cursor.line ∨
        candidate.place.index + 1024 < scanner.cursor.index then
      if candidate.required then fail "could not find expected ':'"
      setCandidate none
      return none
    else return some candidate
  | _ => return none

/-! ### Indentation -/

/-- The deepest nesting of block or flow collections. -/
def maximumNesting : Nat := 10000

/-- Opens a block collection at a column, unless the current one is at least as deep. Its token
goes before the token with the given index, or to the end. -/
def openBlock (column : Nat) (index : Option Nat) (kind : Token.Kind) (place : Cursor) :
    Scan Unit := do
  let scanner ← get
  if scanner.flowLevel = 0 ∧ scanner.indent < column then
    if maximumNesting < scanner.indents.length + 1 then fail "exceeded max depth of 10000"
    set { scanner with indent := column, indents := scanner.indent :: scanner.indents }
    match index with
    | some index => insert index kind place
    | none => push kind place

/-- Closes the block collections that are deeper than a column. -/
def closeBlocks (column : Int) (place : Cursor) : Scan Unit :=
  modify fun scanner =>
    if scanner.flowLevel = 0 then
      let (closed, kept) := (scanner.indent :: scanner.indents).span (column < ·)
      { scanner with
        tokens := closed.map (fun _ => ⟨.blockEnd, place.line + 1⟩) ++ scanner.tokens
        count := scanner.count + closed.length
        indent := kept.head?.getD (-1)
        indents := kept.tail }
    else scanner

/-! ### Space between tokens -/

/-- The farthest that a comment line is looked for behind another one. -/
def commentReach : Nat := 512

/-- Goes behind a comment and all comment lines that follow it. -/
def skipComments : Nat → Cursor → Cursor
  | 0, cursor => cursor
  | fuel + 1, cursor =>
    let cursor := cursor.skipLineText
    let between := ((cursor.rest.drop 1).take (commentReach - 1)).takeWhile fun char =>
      isBlank char || char = '\n' || char = '\r'
    match cursor.rest with
    | first :: _ =>
      if (first = '\n' ∨ first = '\r') ∧ between.length + 1 < commentReach ∧
          cursor.ahead? (between.length + 1) = some '#' then
        skipComments fuel (skipTo (cursor.index + between.length + 1) fuel cursor)
      else cursor
    | [] => cursor
where
  /-- Goes to the character with an index. -/
  skipTo (index : Nat) : Nat → Cursor → Cursor
    | 0, cursor => cursor
    | fuel + 1, cursor =>
      if cursor.index < index then
        skipTo index fuel (if cursor.holds isBreak then cursor.advanceLine else cursor.advance)
      else cursor

/-- Goes to the next token. Tabs may not stand where a block collection may start. -/
def skipToToken : Nat → Scan Unit
  | 0 => return ()
  | fuel + 1 => do
    let scanner ← get
    let tabs := scanner.flowLevel > 0 || !scanner.keyAllowed
    let cursor := scanner.cursor.skipWhile fun char => char = ' ' || (tabs && char = '\t')
    let cursor := if cursor.isAt '#' then skipComments (scanner.size + 1) cursor else cursor
    moveTo cursor
    if cursor.holds isBreak then
      moveTo cursor.advanceLine
      if scanner.flowLevel = 0 then allowKey true
      skipToToken fuel

/-- Goes behind a comment on the line of the token before. -/
def skipLineComment : Scan Unit := do
  let cursor ← cursor
  let behind := cursor.skipWhile isBlank
  if cursor.newlines = 0 ∧ behind.isAt '#' ∧ behind.index < cursor.index + commentReach then
    moveTo behind.skipLineText

/-! ### Directives, anchors and tags -/

/-- Reads a name. -/
def takeName : Scan (List Char) := do
  let (name, behind) := (← cursor).takeWhile isNameChar
  moveTo behind
  return name

def skipBlanks : Scan Unit := do moveTo ((← cursor).skipWhile isBlank)

/-- A number of a version, of one or two digits. -/
def versionNumber : Scan Nat := do
  let (digits, behind) := (← cursor).takeWhile Char.isDigit
  if digits.length = 0 ∨ 2 < digits.length then fail "did not find expected version number"
  moveTo behind
  return digits.foldl (fun number digit => number * 10 + (digit.toNat - '0'.toNat)) 0

/-- Characters of a tag besides those of names. -/
def isTagChar (char : Char) : Bool :=
  isNameChar char || ";/?:@&=+$,.!~*'()[]%".toList.contains char

/-- The octets that a tag writes with percent signs. -/
def unescapeTag : List Char → Option Bytes
  | [] => some []
  | '%' :: high :: low :: rest => do
    let number ← hexNumber? [high, low]
    return number.toUInt8 :: (← unescapeTag rest)
  | char :: rest =>
    if char = '%' then none else return Bytes.ofChar char ++ (← unescapeTag rest)

/-- Reads the rest of a tag behind what has been read of it. -/
def takeTag (head : List Char) : Scan Bytes := do
  let (tail, behind) := (← cursor).takeWhile isTagChar
  if head = [] ∧ tail = [] then fail "did not find expected tag URI"
  match unescapeTag tail with
  | none => fail "did not find URI escaped octet"
  | some octets =>
    if (Text.chars? octets).isNone then fail "found an incorrect UTF-8 octet"
    moveTo behind
    return encode head.tail ++ octets

/-- Reads a tag handle: an exclamation mark, and maybe a name and a second mark. -/
def takeHandle : Scan (List Char) := do
  if !(← cursor).isAt '!' then fail "did not find expected '!'"
  moveTo (← cursor).advance
  let name ← takeName
  if (← cursor).isAt '!' then
    moveTo (← cursor).advance
    return '!' :: name ++ ['!']
  else return '!' :: name

/-- Reads the value of a directive that names a version or a tag. -/
def directiveKind (name : List Char) : Scan Token.Kind := do
  if name = "YAML".toList then
    skipBlanks
    let major ← versionNumber
    if !(← cursor).isAt '.' then fail "did not find expected digit or '.' character"
    moveTo (← cursor).advance
    return .versionDirective major (← versionNumber)
  else if name = "TAG".toList then
    skipBlanks
    let handle ← takeHandle
    if handle ≠ ['!'] ∧ handle.getLast? ≠ some '!' then fail "did not find expected '!'"
    if !(← cursor).holds isBlank then fail "did not find expected whitespace"
    skipBlanks
    let expansion ← takeTag []
    if !(← cursor).isSeparatedAt 0 then fail "did not find expected whitespace or line break"
    return .tagDirective (encode handle) expansion
  else fail "found unknown directive name"

def scanDirective : Scan Unit := do
  let place ← cursor
  moveTo place.advance
  let name ← takeName
  if name = [] ∨ !(← cursor).isSeparatedAt 0 then fail "could not find expected directive name"
  let kind ← directiveKind name
  skipBlanks
  let cursor ← cursor
  let behind := if cursor.isAt '#' then cursor.skipLineText else cursor
  moveTo behind
  if !behind.atLineEnd then fail "did not find expected comment or line break"
  moveTo behind.advanceLine
  push kind place

/-- An anchor or alias behind its indicator. -/
def scanAnchor (kind : Bytes → Token.Kind) : Scan Unit := do
  let place ← cursor
  moveTo place.advance
  let name ← takeName
  let behind ← cursor
  let closed := behind.isSeparatedAt 0 ||
    behind.holds fun char => "?:,]\x7d%@`".toList.contains char
  if name = [] ∨ !closed then fail "did not find expected alphabetic or numeric character"
  push (kind (encode name)) place

/-- A tag: verbatim between angle brackets, or with a handle, or a single exclamation mark. -/
def scanTag : Scan Unit := do
  let place ← cursor
  if place.ahead? 1 = some '<' then
    moveTo place.advance.advance
    let suffix ← takeTag []
    if !(← cursor).isAt '>' then fail "did not find the expected '>'"
    moveTo (← cursor).advance
    finish place [] suffix
  else
    let handle ← takeHandle
    if 1 < handle.length ∧ handle.getLast? = some '!' then
      finish place (encode handle) (← takeTag [])
    else
      let suffix ← takeTag handle
      if suffix = [] then finish place [] (encode handle)
      else finish place (encode ['!']) suffix
where
  /-- Adds the token if the tag is closed by a blank. -/
  finish (place : Cursor) (handle suffix : Bytes) : Scan Unit := do
    if !(← cursor).isSeparatedAt 0 then fail "did not find expected whitespace or line break"
    push (.tag handle suffix) place

/-! ### Tokens -/

def scanStreamEnd : Scan Unit := do
  let cursor ← cursor
  let place := if cursor.column = 0 then cursor
    else { cursor with column := 0, line := cursor.line + 1 }
  moveTo place
  closeBlocks (-1) place
  dropCandidate
  allowKey false
  push .streamEnd place

/-- Leaves all block collections before a directive or a document mark. -/
def leaveDocument : Scan Unit := do
  closeBlocks (-1) (← cursor)
  dropCandidate
  allowKey false

/-- The start of a flow collection, which may be a key itself. -/
def scanFlowStart (kind : Token.Kind) : Scan Unit := do
  saveCandidate
  if maximumNesting < (← get).flowLevel + 1 then fail "exceeded max depth of 10000"
  modify fun scanner =>
    { scanner with
      flowLevel := scanner.flowLevel + 1
      candidates := none :: scanner.candidates
      keyAllowed := true }
  pushIndicator kind 1

def scanFlowEnd (kind : Token.Kind) : Scan Unit := do
  dropCandidate
  modify fun scanner =>
    if scanner.flowLevel = 0 then { scanner with keyAllowed := false }
    else { scanner with
      flowLevel := scanner.flowLevel - 1
      candidates := scanner.candidates.tail
      keyAllowed := false }
  pushIndicator kind 1

def scanFlowEntry : Scan Unit := do
  dropCandidate
  allowKey true
  pushIndicator .flowEntry 1

/-- An entry of a block sequence. In a flow collection the mark is left to the parser. -/
def scanBlockEntry : Scan Unit := do
  if ← inBlock then
    if !(← get).keyAllowed then fail "block sequence entries are not allowed in this context"
    let place ← cursor
    openBlock place.column none .blockSequenceStart place
  dropCandidate
  allowKey true
  pushIndicator .blockEntry 1

/-- An explicit key. -/
def scanKey : Scan Unit := do
  if ← inBlock then
    if !(← get).keyAllowed then fail "mapping keys are not allowed in this context"
    let place ← cursor
    openBlock place.column none .blockMappingStart place
  dropCandidate
  allowKey (← inBlock)
  pushIndicator .key 1

/-- A colon, behind a possible key or behind an explicit one. -/
def scanValue : Scan Unit := do
  match ← validCandidate? with
  | some candidate =>
    insert candidate.token .key candidate.place
    openBlock candidate.place.column (some candidate.token) .blockMappingStart candidate.place
    setCandidate none
    allowKey false
  | none =>
    if ← inBlock then
      if !(← get).keyAllowed then fail "mapping values are not allowed in this context"
      let place ← cursor
      openBlock place.column none .blockMappingStart place
    allowKey (← inBlock)
  pushIndicator .value 1

/-- Adds a scalar that starts at a place. -/
def pushScalar (text : List Char) (plain : Bool) (place behind : Cursor) : Scan Unit := do
  moveTo behind
  push (.scalar (encode text) plain) place

def scanBlockScalar (literal : Bool) : Scan Unit := do
  dropCandidate
  allowKey true
  let place ← cursor
  match readBlock literal (← get).indent (← fuel) place.advance with
  | .ok (text, behind) => pushScalar text false place behind
  | .error error => throw error

def scanQuotedScalar (single : Bool) : Scan Unit := do
  saveCandidate
  allowKey false
  let place ← cursor
  match readQuoted single (← fuel) [] place.advance with
  | .ok (text, behind) => pushScalar text false place behind
  | .error error => throw error

/-- A plain scalar. If it ends with a line, a key may follow. -/
def scanPlainScalar : Scan Unit := do
  saveCandidate
  allowKey false
  let scanner ← get
  let place := scanner.cursor
  match readPlain (scanner.flowLevel > 0) (scanner.indent + 1) (← fuel) [] {} place with
  | .ok plain =>
    pushScalar plain.text true place plain.cursor
    if plain.broken then allowKey true
  | .error error => throw error

/-- Whether a plain scalar may start here. -/
def startsPlain (inFlow : Bool) (cursor : Cursor) : Bool :=
  match cursor.rest with
  | [] => false
  | char :: _ =>
    !(isBlank char || isBreak char || "-?:,[]\x7b\x7d#&*!|>'\"%@`".toList.contains char) ||
      (char = '-' && !(cursor.ahead? 1).any isBlank) ||
      (!inFlow && (char = '?' || char = ':') && !cursor.isSeparatedAt 1)

/-- The token at a character that is not a mark of the whole document. -/
def scanInner (char : Char) : Scan Unit := do
  let cursor ← cursor
  let inFlow := !(← inBlock)
  if char = '[' then scanFlowStart .flowSequenceStart
  else if char = '\x7b' then scanFlowStart .flowMappingStart
  else if char = ']' then scanFlowEnd .flowSequenceEnd
  else if char = '\x7d' then scanFlowEnd .flowMappingEnd
  else if char = ',' then scanFlowEntry
  else if char = '-' ∧ cursor.isSeparatedAt 1 then scanBlockEntry
  else if char = '?' ∧ (inFlow ∨ cursor.isSeparatedAt 1) then scanKey
  else if char = ':' ∧ (inFlow ∨ cursor.isSeparatedAt 1) then scanValue
  else if char = '*' then
    saveCandidate
    allowKey false
    scanAnchor .alias
  else if char = '&' then
    saveCandidate
    allowKey false
    scanAnchor .anchor
  else if char = '!' then
    saveCandidate
    allowKey false
    scanTag
  else if char = '|' ∧ !inFlow then scanBlockScalar true
  else if char = '>' ∧ !inFlow then scanBlockScalar false
  else if char = '\'' then scanQuotedScalar true
  else if char = '"' then scanQuotedScalar false
  else if startsPlain inFlow cursor then scanPlainScalar
  else fail "found character that cannot start any token"
  if ((← get).tokens.head?).all fun token => token.kind ≠ .blockEntry then skipLineComment

/-- Fails if the next characters cannot be read. Four of them decide what comes next. -/
def demandReadable : Scan Unit := do
  let scanner ← get
  if !scanner.complete && (scanner.cursor.rest.drop 3).isEmpty then
    fail "control characters are not allowed"

/-- Cuts the next token, together with what belongs before it. -/
def scanNext : Scan Unit := do
  let before ← cursor
  skipToToken (← fuel)
  demandReadable
  let cursor ← cursor
  closeBlocks cursor.column before
  match cursor.rest with
  | [] => scanStreamEnd
  | char :: _ =>
    if cursor.column = 0 ∧ char = '%' then
      leaveDocument
      scanDirective
    else if cursor.atDocumentMark then
      leaveDocument
      pushIndicator (if char = '-' then .documentStart else .documentEnd) 3
    else scanInner char
    demandReadable

end Scan

/-- The tokens of a document, and the error that ended them if there was one. -/
structure Stream where
  tokens : Array Token
  error : Option SyntaxError := none

namespace Stream

/-- Cuts tokens until the document ends. -/
def collect : Nat → Scanner → Stream
  | 0, scanner =>
    { tokens := scanner.cut
      error := some ⟨scanner.cursor.line + 1, "did not find expected end of stream"⟩ }
  | fuel + 1, scanner =>
    match Scan.scanNext scanner with
    | .error error _ => { tokens := scanner.cut, error := some error }
    | .ok _ next =>
      if (next.tokens.head?).any fun token => token.kind = .streamEnd then { tokens := next.cut }
      else collect fuel next

/-- The tokens of a text. Every token but the last one takes a character at least. -/
def ofInput (input : Input) : Stream :=
  let size := input.chars.length
  collect (size + 2)
    { size
      complete := input.complete
      cursor := { rest := input.chars }
      tokens := [⟨.streamStart, 1⟩]
      count := 1 }

end Stream

end Pascaline.Yaml
