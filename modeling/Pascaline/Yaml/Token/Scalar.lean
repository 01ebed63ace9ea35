/-
Scalars in a document: plain, quoted and block scalars. Line ends inside a scalar are folded, so
that a single one becomes a space and further ones stay.
-/

import Pascaline.Yaml.Cursor

namespace Pascaline.Yaml

/-- Characters read so far, and the place behind them. -/
abbrev Reading := Except SyntaxError (List Char × Cursor)

/-! ### Folding -/

/-- The blanks and line ends between two words of a scalar: the blanks before the first line end,
then the first line end and all others. -/
structure Gap where
  blanks : List Char := []
  broken : Bool := false
  first : List Char := []
  others : List Char := []

namespace Gap

/-- What the gap stands for. -/
def text (gap : Gap) : List Char :=
  if gap.broken then
    if gap.first = ['\n'] then (if gap.others = [] then [' '] else gap.others)
    else gap.first ++ gap.others
  else gap.blanks

/-- The gap with one more blank, which counts only on its first line. -/
def addBlank (gap : Gap) (char : Char) : Gap :=
  if gap.broken then gap else { gap with blanks := gap.blanks ++ [char] }

/-- The gap with one more line end. -/
def addBreak (gap : Gap) (lineEnd : List Char) : Gap :=
  if gap.broken then { gap with others := gap.others ++ lineEnd }
  else { gap with blanks := [], broken := true, first := lineEnd }

end Gap

/-- Reads blanks and line ends. A plain scalar has an indentation that tabs must not stand in. -/
def readGap (indentation : Option Int) : Nat → Gap → Cursor → Except SyntaxError (Gap × Cursor)
  | 0, gap, cursor => .ok (gap, cursor)
  | fuel + 1, gap, cursor =>
    match cursor.rest with
    | [] => .ok (gap, cursor)
    | char :: _ =>
      if isBlank char then
        if char = '\t' ∧ gap.broken ∧
            indentation.any fun limit => (cursor.column : Int) < limit then
          cursor.fail "found a tab character that violates indentation"
        else readGap indentation fuel (gap.addBlank char) cursor.advance
      else if isBreak char then
        readGap indentation fuel (gap.addBreak cursor.breakText) cursor.advanceLine
      else .ok (gap, cursor)

/-! ### Plain scalars -/

/-- Whether a plain scalar ends before the character here. -/
def endsPlain (inFlow : Bool) (cursor : Cursor) : Bool :=
  (cursor.isAt ':' && cursor.isSeparatedAt 1) ||
    (inFlow && cursor.holds fun char => ",?[]\x7b\x7d".toList.contains char)

/-- Reads the characters of one word of a plain scalar, the last one first. -/
def readPlainWord (inFlow : Bool) : Nat → List Char → Cursor → List Char × Cursor
  | 0, word, cursor => (word, cursor)
  | fuel + 1, word, cursor =>
    match cursor.rest with
    | [] => (word, cursor)
    | char :: _ =>
      if isBlank char || isBreak char || endsPlain inFlow cursor then (word, cursor)
      else readPlainWord inFlow fuel (char :: word) cursor.advance

/-- A plain scalar: its text, the place behind it, and whether it ended with a line. -/
structure Plain where
  text : List Char
  cursor : Cursor
  broken : Bool

/-- Reads the words of a plain scalar behind a gap. The text before is given last character
first. Every word takes a character at least, so the fuel is enough for all of them. -/
def readPlain (inFlow : Bool) (indentation : Int) :
    Nat → List Char → Gap → Cursor → Except SyntaxError Plain
  | 0, before, gap, cursor => .ok ⟨before.reverse, cursor, gap.broken⟩
  | fuel + 1, before, gap, cursor =>
    if cursor.atDocumentMark || cursor.isAt '#' then .ok ⟨before.reverse, cursor, gap.broken⟩
    else
      let (word, behind) := readPlainWord inFlow (fuel + 1) [] cursor
      let (before, gap) :=
        if word = [] then (before, gap) else (word ++ gap.text.reverse ++ before, {})
      if !behind.holds fun char => isBlank char || isBreak char then
        .ok ⟨before.reverse, behind, gap.broken⟩
      else
        match readGap (some indentation) (fuel + 1) gap behind with
        | .error error => .error error
        | .ok (gap, behind) =>
          if !inFlow ∧ behind.column < indentation then
            .ok ⟨before.reverse, behind, gap.broken⟩
          else readPlain inFlow indentation fuel before gap behind

/-! ### Quoted scalars -/

/-- The escape sequences of one letter. -/
def simpleEscape? : Char → Option Char
  | '0' => some (Char.ofNat 0)
  | 'a' => some (Char.ofNat 7)
  | 'b' => some (Char.ofNat 8)
  | 't' | '\t' => some '\t'
  | 'n' => some '\n'
  | 'v' => some (Char.ofNat 11)
  | 'f' => some (Char.ofNat 12)
  | 'r' => some '\r'
  | 'e' => some (Char.ofNat 27)
  | ' ' => some ' '
  | '"' => some '"'
  | '\'' => some '\''
  | '\\' => some '\\'
  | 'N' => some nextLine
  | '_' => some (Char.ofNat 0xA0)
  | 'L' => some lineSeparator
  | 'P' => some paragraphSeparator
  | _ => none

/-- The number of hexadecimal digits behind an escape letter. -/
def escapeLength? : Char → Option Nat
  | 'x' => some 2
  | 'u' => some 4
  | 'U' => some 8
  | _ => none

/-- The number written by hexadecimal digits. -/
def hexNumber? (digits : List Char) : Option Nat :=
  digits.foldlM (fun number char =>
    match Bytes.digitValue? (if char.toNat < 128 then Bytes.code char else 0) with
    | some digit => if digit < 16 then some (number * 16 + digit) else none
    | none => none) 0

/-- Reads an escape sequence behind its backslash. -/
def readEscape (cursor : Cursor) : Except SyntaxError (Char × Cursor) :=
  match cursor.rest with
  | [] => cursor.fail "found unexpected end of stream"
  | letter :: _ =>
    match simpleEscape? letter, escapeLength? letter with
    | some char, _ => .ok (char, cursor.advance)
    | none, some length =>
      let digits := cursor.advance.rest.take length
      match hexNumber? digits with
      | none => cursor.fail "did not find expected hexadecimal number"
      | some number =>
        if digits.length < length then cursor.fail "did not find expected hexadecimal number"
        else if (0xD800 ≤ number ∧ number ≤ 0xDFFF) ∨ 0x10FFFF < number then
          cursor.fail "found invalid Unicode character escape code"
        else .ok (Char.ofNat number, Cursor.advanceBy length cursor.advance)
    | none, none => cursor.fail "found unknown escape character"

/-- Reads the characters of one word of a quoted scalar, up to a blank, a line end or the closing
quote, the last one first. An escaped line end opens a gap of its own. -/
def readQuotedWord (single : Bool) :
    Nat → List Char → Cursor → Except SyntaxError (List Char × Gap × Cursor)
  | 0, word, cursor => .ok (word, {}, cursor)
  | fuel + 1, word, cursor =>
    match cursor.rest with
    | [] => .ok (word, {}, cursor)
    | char :: _ =>
      if isBlank char || isBreak char then .ok (word, {}, cursor)
      else if single then
        if char = '\'' then
          if cursor.ahead? 1 = some '\'' then
            readQuotedWord single fuel ('\'' :: word) cursor.advance.advance
          else .ok (word, {}, cursor)
        else readQuotedWord single fuel (char :: word) cursor.advance
      else if char = '"' then .ok (word, {}, cursor)
      else if char = '\\' then
        if cursor.advance.holds isBreak then
          .ok (word, { broken := true }, cursor.advance.advanceLine)
        else
          match readEscape cursor.advance with
          | .error error => .error error
          | .ok (escaped, behind) => readQuotedWord single fuel (escaped :: word) behind
      else readQuotedWord single fuel (char :: word) cursor.advance

/-- Reads the words of a quoted scalar. The text before is given last character first. -/
def readQuoted (single : Bool) : Nat → List Char → Cursor → Reading
  | 0, _, cursor => cursor.fail "found unexpected end of stream"
  | fuel + 1, before, cursor =>
    if cursor.atDocumentMark then cursor.fail "found unexpected document indicator"
    else if cursor.atEnd then cursor.fail "found unexpected end of stream"
    else
      match readQuotedWord single (fuel + 1) [] cursor with
      | .error error => .error error
      | .ok (word, gap, cursor) =>
        let before := word ++ before
        if cursor.isAt (if single then '\'' else '"') then .ok (before.reverse, cursor.advance)
        else
          match readGap none (fuel + 1) gap cursor with
          | .error error => .error error
          | .ok (gap, cursor) => readQuoted single fuel (gap.text.reverse ++ before) cursor

/-! ### Block scalars -/

/-- What becomes of the line ends behind a block scalar. -/
inductive Chomping where
  | strip
  | clip
  | keep
  deriving DecidableEq

def readChomping? (cursor : Cursor) : Option (Chomping × Cursor) :=
  if cursor.isAt '+' then some (.keep, cursor.advance)
  else if cursor.isAt '-' then some (.strip, cursor.advance)
  else none

/-- An indentation of one digit, if there is one. -/
def readIndentation (cursor : Cursor) : Except SyntaxError (Option Nat × Cursor) :=
  match cursor.rest with
  | char :: _ =>
    if char = '0' then cursor.fail "found an indentation indicator equal to 0"
    else if char.isDigit then .ok (some (char.toNat - '0'.toNat), cursor.advance)
    else .ok (none, cursor)
  | [] => .ok (none, cursor)

/-- The header of a block scalar: chomping and indentation in any order. -/
def readBlockHeader (cursor : Cursor) :
    Except SyntaxError (Chomping × Option Nat × Cursor) := do
  match readChomping? cursor with
  | some (chomping, cursor) =>
    let (indentation, cursor) ← readIndentation cursor
    return (chomping, indentation, cursor)
  | none =>
    let (indentation, cursor) ← readIndentation cursor
    match indentation, readChomping? cursor with
    | some _, some (chomping, cursor) => return (chomping, indentation, cursor)
    | _, _ => return (.clip, indentation, cursor)

/-- Reads the empty lines before a line of a block scalar: their line ends, the deepest column
seen, and the place behind them. Without a known indentation, all spaces belong to it. -/
def readEmptyLines (indentation : Option Nat) :
    Nat → List Char → Nat → Cursor → Except SyntaxError (List Char × Nat × Cursor)
  | 0, breaks, deepest, cursor => .ok (breaks, deepest, cursor)
  | fuel + 1, breaks, deepest, cursor =>
    let room := match indentation with
      | some indentation => cursor.rest.take (indentation - cursor.column)
      | none => cursor.rest
    let spaces := room.takeWhile (· = ' ')
    let cursor := Cursor.advanceBy spaces.length cursor
    let deepest := max deepest cursor.column
    if cursor.isAt '\t' && indentation.all (cursor.column < ·) then
      cursor.fail "found a tab character where an indentation space is expected"
    else if cursor.holds isBreak then
      readEmptyLines indentation fuel (breaks ++ cursor.breakText) deepest cursor.advanceLine
    else .ok (breaks, deepest, cursor)

/-- The lines of a block scalar so far: the text with its last character first, the end of its
last line, the ends of the empty lines behind that, and whether the last line starts with a
blank. -/
structure Lines where
  reversed : List Char := []
  lineEnd : List Char := []
  breaks : List Char := []
  indented : Bool := false

/-- What separates the lines from one more. A folded scalar joins lines that do not start with a
blank. -/
def Lines.separator (lines : Lines) (literal : Bool) (line : List Char) : List Char :=
  let indented := line.head?.any isBlank
  if !literal ∧ !lines.indented ∧ !indented ∧ lines.lineEnd = ['\n'] then
    if lines.breaks = [] then [' '] else lines.breaks
  else lines.lineEnd ++ lines.breaks

/-- Reads the lines of a block scalar with a known indentation. -/
def readBlockLines (literal : Bool) (indentation : Nat) :
    Nat → Lines → Cursor → Except SyntaxError (Lines × Cursor)
  | 0, lines, cursor => .ok (lines, cursor)
  | fuel + 1, lines, cursor =>
    if cursor.column = indentation && !cursor.atEnd then
      let (line, behind) := cursor.takeWhile (!isBreak ·)
      let lineEnd := behind.breakText
      match readEmptyLines (some indentation) (fuel + 1) [] 0 behind.advanceLine with
      | .error error => .error error
      | .ok (breaks, _, cursor) =>
        let separator := lines.separator literal line
        readBlockLines literal indentation fuel
          ⟨line.reverse ++ separator.reverse ++ lines.reversed, lineEnd, breaks,
            line.head?.any isBlank⟩ cursor
    else .ok (lines, cursor)

/-- The text of a block scalar, with the line ends that are kept. -/
def Lines.chomp (lines : Lines) : Chomping → List Char
  | .strip => lines.reversed.reverse
  | .clip => lines.reversed.reverse ++ lines.lineEnd
  | .keep => lines.reversed.reverse ++ lines.lineEnd ++ lines.breaks

/-- Reads a block scalar behind its indicator, inside a block of the given indentation. -/
def readBlock (literal : Bool) (outer : Int) (fuel : Nat) (cursor : Cursor) : Reading := do
  let (chomping, increment, cursor) ← readBlockHeader cursor
  let cursor := cursor.skipWhile isBlank
  let cursor := if cursor.isAt '#' then cursor.skipLineText else cursor
  if !cursor.atLineEnd then cursor.fail "did not find expected comment or line break"
  else
    let cursor := cursor.advanceLine
    let known := increment.map fun increment =>
      if 0 ≤ outer then outer.toNat + increment else increment
    let (breaks, deepest, cursor) ← readEmptyLines known fuel [] 0 cursor
    let indentation := known.getD (max deepest (max (outer + 1).toNat 1))
    let (lines, cursor) ← readBlockLines literal indentation fuel { breaks } cursor
    return (lines.chomp chomping, cursor)

end Pascaline.Yaml
