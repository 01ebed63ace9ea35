/-
Reading YAML character by character. A document is a sequence of code points without control
characters; a cursor stands before one of them and knows its line and column.
-/

import Pascaline.Bytes

namespace Pascaline.Yaml

/-- Why a document is not YAML. -/
structure SyntaxError where
  line : Nat
  problem : String
  deriving DecidableEq

def SyntaxError.text (error : SyntaxError) : Bytes :=
  "line " ++ Bytes.ofNat error.line ++ ": " ++ error.problem

/-! ### Characters -/

def isBlank (char : Char) : Bool := char = ' ' ∨ char = '\t'

def nextLine : Char := Char.ofNat 0x85
def lineSeparator : Char := Char.ofNat 0x2028
def paragraphSeparator : Char := Char.ofNat 0x2029

/-- A character that ends a line. -/
def isBreak (char : Char) : Bool :=
  char = '\n' ∨ char = '\r' ∨ char = nextLine ∨ char = lineSeparator ∨ char = paragraphSeparator

/-- Letters, digits, hyphens and underscores of ASCII, which make up names. -/
def isNameChar (char : Char) : Bool := char.isAlphanum ∨ char = '-' ∨ char = '_'

/-- The bytes of characters. -/
def encode (chars : List Char) : Bytes := chars.flatMap Bytes.ofChar

/-! ### Cursors -/

/-- A place in a document: the characters from there on, how many came before, the line and the
column counted from zero, and how many lines have ended since the last character that is not
blank. -/
structure Cursor where
  rest : List Char
  index : Nat := 0
  line : Nat := 0
  column : Nat := 0
  newlines : Nat := 0

namespace Cursor

/-- The character a number of places ahead. -/
def ahead? (cursor : Cursor) (offset : Nat) : Option Char := cursor.rest[offset]?

def atEnd (cursor : Cursor) : Bool := cursor.rest.isEmpty

/-- Whether the character here is a given one. -/
def isAt (cursor : Cursor) (char : Char) : Bool := cursor.rest.head? = some char

/-- Whether there is a character here with a property. -/
def holds (cursor : Cursor) (property : Char → Bool) : Bool := cursor.rest.head?.any property

/-- Whether a word stands here. -/
def startsWith (cursor : Cursor) (word : String) : Bool := word.toList.isPrefixOf cursor.rest

/-- Whether a blank, the end of a line or the end of the document is ahead. -/
def isSeparatedAt (cursor : Cursor) (offset : Nat) : Bool :=
  (cursor.ahead? offset).all fun char => isBlank char || isBreak char

/-- Whether the line or the document ends here. -/
def atLineEnd (cursor : Cursor) : Bool := cursor.rest.head?.all isBreak

/-- Whether a document starts or ends with a mark here. -/
def atDocumentMark (cursor : Cursor) : Bool :=
  cursor.column = 0 && (cursor.startsWith "---" || cursor.startsWith "...") &&
    cursor.isSeparatedAt 3

/-- The cursor behind one character inside a line. -/
def advance (cursor : Cursor) : Cursor :=
  match cursor.rest with
  | [] => cursor
  | char :: rest =>
    { rest, index := cursor.index + 1, line := cursor.line, column := cursor.column + 1,
      newlines := if isBlank char then cursor.newlines else 0 }

/-- The cursor behind the end of a line, which may be a pair of characters. -/
def advanceLine (cursor : Cursor) : Cursor :=
  let behind (rest : List Char) (count : Nat) : Cursor :=
    { rest, index := cursor.index + count, line := cursor.line + 1, column := 0,
      newlines := cursor.newlines + 1 }
  match cursor.rest with
  | '\r' :: '\n' :: rest => behind rest 2
  | char :: rest => if isBreak char then behind rest 1 else cursor
  | [] => cursor

/-- What the end of the line here stands for in a scalar. Most of them are alike. -/
def breakText (cursor : Cursor) : List Char :=
  match cursor.rest with
  | [] => []
  | char :: _ =>
    if char = lineSeparator ∨ char = paragraphSeparator then [char]
    else if isBreak char then ['\n']
    else []

/-- The cursor behind a number of characters, which may hold ends of lines. -/
def advanceBy : Nat → Cursor → Cursor
  | 0, cursor => cursor
  | count + 1, cursor =>
    advanceBy count (if cursor.holds isBreak then cursor.advanceLine else cursor.advance)

/-- The characters from here on that have a property, and the cursor behind them. -/
def takeWhile (cursor : Cursor) (property : Char → Bool) : List Char × Cursor :=
  let taken := cursor.rest.takeWhile property
  (taken, taken.foldl (fun cursor _ => cursor.advance) cursor)

/-- The cursor behind the characters that have a property. -/
def skipWhile (cursor : Cursor) (property : Char → Bool) : Cursor := (cursor.takeWhile property).2

/-- The cursor behind the rest of the line. -/
def skipLineText (cursor : Cursor) : Cursor := cursor.skipWhile (!isBreak ·)

def fail {Result : Type} (cursor : Cursor) (problem : String) : Except SyntaxError Result :=
  .error ⟨cursor.line + 1, problem⟩

end Cursor

end Pascaline.Yaml
