/-
Programs in documents are complete. Every node of a program that has been read comes from a mapping
of one key, which tells its kind and its position, and has all children that it needs; only some
places may be left empty. So the analysis of such a program never comes to a missing node, and
misses an operand only where one of these places is empty.
-/

import Pascaline.Proofs.Reporting
import Pascaline.Reader.Program

namespace Pascaline

/-! ### Nodes and their sources -/

namespace Node

/-- The key of a node in a document. An operation behind its only operand has one of its own. -/
def key : Node → Bytes
  | .missing => []
  | .integer .. => "int"
  | .real .. => "real"
  | .char .. => "char"
  | .string .. => "str"
  | .date .. => "date"
  | .boolean .. => "bool"
  | .identifier .. => "ident"
  | .declaration .. => "declare"
  | .arrayDeclaration .. => "array"
  | .assignment .. | .arrayAssignment .. => "assign"
  | .arrayAccess .. => "elem"
  | .binary _ _ _ right => if right.isMissing then "postfix" else "binary"
  | .unary .. => "unary"
  | .comparison .. => "compare"
  | .logical .. => "logical"
  | .conditional .. => "if"
  | .forLoop .. => "for"
  | .whileLoop .. => "while"
  | .repeatLoop .. => "repeat"
  | .procedure .. => "procedure"
  | .function .. => "function"
  | .call .. => "call"
  | .return .. => "return"
  | .output .. => "output"
  | .input .. => "input"
  | .block .. => "block"

/-- The children that must be there, whatever the key. -/
def needs : Node → List Node
  | .binary _ _ left _ => [left]
  | .logical _ _ _ right => [right]
  | .return .. => []
  | node => node.operands ++ node.statements

end Node

namespace Yaml.Node

/-- The nodes of which a sequence or mapping is made. -/
def parts : Yaml.Node → List Yaml.Node
  | .sequence _ _ parts | .mapping _ _ parts => parts
  | .scalar .. | .alias .. => []

/-- What makes a recursion over the parts of a document end. -/
theorem sizeOf_parts {part whole : Yaml.Node} (member : part ∈ whole.parts) :
    sizeOf part < sizeOf whole := by
  cases whole with
  | scalar | «alias» => cases member
  | sequence | mapping =>
    have smaller := List.sizeOf_lt_of_mem member
    simp only [parts] at smaller
    simp only [sequence.sizeOf_spec, mapping.sizeOf_spec]
    omega

/-- Induction over a document: a node may assume the statement for its parts. -/
theorem inductionOn {motive : Yaml.Node → Prop}
    (step : ∀ whole : Yaml.Node, (∀ part ∈ whole.parts, motive part) → motive whole)
    (whole : Yaml.Node) : motive whole :=
  step whole fun part member =>
    have := sizeOf_parts member
    inductionOn step part
termination_by sizeOf whole

/-- A node of a document is inside of another one, or is the same. -/
inductive Within (inner : Yaml.Node) : Yaml.Node → Prop
  | self : Within inner inner
  | part {part whole : Yaml.Node} (member : part ∈ whole.parts) (within : Within inner part) :
      Within inner whole

theorem Within.trans {first second third : Yaml.Node} (early : first.Within second)
    (late : second.Within third) : first.Within third := by
  induction late with
  | self => exact early
  | part member _ within => exact .part member within

/-- A mapping of one key spells a node: the key tells the kind of the node and has its position, the
children that the node needs are there, and each child that is there is spelled inside of the
content. -/
inductive Spells : Yaml.Node → Pascaline.Node → Prop
  | node {line : Nat} {tag : Bytes} {key content : Yaml.Node} {node : Pascaline.Node}
      (there : node.isMissing = false) (kind : key.text = node.key)
      (position : node.position = key.line) (needs : ∀ child ∈ node.needs, child.isMissing = false)
      (sources : Pascaline.Node → Yaml.Node)
      (within : ∀ child ∈ node.operands ++ node.statements, child.isMissing = false →
        (sources child).Within content)
      (spelled : ∀ child ∈ node.operands ++ node.statements, child.isMissing = false →
        (sources child).Spells child) : Spells (.mapping line tag [key, content]) node

/-- A node is spelled somewhere inside of a node of the document. -/
def Holds (whole : Yaml.Node) (node : Pascaline.Node) : Prop :=
  ∃ source : Yaml.Node, source.Within whole ∧ source.Spells node

variable {whole : Yaml.Node} {node : Pascaline.Node}

/-- A node that stands for nothing is spelled by nothing. -/
theorem Spells.there {source : Yaml.Node} (spells : source.Spells node) :
    node.isMissing = false := by
  cases spells
  assumption

theorem Holds.there (holds : whole.Holds node) : node.isMissing = false :=
  holds.elim fun _ found => found.2.there

theorem Holds.mono {larger : Yaml.Node} (holds : whole.Holds node) (within : whole.Within larger) :
    larger.Holds node :=
  holds.imp fun _ => .imp (·.trans within) id

end Yaml.Node

namespace Reader

open Yaml (Document)

/-! ### Results of reading -/

/-- Whatever is read is as it should be. -/
def Gives {Value : Type} (expected : Value → Prop) (read : Read Value) : Prop :=
  ∀ value, read = .ok value → expected value

namespace Gives

variable {Value Next : Type} {expected : Value → Prop} {expectedToo : Next → Prop}

theorem any (read : Read Value) : Gives (fun _ => True) read := fun _ _ => trivial

theorem pure {value : Value} (isExpected : expected value) :
    Gives expected (pure value : Read Value) := by
  rintro _ ⟨⟩
  exact isExpected

theorem fail (cause : Cause) : Gives expected (fail cause) := by
  rintro _ ⟨⟩

/-- What the first part gives is all that the second may rely on. -/
theorem bind {read : Read Value} {next : Value → Read Next} (first : Gives expected read)
    (second : ∀ value, expected value → Gives expectedToo (next value)) :
    Gives expectedToo (read >>= next) := by
  cases read with
  | error failure => rintro _ ⟨⟩
  | ok value => exact second value (first value rfl)

/-- What is read before does not matter. -/
theorem after {read : Read Value} {next : Value → Read Next}
    (second : ∀ value, Gives expectedToo (next value)) : Gives expectedToo (read >>= next) :=
  .bind (.any read) fun value _ => second value

theorem within {read : Read Value} (stage : Stage) (inner : Gives expected read) :
    Gives expected (within stage read) := by
  cases read with
  | error failure => rintro _ ⟨⟩
  | ok value => exact inner

end Gives

/-- What a reading gives is spelled inside of a node of the document. -/
structure Reading.Sound (whole : Yaml.Node) (reading : Reading) : Prop where
  node : Gives whole.Holds reading.node
  list : Gives (∀ node ∈ ·, whole.Holds node) reading.list

/-- So is what the fields give. -/
structure Reading.Deep (whole : Yaml.Node) (reading : Reading) : Prop where
  sound : reading.Sound whole
  fields : ∀ entry ∈ reading.fields, entry.2.Sound whole

theorem Reading.Sound.mono {whole larger : Yaml.Node} {reading : Reading}
    (sound : reading.Sound whole) (within : whole.Within larger) : reading.Sound larger :=
  ⟨fun node read => (sound.node node read).mono within,
    fun list read node member => (sound.list list read node member).mono within⟩

section Content

variable {content : Yaml.Node} {reading : Reading} {child : Option Reading}

/-- A child as a field gives it, if there is such a field. -/
def IsSound (content : Yaml.Node) (child : Option Reading) : Prop :=
  ∀ reading, child = some reading → reading.Sound content

/-- The last of several fields with one name is the one that counts. -/
theorem mappingFields_gives (deep : reading.Deep content) :
    Gives (fun fields => ∀ name, IsSound content (lastField? fields name))
      reading.mappingFields := by
  unfold Reading.mappingFields
  split
  · refine .pure fun name found isFound => ?_
    obtain ⟨front, back, split, _⟩ := List.lookup_eq_some_iff.mp isFound
    exact deep.fields (name, found) (List.mem_reverse.mp (by simp [split]))
  · exact .fail _

theorem required_gives (sound : IsSound content child) (field : Bytes) :
    Gives content.Holds (required field child) := by
  unfold required
  split
  · exact .fail _
  · split
    · exact .fail _
    · exact .within _ (sound _ rfl).node

/-- A field that is left out gives the missing node, of which nothing is said. -/
theorem optional_gives (sound : IsSound content child) :
    Gives (fun node => node.isMissing = false → content.Holds node) (optional child) := by
  unfold optional
  split
  · exact .pure fun there => by cases there
  · split
    · exact .pure fun there => by cases there
    · exact fun node read _ => (sound _ rfl).node node read

theorem children_gives (sound : IsSound content child) :
    Gives (∀ node ∈ ·, content.Holds node) (children child) := by
  unfold children
  split
  · exact .pure fun _ member => by cases member
  · exact (sound _ rfl).list

/-! ### Kinds of nodes -/

/-- A node of a kind at a position. -/
def IsLabelled (key : Bytes) (position : Int) (node : Node) : Prop :=
  (node.isMissing, node.key, node.position) = (false, key, position)

/-- The children that a node needs are there, and those that are there are in the content. -/
structure IsFilled (content : Yaml.Node) (node : Node) : Prop where
  needs : ∀ child ∈ node.needs, child.isMissing = false
  children : ∀ child ∈ node.operands ++ node.statements, child.isMissing = false →
    content.Holds child

/-- Most nodes need all their children. -/
theorem IsFilled.full {node : Node} (needs : node.needs = node.operands ++ node.statements)
    (children : ∀ child ∈ node.operands ++ node.statements, content.Holds child) :
    IsFilled content node := by
  refine ⟨fun child member => ?_, fun child member _ => children child member⟩
  rw [needs] at member
  exact (children child member).there

theorem both_hold {expected : Node → Prop} {first second : Node} (early : expected first)
    (late : expected second) : ∀ child ∈ [first, second], expected child :=
  List.forall_mem_cons.mpr ⟨early, List.forall_mem_singleton.mpr late⟩

/-- Both operands of an operator. Only an optional left one may be missing. -/
theorem readOperands_gives (document : Document) (leftOptional : Bool)
    (deep : reading.Deep content) :
    Gives (fun operands => (leftOptional = false → operands.2.1.isMissing = false) ∧
      (operands.2.1.isMissing = false → content.Holds operands.2.1) ∧ content.Holds operands.2.2)
      (readOperands document leftOptional reading) := by
  refine .bind (mappingFields_gives deep) fun fields sound => .after fun operator => ?_
  cases leftOptional with
  | true =>
    refine .bind (optional_gives (sound _)) fun left leftHolds => ?_
    refine .bind (required_gives (sound _) _) fun right rightHolds => ?_
    exact .pure ⟨Bool.noConfusion, leftHolds, rightHolds⟩
  | false =>
    refine .bind (required_gives (sound _) _) fun left leftHolds => ?_
    refine .bind (required_gives (sound _) _) fun right rightHolds => ?_
    exact .pure ⟨fun _ => leftHolds.there, fun _ => leftHolds, rightHolds⟩

theorem readOperand_gives (document : Document) (deep : reading.Deep content) :
    Gives (fun operand => content.Holds operand.2) (readOperand document reading) := by
  refine .bind (mappingFields_gives deep) fun fields sound => .after fun operator => ?_
  refine .bind (required_gives (sound _) _) fun operand holds => ?_
  exact .pure holds

/-- The index decides between two kinds of nodes, and each of them has what it needs. -/
theorem readAssignment_gives (document : Document) (position : Int) (deep : reading.Deep content) :
    Gives (IsFilled content) (readAssignment document position reading) := by
  refine .bind (mappingFields_gives deep) fun fields sound => .after fun name => ?_
  refine .bind (required_gives (sound _) _) fun value holds => ?_
  refine .bind (.within _ (optional_gives (sound _))) fun index indexHolds => ?_
  split
  · exact .pure (.full rfl (List.forall_mem_singleton.mpr holds))
  · rename_i isIndex
    have there : index.isMissing = false := by
      cases index with
      | missing => exact absurd rfl isIndex
      | _ => rfl
    exact .pure (.full rfl (both_hold (indexHolds there) holds))

theorem readCall_gives (document : Document) (position : Int) (deep : reading.Deep content) :
    Gives (IsFilled content) (readCall document position reading) := by
  unfold readCall
  split
  · exact .after fun name => .pure (.full rfl (List.forall_mem_nil _))
  · refine .bind (mappingFields_gives deep) fun fields sound => .after fun name => ?_
    refine .bind (.within _ (children_gives (sound _))) fun args holds => ?_
    exact .pure (.full rfl (List.forall_mem_append.mpr ⟨holds, List.forall_mem_nil _⟩))

/-- The content of a key makes a node of its kind. -/
theorem readForm_labelled (document : Document) {key : Bytes} {form : Form}
    (listed : (key, form) ∈ forms) (position : Int) (deep : reading.Deep content) :
    Gives (IsLabelled key position) (readForm document form position reading) := by
  -- The table lists every form once, so the form gives back its key.
  have isKey : key = ((forms.find? (·.2 = form)).map Prod.fst).getD [] := by
    fin_cases listed <;> decide
  subst isKey
  cases form with
  | integer | real | char | string | date | boolean | identifier | comparison | logical | unary
  | postfixed | «return» | output | input | block => exact .after fun _ => .pure rfl
  | binary =>
    -- Without its right operand the node would be of another kind.
    refine .bind (readOperands_gives document false deep) fun operands facts => ?_
    obtain ⟨operator, left, right⟩ := operands
    have isKey : Node.key (.binary position operator left right) = "binary" :=
      if_neg (Bool.eq_false_iff.mp facts.2.2.there)
    refine .pure ?_
    rw [IsLabelled, isKey]
    rfl
  | declaration | arrayAccess | whileLoop | repeatLoop =>
    exact .after fun _ => .after fun _ => .after fun _ => .pure rfl
  | conditional | procedure =>
    exact .after fun _ => .after fun _ => .after fun _ => .after fun _ => .pure rfl
  | arrayDeclaration | forLoop | function =>
    exact .after fun _ => .after fun _ => .after fun _ => .after fun _ => .after fun _ => .pure rfl
  | assignment =>
    refine .after fun fields => .after fun name => .after fun value => .after fun index => ?_
    split <;> exact .pure rfl
  | call =>
    show Gives _ (readCall document position reading)
    unfold readCall
    split
    · exact .after fun name => .pure rfl
    · exact .after fun fields => .after fun name => .after fun args => .pure rfl

/-- The children of a node come from the content, and those that it needs are there. -/
theorem readForm_filled (document : Document) (form : Form) (position : Int)
    (deep : reading.Deep content) :
    Gives (IsFilled content) (readForm document form position reading) := by
  have alone : IsSound content (some reading) := by
    rintro _ ⟨⟩
    exact deep.sound
  have fields := mappingFields_gives deep
  cases form with
  | integer | real | char | string | date | boolean | identifier =>
    exact .after fun value => .pure (.full rfl (List.forall_mem_nil _))
  | declaration =>
    refine .after fun fields => .after fun name => .after fun type => ?_
    exact .pure (.full rfl (List.forall_mem_nil _))
  | arrayDeclaration =>
    refine .after fun fields => .after fun name => .after fun type => ?_
    refine .after fun first => .after fun last => ?_
    exact .pure (.full rfl (List.forall_mem_nil _))
  | assignment => exact readAssignment_gives document position deep
  | arrayAccess =>
    refine .bind fields fun found sound => .after fun name => ?_
    refine .bind (required_gives (sound _) _) fun index holds => ?_
    exact .pure (.full rfl (List.forall_mem_singleton.mpr holds))
  | binary =>
    refine .bind (readOperands_gives document false deep) fun operands facts => ?_
    obtain ⟨operator, left, right⟩ := operands
    obtain ⟨leftThere, leftHolds, rightHolds⟩ := facts
    refine .pure ⟨?_, both_hold leftHolds fun _ => rightHolds⟩
    exact List.forall_mem_singleton.mpr (leftThere rfl)
  | comparison =>
    refine .bind (readOperands_gives document false deep) fun operands facts => ?_
    obtain ⟨operator, left, right⟩ := operands
    obtain ⟨leftThere, leftHolds, rightHolds⟩ := facts
    exact .pure (.full rfl (both_hold (leftHolds (leftThere rfl)) rightHolds))
  | logical =>
    refine .bind (readOperands_gives document true deep) fun operands facts => ?_
    obtain ⟨operator, left, right⟩ := operands
    obtain ⟨_, leftHolds, rightHolds⟩ := facts
    refine .pure ⟨?_, both_hold leftHolds fun _ => rightHolds⟩
    exact List.forall_mem_singleton.mpr rightHolds.there
  | unary =>
    refine .bind (readOperand_gives document deep) fun operand holds => ?_
    obtain ⟨operator, child⟩ := operand
    exact .pure (.full rfl (List.forall_mem_singleton.mpr holds))
  | postfixed =>
    refine .bind (readOperand_gives document deep) fun operand holds => ?_
    obtain ⟨operator, child⟩ := operand
    refine .pure ⟨?_, both_hold (fun _ => holds) Bool.noConfusion⟩
    exact List.forall_mem_singleton.mpr holds.there
  | conditional =>
    refine .bind fields fun found sound => ?_
    refine .bind (required_gives (sound _) _) fun condition holds => ?_
    refine .bind (.within _ (children_gives (sound _))) fun consequent consequentHolds => ?_
    refine .bind (.within _ (children_gives (sound _))) fun alternative alternativeHolds => ?_
    have branches := List.forall_mem_append.mpr ⟨consequentHolds, alternativeHolds⟩
    exact .pure (.full rfl (List.forall_mem_cons.mpr ⟨holds, branches⟩))
  | forLoop =>
    refine .bind fields fun found sound => ?_
    refine .bind (required_gives (sound _) _) fun start startHolds => ?_
    refine .bind (required_gives (sound _) _) fun condition conditionHolds => ?_
    refine .bind (required_gives (sound _) _) fun step stepHolds => ?_
    refine .bind (.within _ (children_gives (sound _))) fun body bodyHolds => ?_
    have header := List.forall_mem_cons.mpr ⟨startHolds, both_hold conditionHolds stepHolds⟩
    exact .pure (.full rfl (List.forall_mem_append.mpr ⟨header, bodyHolds⟩))
  | whileLoop =>
    refine .bind fields fun found sound => ?_
    refine .bind (required_gives (sound _) _) fun condition holds => ?_
    refine .bind (.within _ (children_gives (sound _))) fun body bodyHolds => ?_
    exact .pure (.full rfl (List.forall_mem_cons.mpr ⟨holds, bodyHolds⟩))
  | repeatLoop =>
    refine .bind fields fun found sound => ?_
    refine .bind (.within _ (children_gives (sound _))) fun body bodyHolds => ?_
    refine .bind (required_gives (sound _) _) fun condition holds => ?_
    exact .pure (.full rfl (List.forall_mem_cons.mpr ⟨holds, bodyHolds⟩))
  | procedure =>
    refine .bind fields fun found sound => .after fun name => .after fun params => ?_
    refine .bind (.within _ (children_gives (sound _))) fun body bodyHolds => ?_
    exact .pure (.full rfl bodyHolds)
  | function =>
    refine .bind fields fun found sound => .after fun name => .after fun result => ?_
    refine .after fun params => ?_
    refine .bind (.within _ (children_gives (sound _))) fun body bodyHolds => ?_
    exact .pure (.full rfl bodyHolds)
  | call => exact readCall_gives document position deep
  | «return» =>
    refine .bind (optional_gives alone) fun value holds => ?_
    exact .pure ⟨List.forall_mem_nil _, List.forall_mem_singleton.mpr holds⟩
  | output =>
    refine .bind deep.sound.list fun args holds => ?_
    exact .pure (.full rfl (List.forall_mem_append.mpr ⟨holds, List.forall_mem_nil _⟩))
  | input =>
    refine .bind (required_gives alone _) fun target holds => ?_
    exact .pure (.full rfl (List.forall_mem_singleton.mpr holds))
  | block =>
    refine .bind deep.sound.list fun statements holds => ?_
    exact .pure (.full rfl holds)

end Content

/-! ### Trees -/

/-- What is labelled by a key and filled from its content is spelled by the two. -/
theorem IsFilled.spells {key content : Yaml.Node} {node : Node}
    (filled : IsFilled content node) (labelled : IsLabelled key.text key.line node) (line : Nat)
    (tag : Bytes) : (Yaml.Node.mapping line tag [key, content]).Spells node := by
  obtain ⟨there, isKey, isPosition⟩ :
      node.isMissing = false ∧ node.key = key.text ∧ node.position = key.line := by
    simpa only [IsLabelled, Prod.mk.injEq] using labelled
  have each (child : Node) : ∃ source : Yaml.Node, child ∈ node.operands ++ node.statements →
      child.isMissing = false → source.Within content ∧ source.Spells child := by
    by_cases held : content.Holds child
    · exact held.imp fun _ found _ _ => found
    · exact ⟨content, fun member there => absurd (filled.children child member there) held⟩
  choose sources found using each
  exact .node there isKey.symm isPosition filled.needs sources
    (fun child member there => (found child member there).1)
    fun child member there => (found child member there).2

theorem readEntry_gives (document : Document) (line : Nat) (tag : Bytes) (key : Yaml.Node)
    {content : Yaml.Node} {reading : Reading} (deep : reading.Deep content) :
    Gives (Yaml.Node.mapping line tag [key, content]).Spells (readEntry document key reading) := by
  unfold readEntry
  split
  · rename_i form isForm
    obtain ⟨front, back, split, _⟩ := List.lookup_eq_some_iff.mp isForm
    have listed : (key.text, form) ∈ forms := by simp [split]
    refine .within _ fun node made => ?_
    have labelled := readForm_labelled document listed key.line deep node made
    exact (readForm_filled document form key.line deep node made).spells labelled line tag
  · exact .fail _

/-- The index only serves the path in an error, so it may be any. -/
theorem readItems_gives {whole : Yaml.Node} {items : List Reading}
    (sound : ∀ item ∈ items, Gives whole.Holds item.node) (index : Nat) :
    Gives (∀ node ∈ ·, whole.Holds node) (readItems index items) := by
  induction items generalizing index with
  | nil => exact .pure (List.forall_mem_nil _)
  | cons item items rest =>
    obtain ⟨first, others⟩ := List.forall_mem_cons.mp sound
    exact .bind (.within _ first) fun node holds => .bind (rest others _) fun nodes areHeld =>
      .pure (List.forall_mem_cons.mpr ⟨holds, areHeld⟩)

/-- A key without a value is dropped, and nothing is added. -/
theorem mem_of_mem_pairFields {contents : List Reading} {entry : Bytes × Reading}
    (member : entry ∈ pairFields contents) : entry.2 ∈ contents := by
  fun_induction pairFields contents with
  | case1 key value others rest =>
    rcases List.mem_cons.mp member with rfl | later
    · simp
    · simp [rest later]
  | case2 => cases member

theorem readings_eq_map (document : Document) (wholes : List Yaml.Node) :
    readings document wholes = wholes.map (reading document) := by
  induction wholes with
  | nil => rw [readings, List.map_nil]
  | cons whole wholes rest => rw [readings, rest, List.map_cons]

theorem reading_source (document : Document) (whole : Yaml.Node) :
    (reading document whole).source = whole := by
  cases whole <;> rw [reading]

/-- All nodes that are read are spelled in the document. -/
theorem reading_deep (document : Document) (whole : Yaml.Node) :
    (reading document whole).Deep whole := by
  induction whole using Yaml.Node.inductionOn with
  | step whole parts =>
    have held {part : Yaml.Node} (member : part ∈ whole.parts) :
        (reading document part).Sound whole :=
      (parts part member).sound.mono (.part member .self)
    cases whole with
    | scalar line tag written =>
      rw [reading]
      refine ⟨⟨.fail _, ?_⟩, List.forall_mem_nil _⟩
      dsimp only
      split
      · exact .pure (List.forall_mem_nil _)
      · exact .fail _
    | «alias» line name number place =>
      rw [reading]
      exact ⟨⟨.fail _, .fail _⟩, List.forall_mem_nil _⟩
    | sequence line tag items =>
      rw [reading, readings_eq_map]
      exact ⟨⟨.fail _, readItems_gives (List.forall_mem_map.mpr fun item member =>
        (held member).node) 0⟩, List.forall_mem_nil _⟩
    | mapping line tag entries =>
      rw [reading, readings_eq_map]
      refine ⟨⟨?_, .fail _⟩, fun entry member => ?_⟩
      · dsimp only
        split
        · rename_i key content isPair
          -- Two readings come from two nodes, the key and the content.
          obtain ⟨first, second, rfl⟩ : ∃ first second, entries = [first, second] := by
            rw [← List.length_eq_two, ← List.length_map, isPair]
            rfl
          simp only [List.map_cons, List.map_nil, List.cons.injEq] at isPair
          obtain ⟨rfl, rfl, _⟩ := isPair
          rw [reading_source]
          exact fun node read => ⟨_, .self, readEntry_gives document line tag first
            (parts second (by simp [Yaml.Node.parts])) node read⟩
        · exact .fail _
      · obtain ⟨part, isPart, isEntry⟩ := List.mem_map.mp (mem_of_mem_pairFields member)
        rw [← isEntry]
        exact held isPart

end Reader

/-! ### Complete trees -/

namespace Node

/-- A node has one operand too few for its operator. -/
def lacksOperand : Node → Bool
  | .logical _ operator left _ => left.isMissing && !Operator.isNot operator
  | .binary _ operator _ right => right.isMissing && operator ≠ "+" && operator ≠ "-"
  | _ => false

/-- Why a complete node cannot stand where it stands. -/
inductive Refused : Node → Bytes → Prop
  | lacks {node : Node} (lacks : node.lacksOperand = true) :
      Refused node (node.sortText ++ ": missing operand")
  | changed {position : Int} {operator : Bytes} {operand : Node} :
      Refused (.binary position operator operand .missing)
        ("postfix " ++ operator ++ " of " ++ operand.sortText)
  | target {position : Int} {target : Node} :
      Refused (.input position target) ("input target " ++ target.sortText)

/-- No kind of node is called like the end of the text that tells of a missing operand. -/
theorem getLast?_sortText (node : Node) :
    ∃ byte, node.sortText.getLast? = some byte ∧ byte ≠ 100 := by
  cases node <;> exact ⟨_, rfl, by decide⟩

theorem getLast?_lacking (front : Bytes) :
    (front ++ Bytes.ofString ": missing operand").getLast? = some 100 := by
  rw [List.getLast?_append]
  rfl

namespace Refused

variable {node : Node} {message : Bytes}

theorem message_ne_missing (refused : node.Refused message) : message ≠ Node.missing.sortText := by
  intro isMissing
  cases refused with
  | lacks =>
    have last := getLast?_lacking node.sortText
    rw [isMissing] at last
    cases last
  | changed => cases (congrArg List.head? isMissing : some (112 : UInt8) = some 60)
  | target => cases (congrArg List.head? isMissing : some (105 : UInt8) = some 60)

theorem lacksOperand_of_suffix (refused : node.Refused message)
    (isEnd : Bytes.ofString ": missing operand" <:+ message) : node.lacksOperand = true := by
  have differs {front : Bytes} {other : Node} : message ≠ front ++ other.sortText := by
    rintro rfl
    obtain ⟨byte, isLast, differs⟩ := other.getLast?_sortText
    obtain ⟨start, isWhole⟩ := isEnd
    have last := getLast?_lacking start
    rw [isWhole, List.getLast?_append, isLast] at last
    exact differs (Option.some.inj last)
  cases refused with
  | lacks isLacking => exact isLacking
  | changed => exact absurd rfl differs
  | target => exact absurd rfl differs

end Refused

/-- An operand that is needed is one of the operands, so looking into the operands finds it. -/
theorem needs_subset (node : Node) : node.needs ⊆ node.operands ++ node.statements := by
  cases node <;> simp [needs]

theorem inside_of_mem {inner child node : Node} (member : child ∈ node.operands ++ node.statements)
    (there : child.isMissing = false) (inside : inner.Inside child) : inner.Inside node :=
  (List.mem_append.mp member).elim (.operand · there inside) (.statement · inside)

end Node

namespace Analysis

/-- A fault does not tell that a node is unsupported, or does so with a position and a text that
are allowed. -/
def Admits (allowed : Int → Bytes → Prop) (fault : Fault) : Prop :=
  ∀ report, fault = .diagnostic report → report.kind = .unsupportedNode →
    allowed report.position report.message

/-- All faults that a check adds are admitted. -/
def Tells {Result : Type} (allowed : Int → Bytes → Prop) (check : Check Result) : Prop :=
  ∀ state, ∀ fault ∈ (check state).2.faults, fault ∈ state.faults ∨ Admits allowed fault

namespace Tells

variable {Result Next : Type} {allowed : Int → Bytes → Prop} {node : Node}

@[grind ←]
theorem pure (result : Result) : Tells allowed (pure result) := fun _ _ member => .inl member

@[grind ←]
theorem get : Tells allowed (get : Check State) := fun _ _ member => .inl member

@[grind ←]
theorem bind {check : Check Result} {next : Result → Check Next} (first : Tells allowed check)
    (second : ∀ result, Tells allowed (next result)) : Tells allowed (check >>= next) := by
  intro state fault member
  rcases second _ _ fault member with early | late
  · exact first state fault early
  · exact .inr late

@[grind ←]
theorem both {first second : Check Bool} (early : Tells allowed first)
    (late : Tells allowed second) : Tells allowed (both first second) :=
  .bind early fun _ => .bind late fun _ => .pure _

@[grind ←]
theorem inScope {check : Check Bool} (inner : Tells allowed check) :
    Tells allowed (inScope check) :=
  fun state fault member => inner ⟨state.table.enter, state.faults⟩ fault member

/-- A fault that has a place keeps it, so it is admitted there and not at the node. -/
theorem reportAt {fault : Fault} (admits : Admits allowed (fault.locatedIfUnplaced node.position)) :
    Tells allowed (reportAt node fault) := by
  intro state other member
  rcases Array.mem_push.mp member with early | rfl
  · exact .inl early
  · exact .inr admits

@[grind ←]
theorem refuse {message : Bytes} (isAllowed : allowed node.position message) :
    Tells allowed (reportDiagnostic node (.unsupported message)) := by
  refine .reportAt fun report isReport _ => ?_
  cases isReport
  exact isAllowed

/-- Reports of other kinds do not matter. -/
@[grind ←]
theorem other {report : Diagnostic} (isOther : report.kind ≠ .unsupportedNode) :
    Tells allowed (reportDiagnostic node report) := by
  refine .reportAt fun located isLocated isKind => absurd isKind ?_
  cases isLocated
  unfold Diagnostic.locatedIfUnplaced
  split <;> exact isOther

@[grind ←]
theorem checkReference (name : Bytes) : Tells allowed (checkReference node name) := by
  grind [Analysis.checkReference, Diagnostic.named]

@[grind ←]
theorem checkCallee (name : Bytes) : Tells allowed (checkCallee node name) := by
  grind [Analysis.checkCallee, Diagnostic.named]

@[grind ←]
theorem resolve (type : Bytes) : Tells allowed (resolve node type) := by
  grind [Analysis.resolve, Diagnostic.named]

@[grind ←]
theorem resolveParams (params : List Param) : Tells allowed (resolveParams node params) := by
  induction params <;> grind [Analysis.resolveParams]

@[grind ←]
theorem declare {declaration : Table → Except Fault Table}
    (isOther : ∀ table report, declaration table = .error (.diagnostic report) →
      report.kind ≠ .unsupportedNode) : Tells allowed (declare node declaration) := by
  intro state
  cases declared : declaration state.table with
  | ok later =>
    rw [declare_of_ok node declared]
    exact fun _ member => .inl member
  | error fault =>
    rw [declare_of_error node declared]
    cases fault with
    | noScope => exact Tells.reportAt (fun _ isReport => by cases isReport) state
    | diagnostic report => exact Tells.other (isOther _ report declared) state

/-- A table refuses names only, never the kind of a node. -/
@[grind →]
theorem kind_of_declare {table : Table} {symbol : Symbol} {report : Diagnostic}
    (refused : table.declare symbol = .error (.diagnostic report)) :
    report.kind ≠ .unsupportedNode := by
  grind [Table.declare, Diagnostic.named]

@[grind ←]
theorem checkDeclaration (name type : Bytes) {declaration : Kind → Table → Except Fault Table}
    (isOther : ∀ kind table report, declaration kind table = .error (.diagnostic report) →
      report.kind ≠ .unsupportedNode) :
    Tells allowed (checkDeclaration node name type declaration) := by
  refine .bind (.resolve _) fun _ => .bind .get fun _ => ?_
  split
  · exact .other Diagnostic.Kind.noConfusion
  · exact .bind (.declare (isOther _)) fun _ => .pure _

@[grind ←]
theorem declareParams (params : List Param) (kinds : List Kind) :
    Tells allowed (declareParams node params kinds) := by
  induction params generalizing kinds <;> cases kinds <;>
    grind [Analysis.declareParams, Table.declareScalar]

@[grind ←]
theorem checkRoutine (name : Bytes) (params : List Param) (result : Bytes) {body : Check Bool}
    (inner : Tells allowed body) : Tells allowed (checkRoutine node name params result body) := by
  refine .bind (.resolveParams _) fun resolved => .bind ?_ fun resolvedToo => ?_
  · grind [resolveResult]
  · have declaring (goodName : Bool) : Tells allowed (do
        let declared ← Analysis.declare node fun table =>
          table.declareRoutine name resolved.2 resolvedToo.2
        let goodBody ← Analysis.inScope do
          let declaredParams ← Analysis.declareParams node params resolved.2
          let goodBody ← body
          return declaredParams && goodBody
        return resolved.1 && resolvedToo.1 && goodName && declared && goodBody) :=
      .bind (.declare fun _ _ => kind_of_declare) fun _ => .bind (.inScope
        (.bind (.declareParams _ _) fun _ => .bind inner fun _ => .pure _)) fun _ => .pure _
    dsimp only
    split
    · exact .bind (.other Diagnostic.Kind.noConfusion) declaring
    · exact .bind (.pure true) declaring

@[grind ←]
theorem checkNodes {nodes : List Node} (each : ∀ node ∈ nodes, Tells allowed (checkNode node)) :
    Tells allowed (checkNodes nodes) := by
  induction nodes <;> grind [Analysis.checkNodes]

/-- A child that is there is not reported as missing, so only its own check counts. -/
@[grind ←]
theorem required {child : Node} {check : Check Bool} (there : child.isMissing = false)
    (inner : Tells allowed check) : Tells allowed (required node child check) := by
  grind [Analysis.required]

/-- With no operand missing, only the checks of the operands themselves report anything. -/
@[grind ←]
theorem checkOperands {nodes : List Node} (there : ∀ child ∈ nodes, child.isMissing = false)
    (each : ∀ child ∈ nodes, Tells allowed (checkNode child)) :
    Tells allowed (checkOperands node nodes) := by
  induction nodes <;> grind [Analysis.checkOperands]

end Tells

/-- A node that is spelled is refused for one of the reasons that complete nodes have. -/
theorem checkNode_tells {allowed : Int → Bytes → Prop} {source : Yaml.Node} {node : Node}
    (spells : source.Spells node) (sited : ∀ inner : Node, inner.Inside node →
      ∀ message, inner.Refused message → allowed inner.position message) :
    Tells allowed (checkNode node) := by
  induction spells with
  | @node _ _ _ _ node there _ _ needs sources _ _ rest =>
    have refused {message : Bytes} (refused : node.Refused message) :
        Tells allowed (reportDiagnostic node (.unsupported message)) :=
      .refuse (sited node (.self node) message refused)
    have child (part : Node) (member : part ∈ node.operands ++ node.statements)
        (isThere : part.isMissing = false) : Tells allowed (checkNode part) :=
      rest part member isThere fun inner inside =>
        sited inner (Node.inside_of_mem member isThere inside)
    have needed (part : Node) (isNeeded : part ∈ node.needs) : Tells allowed (checkNode part) :=
      child part (node.needs_subset isNeeded) (needs part isNeeded)
    cases node with
    | missing => cases there
    | binary position operator left right =>
      rw [checkNode]
      split
      · rename_i missing
        obtain rfl : right = .missing := by cases right <;> first | rfl | cases missing
        have lacks (isOther : ¬Operator.isPostfix operator = true) :
            (Node.binary position operator left .missing).lacksOperand = true := by
          have differs : operator ≠ "+" ∧ operator ≠ "-" := by
            constructor <;> rintro rfl <;> exact isOther (by decide)
          simpa [Node.lacksOperand, Node.isMissing] using differs
        unfold checkPostfix
        grind -linarith [Node.Refused]
      · grind -linarith [Node.needs, Node.operands]
    | logical position operator left right =>
      rw [checkNode]
      grind -linarith [Node.needs, Node.operands, Node.lacksOperand, Node.Refused, required]
    | input position target =>
      have found := needed target (List.mem_singleton_self target)
      have refuse : Tells allowed (reportDiagnostic (.input position target) _) := refused .target
      cases target with
      | identifier | arrayAccess =>
        rw [checkNode]
        exact found
      | _ => exact refuse
    | declaration position name type =>
      rw [checkNode]
      exact .checkDeclaration _ _ fun _ _ _ => Tells.kind_of_declare
    | arrayDeclaration position name type first last =>
      rw [checkNode]
      refine .checkDeclaration _ _ fun kind table report refused => ?_
      grind -linarith [Table.declareArray, Diagnostic.bounds]
    | _ =>
      clear rest sited refused
      rw [checkNode]
      grind -linarith [Node.needs, Node.operands, Node.statements]

theorem analyze_tells {allowed : Int → Bytes → Prop} {program : Program}
    (each : ∀ node ∈ program, Tells allowed (checkNode node)) (session : Session) :
    ∀ fault ∈ (session.analyze program).2.faults, Admits allowed fault := by
  intro fault member
  have tells : Tells allowed (checkProgram program) := .inScope (.checkNodes each)
  refine (tells ⟨.empty, #[]⟩ fault ?_).resolve_left (Array.not_mem_empty fault)
  exact Array.mem_toList_iff.mp member

end Analysis

namespace Reader

open Yaml (Document)

/-- What is read from a document is complete. Each node, at whatever depth, is spelled by a mapping
of one key, which is of its kind and on the line that is its position, and the children that a node
of its kind needs are there: only the value of a return, the left operand of a logical operation and
the right operand of an operation with the key for such may be missing. So the analysis of the
program comes to no missing node. A node of the program that it refuses lacks an operand of a
logical operation other than a negation, or behind an operator other than plus and minus, or it is
something that can be neither changed nor read. -/
theorem readDocument_complete {document : Document} {program : Program}
    (read : readDocument document = .ok program) :
    (∀ node ∈ program, document.root.Holds node) ∧
    ∀ (session : Session) (report : Diagnostic),
      .diagnostic report ∈ (session.analyze program).2.faults → report.kind = .unsupportedNode →
      report.message ≠ Node.missing.sortText ∧ ∃ node ∈ program, ∃ inner : Node,
        inner.Inside node ∧ report.position = inner.position ∧ inner.Refused report.message ∧
        (Bytes.ofString ": missing operand" <:+ report.message → inner.lacksOperand = true) := by
  have held : ∀ node ∈ program, document.root.Holds node :=
    (reading_deep document document.root).sound.list program read
  refine ⟨held, fun session report member isKind => ?_⟩
  have admits := @Analysis.analyze_tells (fun position message => ∃ node ∈ program, ∃ inner : Node,
    inner.Inside node ∧ position = inner.position ∧ inner.Refused message) program
    (fun node isNode => (held node isNode).elim fun _ found =>
      Analysis.checkNode_tells found.2 fun inner inside _ refused =>
        ⟨node, isNode, inner, inside, rfl, refused⟩) session
  obtain ⟨node, isNode, inner, inside, isPosition, refused⟩ := admits _ member report rfl isKind
  exact ⟨refused.message_ne_missing, node, isNode, inner, inside, isPosition, refused,
    refused.lacksOperand_of_suffix⟩

/-- A document in which every place that may be empty is empty. -/
def gaps : Document :=
  let key (line : Nat) (text : Bytes) : Yaml.Node := .scalar line "!!str" text
  let name (line : Nat) (text : Bytes) : Yaml.Node :=
    .mapping line "!!map" [key line "ident", key line text]
  { root := .sequence 1 "!!seq" [
      .mapping 1 "!!map" [key 1 "logical", .mapping 1 "!!map" [key 1 "op", key 1 "or",
        key 1 "left", .scalar 1 "!!null" "~", key 1 "right", name 1 "x"]],
      .mapping 2 "!!map" [key 2 "postfix", .mapping 2 "!!map" [key 2 "op", key 2 "*",
        key 3 "x", name 3 "y"]],
      .mapping 4 "!!map" [key 4 "return", .scalar 4 "!!null" "~"]] }

/-- The program in it. -/
def gapped : Program := [.logical 1 "or" .missing (.identifier 1 "x"),
  .binary 2 "*" (.identifier 3 "y") .missing, .return 4 .missing]

theorem readDocument_complete_gapped : readDocument gaps = .ok gapped ∧
    gaps.root.Holds (.return 4 .missing) ∧ ∃ node ∈ gapped, ∃ inner : Node, inner.Inside node ∧
      inner.position = 2 ∧ inner.lacksOperand = true := by
  have read : readDocument gaps = .ok gapped := rfl
  obtain ⟨held, refused⟩ := readDocument_complete read
  refine ⟨read, held _ (by simp [gapped]), ?_⟩
  obtain ⟨_, node, isNode, inner, inside, isPosition, _, lacks⟩ := refused (Session.new "gaps")
    { kind := .unsupportedNode, position := 2, message := "*ast.BinaryOp: missing operand" }
    (by decide +kernel) rfl
  exact ⟨node, isNode, inner, inside, isPosition.symm, lacks ⟨"*ast.BinaryOp", rfl⟩⟩

end Reader

end Pascaline
