/-
What lowering leaves alone. Lowering a node writes at the insertion point and nowhere else: other
functions stay as they are, and in the current one only the current block and blocks that are new
change. Of the names in scope, only the innermost scope gains symbols.

A node that leaves a value is lowered to straight-line code. That holds for assignments, calls,
output and input as well; only branches, loops and returns end blocks.
-/

import Pascaline.Proofs.Site
import Pascaline.Proofs.Steps

namespace Pascaline

open IR (Build Operand Slot Site)

variable {Result Next : Type}

/-! ### Straight-line building -/

namespace IR.Build

/-- A step of building that writes straight-line code at every site. -/
def Straight (step : Build Result) : Prop :=
  ∀ (builder : Builder) (id : Nat) (site : Site), builder.Holds id site →
    ∃ later, builder.Extends (step builder).2 ∧ (step builder).2.Holds id later ∧
      site.Straight later

namespace Straight

variable {name bytes : Bytes} {type : Ty} {left right : Operand}

/-- What does nothing is straight-line code of no length. -/
@[grind ←]
theorem pure {result : Result} : Straight (pure result) :=
  fun builder _ site holds => ⟨site, .refl builder, holds, .refl⟩

/-- Straight-line code may be followed by more of it: the second step starts at the site where the
first one ends. -/
@[grind ←]
theorem bind {step : Build Result} {next : Result → Build Next} (first : Straight step)
    (second : ∀ result, Straight (next result)) : Straight (step >>= next) := by
  intro builder id site holds
  obtain ⟨middle, early, middleHolds, straight⟩ := first builder id site holds
  obtain ⟨later, late, laterHolds, straightToo⟩ := second _ _ id middle middleHolds
  exact ⟨later, early.trans late, laterHolds, straight.trans straightToo⟩

/-- A step that writes at the site alone. -/
theorem of_place {step : Build Result} (result : Builder → Site → Result)
    (next : Builder → Site → Site)
    (straight : ∀ builder site, Site.Straight site (next builder site))
    (placed : ∀ builder id site, builder.Holds id site →
      step builder = (result builder site, builder.place id (next builder site))) :
    Straight step := by
  intro builder id site holds
  rw [placed builder id site holds]
  exact ⟨_, holds.extends_place (straight builder site).confined.grows, holds.place _, straight _ _⟩

/-- A text goes to the data of the module, so that the site is the same behind it. -/
@[grind ←]
theorem string : Straight (string name bytes) := fun builder _ site holds =>
  ⟨site, extends_withUnit builder _ (.push _ _) (.refl _) (.refl _), string_holds holds _ _, .refl⟩

@[grind ←]
theorem globalVariable : Straight (globalVariable name type) := fun builder _ site holds =>
  ⟨site, extends_withUnit builder _ (.refl _) (.push _ _) (.refl _), globalVariable_holds holds _ _,
    .refl⟩

/-- An instruction behind the end of a block goes to a fresh one, which still counts as
straight-line code. -/
@[grind ←]
theorem emit {instr : Instr} : Straight (emit instr) :=
  .of_place (fun _ _ => ()) _ (fun _ _ => .emit .refl instr) fun _ _ _ holds => emit_eq holds instr

@[grind ←]
theorem alloca : Straight (alloca name type) :=
  .of_place _ _ (fun _ _ => .reserve .refl name type) fun _ _ _ holds => alloca_eq holds name type

/-- All instructions with a result are written in this way, so they need no proofs of their own. -/
theorem define {instr : Register → Instr} {value : Register → Result} :
    Straight (do
      let out ← freshRegister type
      Build.emit (instr out)
      return value out) :=
  .of_place _ _ (fun _ _ => .define .refl type instr) fun _ _ _ holds => define_eq holds _ _ _

@[grind ←]
theorem load : Straight (load left) := define

@[grind ←]
theorem elementAddress : Straight (elementAddress left right) := define

@[grind ←]
theorem binary {op : BinaryOp} : Straight (binary op left right) := define

@[grind ←]
theorem compare {predicate : Predicate} : Straight (compare predicate left right) := define

@[grind ←]
theorem convert {cast : Cast} : Straight (convert cast left type) := define

/-- A call writes the same instruction with a result or without one. Which of the two it is depends
on the module. -/
@[grind ←]
theorem call {callee : Nat} {args : List Operand} : Straight (call callee args) := by
  refine .bind (fun builder _ site holds => ⟨site, .refl builder, holds, .refl⟩) fun builder => ?_
  cases (builder.function? callee).map Function.signature with
  | none => exact .bind .emit fun _ => .pure
  | some signature =>
    show Straight (if signature.hasResult = true then _ else _ : Build (Option Operand))
    split
    · exact .define
    · exact .bind .emit fun _ => .pure

end Straight

end IR.Build

namespace Lowering

variable {name operator : Bytes} {value left right : Operand} {routine : Routine} {node : Node}
  {nodes : List Node} {symbol : Symbol}

/-- A parameter is read without any code, and everything else by a load. -/
@[grind ←]
theorem read_straight : (read value).Straight := by
  cases value <;> grind [read]

/-- The first index is taken away only if it is not zero. -/
@[grind ←]
theorem elementOf_straight {slot : Slot} {first : Int64} :
    (elementOf slot first value).Straight := by
  grind [elementOf, elementOffset]

/-- Storage of the module is reserved elsewhere, storage of the function at the site. -/
@[grind ←]
theorem reserve_straight {depth : Nat} {type : Ty} :
    Build.Straight (routine.reserve depth name type) := by
  unfold Routine.reserve
  split
  · exact .globalVariable
  · exact .alloca

@[grind ←]
theorem clearing_straight {slot : Slot} : (clearing slot).Straight := by
  grind [clearing, Build.store]

/-- A constant is brought to its width at once, and any other operand by an instruction. -/
@[grind ←]
theorem resize_straight {target : IntType} : (resize value target).Straight := by
  grind [resize]

@[grind ←]
theorem promote_straight : (promote value).Straight := by
  grind [promote]

/-! ### Straight-line lowering -/

/-- The module has only grown, and the numbers kept for external functions are still its own. -/
structure Workspace.Extends (before after : Workspace) : Prop where
  builder : before.builder.Extends after.builder
  coherent : before.Coherent → after.Coherent

namespace Workspace.Extends

variable {before middle after : Workspace}

theorem refl (workspace : Workspace) : workspace.Extends workspace :=
  ⟨.refl _, fun coherent => coherent⟩

/-- The numbers kept for external functions have to be followed from step to step, since a later
step may rely on an earlier one. -/
theorem trans (early : before.Extends middle) (late : middle.Extends after) :
    before.Extends after :=
  ⟨early.builder.trans late.builder, fun coherent => late.coherent (early.coherent coherent)⟩

/-- A step that declares no external function. -/
theorem of_builder (extended : before.builder.Extends after.builder)
    (same : after.externals = before.externals) : before.Extends after :=
  ⟨extended, fun coherent => coherent.mono extended.unit same⟩

end Workspace.Extends

/-- What straight-line lowering at a site leads to. No name is declared. -/
structure Written (before : Workspace) (id : Nat) (site : Site) (after : Workspace)
    (later : Site) : Prop extends before.Extends after where
  holds : after.builder.Holds id later
  straight : site.Straight later
  table : before.table.Allocated → after.table = before.table

theorem Written.refl {workspace : Workspace} {id : Nat} {site : Site}
    (holds : workspace.builder.Holds id site) : Written workspace id site workspace site :=
  ⟨.refl _, holds, .refl, fun _ => rfl⟩

/-- No name is declared by either step, so the table behind both is the first one. The second step
needs its variables to have storage, which they have as nothing has changed. -/
theorem Written.trans {first second third : Workspace} {id : Nat} {site middle later : Site}
    (early : Written first id site second middle) (late : Written second id middle third later) :
    Written first id site third later := by
  refine ⟨early.toExtends.trans late.toExtends, late.holds, early.straight.trans late.straight,
    fun allocated => ?_⟩
  have same := early.table allocated
  rw [late.table (by rw [same]; exact allocated), same]

/-- An external function is asked for without writing any code. -/
theorem external_written {service : Service} {function id : Nat} {before after : Workspace}
    {site : Site} (lowered : external service before = .ok function after)
    (holds : before.builder.Holds id site) : Written before id site after site := by
  have coherent := external_declared lowered
  rcases external_cases lowered with ⟨_, rfl⟩ | ⟨_, rfl⟩
  · exact .refl holds
  · exact ⟨⟨Build.declareFunction_extends .., fun known => (coherent known).1⟩,
      Build.declareFunction_holds holds _ _, .refl, fun _ => rfl⟩

/-- A step of lowering that writes straight-line code whenever it succeeds. -/
def Straight (step : Lower Result) : Prop :=
  ∀ ⦃before : Workspace⦄ ⦃result : Result⦄ ⦃after : Workspace⦄, step before = .ok result after →
    ∀ ⦃id : Nat⦄ ⦃site : Site⦄, before.builder.Holds id site →
      ∃ later, Written before id site after later

namespace Straight

variable {step : Lower Result} {lowered index first second given : Lower Operand}

/-- A step that only yields a result writes nothing. -/
@[grind ←]
theorem pure {result : Result} : Straight (pure result : Lower Result) := by
  intro before value after lowered id site holds
  obtain ⟨rfl, rfl⟩ := (pure_eq_ok result value before after).mp lowered
  exact ⟨site, .refl holds⟩

/-- The rule for a sequence of steps that both succeed. If one of them fails there is nothing to
show. -/
@[grind ←]
theorem bind {next : Result → Lower Next} (first : Straight step)
    (second : ∀ result, Straight (next result)) : Straight (step >>= next) := by
  intro before result after lowered id site holds
  obtain ⟨value, middle, early, late⟩ := (bind_eq_ok _ _ _ _ _).mp lowered
  obtain ⟨between, early⟩ := first early holds
  obtain ⟨later, late⟩ := second value late early.holds
  exact ⟨later, early.trans late⟩

@[grind ←]
theorem map {change : Result → Next} (straight : Straight step) : Straight (change <$> step) := by
  intro before result after lowered
  obtain ⟨value, lowered, _⟩ := (map_eq_ok _ _ _ _ _).mp lowered
  exact straight lowered

/-- A failure has no code to speak of, so it may stand wherever straight-line code is asked for. -/
@[grind ←]
theorem fail {cause : Cause} : Straight (fail cause : Lower Result) := by
  intro before result after lowered
  exact ((fail_eq_ok cause before result after).mp lowered).elim

@[grind ←]
theorem failWith {diagnostic : Diagnostic} : Straight (failWith diagnostic : Lower Result) := fail

/-- Straight-line building is straight-line lowering, and the scopes are not touched. -/
@[grind ←]
theorem build {step : Build Result} (straight : step.Straight) : Straight (build step) := by
  intro before result after lowered id site holds
  obtain ⟨_, rfl⟩ := (build_eq_ok step before result after).mp lowered
  obtain ⟨later, extended, laterHolds, isStraight⟩ := straight _ id site holds
  exact ⟨later, .of_builder extended rfl, laterHolds, isStraight, fun _ => rfl⟩

@[grind ←]
theorem within {stage : Stage} (straight : Straight step) : Straight (within stage step) :=
  fun _ _ _ lowered => straight ((within_eq_ok _ _ _ _ _).mp lowered)

/-- Names are looked up without writing anything. -/
@[grind ←]
theorem find? : Straight (find? name) := by
  intro before result after lowered id site holds
  obtain ⟨_, rfl⟩ := (find?_eq_ok name before result after).mp lowered
  exact ⟨site, .refl holds⟩

/-- The use of a name. A slot that is missing is reserved, but none is missing in a table whose
variables have storage. -/
@[grind ←]
theorem storage {index : Option Operand} : Straight (routine.storage name index) := by
  rintro before ⟨symbol, address⟩ after lowered id site holds
  obtain ⟨found, isVariable, _, looked⟩ := storage_cases lowered
  obtain ⟨slot, middle, allocated, rest⟩ := lookup_cases looked
  obtain ⟨between, early⟩ : ∃ between, Written before id site middle between := by
    obtain ⟨symbol', found', _, ⟨_, rfl⟩ | ⟨unreserved, _, rfl⟩⟩ := allocate_cases allocated
    · exact ⟨site, .refl holds⟩
    · obtain ⟨later, extended, laterHolds, isStraight⟩ :=
        @reserve_straight name routine before.table.depth symbol'.nativeType _ id site holds
      refine ⟨later, .of_builder extended rfl, laterHolds, isStraight, fun slots => ?_⟩
      obtain rfl : symbol = symbol' := Option.some.inj (found.symm.trans found')
      obtain ⟨slot, reserved⟩ := slots.slot found isVariable
      rw [unreserved] at reserved
      cases reserved
  rcases rest with ⟨_, _, rfl⟩ | ⟨place, _, first, last, _, _, _, _, rfl⟩
  · exact ⟨between, early⟩
  · obtain ⟨later, extended, laterHolds, isStraight⟩ :=
      @elementOf_straight place slot first _ id between early.holds
    exact ⟨later, early.trans ⟨.of_builder extended rfl, laterHolds, isStraight, fun _ => rfl⟩⟩

@[grind ←]
theorem scalarStorage {misuse : Bytes} : Straight (routine.scalarStorage name misuse) := by
  grind [Routine.scalarStorage]

/-! ### Values -/

@[grind ←]
theorem expectCategory {category : Category} : Straight (expectCategory name category value) := by
  grind [Lowering.expectCategory]

@[grind ←]
theorem expectType {kind : Kind} : Straight (expectType name kind value) := by
  grind [Lowering.expectType]

/-- A number is brought to another width, and anything else has its type already. -/
@[grind ←]
theorem fit {target : Ty} : Straight (fit name target value) := by
  cases target <;> grind [Lowering.fit]

@[grind ←]
theorem unify : Straight (unify operator left right) := by
  grind [Lowering.unify]

/-- Only a value that is not a truth value needs a comparison. -/
@[grind ←]
theorem truth : Straight (truth value) := by
  grind [Lowering.truth]

@[grind ←]
theorem lowerIndex (straight : Straight lowered) : Straight (lowerIndex lowered) := by
  grind [Lowering.lowerIndex]

theorem lowerCondition (straight : Straight lowered) : Straight (lowerCondition lowered) := by
  grind [Lowering.lowerCondition]

@[grind ←]
theorem lowerPair (early : Straight first) (late : Straight second) :
    Straight (lowerPair first second) := by
  grind [Lowering.lowerPair]

theorem lowerLogical (early : Straight first) (late : Straight second) :
    Straight (lowerLogical operator first second) := by
  grind [Lowering.lowerLogical, negate]

theorem lowerUnary (straight : Straight given) : Straight (lowerUnary operator given) := by
  grind [Lowering.lowerUnary, negate]

/-- The old value is read, the new one is written back, and nothing but a variable is accepted. -/
theorem lowerPostfix : Straight (lowerPostfix routine operator node) := by
  unfold Lowering.lowerPostfix
  split
  · refine .bind .scalarStorage fun _ => .bind (.build read_straight) fun old => ?_
    dsimp only
    split <;> grind [Build.store]
  · exact .failWith

/-- Which routine is called is found out from the names alone. -/
@[grind ←]
theorem callable {count : Nat} : Straight (callable name count) := by
  refine .bind .find? fun found => ?_
  split <;> grind

@[grind ←]
theorem external {service : Service} : Straight (external service) :=
  fun _ _ _ lowered _ site holds => ⟨site, external_written lowered holds⟩

@[grind ←]
theorem callFormatted {service : Service} {formatName format : Bytes} {args : List Operand} :
    Straight (callFormatted service formatName format args) := by
  grind [Lowering.callFormatted]

@[grind ←]
theorem lowerInput : Straight (lowerInput symbol value) := by
  grind [Lowering.lowerInput]

@[grind ←]
theorem statement {step : Lower Unit} (straight : Straight step) : Straight (statement step) := by
  grind [Lowering.statement]

end Straight

/-! ### Nodes without branches -/

end Lowering

/-- The nodes that lowering a node asks for. Of an input into an element, that includes the
index. -/
def Node.children : Node → List Node
  | .missing | .integer .. | .real .. | .char .. | .string .. | .date .. | .boolean ..
  | .identifier .. | .declaration .. | .arrayDeclaration .. => []
  | .assignment _ _ value => [value]
  | .arrayAssignment _ _ index value => [index, value]
  | .arrayAccess _ _ index => [index]
  | .binary _ _ left right | .comparison _ _ left right | .logical _ _ left right => [left, right]
  | .unary _ _ child => [child]
  | .conditional _ condition consequent alternative => condition :: (consequent ++ alternative)
  | .forLoop _ start condition step body => start :: condition :: step :: body
  | .whileLoop _ condition body | .repeatLoop _ body condition => condition :: body
  | .procedure _ _ _ body | .function _ _ _ _ body => body
  | .call _ _ args | .output _ args => args
  | .return _ value => [value]
  | .input _ (.arrayAccess _ _ index) => [index]
  | .input _ _ => []
  | .block _ statements => statements

/-- Children are smaller than their node, also the index that stands inside of the target of an
input. -/
theorem Node.sizeOf_children {node child : Node} (member : child ∈ node.children) :
    sizeOf child < sizeOf node := by
  have within : ∀ list : List Node, child ∈ list → sizeOf child < sizeOf list :=
    fun _ member => List.sizeOf_lt_of_mem member
  unfold children at member
  split at member <;> grind

/-- Induction over a tree: a node may assume the statement for its children. -/
theorem Node.inductionOn {motive : Node → Prop}
    (step : ∀ node : Node, (∀ child ∈ node.children, motive child) → motive node) (node : Node) :
    motive node :=
  step node fun child member =>
    have := Node.sizeOf_children member
    Node.inductionOn step child
termination_by sizeOf node

attribute [simp] Node.children

/-- Whether a node declares nothing and does not change where execution goes on. Every node with
a value is plain. -/
def Node.isPlain : Node → Bool
  | .declaration .. | .arrayDeclaration .. | .conditional .. | .forLoop .. | .whileLoop ..
  | .repeatLoop .. | .procedure .. | .function .. | .return .. | .block .. => false
  | _ => true

namespace Lowering

variable {routine : Routine} {nodes : List Node}

/-- Only a plain node leaves a value. -/
theorem isPlain_of_value {node : Node} {before after : Workspace} {value : Operand}
    (lowered : lowerNode node routine before = .ok (some value) after) : node.isPlain = true := by
  cases node <;> first | rfl | simp [lowerNode] at lowered

/-- The arguments of a call, by induction over them; each one is written behind those before it. -/
@[grind ←]
theorem Straight.lowerArguments
    (straight : ∀ node ∈ nodes, Straight (Lowering.operand node (lowerNode node routine)))
    {name : Bytes} {position : Nat} {kinds : List Kind} :
    Straight (lowerArguments name position nodes kinds routine) := by
  induction nodes generalizing position <;> grind [Lowering.lowerArguments]

@[grind ←]
theorem Straight.lowerPrintedList
    (straight : ∀ node ∈ nodes, Straight (Lowering.operand node (lowerNode node routine)))
    {position : Nat} : Straight (lowerPrintedList position nodes routine) := by
  induction nodes generalizing position <;> grind [Lowering.lowerPrintedList, lowerPrinted]

/-- Plain nodes are lowered to straight-line code. -/
theorem lowerNode_straight (node : Node) (routine : Routine) (plain : node.isPlain = true) :
    Straight (lowerNode node routine) := by
  induction node using Node.inductionOn with
  | step node children =>
    have operands :
        ∀ child ∈ node.children, Straight (operand child (lowerNode child routine)) := by
      intro child member before result after lowered
      obtain ⟨_, lowered⟩ := (operand_eq_ok _ _ _ _ _).mp lowered
      exact children child member (isPlain_of_value lowered) lowered
    cases node with
    | missing | integer | real | char | boolean | string | date => grind [lowerNode]
    | identifier position name => grind [lowerNode, lowerIdentifier]
    | assignment position name value =>
      have given := operands value (by simp)
      grind [lowerNode, lowerAssignment, Build.store]
    | arrayAssignment position name index value =>
      have indexed := operands index (by simp)
      have given := operands value (by simp)
      grind [lowerNode, lowerAssignment, lowerElementAssignment, Build.store]
    | arrayAccess position name index =>
      have indexed := operands index (by simp)
      grind [lowerNode, lowerElement]
    | binary position operator left right =>
      have first := operands left (by simp)
      have second := operands right (by simp)
      rw [lowerNode]
      split
      · exact .map .lowerPostfix
      · grind [lowerBinary]
    | unary position operator child =>
      rw [lowerNode]
      exact .map (.lowerUnary (operands child (by simp)))
    | comparison position operator left right =>
      have first := operands left (by simp)
      have second := operands right (by simp)
      grind [lowerNode, lowerComparison]
    | logical position operator left right =>
      rw [lowerNode]
      exact .map (.lowerLogical (operands left (by simp)) (operands right (by simp)))
    | call position name args =>
      have given : ∀ arg ∈ args, Straight (operand arg (lowerNode arg routine)) := operands
      grind [lowerNode]
    | output position args =>
      have given : ∀ arg ∈ args, Straight (operand arg (lowerNode arg routine)) := operands
      grind [lowerNode, lowerOutput]
    | input position target =>
      cases target with
      | identifier => grind [lowerNode]
      | arrayAccess _ name index =>
        have indexed := operands index (by simp)
        grind [lowerNode]
      | _ => exact .failWith
    | _ => cases plain

/-- An operand is lowered to straight-line code. -/
theorem operand_straight (child : Node) (routine : Routine) :
    Straight (operand child (lowerNode child routine)) := by
  intro before result after lowered
  obtain ⟨_, lowered⟩ := (operand_eq_ok _ _ _ _ _).mp lowered
  exact lowerNode_straight child routine (isPlain_of_value lowered) lowered

end Lowering

end Pascaline
