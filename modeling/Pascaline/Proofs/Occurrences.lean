/-
Nodes in a compiled module. Lowering a program lowers every statement and every operand that stands
in it, however deep, and what has been written for a node is not changed any more. So a node has its
place in the finished module: the block and the position where its code ends. At the moment when it
is lowered, the variables in scope are those of the ledger, each with its storage.
-/

import Pascaline.Proofs.Reporting
import Pascaline.Proofs.Storage
import Pascaline.Machine.Run

namespace Pascaline

namespace Node

/-- The statements of a loop that stand outside of its body. -/
def outriders : Node → List Node
  | .forLoop _ start _ step _ => [start, step]
  | _ => []

/-- The operands of a node whose values are asked for when it is lowered. A variable with an
operator behind it is none, and of an input into an element it is the index. -/
def evaluated : Node → List Node
  | .assignment _ _ child | .arrayAccess _ _ child | .unary _ _ child | .conditional _ child _ _
  | .forLoop _ _ child _ _ | .whileLoop _ child _ | .repeatLoop _ _ child
  | .input _ (.arrayAccess _ _ child) => [child]
  | .arrayAssignment _ _ index value => if index.isMissing then [value] else [index, value]
  | .binary _ _ left right => if right.isMissing then [] else [left, right]
  | .comparison _ _ left right => [left, right]
  | .logical _ operator left right => if Operator.isNot operator then [right] else [left, right]
  | .return _ value => if value.isMissing then [] else [value]
  | .call _ _ args | .output _ args => args
  | _ => []

/-- A node stands in another one, as a statement or as an operand. -/
inductive Stands (inner : Node) : Node → Prop
  | self : Stands inner inner
  | statement {child node : Node} (member : child ∈ node.statements)
      (stands : Stands inner child) : Stands inner node
  | outrider {child node : Node} (member : child ∈ node.outriders)
      (stands : Stands inner child) : Stands inner node
  | operand {child node : Node} (member : child ∈ node.evaluated)
      (stands : Stands inner child) : Stands inner node

end Node

/-- A builder with a current block writes at a site. -/
theorem IR.Builder.exists_holds {builder : IR.Builder}
    (placed : builder.currentBlock?.isSome = true) : ∃ id site, builder.Holds id site := by
  obtain ⟨block, found⟩ := Option.isSome_iff_exists.mp placed
  obtain ⟨⟨id, place⟩, isCursor, found⟩ := Option.bind_eq_some_iff.mp found
  obtain ⟨function, isFunction, found⟩ := Option.bind_eq_some_iff.mp found
  exact ⟨id, ⟨function, place, (Array.getElem?_eq_some_iff.mp found).1⟩, isCursor, isFunction⟩

theorem IR.Builder.Holds.placed {builder : IR.Builder} {id : Nat} {site : IR.Site}
    (holds : builder.Holds id site) : builder.currentBlock?.isSome = true := by
  rw [holds.currentBlock]
  rfl

/-- The frame is about to execute the last instruction that has been written. -/
structure IR.Builder.EndsAt (builder : IR.Builder) (frame : Machine.Frame) : Prop where
  cursor : builder.cursor = some ⟨frame.function, frame.block⟩
  index : builder.currentBlock?.map (fun block => block.code.size) = some (frame.index + 1)

section Located

variable {unit : IR.Module} {builder : IR.Builder} {frame : Machine.Frame} {id : Nat}
  {site : IR.Site}

theorem Machine.Frame.next_of_code {function : IR.Function} {block : IR.Block} {instr : IR.Instr}
    (found : unit.functions[frame.function]? = some function)
    (here : function.blocks[frame.block]? = some block)
    (there : block.code[frame.index]? = some instr) : frame.next unit = .instruction instr := by
  simp only [Machine.Frame.next, found, Option.bind_some, here, there]

namespace IR.Builder.EndsAt

theorem size (ends : builder.EndsAt frame) (holds : builder.Holds id site) :
    site.current.code.size = frame.index + 1 := by
  have isIndex := ends.index
  rw [holds.currentBlock] at isIndex
  exact Option.some.inj isIndex

/-- The block of the frame is the one that has been written last, and has grown since. -/
theorem located (ends : builder.EndsAt frame) (holds : builder.Holds id site)
    (grows : builder.unit.Grows unit) :
    ∃ function block, unit.functions[frame.function]? = some function ∧
      function.blocks[frame.block]? = some block ∧ site.function.Grows function ∧
      site.current.Grows block := by
  have isCursor := ends.cursor
  rw [holds.cursor, Option.some.injEq, IR.Cursor.mk.injEq] at isCursor
  obtain ⟨rfl, sameBlock⟩ := isCursor
  obtain ⟨function, found, functionGrows⟩ := grows.functions _ _ holds.function
  obtain ⟨block, here, blockGrows⟩ := functionGrows.blocks _ _ site.current_found
  exact ⟨function, block, found, sameBlock ▸ here, functionGrows, blockGrows⟩

end IR.Builder.EndsAt

end Located

namespace Lowering

open IR (Operand Site)

/-- A node that has been lowered at some moment in the making of a module: the routine in which it
stands, and the workspace before it and behind it. The external functions that were known then are
those of the module. -/
structure Occurrence (unit : IR.Module) (node : Node) where
  routine : Routine
  before : Workspace
  result : Option Operand
  after : Workspace
  placed : before.builder.currentBlock?.isSome = true
  coherent : before.Coherent
  lowered : lowerNode node routine before = .ok result after
  grows : after.builder.unit.Grows unit

/-- An occurrence with the ledger of its moment, in which all variables in scope are listed. -/
structure Moment (unit : IR.Module) (node : Node) extends Occurrence unit node where
  ledger : List Symbol
  outermost : Bool
  kept : Kept ledger routine outermost before

/-- The frame is about to execute the last instruction of the node. -/
abbrev Occurrence.EndsAt {unit : IR.Module} {node : Node} (occurrence : Occurrence unit node)
    (frame : Machine.Frame) : Prop :=
  occurrence.after.builder.EndsAt frame

section Ends

variable {unit : IR.Module} {node : Node} {occurrence : Occurrence unit node}
  {frame : Machine.Frame} {id : Nat} {later : Site} {instr : IR.Instr}

/-- What is executed last is what was written last. -/
theorem Occurrence.EndsAt.next (ends : occurrence.EndsAt frame)
    (holds : occurrence.after.builder.Holds id later)
    (isLast : later.current.code.back? = some instr) :
    frame.next unit = .instruction instr ∧
      ∃ function, unit.functions[frame.function]? = some function ∧
        later.function.Grows function := by
  obtain ⟨function, block, found, here, grows, blockGrows⟩ := ends.located holds occurrence.grows
  have there : later.current.code[frame.index]? = some instr := by
    rw [← isLast, Array.back?_eq_getElem?, ends.size holds]
    rfl
  exact ⟨Machine.Frame.next_of_code found here (blockGrows.code _ _ there), function, found, grows⟩

end Ends

/-! ### Steps that leave a module in order -/

section Proceeding

variable {Result Next : Type} {routine : Routine} {outermost : Bool} {ledger : List Symbol}
  {before after : Workspace} {id : Nat} {site : Site} {plan : List Plan}
  {good : IR.Builder → Result → Prop} {step : Lower Result} {result : Result}

/-- A step that records what it declares leaves a ledger behind it. -/
theorem Kept.carried (kept : Kept ledger routine outermost before)
    (records : Records routine outermost plan good step) (ran : step before = .ok result after) :
    ∃ later, Kept later routine outermost after ∧ good after.builder result := by
  have recorded := records kept
  rw [ran] at recorded
  cases recorded with
  | ok keptToo gains fulfils isGood => exact ⟨_, keptToo, isGood⟩

/-- Three blocks are added, and the first one is entered. -/
theorem Kept.fork (kept : Kept ledger routine outermost before)
    (holds : before.builder.Holds id site) (names : IR.Stems) (terminator : IR.Terminator)
    (isTidy : terminator.IsTidy) :
    ∃ later, Kept later routine outermost (before.place id (site.fork names terminator)) := by
  have records : Records routine outermost [] IR.Unasked (do
      let one ← build (IR.Build.newBlock names.first)
      let two ← build (IR.Build.newBlock names.second)
      let three ← build (IR.Build.newBlock names.third)
      build (IR.Build.finish terminator)
      build (IR.Build.moveTo one)
      Pure.pure (two, three)) :=
    .andThen (.newBlock _) fun _ _ _ => .andThen (.newBlock _) fun _ _ _ =>
      .andThen (.newBlock _) fun _ _ _ => .andThen (.finish isTidy) fun _ _ _ =>
      .andThen (.moveTo _) fun _ _ _ => .pure fun _ => trivial
  obtain ⟨later, keptToo, _⟩ := kept.carried records
    (fork_ok holds names (fun _ _ _ => terminator) fun _ two three => Pure.pure (two, three))
  exact ⟨later, keptToo⟩

/-- A block is left, and another one is entered. -/
theorem Kept.go (kept : Kept ledger routine outermost before)
    (holds : before.builder.Holds id site) (way : Site.Way)
    (isTidy : way.terminator.IsTidy) {block : Nat}
    (inside : block < site.function.blocks.size) :
    ∃ later, Kept later routine outermost (before.place id (site.go way block)) := by
  have moves (leaving : Lower Unit) (records : Records routine outermost [] IR.Unasked leaving)
      (leaves : leaving before = .ok () (before.place id (site.exit way))) :
      ∃ later, Kept later routine outermost (before.place id (site.go way block)) := by
    have both : Records routine outermost [] IR.Unasked
        (do leaving; Pure.pure (← build (IR.Build.moveTo block))) :=
      .andThen records fun _ _ _ => .andThen (.moveTo block) fun _ _ _ => .pure fun _ => trivial
    obtain ⟨later, keptToo, _⟩ := kept.carried both (go_ok holds way leaves inside Pure.pure)
    exact ⟨later, keptToo⟩
  cases way with
  | leave target => exact moves _ (.branchTo target) (branchTo_ok holds target)
  | finish terminator => exact moves _ (.finish isTidy) (finish_ok holds terminator)

/-- A step that only adds to the module. -/
def Adding (step : Lower Result) : Prop := ∃ through, Extending through step

theorem Straight.adding (straight : Straight step) : Adding step := ⟨true, straight.extending⟩

theorem Extending.adding {through : Bool} (extending : Extending through step) : Adding step :=
  ⟨through, extending⟩

/-- A step that only adds to the module and records what it declares. -/
structure Proceeds (routine : Routine) (outermost : Bool) (step : Lower Result) : Prop where
  adding : Adding step
  records : ∃ plan good, Records routine outermost plan good step

namespace Proceeds

theorem kept (proceeds : Proceeds routine outermost step)
    (isKept : Kept ledger routine outermost before) (ran : step before = .ok result after) :
    ∃ later, Kept later routine outermost after := by
  obtain ⟨_, plan, good, records⟩ := proceeds
  obtain ⟨later, keptToo, _⟩ := isKept.carried records ran
  exact ⟨later, keptToo⟩

theorem operand (child : Node) (routine : Routine) (outermost : Bool) :
    Proceeds routine outermost (operand child (lowerNode child routine)) :=
  ⟨(operand_straight child routine).adding, _, _, .operand (lowerNode_records child routine _)⟩

theorem discarding (node : Node) (routine : Routine) (outermost : Bool) :
    Proceeds routine outermost (discarding node (lowerNode node routine)) :=
  ⟨(discarding_extending node routine).adding, _, _,
    .discarding _ (lowerNode_records node routine _)⟩

theorem lowerNodes (nodes : List Node) (routine : Routine) (outermost : Bool) :
    Proceeds routine outermost (lowerNodes nodes routine) :=
  ⟨(lowerNodes_extending nodes routine).adding, _, _, lowerNodes_records nodes routine outermost⟩

theorem within {stage : Stage} (proceeds : Proceeds routine outermost step) :
    Proceeds routine outermost (within stage step) := by
  obtain ⟨⟨through, extending⟩, plan, good, records⟩ := proceeds
  exact ⟨extending.within.adding, plan, good, .within stage records⟩

theorem inScope (proceeds : Proceeds routine false step) :
    Proceeds routine outermost (inScope step) := by
  obtain ⟨⟨through, extending⟩, plan, good, records⟩ := proceeds
  exact ⟨extending.inScope.adding, plan, good, records.inScope⟩

theorem scalarStorage (name misuse : Bytes) :
    Proceeds routine outermost (routine.scalarStorage name misuse) :=
  ⟨Straight.scalarStorage.adding, _, _, .scalarStorage name misuse⟩

/-- An index and the address of an element behind it. -/
theorem element (index : Node) (name : Bytes) :
    Proceeds routine outermost (do
      let place ← lowerIndex (Lowering.operand index (lowerNode index routine))
      routine.storage name (some place)) := by
  have records : Records routine outermost (index.plan outermost ++ []) IR.Unasked
      (lowerIndex (Lowering.operand index (lowerNode index routine)) >>= fun place =>
        routine.storage name (some place) >>= Pure.pure) :=
    .element (.operand (lowerNode_records index routine outermost)) name fun _ _ =>
      .pure fun _ => trivial
  simp only [bind_pure] at records
  exact ⟨(Straight.bind (operand_straight index routine).lowerIndex fun _ => .storage).adding, _, _,
    records⟩

end Proceeds

end Proceeding

/-! ### Every node has its place -/

/-- Whatever the step has written holds the node. -/
def Places {Result : Type} (routine : Routine) (outermost : Bool) (inner : Node)
    (lower : Lower Result) : Prop :=
  ∀ ⦃before : Workspace⦄ ⦃result : Result⦄ ⦃after : Workspace⦄,
    lower before = .ok result after → ∀ ⦃id : Nat⦄ ⦃site : Site⦄, before.builder.Holds id site →
      before.Coherent → ∀ ⦃ledger : List Symbol⦄, Kept ledger routine outermost before →
        Nonempty (Moment after.builder.unit inner)

section Places

variable {inner : Node} {unit later : IR.Module}

theorem Moment.mono (moment : Nonempty (Moment unit inner)) (grows : unit.Grows later) :
    Nonempty (Moment later inner) :=
  moment.elim fun moment => ⟨{ moment with grows := moment.grows.trans grows }⟩

variable {Result Other : Type} {node : Node} {first : Lower Result} {second : Result → Lower Other}
  {routine : Routine} {outermost : Bool}

namespace Places

/-- What stands in the first of two steps is not changed by the second one. -/
theorem before (places : Places routine outermost inner first) (firstAdds : Adding first)
    (secondAdds : ∀ result, Adding (second result)) :
    Places routine outermost inner (first >>= second) := by
  intro before result after lowered id site holds coherent ledger kept
  obtain ⟨value, middle, firstLowered, secondLowered⟩ := (bind_eq_ok _ _ _ _ _).mp lowered
  obtain ⟨_, firstExtends⟩ := firstAdds
  obtain ⟨_, secondExtends⟩ := secondAdds value
  obtain ⟨next, extended⟩ := firstExtends firstLowered holds
  obtain ⟨_, extendedToo⟩ := secondExtends secondLowered extended.holds
  exact Moment.mono (places firstLowered holds coherent kept) extendedToo.builder.unit

theorem behind (proceeds : Proceeds routine outermost first)
    (places : ∀ result, Places routine outermost inner (second result)) :
    Places routine outermost inner (first >>= second) := by
  intro before result after lowered id site holds coherent ledger kept
  obtain ⟨value, middle, firstLowered, secondLowered⟩ := (bind_eq_ok _ _ _ _ _).mp lowered
  obtain ⟨later, keptToo⟩ := proceeds.kept kept firstLowered
  obtain ⟨_, firstExtends⟩ := proceeds.adding
  obtain ⟨next, extended⟩ := firstExtends firstLowered holds
  exact places value secondLowered extended.holds (extended.coherent coherent) keptToo

theorem map {change : Result → Other} (places : Places routine outermost inner first) :
    Places routine outermost inner (change <$> first) := by
  intro before result after lowered id site holds coherent ledger kept
  obtain ⟨value, lowered, _⟩ := (map_eq_ok ..).mp lowered
  exact places lowered holds coherent kept

theorem discarding {lower : Lower (Option Operand)}
    (places : Places routine outermost inner lower) :
    Places routine outermost inner (discarding node lower) := by
  intro before result after lowered id site holds coherent ledger kept
  obtain ⟨value, lowered⟩ := (discarding_eq_ok _ _ _ _ _).mp lowered
  exact places lowered holds coherent kept

theorem operand {lower : Lower (Option Operand)} (places : Places routine outermost inner lower) :
    Places routine outermost inner (operand node lower) := by
  intro before result after lowered id site holds coherent ledger kept
  obtain ⟨_, lowered⟩ := (operand_eq_ok _ _ _ _ _).mp lowered
  exact places lowered holds coherent kept

theorem statement {lower : Lower Unit} (places : Places routine outermost inner lower) :
    Places routine outermost inner (statement lower) :=
  fun _ _ _ lowered _ _ holds coherent _ kept =>
    places ((statement_eq_ok _ _ _ _).mp lowered).1 holds coherent kept

theorem within {stage : Stage} (places : Places routine outermost inner first) :
    Places routine outermost inner (within stage first) :=
  fun _ _ _ lowered _ _ holds coherent _ kept =>
    places ((within_eq_ok ..).mp lowered) holds coherent kept

theorem inScope (places : Places routine false inner first) :
    Places routine outermost inner (inScope first) := by
  intro before result after lowered id site holds coherent ledger kept
  obtain ⟨middle, inside, rfl⟩ := (inScope_eq_ok ..).mp lowered
  have placed := places inside holds coherent kept.scope
  exact placed

theorem ite {condition : Prop} [Decidable condition] {other : Lower Result}
    (yes : condition → Places routine outermost inner first)
    (no : ¬condition → Places routine outermost inner other) :
    Places routine outermost inner (if condition then first else other) := by
  split
  · exact yes ‹_›
  · exact no ‹_›

/-- What fails has written nothing. -/
theorem failWith {diagnostic : Diagnostic} :
    Places routine outermost inner (failWith diagnostic : Lower Result) :=
  fun before result after lowered => ((fail_eq_ok _ before result after).mp lowered).elim

theorem lowerNodes {nodes : List Node} (member : node ∈ nodes)
    (places : Places routine outermost inner (lowerNode node routine)) :
    Places routine outermost inner (lowerNodes nodes routine) := by
  induction nodes with
  | nil => cases member
  | cons first others rest =>
    rw [Lowering.lowerNodes]
    rcases List.mem_cons.mp member with rfl | member
    · exact places.discarding.before (discarding_extending _ _).adding fun _ =>
        (lowerNodes_extending _ _).adding
    · exact .behind (.discarding ..) fun _ => rest member

/-! ### Operands -/

section Operands

variable {left right : Node} {name : Bytes}

theorem lowerIndex
    (places : Places routine outermost inner (Lowering.operand left (lowerNode left routine))) :
    Places routine outermost inner
      (lowerIndex (Lowering.operand left (lowerNode left routine))) :=
  .within (places.before (operand_straight left routine).adding fun _ =>
    (Straight.bind .expectCategory fun _ => .build resize_straight).adding)

theorem lowerCondition
    (places : Places routine outermost inner (Lowering.operand left (lowerNode left routine))) :
    Places routine outermost inner
      (lowerCondition (Lowering.operand left (lowerNode left routine))) :=
  places.within.before (operand_straight left routine).within.adding fun _ =>
    (Straight.bind .expectCategory fun _ => .pure).adding

/-- Both operands of an operator are lowered, and its code stands behind them. -/
theorem lowerPair {next : Operand × Operand → Lower Result} (member : node ∈ [left, right])
    (places : Places routine outermost inner (Lowering.operand node (lowerNode node routine)))
    (straight : ∀ pair, Straight (next pair)) :
    Places routine outermost inner
      (lowerPair (Lowering.operand left (lowerNode left routine))
        (Lowering.operand right (lowerNode right routine)) >>= next) := by
  have first := operand_straight left routine
  have second := operand_straight right routine
  refine .before ?_ (Straight.lowerPair first second).adding fun pair => (straight pair).adding
  rcases List.mem_pair.mp member with rfl | rfl
  · exact places.within.before first.within.adding fun _ =>
      (Straight.bind second.within fun _ => .pure).adding
  · exact .behind (.within (.operand ..)) fun _ =>
      places.within.before second.within.adding fun _ => Straight.pure.adding

theorem lowerLogical {operator : Bytes} (member : node ∈ if Operator.isNot operator then [right]
      else [left, right])
    (places : Places routine outermost inner (Lowering.operand node (lowerNode node routine))) :
    Places routine outermost inner
      (lowerLogical operator (Lowering.operand left (lowerNode left routine))
        (Lowering.operand right (lowerNode right routine))) := by
  unfold Lowering.lowerLogical
  split at member
  · obtain rfl := List.mem_singleton.mp member
    rw [if_pos ‹_›]
    exact places.before (operand_straight node routine).adding fun _ =>
      (by grind [negate] : Straight _).adding
  · rw [if_neg ‹_›]
    exact .lowerPair member places fun pair => by grind

theorem lowerAssignment
    (places : Places routine outermost inner (Lowering.operand right (lowerNode right routine))) :
    Places routine outermost inner
      (lowerAssignment routine name (Lowering.operand right (lowerNode right routine))) :=
  .behind (.scalarStorage ..) fun _ => places.before (operand_straight right routine).adding
    fun _ => (Straight.bind .fit fun _ => .build .emit).adding

/-- An index stands before the address of its element, and the rest behind it. -/
theorem element {next : Symbol × Operand → Lower Result}
    (places : Places routine outermost inner (Lowering.operand left (lowerNode left routine)) ∨
      ∀ found, Places routine outermost inner (next found))
    (adds : ∀ found, Adding (next found)) :
    Places routine outermost inner (do
      let place ← Lowering.lowerIndex (Lowering.operand left (lowerNode left routine))
      let found ← routine.storage name (some place)
      next found) := by
  have straight := (operand_straight left routine).lowerIndex
  rw [← bind_assoc]
  rcases places with places | places
  · exact .before (places.lowerIndex.before straight.adding fun _ => Straight.storage.adding)
      (Straight.bind straight fun _ => .storage).adding adds
  · exact .behind (.element left name) places

end Operands

section Lists

variable {nodes : List Node} (member : node ∈ nodes)
  (places : Places routine outermost inner (Lowering.operand node (lowerNode node routine)))

include member places

theorem lowerArguments (name : Bytes) (position : Nat) (kinds : List Kind) :
    Places routine outermost inner (lowerArguments name position nodes kinds routine) := by
  induction nodes generalizing position with
  | nil => cases member
  | cons first others rest =>
    have straight (position : Nat) :
        Straight (Lowering.lowerArguments name position others kinds routine) :=
      .lowerArguments fun other _ => operand_straight other routine
    rw [Lowering.lowerArguments]
    rcases List.mem_cons.mp member with rfl | member
    · exact places.within.before (operand_straight node routine).within.adding fun _ =>
        (Straight.bind .expectType fun _ => .bind (straight _) fun _ => .pure).adding
    · refine .behind (.within (.operand ..)) fun value => .behind
        ⟨Straight.expectType.adding, _, _, .expectType ..⟩ fun _ => ?_
      exact (rest member _).before (straight _).adding fun _ => Straight.pure.adding

theorem lowerPrintedList (position : Nat) :
    Places routine outermost inner (lowerPrintedList position nodes routine) := by
  induction nodes generalizing position with
  | nil => cases member
  | cons first others rest =>
    have straight (position : Nat) :
        Straight (Lowering.lowerPrintedList position others routine) :=
      .lowerPrintedList fun other _ => operand_straight other routine
    have printed (value : Operand) : Straight (lowerPrinted position value) := by
      grind [lowerPrinted]
    rw [Lowering.lowerPrintedList]
    rcases List.mem_cons.mp member with rfl | member
    · exact places.within.before (operand_straight node routine).within.adding fun value =>
        (Straight.bind (printed value) fun _ => .bind (straight _) fun _ => .pure).adding
    · refine .behind (.within (.operand ..)) fun value => .behind
        ⟨(printed value).adding, _, _, .lowerPrinted ..⟩ fun _ => ?_
      exact (rest member _).before (straight _).adding fun _ => Straight.pure.adding

end Lists

/-! ### Statements -/

section Control

variable {test : Node} {consequent alternative body : Lower Unit} {names : IR.Stems}

theorem branching
    (places : Places routine outermost inner (Lowering.operand test (lowerNode test routine)) ∨
      Places routine outermost inner consequent ∨ Places routine outermost inner alternative)
    (firstProceeds : Proceeds routine outermost consequent) (secondAdds : Adding alternative) :
    Places routine outermost inner
      (branching (Lowering.operand test (lowerNode test routine)) consequent alternative) := by
  intro before result after lowered id site holds coherent ledger kept
  obtain ⟨value, tested, tests, rest⟩ := branching_cases id lowered
  obtain ⟨atTest, written⟩ := (operand_straight test routine).lowerCondition tests holds
  obtain ⟨thenDone, runs, rest⟩ := rest atTest written.holds
  obtain ⟨_, firstExtends⟩ := firstProceeds.adding
  obtain ⟨atThen, first⟩ := firstExtends runs (written.holds.place _)
  have size := Nat.le_trans Site.fork_size first.confined.grows.size_le
  obtain ⟨elseDone, runsToo, rest⟩ := rest atThen first.holds size
  obtain ⟨_, secondExtends⟩ := secondAdds
  obtain ⟨atElse, second⟩ := secondExtends runsToo (first.holds.place _)
  have grows := (Site.go_grows _ _ _).trans second.confined.grows
  obtain rfl := rest atElse second.holds (Nat.le_trans size grows.size_le)
  -- What is written from each part on.
  have left := (second.holds.extends_place (Site.go_grows atElse
    (.leave (atTest.function.blocks.size + 2)) (atTest.function.blocks.size + 2))).unit
  have behind := (first.holds.extends_place (Site.go_grows _ _ _)).unit.trans
    (second.builder.unit.trans left)
  have forks := (Site.Confined.fork atTest branchStems
      (.branchIf value atTest.function.blocks.size (atTest.function.blocks.size + 1))).grows
  have forked := (written.coherent coherent).place written.holds forks
  obtain ⟨_, testedKept, _⟩ := kept.carried
    (.lowerCondition (.operand (lowerNode_records test routine outermost))) tests
  obtain ⟨_, forkedKept⟩ := testedKept.fork written.holds branchStems
    (.branchIf value atTest.function.blocks.size (atTest.function.blocks.size + 1)) trivial
  rcases places with places | places | places
  · exact Moment.mono (places.lowerCondition tests holds coherent kept)
      ((written.holds.extends_place forks).unit.trans (first.builder.unit.trans behind))
  · exact Moment.mono (places runs (written.holds.place _) forked forkedKept) behind
  · obtain ⟨_, thenKept⟩ := firstProceeds.kept forkedKept runs
    obtain ⟨_, gone⟩ := thenKept.go first.holds
      (.leave (atTest.function.blocks.size + 2)) trivial
      (show atTest.function.blocks.size + 1 < _ by omega)
    exact Moment.mono (places runsToo (first.holds.place _)
      ((first.coherent forked).place first.holds (Site.go_grows _ _ _)) gone) left

theorem looping
    (places : Places routine outermost inner (Lowering.operand test (lowerNode test routine)) ∨
      Places routine outermost inner body) (bodyAdds : Adding body) :
    Places routine outermost inner
      (looping names (Lowering.operand test (lowerNode test routine)) body) := by
  intro before result after lowered id site holds coherent ledger kept
  obtain ⟨value, tested, tests, rest⟩ := looping_cases lowered holds
  obtain ⟨atTest, written⟩ :=
    (operand_straight test routine).lowerCondition tests (holds.place _)
  have size := Nat.le_trans Site.fork_size written.straight.confined.grows.size_le
  obtain ⟨done, runs, rest⟩ := rest atTest written.holds size
  obtain ⟨_, bodyExtends⟩ := bodyAdds
  obtain ⟨atBody, extended⟩ := bodyExtends runs (written.holds.place _)
  have grows := (Site.go_grows _ _ _).trans extended.confined.grows
  obtain rfl := rest atBody extended.holds (Nat.le_trans size grows.size_le)
  have left := (extended.holds.extends_place (Site.go_grows atBody
    (.leave site.function.blocks.size) (site.function.blocks.size + 2))).unit
  have started := coherent.place holds (Site.Confined.fork site names
    (.branch site.function.blocks.size)).grows
  obtain ⟨_, forkedKept⟩ := kept.fork holds names
    (.branch site.function.blocks.size) trivial
  rcases places with places | places
  · exact Moment.mono (places.lowerCondition tests (holds.place _) started forkedKept)
      ((written.holds.extends_place (Site.go_grows _ _ _)).unit.trans
        (extended.builder.unit.trans left))
  · obtain ⟨_, testedKept, _⟩ := forkedKept.carried
      (.lowerCondition (.operand (lowerNode_records test routine outermost))) tests
    obtain ⟨_, gone⟩ := testedKept.go written.holds (.finish (.branchIf value
      (site.function.blocks.size + 1) (site.function.blocks.size + 2))) trivial
      (show site.function.blocks.size + 1 < _ by omega)
    exact Moment.mono (places runs (written.holds.place _)
      ((written.coherent started).place written.holds (Site.go_grows _ _ _)) gone) left

theorem loopingUntil
    (places : Places routine outermost inner body ∨
      Places routine outermost inner (Lowering.operand test (lowerNode test routine)))
    (bodyProceeds : Proceeds routine outermost body) :
    Places routine outermost inner
      (loopingUntil names body (Lowering.operand test (lowerNode test routine))) := by
  intro before result after lowered id site holds coherent ledger kept
  obtain ⟨done, runs, rest⟩ := loopingUntil_cases lowered holds
  obtain ⟨_, bodyExtends⟩ := bodyProceeds.adding
  obtain ⟨atBody, extended⟩ := bodyExtends runs (holds.place _)
  have size := Nat.le_trans Site.fork_size extended.confined.grows.size_le
  obtain ⟨value, tested, tests, rest⟩ := rest atBody extended.holds size
  obtain ⟨atTest, written⟩ :=
    (operand_straight test routine).lowerCondition tests (extended.holds.place _)
  have grows := (Site.go_grows _ _ _).trans written.straight.confined.grows
  obtain rfl := rest atTest written.holds (Nat.le_trans size grows.size_le)
  have left := (written.holds.extends_place (Site.go_grows atTest (.finish (.branchIf value
    (site.function.blocks.size + 2) site.function.blocks.size))
    (site.function.blocks.size + 2))).unit
  have started := coherent.place holds (Site.Confined.fork site names
    (.branch site.function.blocks.size)).grows
  obtain ⟨_, forkedKept⟩ := kept.fork holds names
    (.branch site.function.blocks.size) trivial
  rcases places with places | places
  · exact Moment.mono (places runs (holds.place _) started forkedKept)
      ((extended.holds.extends_place (Site.go_grows _ _ _)).unit.trans
        (written.builder.unit.trans left))
  · obtain ⟨_, bodyKept⟩ := bodyProceeds.kept forkedKept runs
    obtain ⟨_, gone⟩ := bodyKept.go extended.holds
      (.leave (site.function.blocks.size + 1)) trivial
      (show site.function.blocks.size + 1 < _ by omega)
    exact Moment.mono (places.lowerCondition tests (extended.holds.place _)
      ((extended.coherent started).place extended.holds (Site.go_grows _ _ _)) gone) left

theorem lowerRoutine {name : Bytes} {params : List Param} {result : Bytes}
    {body : Routine → Lower Unit} (places : ∀ routine, Places routine false inner (body routine))
    (bodyAdds : ∀ routine, Adding (body routine)) :
    Places routine outermost inner (lowerRoutine name params result body) := by
  intro before value after lowered id site holds coherent ledger kept
  obtain ⟨kinds, kind, scope, outer, declared, bodied, finished, _, resolved, _, scopes, _, steps,
    rfl⟩ := lowerRoutine_cases lowered
  obtain ⟨_, bodyExtends⟩ := bodyAdds ⟨before.builder.unit.functions.size, kind, false⟩
  obtain ⟨atParams, atBody, written⟩ := steps.toBodySteps.written bodyExtends
  have isFinished := finishRoutine_place steps.finish written.body.holds
  have started := written.params.coherent (routineStart_coherent coherent)
  obtain ⟨_, declaredKept, _⟩ := (kept.enters scopes name params kinds kind).scope.carried
    (.declareParams resolved 0) steps.params
  refine Moment.mono (places _ steps.body written.params.holds started declaredKept) ?_
  rw [isFinished]
  exact (written.body.holds.extends_place (Site.Confined.endWith ..).grows).unit

end Control

end Places

/-- The body of a counting loop ends with the step. -/
theorem forBody_adding (body : List Node) (step : Node) (routine : Routine) : Adding (do
    within .body (lowerNodes body routine)
    within .step (discarding step (lowerNode step routine))) :=
  ((lowerNodes_extending body routine).within.bind fun _ =>
    (discarding_extending step routine).within).adding

/-- Lowering a node lowers all operands whose values it asks for. -/
theorem lowerNode_placesOperand {child : Node} (member : child ∈ node.evaluated)
    (places : ∀ outermost,
      Places routine outermost inner (operand child (lowerNode child routine))) :
    Places routine outermost inner (lowerNode node routine) := by
  have here := places outermost
  cases node with
  | assignment position name value =>
    obtain rfl := List.mem_singleton.mp member
    rw [lowerNode]
    exact .statement here.lowerAssignment
  | arrayAssignment position name index value =>
    rw [lowerNode]
    refine .statement (.ite (fun missing => ?_) fun present => ?_)
    · rw [Node.evaluated, if_pos missing] at member
      obtain rfl := List.mem_singleton.mp member
      exact here.lowerAssignment
    · rw [Node.evaluated, if_neg present] at member
      have straight := operand_straight value routine
      have stores (type : Ty) (address given : Operand) : Straight (do
          let fitted ← fit name type given
          build (IR.Build.store address fitted)) :=
        .bind .fit fun _ => .build .emit
      refine .element ?_ fun found => (straight.bind fun _ => stores ..).adding
      rcases List.mem_pair.mp member with rfl | rfl
      · exact .inl here
      · exact .inr fun found => here.before straight.adding fun _ => (stores ..).adding
  | arrayAccess position name index =>
    obtain rfl := List.mem_singleton.mp member
    rw [lowerNode]
    exact .map (.element (.inl here) fun found => (Straight.build .load).adding)
  | binary position operator left right =>
    rw [lowerNode]
    refine .ite (fun missing => ?_) fun present => ?_
    · rw [Node.evaluated, if_pos missing] at member
      cases member
    · rw [Node.evaluated, if_neg present] at member
      exact .map (.lowerPair member here (by grind))
  | comparison position operator left right =>
    rw [lowerNode]
    exact .map (.lowerPair member here (by grind))
  | logical position operator left right =>
    rw [lowerNode]
    exact .map (.lowerLogical member here)
  | unary position operator operand =>
    obtain rfl := List.mem_singleton.mp member
    rw [lowerNode]
    exact .map (here.before (operand_straight child routine).adding fun _ =>
      (by grind [negate] : Straight _).adding)
  | conditional position condition consequent alternative =>
    obtain rfl := List.mem_singleton.mp member
    rw [lowerNode, lowerConditional_eq]
    exact .statement (.branching (.inl here) (.within (.inScope (.lowerNodes ..)))
      (lowerNodes_extending alternative routine).inScope.within.adding)
  | forLoop position start condition step body =>
    obtain rfl := List.mem_singleton.mp member
    rw [lowerNode, lowerFor_eq]
    exact .statement (.inScope (.behind (.within (.discarding ..)) fun _ => .looping
      (.inl (places false)) (forBody_adding body step routine)))
  | whileLoop position condition body =>
    obtain rfl := List.mem_singleton.mp member
    rw [lowerNode, lowerWhile_eq]
    exact .statement (.looping (.inl here)
      (lowerNodes_extending body routine).inScope.within.adding)
  | repeatLoop position body condition =>
    obtain rfl := List.mem_singleton.mp member
    rw [lowerNode, lowerRepeat_eq]
    exact .statement (.inScope (.loopingUntil (.inr (places false)) (.within (.lowerNodes ..))))
  | call position name args =>
    rw [lowerNode]
    refine .behind ⟨Straight.callable.adding, _, _, .callable ..⟩ fun found => ?_
    exact .before (.lowerArguments member here ..) (Straight.lowerArguments fun arg _ =>
      operand_straight arg routine).adding fun _ => (Straight.build .call).adding
  | «return» position value =>
    by_cases missing : value.isMissing
    · rw [Node.evaluated, if_pos missing] at member
      cases member
    · rw [Node.evaluated, if_neg missing] at member
      obtain rfl := List.mem_singleton.mp member
      rw [lowerNode, if_neg missing]
      refine .statement (.ite (fun _ => .failWith) fun _ => ?_)
      exact here.within.before (operand_straight child routine).within.adding fun _ =>
        (Straight.expectType.extending.bind fun _ => Extending.ret).adding
  | output position args =>
    rw [lowerNode]
    exact .statement (.before (.lowerPrintedList member here 0)
      (Straight.lowerPrintedList fun arg _ => operand_straight arg routine).adding fun _ =>
        Straight.callFormatted.adding)
  | input position target =>
    cases target with
    | arrayAccess _ name index =>
      obtain rfl := List.mem_singleton.mp member
      rw [lowerNode]
      exact .statement (.element (.inl here) fun _ => Straight.lowerInput.adding)
    | _ => cases member
  | _ => cases member

/-- Lowering a node lowers all that stands in it. -/
theorem lowerNode_places (stands : inner.Stands node) (routine : Routine) (outermost : Bool) :
    Places routine outermost inner (lowerNode node routine) := by
  induction stands generalizing routine outermost with
  | self =>
    intro before result after lowered id site holds coherent ledger kept
    exact ⟨⟨⟨routine, before, result, after, holds.placed, coherent, lowered, .refl _⟩, ledger,
      outermost, kept⟩⟩
  | @statement child node member _ places =>
    have list {nodes : List Node} (member : child ∈ nodes) (routine : Routine) (outermost : Bool) :
        Places routine outermost inner (lowerNodes nodes routine) :=
      .lowerNodes member (places routine outermost)
    cases node with
    | conditional position condition consequent alternative =>
      rw [lowerNode, lowerConditional_eq]
      exact .statement (.branching (.inr ((List.mem_append.mp member).imp
        (fun member => .within (.inScope (list member routine false)))
        fun member => .within (.inScope (list member routine false))))
        (.within (.inScope (.lowerNodes ..)))
        (lowerNodes_extending alternative routine).inScope.within.adding)
    | forLoop position start condition step body =>
      rw [lowerNode, lowerFor_eq]
      exact .statement (.inScope (.behind (.within (.discarding ..)) fun _ => .looping
        (.inr (.before (.within (list member routine false))
          (lowerNodes_extending body routine).within.adding fun _ =>
            (discarding_extending step routine).within.adding))
        (forBody_adding body step routine)))
    | whileLoop position condition body =>
      rw [lowerNode, lowerWhile_eq]
      exact .statement (.looping (.inr (.within (.inScope (list member routine false))))
        (lowerNodes_extending body routine).inScope.within.adding)
    | repeatLoop position body condition =>
      rw [lowerNode, lowerRepeat_eq]
      exact .statement (.inScope (.loopingUntil (.inl (.within (list member routine false)))
        (.within (.lowerNodes ..))))
    | procedure position name params body =>
      rw [lowerNode]
      exact .statement (.lowerRoutine (fun inside => list member inside false) fun inside =>
        (lowerNodes_extending body inside).adding)
    | function position name params result body =>
      rw [lowerNode]
      exact .statement (.lowerRoutine (fun inside => list member inside false) fun inside =>
        (lowerNodes_extending body inside).adding)
    | block position statements =>
      rw [lowerNode]
      exact .statement (list member routine outermost)
    | _ => cases member
  | @outrider child node member _ places =>
    cases node with
    | forLoop position start condition step body =>
      rw [lowerNode, lowerFor_eq]
      refine .statement (.inScope ?_)
      obtain ⟨_, bodyExtends⟩ := forBody_adding body step routine
      rcases List.mem_pair.mp member with rfl | rfl
      · exact .before (places routine false).discarding.within
          (discarding_extending _ _).within.adding fun _ =>
            (Extending.looping (operand_straight condition routine) bodyExtends).adding
      · exact .behind (.within (.discarding ..)) fun _ => .looping (.inr (.behind
          (.within (.lowerNodes ..)) fun _ => (places routine false).discarding.within))
          bodyExtends.adding
    | _ => cases member
  | operand member _ places =>
    exact lowerNode_placesOperand member fun outermost => (places routine outermost).operand

/-- Every node of a compiled program has its place in the module. -/
theorem compile_places {name : Bytes} {program : Program}
    (compiled : compile name program = .ok unit) (member : node ∈ program)
    (stands : inner.Stands node) : Nonempty (Moment unit inner) := by
  obtain ⟨_, workspace, lowered, rfl⟩ := compile_eq_ok.mp compiled
  obtain ⟨finished, steps, closed⟩ := lowerProgram_cases lowered
  obtain ⟨atEnd, extended⟩ := lowerNodes_extending _ _ steps (programStart_holds name)
  rw [closed atEnd extended.holds]
  have places := Places.lowerNodes member (lowerNode_places stands mainRoutine true)
  exact Moment.mono (places steps (programStart_holds name) (programStart_coherent name)
    (programStart_kept name))
    (extended.holds.extends_place (Site.Confined.endWith ..).grows).unit

end Places

/-! ### Statements of the main function -/

/-- Where the main function of a program stops being written: the block and the length of its
code. -/
def writtenUpTo (name : Bytes) (program : Program) : Option (IR.Cursor × Nat) :=
  match lowerNodes program mainRoutine (programStart name) with
  | .ok _ finished => do
    let cursor ← finished.builder.cursor
    let block ← finished.builder.currentBlock?
    return (cursor, block.code.size)
  | .error .. => none

theorem lowerNodes_append {front back : List Node} {routine : Routine}
    {before after : Workspace} :
    lowerNodes (front ++ back) routine before = .ok () after ↔
      ∃ middle, lowerNodes front routine before = .ok () middle ∧
        lowerNodes back routine middle = .ok () after := by
  induction front generalizing before with
  | nil => simp [lowerNodes]
  | cons node nodes rest =>
    simp only [List.cons_append, lowerNodes, bind_eq_ok, rest]
    constructor
    · rintro ⟨_, next, first, middle, second, third⟩
      exact ⟨middle, ⟨(), next, first, second⟩, third⟩
    · rintro ⟨middle, ⟨_, next, first, second⟩, third⟩
      exact ⟨(), next, first, middle, second, third⟩

/-- A statement of a program stands behind those before it. -/
theorem compile_moment {name : Bytes} {unit : IR.Module} {front back : List Node} {node : Node}
    (compiled : compile name (front ++ node :: back) = .ok unit) :
    ∃ moment : Moment unit node, moment.routine = mainRoutine ∧
      lowerNodes front mainRoutine (programStart name) = .ok () moment.before ∧
      ∀ frame : Machine.Frame, writtenUpTo name (front ++ [node]) =
        some (⟨frame.function, frame.block⟩, frame.index + 1) → moment.EndsAt frame := by
  obtain ⟨_, workspace, lowered, rfl⟩ := compile_eq_ok.mp compiled
  obtain ⟨finished, steps, closed⟩ := lowerProgram_cases lowered
  obtain ⟨before, frontLowered, steps⟩ := lowerNodes_append.mp steps
  simp only [lowerNodes, bind_eq_ok, discarding_eq_ok] at steps
  obtain ⟨_, after, ⟨result, nodeLowered⟩, backLowered⟩ := steps
  obtain ⟨site, frontExtended⟩ :=
    lowerNodes_extending front mainRoutine frontLowered (programStart_holds name)
  obtain ⟨later, extended⟩ := lowerNode_extending node mainRoutine nodeLowered frontExtended.holds
  obtain ⟨atEnd, backExtended⟩ := lowerNodes_extending back mainRoutine backLowered extended.holds
  have grows : after.builder.unit.Grows workspace.builder.unit := by
    rw [closed atEnd backExtended.holds]
    exact (backExtended.builder.trans
      (backExtended.holds.extends_place (Site.Confined.endWith ..).grows)).unit
  have coherent := frontExtended.coherent (programStart_coherent name)
  obtain ⟨ledger, kept, _⟩ := (programStart_kept name).carried
    (lowerNodes_records front mainRoutine true) frontLowered
  refine ⟨⟨⟨mainRoutine, before, result, after, frontExtended.holds.placed, coherent, nodeLowered,
    grows⟩, ledger, true, kept⟩, rfl, frontLowered, fun frame written => ?_⟩
  have upTo : lowerNodes (front ++ [node]) mainRoutine (programStart name) = .ok () after :=
    lowerNodes_append.mpr ⟨before, frontLowered, by simp [lowerNodes, nodeLowered]⟩
  simp only [writtenUpTo, upTo, extended.holds.cursor, extended.holds.currentBlock] at written
  obtain ⟨isCursor, isIndex⟩ := Prod.mk.inj (Option.some.inj written)
  exact ⟨by rw [← isCursor]; exact extended.holds.cursor,
    by rw [← isIndex, extended.holds.currentBlock]; rfl⟩

end Lowering

end Pascaline
