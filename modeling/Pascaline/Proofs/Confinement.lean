/-
Lowering is confined. Every node, whatever it is, writes code behind the insertion point and new
functions and module members only, and control comes through that code exactly if the node can
complete. A routine that is defined inside another leaves the function around it exactly as it was.
-/

import Pascaline.Proofs.Control

namespace Pascaline

open IR (Build Operand Slot Site)

/-- A shape in which the last index is not below the first one. -/
def Shape.Ordered : Shape → Prop
  | .array first last => first ≤ last
  | _ => True

/-! ### Nodes that can complete -/

mutual

/-- Whether control can come to the end of a node. A return never lets it; a conditional does if
one of its branches does, a loop that tests last if its body does, and a loop with a start if its
start does. Every other node does. -/
def Node.completes : Node → Bool
  | .return .. => false
  | .conditional _ _ consequent alternative => completeAll consequent || completeAll alternative
  | .repeatLoop _ body _ => completeAll body
  | .forLoop _ start _ _ _ => start.completes
  | .block _ statements => completeAll statements
  | _ => true

/-- Whether control can come to the end of a list of nodes: every one of them lets it. -/
def Node.completeAll : List Node → Bool
  | [] => true
  | node :: nodes => node.completes && completeAll nodes

end

theorem Node.completes_of_isPlain {node : Node} (plain : node.isPlain = true) :
    node.completes = true := by
  cases node <;> simp_all [isPlain, completes]

namespace Lowering

variable {before after declared bodied finished : Workspace} {id : Nat}
  {site atParams atBody : Site}
  {symbol : Symbol} {routine : Routine} {name type : Bytes} {result : Unit} {first last : Int64}
  {scope : Scope} {outer : List Scope} {params : List Param} {kinds : List Kind} {kind : Kind}
  {slot : Slot} {builder : IR.Builder} {through : Bool} {body : Lower Unit}

/-! ### Declarations -/

theorem claimed_slot (routine : Routine) (symbol : Symbol) (slot : Slot) :
    (routine.claimed symbol slot).slot = some slot := by
  unfold Routine.claimed
  split <;> rfl

theorem claimed_name (routine : Routine) (symbol : Symbol) (slot : Slot) :
    (routine.claimed symbol slot).name = symbol.name := by
  unfold Routine.claimed
  split <;> rfl

/-- A variable is reserved and its first value stored. -/
theorem declared_extended {storing : Build Unit} (straight : storing.Straight)
    (scopes : before.table.scopes = scope :: outer)
    (reserved : routine.reserved outer symbol before.builder = (slot, builder))
    (holds : before.builder.Holds id site) :
    ∃ later, Extended before id site true
      { before with
        table := ⟨(routine.claimed symbol slot :: scope) :: outer⟩
        builder := (storing builder).2 } later := by
  have code : (routine.reserved outer symbol).Straight := reserve_straight
  obtain ⟨middle, early, middleHolds, isStraight⟩ := code before.builder id site holds
  rw [reserved] at early middleHolds
  obtain ⟨later, late, laterHolds, isStraightToo⟩ := straight builder id middle middleHolds
  refine ⟨later, .of_builder (early.trans late) rfl, laterHolds,
    .straight_none (isStraight.trans isStraightToo), fun allocated =>
      ⟨Table.Allocated.cons ?_ fun _ => by rw [claimed_slot]; rfl, .cons _ scopes⟩⟩
  rw [← scopes]
  exact allocated

theorem Extending.declareVariable {shape : Shape} {declaration : Kind → Table → Except Fault Table}
    (declares : ∀ kind table later, declaration kind table = .ok later →
      table.declare { name, shape, kind } = .ok later) (isVariable : shape.role ≠ .routine) :
    Extending true (routine.declareVariable name type declaration) := by
  intro before result after lowered id site holds
  obtain ⟨kind, scope, outer, slot, builder, _, _, scopes, _, _, reserved, rfl⟩ :=
    declareVariable_cases declares isVariable lowered
  exact declared_extended clearing_straight scopes reserved holds

theorem declares_array (kind : Kind) (table later : Table)
    (declared : table.declareArray name kind first last = .ok later) :
    table.declare { name, shape := .array first last, kind } = .ok later := by
  unfold Table.declareArray at declared
  split at declared
  · cases declared
  · exact declared

theorem ordered_of_declareArray (kind : Kind) (table : Table)
    (isOk : (table.declareArray name kind first last).isOk) : (Shape.array first last).Ordered := by
  unfold Table.declareArray at isOk
  split at isOk
  · cases isOk
  · rename_i ordered
    exact Int64.not_lt.mp ordered

theorem Extending.declareParams {position : Nat} :
    Extending true (routine.declareParams position params kinds) := by
  induction params generalizing position kinds with
  | nil => exact Straight.pure.extending
  | cons param params rest =>
    cases kinds with
    | nil => exact Straight.pure.extending
    | cons kind kinds =>
      intro before result after lowered id site holds
      obtain ⟨scope, outer, slot, builder, scopes, _, reserved, lowered⟩ :=
        declareParams_cases lowered
      have storing :
          (Build.store (.slot slot) (.slot (Build.argument position builder).1)).Straight :=
        .emit
      obtain ⟨middle, declared⟩ := declared_extended storing scopes reserved holds
      obtain ⟨later, extended⟩ := rest lowered declared.holds
      exact ⟨later, declared.trans extended⟩

/-! ### Routines -/

/-- The terminator at the end of a routine whose last block is open. -/
def Routine.ending (routine : Routine) : IR.Terminator :=
  if routine.result = .none then .ret none else .unreachable

theorem finishRoutine_place (lowered : finishRoutine routine name before = .ok result after)
    (holds : before.builder.Holds id site) :
    after = before.place id (site.endWith routine.ending) := by
  have ended := holds.terminated
  have finishes (going : before.builder.terminated = false) (terminator : IR.Terminator) :
      { before with builder := (Build.finish terminator before.builder).2 } =
        before.place id (site.endWith terminator) := by
    rw [Build.finish_eq holds, Site.endWith_of_open (ended.symm.trans going),
      ← Site.finish_of_open (ended.symm.trans going)]
    rfl
  rcases finishRoutine_cases lowered with ⟨closed, rfl⟩ | ⟨going, procedure, rfl⟩ |
    ⟨going, function, _, rfl⟩
  · rw [Site.endWith_of_terminated (ended.symm.trans closed), Workspace.place, holds.place_self]
  · rw [Routine.ending, if_pos procedure]
    exact finishes going _
  · rw [Routine.ending, if_neg function]
    exact finishes going _

/-- The site where the function of a routine starts. -/
def routineEntry (name : Bytes) (params : List Param) (kinds : List Kind) (result : Kind)
    (builder : IR.Builder) : Site :=
  .entry (IR.freshName builder.unit.names name)
    { params := kinds.map Kind.native, result := result.native } (params.map Param.name)

/-- How the parameters and the body of a routine are written, from the start of its function
on. -/
structure BodyWritten (routine : Routine) (start : Workspace) (entry : Site)
    (declared : Workspace) (atParams : Site) (through : Bool) (bodied : Workspace)
    (atBody : Site) : Prop where
  holds : start.builder.Holds routine.function entry
  params : Extended start routine.function entry true declared atParams
  body : Extended declared routine.function atParams through bodied atBody

theorem BodyWritten.whole {start : Workspace} {entry : Site}
    (written : BodyWritten routine start entry declared atParams through bodied atBody) :
    Extended start routine.function entry through bodied atBody := by
  rw [← Bool.true_and through]
  exact written.params.trans written.body

theorem BodySteps.written
    (steps : BodySteps params kinds ⟨before.builder.unit.functions.size, kind, false⟩ body
      (routineStart name params kinds kind scope outer before) declared bodied)
    (extending : Extending through body) :
    ∃ atParams atBody, BodyWritten ⟨before.builder.unit.functions.size, kind, false⟩
      (routineStart name params kinds kind scope outer before)
      (routineEntry name params kinds kind before.builder) declared atParams through bodied
      atBody := by
  have start : (routineStart name params kinds kind scope outer before).builder.Holds
      before.builder.unit.functions.size (routineEntry name params kinds kind before.builder) :=
    Build.defineFunction_holds before.builder _ _ _
  obtain ⟨atParams, declares⟩ := Extending.declareParams steps.params start
  obtain ⟨atBody, extended⟩ := extending steps.body declares.holds
  exact ⟨atParams, atBody, start, declares, extended⟩

/-- A routine starts with a new function, and nothing else has changed. -/
theorem routineStart_coherent (coherent : before.Coherent) :
    (routineStart name params kinds kind scope outer before).Coherent :=
  coherent.mono (.ofKept (.refl _) (.refl _) (.push _ _)) rfl

/-- A routine leaves all other functions as they were. -/
theorem RoutineSteps.kept
    (steps : RoutineSteps name params kinds ⟨before.builder.unit.functions.size, kind, false⟩ body
      (routineStart name params kinds kind scope outer before) declared bodied finished)
    (extending : Extending through body) :
    (routineStart name params kinds kind scope outer before).Extends finished ∧
      IR.Kept before.builder.unit.functions finished.builder.unit.functions := by
  obtain ⟨atParams, atBody, written⟩ := steps.toBodySteps.written extending
  have inner : (routineStart name params kinds kind scope outer before).Extends finished := by
    rw [finishRoutine_place steps.finish written.body.holds]
    exact written.whole.toExtends.trans
      (Workspace.extends_place written.body.holds (Site.Confined.endWith atBody _).grows)
  refine ⟨inner, fun place function found => ?_⟩
  refine inner.builder.others place function (IR.Kept.push _ _ place function found) fun same => ?_
  have inside := (Array.getElem?_eq_some_iff.mp found).1
  exact Nat.ne_of_gt inside (Option.some.inj same)

theorem Extending.lowerRoutine {result : Bytes} {body : Routine → Lower Unit}
    (extending : ∀ routine, Extending through (body routine)) :
    Extending true (lowerRoutine name params result body) := by
  intro before value after lowered id site holds
  obtain ⟨kinds, kind, scope, outer, declared, bodied, finished, _, _, _, scopes, _, steps, rfl⟩ :=
    lowerRoutine_cases lowered
  obtain ⟨inner, kept⟩ := steps.kept (extending _)
  refine ⟨site, ⟨⟨.ofKept inner.builder.unit.data inner.builder.unit.globals kept, rfl,
    fun place function found _ => kept place function found⟩,
    fun coherent => (inner.coherent (routineStart_coherent coherent)).mono (.refl _) rfl⟩,
    ⟨holds.cursor, kept _ _ holds.function⟩, .refl, fun allocated => ?_⟩
  have defined : Table.Allocated ⟨(routineSymbol name kinds kind
      before.builder.unit.functions.size :: scope) :: outer⟩ := by
    refine Table.Allocated.cons ?_ fun isVariable => by cases isVariable
    rw [← scopes]
    exact allocated
  obtain ⟨atParams, atBody, written⟩ := steps.toBodySteps.written (extending _)
  have exits := (written.whole.table defined.enter).2.exit
  rw [finishRoutine_place steps.finish written.body.holds]
  show bodied.table.exit.Allocated ∧ before.table.Widens bodied.table.exit
  rw [exits]
  exact ⟨defined, .cons _ scopes⟩

/-! ### Nodes -/

theorem Extending.lowerReturn {value : Option (Lower Operand)}
    (straight : ∀ lowered, value = some lowered → Straight lowered) :
    Extending false (lowerReturn routine value) := by
  unfold Lowering.lowerReturn
  cases value with
  | none =>
    dsimp only
    split
    · exact .ret
    · split
      · exact .ret
      · exact .failWith
  | some lowered =>
    dsimp only
    split
    · exact .failWith
    · exact .bind (straight lowered rfl).within.extending fun _ =>
        .bind Straight.expectType.extending fun _ => .ret

theorem Extending.lowerNodes {nodes : List Node}
    (extending : ∀ node ∈ nodes, Extending node.completes (lowerNode node routine)) :
    Extending (Node.completeAll nodes) (lowerNodes nodes routine) := by
  induction nodes with
  | nil =>
    rw [Lowering.lowerNodes, Node.completeAll]
    exact Straight.pure.extending
  | cons node nodes rest =>
    rw [Lowering.lowerNodes, Node.completeAll]
    exact .bind (.discarding (extending node (List.mem_cons_self ..))) fun _ =>
      rest fun node member => extending node (List.mem_cons_of_mem _ member)

/-- Lowering a node lets control through exactly if the node can complete. -/
theorem lowerNode_extending (node : Node) (routine : Routine) :
    Extending node.completes (lowerNode node routine) := by
  induction node using Node.inductionOn generalizing routine with
  | step node children =>
    have list (nodes : List Node) (members : ∀ node' ∈ nodes, node' ∈ node.children)
        (routine : Routine) : Extending (Node.completeAll nodes) (lowerNodes nodes routine) :=
      .lowerNodes fun child member => children child (members child member) routine
    have loose (child : Node) (member : child ∈ node.children) (routine : Routine) :
        Extending child.completes (discarding child (lowerNode child routine)) :=
      .discarding (children child member routine)
    by_cases plain : node.isPlain = true
    · rw [Node.completes_of_isPlain plain]
      exact (lowerNode_straight node routine plain).extending
    · cases node with
      | declaration =>
        rw [lowerNode]
        exact .statement (.declareVariable (fun _ _ _ declared => declared) (by decide))
      | arrayDeclaration =>
        rw [lowerNode]
        exact .statement (.declareVariable declares_array (by simp [Shape.role]))
      | conditional position condition consequent alternative =>
        rw [lowerNode, Node.completes]
        exact .statement (.lowerConditional (operand_straight _ _)
          (list consequent (by simp +contextual) routine)
          (list alternative (by simp +contextual) routine))
      | forLoop position start condition step body =>
        rw [lowerNode, Node.completes]
        exact .statement (.lowerFor (loose start (by simp) routine)
          (operand_straight _ _) (loose step (by simp) routine)
          (list body (by simp +contextual) routine))
      | whileLoop position condition body =>
        rw [lowerNode]
        exact .statement (.lowerWhile (operand_straight _ _)
          (list body (by simp +contextual) routine))
      | repeatLoop position body condition =>
        rw [lowerNode, Node.completes]
        exact .statement (.lowerRepeat (list body (by simp +contextual) routine)
          (operand_straight _ _))
      | procedure position name params body =>
        rw [lowerNode]
        exact .statement (.lowerRoutine fun inner => list body (by simp) inner)
      | function position name params result body =>
        rw [lowerNode]
        exact .statement (.lowerRoutine fun inner => list body (by simp) inner)
      | «return» position value =>
        rw [lowerNode]
        refine .statement (.lowerReturn fun lowered given => ?_)
        split at given
        · cases given
        · cases given
          exact operand_straight _ _
      | block position statements =>
        rw [lowerNode, Node.completes]
        exact .statement (list statements (by simp) routine)
      | _ => exact absurd rfl plain

theorem lowerNodes_extending (nodes : List Node) (routine : Routine) :
    Extending (Node.completeAll nodes) (lowerNodes nodes routine) :=
  .lowerNodes fun node _ => lowerNode_extending node routine

theorem discarding_extending (node : Node) (routine : Routine) :
    Extending node.completes (discarding node (lowerNode node routine)) :=
  .discarding (lowerNode_extending node routine)

end Lowering

end Pascaline
