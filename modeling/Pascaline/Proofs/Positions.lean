/-
Diagnostics have positions. The analysis places what it reports at once. In lowering, whoever asks
for a node gives the position of the node to a diagnostic that comes out of it, as long as the
diagnostic has no position yet and no stage has passed it on. So a step may fail with a diagnostic
without a position only if the failure is still bare; whatever a stage has passed on must have been
placed before.

All steps keep to this but one: an index of the wrong category is told by the stage around it, which
is added at once. Two more stages would break the rule, around the types of parameters and results
and around new variables, but what has been analyzed does not fail there.
-/

import Pascaline.Proofs.Agreement
import Pascaline.Proofs.MissingReturn
import Pascaline.Proofs.Reporting

namespace Pascaline

theorem Node.Inside.eq_of_leaf {inner leaf : Node} (inside : inner.Inside leaf)
    (noOperands : leaf.operands = []) (noStatements : leaf.statements = []) : inner = leaf := by
  cases inside with
  | self => rfl
  | operand member => exact absurd (noOperands ▸ member) List.not_mem_nil
  | statement member => exact absurd (noStatements ▸ member) List.not_mem_nil

namespace Lowering

open IR (Build Operand Slot)

/-! ### Failures and their diagnostics -/

/-- The diagnostic is about the category of an index, and was first passed on as such. -/
def IsIndexMismatch (failure : LoweringFailure) (diagnostic : Diagnostic) : Prop :=
  failure.trail.getLast? = some .index ∧
    ∃ found, diagnostic = .mismatch "index" Category.integral.text found

/-- The manner of failing with diagnostics at allowed positions. What is told without a position is
placed later, but for what is told of an index. -/
def placing (allowed : Int → Prop) : Manner where
  tells diagnostic := diagnostic.position = 0
  accepts trail diagnostic :=
    allowed diagnostic.position ∨ IsIndexMismatch ⟨trail, .unexplained⟩ diagnostic
  isPlace := allowed
  told unplaced _ := unplaced
  passed {trail diagnostic} stage accepted := by
    refine accepted.imp_right fun ⟨last, same⟩ => ⟨?_, same⟩
    show (stage :: trail).getLast? = _
    rw [List.getLast?_cons, show trail.getLast? = some .index from last]
    rfl
  placed {position diagnostic} here accepted := by
    refine .inl ?_
    unfold Diagnostic.locatedIfUnplaced
    split
    · exact here
    · rcases accepted with unplaced | isAllowed | ⟨last, _⟩
      · exact absurd unplaced ‹_›
      · exact isAllowed
      · cases last
  index found := .inr ⟨rfl, found, rfl⟩

/-! ### New parameters -/

/-- Parameters with different names can be declared and stored. -/
theorem declareParams_ok (routine : Routine) (position : Nat) {params : List Param}
    {kinds : List Kind} (length : params.length = kinds.length)
    (distinct : (params.map Param.name).Nodup) {scope : Scope}
    (fresh : ∀ param ∈ params, scope.find? param.name = none) (outer : List Scope)
    (before : Workspace) :
    ∃ result after, routine.declareParams position params kinds
      { before with table := ⟨scope :: outer⟩ } = .ok result after := by
  induction params generalizing position kinds scope before with
  | nil => exact ⟨(), _, rfl⟩
  | cons param params rest =>
    cases kinds with
    | nil => cases length
    | cons kind kinds =>
      obtain ⟨different, distinct⟩ := List.nodup_cons.mp distinct
      have free := fresh param (List.mem_cons_self ..)
      let symbol : Symbol := { name := param.name, shape := .scalar, kind }
      have declared : Table.declareScalar ⟨scope :: outer⟩ param.name kind =
          .ok ⟨(symbol :: scope) :: outer⟩ :=
        Table.declare_eq_ok.mpr ⟨scope, outer, rfl, free, rfl⟩
      generalize reservation : routine.reserved outer symbol before.builder = made
      obtain ⟨slot, builder⟩ := made
      have claimed :
          routine.claim symbol.name { before with table := ⟨(symbol :: scope) :: outer⟩ } =
          .ok slot { before with
            table := ⟨(routine.claimed symbol slot :: scope) :: outer⟩
            builder } := by
        refine (claim_eq_ok rfl rfl free slot _).mpr ?_
        rw [reservation]
        exact ⟨rfl, rfl⟩
      have freshToo : ∀ other ∈ params,
          Scope.find? (routine.claimed symbol slot :: scope) other.name = none := by
        intro other member
        have unlike : param.name ≠ other.name := fun same =>
          different (same ▸ List.mem_map_of_mem member)
        rw [Scope.find?, List.find?_cons_of_neg (by simpa [claimed_name] using unlike)]
        exact fresh other (List.mem_cons_of_mem _ member)
      obtain ⟨result, after, ran⟩ := rest (position + 1) (Nat.succ.inj length) distinct freshToo
        { before with builder :=
            (Build.store (.slot slot) (.slot (Build.argument position builder).1) builder).2 }
      refine ⟨result, after, ?_⟩
      simp only [Routine.declareParams, bind_eq_ok, within_eq_ok, Lowering.declare_eq_ok,
        build_eq_ok]
      exact ⟨_, _, ⟨(), _, ⟨_, declared, rfl⟩, claimed⟩, (), _, ⟨trivial, rfl⟩, ran⟩

/-! ### Steps and their failures -/

section Steps

variable {Result Next : Type} {allowed : Int → Prop} {accepted : LoweringFailure → Prop}

/-- A step fails only in ways that are accepted, whatever the names in scope are. -/
abbrev FailsAs (accepted : LoweringFailure → Prop) (step : Lower Result) : Prop :=
  Leads accepted Always Always step

theorem Knows.always (name : Bytes) : Knows (placing allowed) Always name :=
  ⟨fun _ _ _ _ _ _ => trivial, fun _ _ _ => rfl⟩

namespace Leads

/-- What would come behind a failure does not matter. -/
theorem tellBind {diagnostic : Diagnostic} (unplaced : diagnostic.position = 0)
    (next : Result → Lower Next) :
    FailsAs (placing allowed).Open (Lowering.failWith diagnostic >>= next) := by
  intro before _
  have told : FailsAs (placing allowed).Open (Lowering.failWith diagnostic : Lower Next) :=
    .tell unplaced
  exact told trivial

/-- A step that does not fail in a new scope, and what comes behind it there. -/
theorem freshBind {step : Lower Result} {next : Result → Lower Next}
    (ok : ∀ (outer : List Scope) (before : Workspace),
      ∃ result after, step { before with table := ⟨[] :: outer⟩ } = .ok result after)
    (rest : ∀ result, FailsAs accepted (next result)) :
    Leads accepted (fun table => ∃ outer, table = ⟨[] :: outer⟩) Always (step >>= next) := by
  rintro ⟨_, builder, externals, context⟩ ⟨outer, rfl⟩
  obtain ⟨result, middle, ran⟩ := ok outer ⟨⟨[] :: outer⟩, builder, externals, context⟩
  simp only [Bind.bind, EStateM.bind, ran]
  exact rest result trivial

/-- A step in a scope of its own. -/
theorem anyScope {step : Lower Result} (inner : FailsAs accepted step) :
    FailsAs accepted (Lowering.inScope step) :=
  .inScope inner (fun _ _ => trivial) fun _ _ => trivial

/-- What is declared may be refused, with a fault that has no position. -/
theorem mayDeclare {declaration : Table → Except Fault Table} {stop : Table → Prop}
    (unplaced : ∀ table fault, declaration table = .error fault → Analysis.Stands (· = 0) fault)
    (made : ∀ table later, declaration table = .ok later → stop later) :
    Leads (placing allowed).Open Always stop (Lowering.declare declaration) := by
  intro before _
  cases declared : declaration before.table with
  | ok later =>
    rw [(declare_eq_ok declaration before () _).mpr ⟨later, declared, rfl⟩]
    exact .ok (made before.table later declared)
  | error fault =>
    rw [declare_of_error declared]
    exact .error (.inr ⟨fault, rfl, unplaced before.table fault declared⟩)

theorem mayUpdate (name : Bytes) (change : Symbol → Symbol) :
    FailsAs accepted (Lowering.updateSymbol name change) :=
  fun _ _ => .ok trivial

theorem mayResolve (type : Bytes) : FailsAs (placing allowed).Open (resolve type) := by
  unfold Lowering.resolve
  cases Kind.ofName? type with
  | some kind => exact .pure _
  | none => exact .tell rfl

/-- A new name can be given its storage. -/
theorem mayDeclareVariable (routine : Routine) {name type : Bytes} {shape : Shape}
    {declaration : Kind → Table → Except Fault Table}
    (declares : ∀ kind table later, declaration kind table = .ok later →
      table.declare { name, shape, kind } = .ok later)
    (unplaced : ∀ kind table fault, declaration kind table = .error fault →
      Analysis.Stands (· = 0) fault)
    (isVariable : shape.role ≠ .routine) :
    FailsAs (placing allowed).Open (routine.declareVariable name type declaration) := by
  let IsNew (kind : Kind) (table : Table) : Prop := ∃ scope outer,
    table = ⟨(({ name, shape, kind } : Symbol) :: scope) :: outer⟩ ∧ Scope.find? scope name = none
  have made (kind : Kind) (table later : Table) (declared : declaration kind table = .ok later) :
      IsNew kind later := by
    obtain ⟨scope, outer, _, fresh, rfl⟩ :=
      Table.declare_eq_ok.mp (declares kind table later declared)
    exact ⟨scope, outer, rfl, fresh⟩
  have claims (kind : Kind) : Leads (placing allowed).Open (IsNew kind) Always
      (Lowering.within .allocate (routine.claim name)) := by
    rintro ⟨_, builder, externals, context⟩ ⟨scope, outer, rfl, fresh⟩
    let symbol : Symbol := { name, shape, kind }
    let before : Workspace := ⟨⟨(symbol :: scope) :: outer⟩, builder, externals, context⟩
    have claimed : routine.claim symbol.name
        { before with table := ⟨(symbol :: scope) :: outer⟩ } = _ :=
      claim_eq (decide_eq_false isVariable) rfl fresh
    rw [(within_eq_ok .allocate _ _ _ _).mpr claimed]
    exact .ok trivial
  refine .ite (fun _ => .tellBind rfl _) fun _ => .bind (.mayResolve type) fun kind =>
    .bind (.mayDeclare (unplaced kind) (made kind)) fun _ => .bind (claims kind) fun slot =>
      .ite (fun _ => ?_) fun _ => .pure _
  cases Operand.zero? slot.type with
  | none => exact .pure _
  | some zero => exact .build _

/-- A routine whose types are known and whose parameters are different. -/
theorem mayLowerRoutine (name : Bytes) {params : List Param} {result : Bytes} {kinds : List Kind}
    {kind : Kind} {body : Routine → Lower Unit} (resolved : paramKinds? params = some kinds)
    (length : params.length = kinds.length) (answered : resultKind? result = some kind)
    (distinct : (params.map Param.name).Nodup)
    (inner : ∀ routine, FailsAs (placing allowed).Settled (body routine)) :
    FailsAs (placing allowed).Open (Lowering.lowerRoutine name params result body) := by
  unfold Lowering.lowerRoutine
  refine .ite (fun _ => .tellBind rfl _) fun _ =>
    .bind_of_ok (fun _ => (resolveParams_eq_ok _ _ _ _).mpr ⟨resolved, rfl⟩)
      (.bind_of_ok (fun _ => (resolveResult_eq_ok _ _ _ _).mpr ⟨answered, rfl⟩)
        (.bind (.mayDeclare (fun _ _ => Analysis.unplaced_of_declare) fun _ _ _ => trivial)
          fun _ => .aside (.bind (.build _) fun function =>
            .bind (.mayUpdate _ _) fun _ => .bind (.enterRoutine _) fun _ => ?_)))
  refine .inScope (.bind .currentRoutine fun routine => .freshBind (fun outer before =>
      declareParams_ok routine 0 length distinct (fun _ _ => rfl) outer before) fun _ =>
    .bind ((inner routine).within _).opened fun _ => .finishRoutine _ _)
    (fun table _ => ⟨table.scopes, rfl⟩) fun _ _ => trivial

theorem mayCall (name : Bytes) (count : Nat) :
    FailsAs (placing allowed).Open (Lowering.callable name count) := by
  refine .findBind fun table _ => ?_
  split
  · exact .ite (fun _ => .failWith rfl rfl) fun _ => .pure _
  · exact .tell rfl

end Leads

end Steps

end Lowering

namespace Analysis

/-! ### Checks with a good verdict -/

/-- A check can come to a good verdict. -/
def Sound (check : Check Bool) : Prop := ∃ state, (check state).1 = true

namespace Sound

variable {node child : Node} {nodes : List Node} {check checkToo : Check Bool}

theorem both (sound : Sound (both check checkToo)) : Sound check ∧ Sound checkToo := by
  obtain ⟨state, good⟩ := sound
  obtain ⟨first, second⟩ := both_good good
  exact ⟨⟨_, first⟩, ⟨_, second⟩⟩

theorem required (sound : Sound (required node child check)) :
    child.isMissing = false ∧ Sound check := by
  obtain ⟨state, good⟩ := sound
  obtain ⟨there, same⟩ := required_good good
  rw [same] at good
  exact ⟨there, _, good⟩

theorem inScope (sound : Sound (inScope check)) : Sound check := by
  obtain ⟨state, good⟩ := sound
  exact ⟨_, (inScope_good good).1⟩

theorem checkNodes (sound : Sound (checkNodes nodes)) : ∀ node ∈ nodes, Sound (checkNode node) := by
  induction nodes with
  | nil => exact fun _ member => absurd member List.not_mem_nil
  | cons node nodes rest =>
    rw [Analysis.checkNodes] at sound
    exact List.forall_mem_cons.mpr ⟨sound.both.1, rest sound.both.2⟩

theorem checkOperands (sound : Sound (checkOperands node nodes)) :
    ∀ child ∈ nodes, Sound (checkNode child) := by
  induction nodes with
  | nil => exact fun _ member => absurd member List.not_mem_nil
  | cons child nodes rest =>
    rw [Analysis.checkOperands] at sound
    exact List.forall_mem_cons.mpr ⟨sound.both.1.required.2, rest sound.both.2⟩

end Sound

end Analysis

namespace Lowering

open Analysis (Sound checkNode checkNodes checkOperands)

section Nodes

variable {allowed : Int → Prop} {nodes : List Node}

/-! ### Trees -/

theorem Leads.lowerNodes
    (each : ∀ node ∈ nodes, allowed node.position ∧
      ∀ routine, FailsAs (placing allowed).Open (lowerNode node routine)) (routine : Routine) :
    FailsAs (placing allowed).Settled (lowerNodes nodes routine) := by
  induction nodes with
  | nil =>
    rw [Lowering.lowerNodes]
    exact .pure _
  | cons node nodes rest =>
    obtain ⟨⟨here, inner⟩, others⟩ := List.forall_mem_cons.mp each
    rw [Lowering.lowerNodes]
    exact .bind (.discarding here (inner routine)) fun _ => rest others

theorem Leads.lowerArguments (name : Bytes) (position : Nat) (kinds : List Kind) (routine : Routine)
    (each : ∀ node ∈ nodes,
      FailsAs (placing allowed).Settled (Lowering.operand node (lowerNode node routine))) :
    FailsAs (placing allowed).Open (lowerArguments name position nodes kinds routine) := by
  induction nodes generalizing position with
  | nil =>
    rw [Lowering.lowerArguments]
    exact .pure _
  | cons node nodes rest =>
    obtain ⟨inner, others⟩ := List.forall_mem_cons.mp each
    rw [Lowering.lowerArguments]
    exact .bind (inner.within _).opened fun _ => .bind (.expectType _ _ _) fun _ =>
      .bind (rest _ others) fun _ => .pure _

theorem Leads.lowerPrintedList (position : Nat) (routine : Routine)
    (each : ∀ node ∈ nodes,
      FailsAs (placing allowed).Settled (Lowering.operand node (lowerNode node routine))) :
    FailsAs (placing allowed).Open (lowerPrintedList position nodes routine) := by
  induction nodes generalizing position with
  | nil =>
    rw [Lowering.lowerPrintedList]
    exact .pure _
  | cons node nodes rest =>
    obtain ⟨inner, others⟩ := List.forall_mem_cons.mp each
    rw [Lowering.lowerPrintedList]
    exact .bind (inner.within _).opened fun _ => .bind (.lowerPrinted _ _) fun _ =>
      .bind (rest _ others) fun _ => .pure _

/-- A routine in which the analysis finds no fault. -/
theorem Leads.checkedRoutine {node : Node} {name : Bytes} {params : List Param} {result : Bytes}
    (sound : Sound (Analysis.checkRoutine node name params result (checkNodes nodes)))
    (inner : Sound (checkNodes nodes) →
      ∀ routine, FailsAs (placing allowed).Settled (Lowering.lowerNodes nodes routine)) :
    FailsAs (placing allowed).Open (Lowering.lowerRoutine name params result fun routine =>
      Lowering.lowerNodes nodes routine) := by
  obtain ⟨state, good⟩ := sound
  obtain ⟨kinds, kind, inside, resolved, length, answered, _, _, _, distinct, _, goodBody, _⟩ :=
    Analysis.checkRoutine_good good
  exact .mayLowerRoutine name resolved length answered distinct (inner ⟨inside, goodBody⟩)

/-- Lowering a tree in which the analysis finds no fault leaves a diagnostic without a position only
if the failure is bare. -/
theorem lowerNode_fails (node : Node)
    (sited : ∀ inner : Node, inner.Inside node → allowed inner.position)
    (sound : Sound (checkNode node)) (routine : Routine) :
    FailsAs (placing allowed).Open (lowerNode node routine) := by
  induction node using Node.inductionOn generalizing routine with
  | step node children =>
    -- A child that stands alone, and a list of statements.
    have operand {child : Node} (isChild : child ∈ node.children) (member : child ∈ node.operands)
        (sound : Sound (checkNode child)) (routine : Routine) :
        FailsAs (placing allowed).Settled (Lowering.operand child (lowerNode child routine)) :=
      .operand (fun there => sited child (.operand member there (.self child))) fun there =>
        children child isChild (fun inner inside => sited inner (.operand member there inside))
          sound routine
    have list {nodes : List Node} (areChildren : ∀ child ∈ nodes, child ∈ node.children)
        (members : ∀ child ∈ nodes, child ∈ node.statements)
        (sound : Sound (checkNodes nodes)) (routine : Routine) :
        FailsAs (placing allowed).Settled (lowerNodes nodes routine) :=
      .lowerNodes (fun child member => ⟨
        sited child (.statement (members child member) (.self child)),
        children child (areChildren child member)
          (fun inner inside => sited inner (.statement (members child member) inside))
          (sound.checkNodes child member)⟩) routine
    cases node with
    | missing =>
      rw [lowerNode]
      exact .opened (.quiet rfl)
    | integer | real | char | boolean =>
      rw [lowerNode]
      exact .pure _
    | string | date =>
      rw [lowerNode]
      exact .map _ (.build _)
    | identifier position name =>
      rw [lowerNode]
      exact .map _ (.lowerIdentifier _ (.always name))
    | declaration position name type =>
      rw [lowerNode]
      exact .statement (.mayDeclareVariable _ (fun _ _ _ declared => declared)
        (fun _ _ _ => Analysis.unplaced_of_declare) (by decide))
    | arrayDeclaration position name type first last =>
      rw [lowerNode]
      exact .statement (.mayDeclareVariable _ declares_array
        (fun _ _ _ => Analysis.unplaced_of_declareArray) (by simp [Shape.role]))
    | assignment position name value =>
      rw [checkNode] at sound
      rw [lowerNode]
      exact .statement (.lowerAssignment _ (.always name) (operand (by simp)
        (by simp) sound.both.1.required.2 _))
    | arrayAssignment position name index value =>
      rw [checkNode] at sound
      rw [lowerNode]
      have indexed := sound.both.1.both.1.required.2
      have assigned := operand (by simp) (by simp) sound.both.1.both.2.required.2 routine
      exact .statement (.ite (fun _ => .lowerAssignment _ (.always name) assigned) fun _ =>
        .lowerElementAssignment _ (operand (by simp) (by simp) indexed _) (.always name) assigned)
    | arrayAccess position name index =>
      rw [checkNode] at sound
      rw [lowerNode]
      exact .map _ (.lowerElement _ (operand (by simp) (by simp)
        sound.both.1.required.2 _) (.always name))
    | binary position operator left right =>
      rw [lowerNode]
      refine .ite (fun _ => .map _ (.lowerPostfix _ _ fun _ name _ => .always name))
        fun there => .map _ ?_
      rw [checkNode, if_neg there] at sound
      exact .lowerBinary _ (operand (by simp) (by simp) sound.both.1.required.2 _)
        (operand (by simp) (by simp) sound.both.2.required.2 _)
    | unary position operator child =>
      rw [checkNode] at sound
      rw [lowerNode]
      exact .map _ (.lowerUnary _ (operand (by simp) (by simp) sound.required.2 _))
    | comparison position operator left right =>
      rw [checkNode] at sound
      rw [lowerNode]
      exact .map _ (.lowerComparison _ (operand (by simp) (by simp) sound.both.1.required.2 _)
        (operand (by simp) (by simp) sound.both.2.required.2 _))
    | logical position operator left right =>
      rw [checkNode] at sound
      rw [lowerNode]
      refine .map _ ?_
      split at sound
      · exact .lowerNegation ‹_› _ (operand (by simp) (by simp) sound.required.2 _)
      · exact .lowerLogical ‹_› (operand (by simp) (by simp) sound.both.1.required.2 _)
          (operand (by simp) (by simp) sound.both.2.required.2 _)
    | conditional position condition consequent alternative =>
      rw [checkNode] at sound
      rw [lowerNode]
      exact .statement (.lowerConditional (operand (by simp) (by simp) sound.both.1.required.2 _)
        (.anyScope (list (by simp +contextual) (by simp +contextual) sound.both.2.both.1.inScope _))
        (.anyScope (list (by simp +contextual) (by simp +contextual)
          sound.both.2.both.2.inScope _)))
    | forLoop position start condition step body =>
      rw [checkNode] at sound
      rw [lowerNode]
      obtain ⟨starts, sound⟩ := sound.inScope.both
      obtain ⟨tests, sound⟩ := sound.both
      obtain ⟨steps, turns⟩ := sound.both
      have alone {child : Node} (isChild : child ∈ [start, condition, step] ++ body)
          (member : child ∈ [start, condition, step])
          (sound : Sound (Analysis.required (.forLoop position start condition step body) child
            (checkNode child))) :
          FailsAs (placing allowed).Settled (discarding child (lowerNode child routine)) := by
        obtain ⟨there, sound⟩ := sound.required
        exact .discarding (sited child (.operand member there (.self child)))
          (children child isChild (fun inner inside => sited inner (.operand member there inside))
            sound routine)
      exact .statement (.lowerFor (alone (by simp) (by simp) starts)
        (operand (by simp) (by simp) tests.required.2 _)
        (list (by simp +contextual) (by simp) turns _)
        (alone (by simp) (by simp) steps) (fun _ _ => trivial) fun _ _ => trivial)
    | whileLoop position condition body =>
      rw [checkNode] at sound
      rw [lowerNode]
      exact .statement (.lowerWhile (operand (by simp) (by simp) sound.both.1.required.2 _)
        (.anyScope (list (by simp +contextual) (by simp) sound.both.2.inScope _)))
    | repeatLoop position body condition =>
      rw [checkNode] at sound
      rw [lowerNode]
      exact .statement (.lowerRepeat (list (by simp +contextual) (by simp) sound.inScope.both.1 _)
        (operand (by simp) (by simp)
          sound.inScope.both.2.required.2 _) (fun _ _ => trivial) fun _ _ => trivial)
    | procedure position name params body =>
      rw [checkNode] at sound
      rw [lowerNode]
      have inner := @list body (by simp) (by simp)
      exact .statement (.checkedRoutine sound inner)
    | function position name params result body =>
      rw [checkNode] at sound
      rw [lowerNode]
      have inner := @list body (by simp) (by simp)
      exact .statement (.checkedRoutine sound inner)
    | call position name args =>
      rw [checkNode] at sound
      rw [lowerNode]
      exact .bind (.mayCall _ _) fun _ => .bind (.lowerArguments _ _ _ _ fun child member =>
        operand member member (sound.both.1.checkOperands child member) routine) fun _ => .build _
    | «return» position value =>
      rw [lowerNode]
      refine .statement (.lowerReturn _ (fun given isGiven => ?_) fun _ => rfl)
      split at isGiven
      · cases isGiven
      · rename_i there
        cases isGiven
        rw [checkNode, if_neg there] at sound
        exact operand (by simp) (by simp) sound _
    | output position args =>
      rw [checkNode] at sound
      rw [lowerNode]
      exact .statement (.bind (.lowerPrintedList _ _ fun child member =>
        operand member member (sound.checkOperands child member) routine) fun _ =>
          .callFormatted _ _ _ _)
    | input position target =>
      cases target with
      | identifier place name =>
        rw [lowerNode]
        exact .statement (.bind (.scalarStorage (.always name) _ _) fun _ => .lowerInput _ _)
      | arrayAccess place name index =>
        rw [checkNode, checkNode] at sound
        rw [lowerNode]
        have atIndex (inner : Node) (there : index.isMissing = false)
            (inside : inner.Inside index) : allowed inner.position := by
          have inTarget : inner.Inside (.arrayAccess place name index) :=
            .operand (List.mem_singleton_self index) there inside
          exact sited inner (.operand (List.mem_singleton_self _) rfl inTarget)
        have indexed :
            FailsAs (placing allowed).Settled (Lowering.operand index (lowerNode index routine)) :=
          .operand (fun there => atIndex index there (.self index)) fun there =>
            children index (by simp) (fun inner => atIndex inner there)
              sound.both.1.required.2 routine
        exact .statement (.bind indexed.lowerIndex.opened fun _ =>
          .bind (.storage (.always name) _ _) fun _ => .lowerInput _ _)
      | _ => exact .failWith rfl rfl
    | block position statements =>
      rw [checkNode] at sound
      rw [lowerNode]
      have inner := @list statements (by simp) (by simp)
      exact .statement (.opened (inner sound routine))

/-! ### Programs -/

theorem lowerProgram_fails {program : Program}
    (sited : ∀ node ∈ program, ∀ inner : Node, inner.Inside node → allowed inner.position)
    (sound : Sound (Analysis.checkProgram program)) :
    FailsAs (placing allowed).Settled (lowerProgram program) :=
  .bind (.build _) fun _ => .bind (.enterRoutine _) fun _ =>
    .anyScope (.bind .currentRoutine fun _ =>
    .bind (.lowerNodes (fun node member => ⟨sited node member node (.self node),
      lowerNode_fails node (sited node member) (sound.inScope.checkNodes node member)⟩) _)
    fun _ => .bind .get fun _ => .ite (fun _ => .build _) fun _ => .pure _)

end Nodes

theorem lower_error {session : Session} {program : Program} {failure : LoweringFailure}
    (failed : (session.lower program).1 = .error failure) :
    ∃ before after, lowerProgram program before = .error failure after := by
  cases lowered : lowerProgram program session.clearModule.workspace with
  | ok made after =>
    simp only [Session.lower, lowered] at failed
    cases failed
  | error other after =>
    simp only [Session.lower, lowered] at failed
    cases failed
    exact ⟨_, _, lowered⟩

/-- The position is one of the program: it is not zero, and a node in the program has it. -/
def IsPositionIn (program : Program) (position : Int) : Prop :=
  position ≠ 0 ∧ ∃ node ∈ program, ∃ inner : Node, inner.Inside node ∧ inner.position = position

theorem analyze_placed {allowed : Int → Prop} {program : Program}
    (sited : ∀ node ∈ program, ∀ inner : Node, inner.Inside node → allowed inner.position)
    {session : Session} {failure : LoweringFailure}
    (failed : (session.analyze program).1 = .error failure) :
    ∀ diagnostic ∈ failure.cause.diagnostics, allowed diagnostic.position := by
  obtain ⟨stand, verdict⟩ := Analysis.analyze_reports sited session
  rw [verdict] at failed
  split at failed
  · cases failed
  · cases failed
    intro diagnostic member
    obtain ⟨fault, isFault, reported⟩ := List.mem_filterMap.mp member
    exact stand fault isFault diagnostic reported

/-- Diagnostics have positions. If all nodes of a program have one, then a failed analysis places
each of its diagnostics at a node of the program, and so does a failed compilation; except that an
index of a wrong category is reported without a position. -/
theorem compile_positions {program : Program}
    (sited : ∀ node ∈ program, ∀ inner : Node, inner.Inside node → inner.position ≠ 0)
    (session : Session) :
    (∀ failure, (session.analyze program).1 = .error failure →
      ∀ diagnostic ∈ failure.cause.diagnostics, IsPositionIn program diagnostic.position) ∧
    ∀ failure, (session.compile program).1 = .error failure →
      ∀ diagnostic ∈ failure.cause.diagnostics,
        IsPositionIn program diagnostic.position ∨ IsIndexMismatch failure diagnostic := by
  have atNodes : ∀ node ∈ program, ∀ inner : Node, inner.Inside node →
      IsPositionIn program inner.position := fun node member inner inside =>
    ⟨sited node member inner inside, node, member, inner, inside, rfl⟩
  refine ⟨fun failure failed => analyze_placed atNodes failed, fun failure failed => ?_⟩
  unfold Session.compile at failed
  split at failed
  · rename_i early later analyzed
    cases failed
    have failed : (session.analyze program).1 = .error early := by rw [analyzed]
    exact fun diagnostic member => .inl (analyze_placed atNodes failed diagnostic member)
  · rename_i later analyzed
    have sound : Sound (Analysis.checkProgram program) := by
      refine ⟨⟨.empty, #[]⟩, ?_⟩
      by_contra bad
      have refused : (session.analyze program).1 = .error _ := if_neg bad
      rw [analyzed] at refused
      cases refused
    obtain ⟨before, after, lowered⟩ := lower_error failed
    have led := @lowerProgram_fails _ _ atNodes sound before trivial
    rw [lowered] at led
    cases led with
    | error settled => exact settled

/-- A truth value that is assigned to a number. -/
def misfit : Program := [.declaration 1 "n" "INTEGER", .assignment 2 "n" (.boolean 3 true)]

theorem compile_positions_misfit :
    ∃ diagnostic, compile "misfit" misfit = .error ⟨[], .ofDiagnostic diagnostic⟩ ∧
      IsPositionIn misfit diagnostic.position := by
  have failed : ((Session.new "misfit").compile misfit).1 = .error ⟨[], .ofDiagnostic
      ((Diagnostic.mismatch "n" Category.integral.text Category.logical.text).located 2)⟩ := by
    decide +kernel
  have sited : ∀ node ∈ misfit, ∀ inner : Node, inner.Inside node → inner.position ≠ 0 := by
    intro node member inner inside
    rcases List.mem_pair.mp member with rfl | rfl
    · rw [inside.eq_of_leaf rfl rfl]
      decide
    · cases inside with
      | self => decide
      | operand member _ inside =>
        cases List.mem_singleton.mp member
        rw [inside.eq_of_leaf rfl rfl]
        decide
      | statement member => cases member
  refine ⟨_, failed, ?_⟩
  have placed := (compile_positions sited (.new "misfit")).2 _ failed _ (List.mem_singleton_self _)
  refine placed.resolve_right fun index => ?_
  cases index.1

/-- An element whose index is no integer. -/
def realIndex : Program :=
  [.arrayDeclaration 1 "a" "INTEGER" 0 3, .output 2 [.arrayAccess 3 "a" (.real 4 .one)]]

/-- The index is told without a position. -/
theorem realIndex_unplaced :
    (∀ node ∈ realIndex, ∀ inner : Node, inner.Inside node → inner.position ≠ 0) ∧
      compile "index" realIndex = .error ⟨[.argument 0, .index], .ofDiagnostic
        (.mismatch "index" Category.integral.text Category.floating.text)⟩ ∧
      (Diagnostic.mismatch "index" Category.integral.text Category.floating.text).position = 0 := by
  refine ⟨fun node member inner inside => ?_, by decide +kernel, rfl⟩
  rcases List.mem_pair.mp member with rfl | rfl
  · rw [inside.eq_of_leaf rfl rfl]
    decide
  · cases inside with
    | self => decide
    | statement member => cases member
    | operand member _ inside =>
      cases List.mem_singleton.mp member
      cases inside with
      | self => decide
      | statement member => cases member
      | operand member _ inside =>
        cases List.mem_singleton.mp member
        rw [inside.eq_of_leaf rfl rfl]
        decide

end Lowering

end Pascaline
