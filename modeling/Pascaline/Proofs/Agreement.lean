/-
Analysis and lowering agree on names. Each builds its own scopes, and they do not visit the children
of a node in the same order; but where the analysis finds no fault in an orderly program, lowering
finds every name and type that it needs, and can declare every name that it declares.
-/

import Pascaline.Proofs.Construction
import Pascaline.Proofs.Failing
import Pascaline.Proofs.Scoping

namespace Pascaline

def Fault.isNaming : Fault → Bool
  | .diagnostic report => report.kind.isNaming
  | .noScope _ => false

namespace Lowering

open IR (Build Operand Slot)

variable {Result Next : Type}

/-- Whether a cause is, or has among its faults, a diagnostic of these kinds. -/
def Cause.isNaming : Cause → Bool
  | .faults list => list.any Fault.isNaming
  | .fault single => single.isNaming
  | _ => false

/-! ### Steps that resolve names -/

/-- The manner of failing for another reason than a name. -/
def nameless : Manner where
  tells diagnostic := diagnostic.kind.isNaming = false
  accepts _ diagnostic := diagnostic.kind.isNaming = false
  isPlace _ := True
  told _ other := other
  passed _ other := other
  placed {position diagnostic} _ other := by
    rw [or_self] at other
    unfold Diagnostic.locatedIfUnplaced
    split <;> exact other
  index _ := rfl

/-- A failure in this manner has nothing to do with a name. -/
theorem isNaming_of_settled {failure : LoweringFailure} (settled : nameless.Settled failure) :
    failure.cause.isNaming = false := by
  obtain ⟨trail, cause⟩ := failure
  cases cause with
  | faults list =>
    refine List.any_eq_false.mpr fun fault member => ?_
    cases fault with
    | diagnostic report =>
      have other : report.kind.isNaming = false :=
        settled report (List.mem_filterMap.mpr ⟨_, member, rfl⟩)
      exact Bool.eq_false_iff.mp other
    | noScope name => exact Bool.false_ne_true
  | fault fault =>
    cases fault with
    | diagnostic report => exact settled report (List.mem_singleton_self report)
    | noScope name => rfl
  | _ => rfl

theorem Leads.settled {start stop : Table → Prop} {step : Lower Result}
    (inner : Leads nameless.Open start stop step) : Leads nameless.Settled start stop step := by
  refine inner.imp fun failure failing => ?_
  rcases failing with settled | ⟨fault, rfl, tells⟩
  · exact settled
  · exact fun diagnostic member => tells diagnostic (Option.mem_toList.mp member)

/-- The roles of the names that lowering has in scope. -/
def HasRoles (roles : Roles) (table : Table) : Prop := table.roles Symbol.isCallable = roles

/-- A step that leads from given names in scope to others and does not fail because of a name. -/
abbrev Resolves (accepted : LoweringFailure → Prop) (earlier later : Roles) (step : Lower Result) :
    Prop :=
  Leads accepted (HasRoles earlier) (HasRoles later) step

section Resolves

variable {accepted : LoweringFailure → Prop} {roles earlier inside later : Roles}

theorem HasRoles.enter (table : Table) (has : HasRoles roles table) :
    HasRoles ([] :: roles) table.enter :=
  congrArg (List.cons []) has

theorem HasRoles.exit (closed : inside.tail = roles) (table : Table)
    (has : HasRoles inside table) : HasRoles roles table.exit := by
  rw [HasRoles, Table.roles_exit]
  exact (congrArg List.tail has).trans closed

theorem Knows.of_roles {name : Bytes} (known : (roles.find? name).isSome = true) :
    Knows nameless (HasRoles roles) name := by
  refine ⟨fun table name change sameName sameRole has => ?_, fun table has unknown => ?_⟩
  · exact (Table.roles_update _ _ _ sameName sameRole).trans has
  · rw [← has, Table.find?_roles, unknown] at known
    cases known

namespace Leads

theorem ownScope {step : Lower Result} (inner : Resolves accepted ([] :: roles) inside step)
    (closed : inside.tail = roles) : Resolves accepted roles roles (Lowering.inScope step) :=
  .inScope inner HasRoles.enter (HasRoles.exit closed)

variable {lowered : Lower (Option Operand)} {name : Bytes} {kind : Kind} {params : List Param}
  {kinds : List Kind}

theorem operandOf (child : Node) (inner : Resolves nameless.Open earlier later lowered) :
    Resolves nameless.Settled earlier later (Lowering.operand child lowered) :=
  .operand (fun _ => trivial) fun _ => inner

theorem discardingOf (node : Node) (inner : Resolves nameless.Open earlier later lowered) :
    Resolves nameless.Settled earlier later (Lowering.discarding node lowered) :=
  .discarding trivial inner

/-! ### Names in scope -/

theorem declare {declaration : Table → Except Fault Table}
    (declares : ∀ table : Table, HasRoles earlier table →
      ∃ made, declaration table = .ok made ∧ HasRoles later made) :
    Resolves accepted earlier later (declare declaration) := by
  intro before has
  obtain ⟨made, declared, after⟩ := declares before.table has
  rw [(declare_eq_ok declaration before () _).mpr ⟨made, declared, rfl⟩]
  exact .ok after

theorem claim (routine : Routine) (known : (roles.find? name).isSome = true) :
    Resolves nameless.Settled roles roles (routine.claim name) :=
  have knows := Knows.of_roles known
  .settled (.bind .get fun _ => .bind (.allocate knows _) fun _ => .ite
    (fun _ => .bind (.updateSymbol knows _ (fun _ => rfl) fun _ => rfl) fun _ => .pure _)
    fun _ => .pure _)

theorem declareVariable (routine : Routine) {type : Bytes}
    {declaration : Kind → Table → Except Fault Table} (isOpen : roles ≠ [])
    (free : isReserved name = false) (resolved : Kind.ofName? type = some kind)
    (declares : ∀ table : Table, HasRoles roles table →
      ∃ made, declaration kind table = .ok made ∧ HasRoles (roles.extend [(name, false)]) made) :
    Resolves nameless.Open roles (roles.extend [(name, false)])
      (routine.declareVariable name type declaration) := by
  have known : ((roles.extend [(name, false)]).find? name).isSome = true := by
    rw [Roles.find?_extend_of_mem isOpen (List.mem_singleton_self name), List.reverse_singleton,
      Roles.lookup_isSome]
    exact List.mem_singleton_self name
  refine .ite (fun reserved => ?_) fun _ =>
    .bind_of_ok (fun _ => (resolve_eq_ok _ _ _ _).mpr ⟨resolved, rfl⟩)
      (.bind (.declare declares) fun _ => .bind (.opened (.within _ (.claim routine known)))
        fun slot => .ite (fun _ => ?_) fun _ => .pure _)
  · rw [free] at reserved
    cases reserved
  · cases Operand.zero? slot.type with
    | none => exact .pure _
    | some zero => exact .build _

theorem declareParams (routine : Routine) (position : Nat) (length : params.length = kinds.length)
    (isOpen : roles ≠ []) (distinct : (params.map Param.name).Nodup)
    (fresh : ∀ name ∈ params.map Param.name, roles.isHere name = false) :
    Resolves nameless.Settled roles (roles.extend (params.map Param.mention))
      (routine.declareParams position params kinds) := by
  induction params generalizing position kinds roles with
  | nil =>
    rw [List.map_nil, Roles.extend_nil]
    exact .pure _
  | cons param params rest =>
    cases kinds with
    | nil => cases length
    | cons kind kinds =>
      obtain ⟨different, distinct⟩ := List.nodup_cons.mp distinct
      have known : ((roles.extend [param.mention]).find? param.name).isSome = true := by
        rw [Roles.find?_extend_of_mem isOpen (List.mem_singleton_self param.name),
          List.reverse_singleton, Roles.lookup_isSome]
        exact List.mem_singleton_self param.name
      refine .bind (.within _ (.bind (.declare fun table has => ?_) fun _ => .claim routine known))
        fun slot => .bind (.build _) fun _ => ?_
      · have free : table.declaredHere param.name = false := by
          rw [← Table.isHere_roles Symbol.isCallable, has]
          exact fresh _ (List.mem_cons_self ..)
        obtain ⟨made, declared⟩ := Table.declare_isOk Symbol.isCallable table
          { name := param.name, shape := .scalar, kind } (has ▸ isOpen) free
        refine ⟨made, declared, ?_⟩
        rw [HasRoles, (Table.roles_declare Symbol.isCallable declared).1, has]
        rfl
      · rw [show roles.extend ((param :: params).map Param.mention) =
          (roles.extend [param.mention]).extend (params.map Param.mention) from
            roles.extend_append [param.mention] _]
        refine rest _ (Nat.succ.inj length) (Roles.extend_ne_nil isOpen _) distinct
          fun name member => Bool.eq_false_iff.mpr fun here => ?_
        rcases (Roles.isHere_extend isOpen).mp here with again | here
        · rw [List.map_singleton, List.mem_singleton] at again
          rw [show name = param.name from again] at member
          exact different member
        · exact Bool.eq_false_iff.mp (fresh name (List.mem_cons_of_mem _ member)) here

/-! ### Routines -/

/-- The name of a routine is in scope without its function first, and nothing asks for it before
its function is there. -/
theorem declareRoutineBind (kinds : List Kind) (kind : Kind) {define : Build Nat}
    {next : Nat → Lower Next} (isOpen : roles ≠ []) (fresh : roles.isHere name = false)
    (rest : ∀ function, Resolves accepted (roles.extend [(name, true)]) later (next function)) :
    Resolves accepted roles later (do
      Lowering.declare fun table => table.declareRoutine name kinds kind
      Lowering.aside do
        let function ← Lowering.build define
        Lowering.updateSymbol name fun symbol => { symbol with code := some function }
        next function) := by
  intro before has
  obtain ⟨⟨scopes⟩, builder, externals, context⟩ := before
  cases scopes with
  | nil => exact absurd has.symm isOpen
  | cons scope outer =>
    have free : scope.find? name = none := by
      rw [← has, Table.isHere_roles] at fresh
      exact Option.isNone_iff_eq_none.mp (Option.isSome_eq_false_iff.mp fresh)
    have declared : Table.declareRoutine ⟨scope :: outer⟩ name kinds kind =
        .ok ⟨({ name, shape := .routine kinds, kind } :: scope) :: outer⟩ :=
      Table.declare_eq_ok.mpr ⟨scope, outer, rfl, free, rfl⟩
    have ran := (declare_eq_ok (fun table => table.declareRoutine name kinds kind)
      ⟨⟨scope :: outer⟩, builder, externals, context⟩ () _).mpr ⟨_, declared, rfl⟩
    simp only [Bind.bind, EStateM.bind, ran]
    refine Led.aside (rest _ ?_) _
    show (Table.update ⟨(_ :: scope) :: outer⟩ name _).roles Symbol.isCallable = _
    rw [Table.update_cons rfl free, ← has]
    rfl

theorem lowerRoutine {result : Bytes} {body : Routine → Lower Unit}
    (resolved : paramKinds? params = some kinds) (length : params.length = kinds.length)
    (answered : resultKind? result = some kind) (free : isReserved name = false)
    (isOpen : roles ≠ []) (fresh : roles.isHere name = false)
    (distinct : (params.map Param.name).Nodup)
    (inner : ∀ routine, Resolves nameless.Settled
      (Roles.extend ([] :: roles.extend [(name, true)]) (params.map Param.mention)) inside
      (body routine)) (closed : inside.tail = roles.extend [(name, true)]) :
    Resolves nameless.Open roles (roles.extend [(name, true)])
      (lowerRoutine name params result body) := by
  refine .ite (fun reserved => ?_) fun _ =>
    .bind_of_ok (fun _ => (resolveParams_eq_ok _ _ _ _).mpr ⟨resolved, rfl⟩)
      (.bind_of_ok (fun _ => (resolveResult_eq_ok _ _ _ _).mpr ⟨answered, rfl⟩)
        (.declareRoutineBind kinds kind isOpen fresh fun function =>
          .bind (.enterRoutine _) fun _ =>
          .ownScope (.bind .currentRoutine fun _ => .bind
            (.opened (.declareParams _ _ length (List.cons_ne_nil _ _) distinct fun _ _ => rfl))
              fun _ => .bind (.opened (.within _ (inner _))) fun _ => .finishRoutine _ _) closed))
  rw [free] at reserved
  cases reserved

theorem callable (count : Nat) (isRoutine : roles.find? name = some true) :
    Resolves nameless.Open roles roles (callable name count) := by
  refine .findBind fun table has => ?_
  rw [← has, Table.find?_roles] at isRoutine
  cases found : table.find? name with
  | none =>
    rw [found] at isRoutine
    cases isRoutine
  | some symbol =>
    rw [found] at isRoutine
    obtain ⟨_, shape, kind, slot, owner, code⟩ := symbol
    cases shape with
    | scalar => cases isRoutine
    | array first last => cases isRoutine
    | routine params =>
      cases code with
      | none => cases isRoutine
      | some code => exact .ite (fun _ => .failWith rfl rfl) fun _ => .pure _

end Leads

end Resolves

/-! ### Trees -/

/-- Lowering a tree that the analysis has found good resolves its names, in all scopes that cover
those of the analysis. -/
def Agrees (node : Node) : Prop :=
  ∀ (routine : Routine) (state : Analysis.State) (lowered : Roles),
    (Analysis.checkNode node state).1 = true → Covers node.declares node.uses state.roles lowered →
      Resolves nameless.Open lowered (lowered.extend node.declares) (lowerNode node routine)

section

variable {state : Analysis.State} {lowered : Roles} {routine : Routine} {parent child : Node}
  {nodes : List Node}

/-- A child that must be there, and the names in scope behind it. -/
theorem Agrees.required (agrees : Agrees child)
    (good : (Analysis.required parent child (Analysis.checkNode child) state).1 = true)
    (covers : Covers child.declares child.uses state.roles lowered) :
    Resolves nameless.Open lowered (lowered.extend child.declares) (lowerNode child routine) ∧
      (Analysis.required parent child (Analysis.checkNode child) state).2.roles =
        state.roles.extend child.declares := by
  have same := (Analysis.required_good good).2
  rw [same] at good ⊢
  exact ⟨agrees routine state lowered good covers, (Analysis.checkNode_adds child state good).1⟩

theorem checkNodes_agrees (each : ∀ node ∈ nodes, Agrees node)
    (good : (Analysis.checkNodes nodes state).1 = true)
    (covers : Covers (Node.declaresAll nodes) (Node.usesAll nodes) state.roles lowered) :
    Resolves nameless.Settled lowered (lowered.extend (Node.declaresAll nodes))
      (lowerNodes nodes routine) := by
  induction nodes generalizing state lowered with
  | nil =>
    rw [Node.declaresAll, Roles.extend_nil, lowerNodes]
    exact .pure _
  | cons node nodes rest =>
    rw [Node.declaresAll, Node.usesAll] at covers
    rw [Analysis.checkNodes] at good
    obtain ⟨goodNode, goodRest⟩ := Analysis.both_good good
    have roles := (Analysis.checkNode_adds node state goodNode).1
    rw [Node.declaresAll, Roles.extend_append, lowerNodes]
    exact .bind (.discardingOf _ (each node (List.mem_cons_self ..) routine state lowered goodNode
      covers.first)) fun _ => rest (fun node member => each node (List.mem_cons_of_mem _ member))
        goodRest (roles ▸ covers.behind)

theorem checkArguments_agrees (each : ∀ node ∈ nodes, Agrees node) (name : Bytes) (position : Nat)
    (kinds : List Kind) (good : (Analysis.checkOperands parent nodes state).1 = true)
    (covers : Covers (Node.declaresAll nodes) (Node.usesAll nodes) state.roles lowered) :
    Resolves nameless.Open lowered (lowered.extend (Node.declaresAll nodes))
      (lowerArguments name position nodes kinds routine) := by
  induction nodes generalizing state lowered position with
  | nil =>
    rw [Node.declaresAll, Roles.extend_nil, lowerArguments]
    exact .pure _
  | cons node nodes rest =>
    rw [Node.declaresAll, Node.usesAll] at covers
    rw [Analysis.checkOperands] at good
    obtain ⟨goodNode, goodRest⟩ := Analysis.both_good good
    obtain ⟨resolves, roles⟩ := (each node (List.mem_cons_self ..)).required goodNode covers.first
    rw [Node.declaresAll, Roles.extend_append, lowerArguments]
    exact .bind (.opened (.within _ (.operandOf _ resolves))) fun _ =>
      .bind (.expectType _ _ _) fun _ =>
      .bind (rest (fun node member => each node (List.mem_cons_of_mem _ member)) _ goodRest
        (roles ▸ covers.behind)) fun _ => .pure _

theorem checkPrinted_agrees (each : ∀ node ∈ nodes, Agrees node) (position : Nat)
    (good : (Analysis.checkOperands parent nodes state).1 = true)
    (covers : Covers (Node.declaresAll nodes) (Node.usesAll nodes) state.roles lowered) :
    Resolves nameless.Open lowered (lowered.extend (Node.declaresAll nodes))
      (lowerPrintedList position nodes routine) := by
  induction nodes generalizing state lowered position with
  | nil =>
    rw [Node.declaresAll, Roles.extend_nil, lowerPrintedList]
    exact .pure _
  | cons node nodes rest =>
    rw [Node.declaresAll, Node.usesAll] at covers
    rw [Analysis.checkOperands] at good
    obtain ⟨goodNode, goodRest⟩ := Analysis.both_good good
    obtain ⟨resolves, roles⟩ := (each node (List.mem_cons_self ..)).required goodNode covers.first
    rw [Node.declaresAll, Roles.extend_append, lowerPrintedList]
    exact .bind (.opened (.within _ (.operandOf _ resolves))) fun _ =>
      .bind (.lowerPrinted _ _) fun _ =>
      .bind (rest (fun node member => each node (List.mem_cons_of_mem _ member)) _ goodRest
        (roles ▸ covers.behind)) fun _ => .pure _

/-- Two operands, the left one first. -/
theorem Agrees.pair {left right : Node} (agrees : Agrees left) (agreesToo : Agrees right)
    (good : (Analysis.both (Analysis.required parent left (Analysis.checkNode left))
      (Analysis.required parent right (Analysis.checkNode right)) state).1 = true)
    (covers : Covers (left.declares ++ right.declares)
      (left.uses ++ outside left.declares right.uses) state.roles lowered) :
    Resolves nameless.Settled lowered (lowered.extend left.declares)
        (operand left (lowerNode left routine)) ∧
      Resolves nameless.Settled (lowered.extend left.declares)
        (lowered.extend (left.declares ++ right.declares))
        (operand right (lowerNode right routine)) := by
  obtain ⟨goodLeft, goodRight⟩ := Analysis.both_good good
  obtain ⟨resolves, roles⟩ := agrees.required goodLeft covers.first
  obtain ⟨resolvesToo, _⟩ := agreesToo.required goodRight (roles ▸ covers.behind)
  rw [Roles.extend_append]
  exact ⟨.operandOf _ resolves, .operandOf _ resolvesToo⟩

variable {declared : List Mention} {checked : Roles} {node condition : Node} {name : Bytes}
  {body : List Node}

/-- A use behind a child that declares no name of its own scope. -/
theorem covers_behind {uses usesToo : List Mention}
    (covers : Covers declared (uses ++ outside declared usesToo) checked lowered) :
    Covers [] usesToo (checked.extend declared) (lowered.extend declared) :=
  Covers.behind (covers.mono (fun name member => by simpa using member) fun _ => id)

theorem covers_first {uses usesToo : List Mention}
    (covers : Covers declared (uses ++ outside declared usesToo) checked lowered) :
    Covers declared uses checked lowered :=
  covers.mono (fun _ => id) fun _ => List.mem_append_left _

/-- Statements in a scope of their own. -/
theorem checkScope_agrees {uses : List Mention} (each : ∀ node ∈ nodes, Agrees node)
    (good : (Analysis.inScope (Analysis.checkNodes nodes) state).1 = true)
    (covers : Covers declared uses state.roles lowered)
    (less : ∀ use ∈ Node.usesAll nodes, use ∈ uses) :
    Resolves nameless.Settled lowered lowered (inScope (lowerNodes nodes routine)) :=
  .ownScope (checkNodes_agrees each (Analysis.inScope_good good).1
    ((covers.mono (fun _ => id) less).enter _)) rfl

theorem checkRoutine_agrees {params : List Param} {result : Bytes}
    (each : ∀ node ∈ body, Agrees node)
    (good : (Analysis.checkRoutine node name params result (Analysis.checkNodes body) state).1 =
      true)
    (covers : Covers [(name, true)]
      (outside ((name, true) :: params.map Param.mention) (Node.usesAll body)) state.roles
      lowered) :
    Resolves nameless.Open lowered (lowered.extend [(name, true)])
      (lowerRoutine name params result fun inner => lowerNodes body inner) := by
  obtain ⟨kinds, kind, inner, resolved, length, answered, free, isOpen, fresh, distinct, roles,
    goodBody, _⟩ := Analysis.checkRoutine_good good
  have freshToo : lowered.isHere name = false := Bool.eq_false_iff.mpr fun here =>
    Bool.eq_false_iff.mp fresh (covers.fresh name (List.mem_singleton_self name) here)
  -- The name of the routine is known in its body, and so are the parameters.
  have named : Covers ([(name, true)] ++ []) ([] ++ outside [(name, true)]
      (outside (params.map Param.mention) (Node.usesAll body))) state.roles lowered := by
    refine covers.mono (fun _ => id) fun use used => ?_
    obtain ⟨inner, notName⟩ := mem_outside.mp (List.nil_append _ ▸ used)
    obtain ⟨used, notParam⟩ := mem_outside.mp inner
    refine mem_outside.mpr ⟨used, fun member => ?_⟩
    rcases List.mem_cons.mp member with isName | isParam
    · exact notName (List.mem_singleton.mpr isName)
    · exact notParam isParam
  have inside : Covers (Node.declaresAll body) (Node.usesAll body) inner.roles
      (Roles.extend ([] :: lowered.extend [(name, true)]) (params.map Param.mention)) := by
    rw [roles]
    exact @Covers.behind _ _ [] _ _ _
      (named.behind.enter (params.map Param.mention ++ Node.declaresAll body))
  exact .lowerRoutine resolved length answered free covers.loweredOpen freshToo distinct
    (fun routine => checkNodes_agrees each goodBody inside) rfl

/-- A declaration of a variable, which depends on the table only through its symbol. -/
theorem checkDeclaration_agrees {type : Bytes} {declaration : Kind → Table → Except Fault Table}
    (made : ∀ kind table later, declaration kind table = .ok later → ∃ symbol : Symbol,
      symbol.name = name ∧ symbol.isCallable = false ∧
        ∀ table, declaration kind table = table.declare symbol)
    (good : (Analysis.checkDeclaration node name type declaration state).1 = true)
    (covers : Covers [(name, false)] uses state.roles lowered) :
    Resolves nameless.Open lowered (lowered.extend [(name, false)])
      (routine.declareVariable name type declaration) := by
  obtain ⟨kind, later, resolved, free, fresh, declared, _⟩ := Analysis.checkDeclaration_good good
  obtain ⟨symbol, rfl, isVariable, same⟩ := made kind _ _ declared
  refine .declareVariable routine covers.loweredOpen free resolved fun table roles => ?_
  have freshToo : table.declaredHere symbol.name = false := by
    rw [← Table.isHere_roles Symbol.isCallable, roles]
    exact Bool.eq_false_iff.mpr fun here => Bool.eq_false_iff.mp fresh
      (covers.fresh symbol.name (List.mem_singleton_self _) here)
  obtain ⟨made, declaredToo⟩ :=
    Table.declare_isOk Symbol.isCallable table symbol (roles ▸ covers.loweredOpen) freshToo
  refine ⟨made, (same table).trans declaredToo, ?_⟩
  rw [HasRoles, (Table.roles_declare Symbol.isCallable declaredToo).1, roles, isVariable]

theorem checkConditional_agrees {consequent alternative : List Node} (tests : Agrees condition)
    (each : ∀ node ∈ consequent, Agrees node) (eachToo : ∀ node ∈ alternative, Agrees node)
    (good : (Analysis.both (Analysis.required parent condition (Analysis.checkNode condition))
      (Analysis.both (Analysis.inScope (Analysis.checkNodes consequent))
        (Analysis.inScope (Analysis.checkNodes alternative))) state).1 = true)
    (covers : Covers condition.declares (condition.uses ++ outside condition.declares
      (Node.usesAll consequent ++ Node.usesAll alternative)) state.roles lowered) :
    Resolves nameless.Open lowered (lowered.extend condition.declares)
      (lowerConditional (operand condition (lowerNode condition routine))
        (lowerNodes consequent routine) (lowerNodes alternative routine)) := by
  obtain ⟨goodTest, good⟩ := Analysis.both_good good
  obtain ⟨goodYes, goodNo⟩ := Analysis.both_good good
  obtain ⟨test, roles⟩ := tests.required goodTest (covers_first covers)
  have covers := covers_behind covers
  rw [← roles] at covers
  -- The first branch leaves no name behind.
  have closed := ((Analysis.checkNodes_adds consequent).inScope _ goodYes).1
  rw [Roles.extend_nil] at closed
  exact .lowerConditional (.operandOf _ test)
    (checkScope_agrees each goodYes covers fun _ => List.mem_append_left _)
    (checkScope_agrees eachToo goodNo (closed ▸ covers) fun _ => List.mem_append_right _)

theorem checkRepeat_agrees (tests : Agrees condition) (each : ∀ node ∈ body, Agrees node)
    (good : (Analysis.inScope (Analysis.both (Analysis.checkNodes body)
      (Analysis.required parent condition (Analysis.checkNode condition))) state).1 = true)
    (covers : Covers [] (Node.usesAll body ++ outside (Node.declaresAll body) condition.uses)
      state.roles lowered) :
    Resolves nameless.Open lowered lowered (lowerRepeat (lowerNodes body routine)
      (operand condition (lowerNode condition routine))) := by
  obtain ⟨good, _⟩ := Analysis.inScope_good good
  obtain ⟨goodBody, goodTest⟩ := Analysis.both_good good
  have covers : Covers _ _ (Analysis.State.roles { state with table := state.table.enter }) _ :=
    covers.enter (Node.declaresAll body ++ condition.declares)
  have roles := (Analysis.checkNodes_adds body _ goodBody).1
  obtain ⟨test, _⟩ := tests.required goodTest (roles ▸ covers.behind)
  exact .lowerRepeat (checkNodes_agrees each goodBody covers.first) (.operandOf _ test)
    HasRoles.enter (HasRoles.exit rfl)

theorem checkCall_agrees (each : ∀ node ∈ nodes, Agrees node)
    (apart : name ∉ (Node.declaresAll nodes).map Prod.fst)
    (good : (Analysis.both (Analysis.checkOperands node nodes)
      (Analysis.checkCallee node name) state).1 = true)
    (covers : Covers (Node.declaresAll nodes) ((name, true) :: Node.usesAll nodes) state.roles
      lowered) :
    Resolves nameless.Open lowered (lowered.extend (Node.declaresAll nodes)) (do
      let (function, kinds) ← callable name nodes.length
      let values ← lowerArguments name 0 nodes kinds routine
      build (Build.call function values)) := by
  obtain ⟨goodArguments, goodName⟩ := Analysis.both_good good
  have roles := (Analysis.Adds.checkOperands node
    (fun node _ => Analysis.checkNode_adds node) _ goodArguments).1
  have known := (Analysis.checkCallee_good goodName).1
  rw [roles, Roles.find?_extend_of_not_mem _ apart] at known
  exact .bind (.callable _ (covers.routine name (List.mem_cons_self ..) known)) fun _ =>
    .bind (checkArguments_agrees each name 0 _ goodArguments
      (covers.mono (fun _ => id) fun _ => List.mem_cons_of_mem _)) fun _ => .build _

theorem checkFor_agrees {start step : Node} (starts : Agrees start) (tests : Agrees condition)
    (steps : Agrees step) (each : ∀ node ∈ body, Agrees node)
    (apart : ∀ use ∈ Node.usesAll body, use.1 ∉ step.declares.map Prod.fst)
    (calls : ∀ use ∈ step.uses, use.2 = true → (use.1, false) ∉ Node.declaresAll body)
    (good : (Analysis.inScope (Analysis.both
      (Analysis.required parent start (Analysis.checkNode start))
      (Analysis.both (Analysis.required parent condition (Analysis.checkNode condition))
        (Analysis.both (Analysis.required parent step (Analysis.checkNode step))
          (Analysis.checkNodes body)))) state).1 = true)
    (covers : Covers [] (start.uses ++ outside start.declares
      (condition.uses ++ outside condition.declares
        (Node.usesAll body ++ outside (Node.declaresAll body) step.uses))) state.roles lowered) :
    Resolves nameless.Open lowered lowered (lowerFor (discarding start (lowerNode start routine))
      (operand condition (lowerNode condition routine))
      (discarding step (lowerNode step routine)) (lowerNodes body routine)) := by
  obtain ⟨good, _⟩ := Analysis.inScope_good good
  obtain ⟨goodStart, good⟩ := Analysis.both_good good
  obtain ⟨goodTest, good⟩ := Analysis.both_good good
  obtain ⟨goodStep, goodBody⟩ := Analysis.both_good good
  have covers : Covers _ _ (Analysis.State.roles { state with table := state.table.enter }) _ :=
    covers.enter
      (start.declares ++ (condition.declares ++ (Node.declaresAll body ++ step.declares)))
  obtain ⟨first, startRoles⟩ := starts.required goodStart covers.first
  have covers := covers.behind
  rw [← startRoles] at covers
  obtain ⟨test, testRoles⟩ := tests.required goodTest covers.first
  have covers := covers.behind
  rw [← testRoles] at covers
  -- The analysis visits the step first, and lowering the body.
  have stepAdds : Analysis.Adds step.declares
      (Analysis.required parent step (Analysis.checkNode step)) :=
    .required (Analysis.checkNode_adds step)
  have stepRoles := (stepAdds _ goodStep).1
  have bodyFresh := (Analysis.checkNodes_adds body _ goodBody).2
  have different : ∀ name ∈ step.declares.map Prod.fst,
      name ∉ (Node.declaresAll body).map Prod.fst := by
    intro name member again
    refine Bool.eq_false_iff.mp (bodyFresh name again) ?_
    rw [stepRoles]
    exact (Roles.isHere_extend covers.checkedOpen).mpr (.inl member)
  have inner : Resolves _ _ _ (lowerNodes body routine) :=
    checkNodes_agrees each goodBody (stepRoles ▸ covers.overtaken apart)
  obtain ⟨next, _⟩ := steps.required goodStep (covers.overtaking different calls)
  exact .lowerFor (.discardingOf _ first) (.operandOf _ test) inner (.discardingOf _ next)
    HasRoles.enter (HasRoles.exit rfl)

end

theorem orderly_of_mem {nodes : List Node} (orderly : Node.orderlyAll nodes = true) {node : Node}
    (member : node ∈ nodes) : node.orderly = true := by
  induction nodes with
  | nil => cases member
  | cons first rest inner =>
    rw [Node.orderlyAll, Bool.and_eq_true] at orderly
    rcases List.mem_cons.mp member with rfl | member
    · exact orderly.1
    · exact inner orderly.2 member

/-- Lowering agrees with the analysis on every orderly tree. -/
theorem lowerNode_agrees (node : Node) (orderly : node.orderly = true) : Agrees node := by
  induction node using Node.inductionOn with
  | step node children =>
    intro routine state lowered good covers
    cases node with
    | missing =>
      rw [lowerNode]
      exact .opened (.quiet rfl)
    | integer | real | char | boolean =>
      rw [lowerNode, Node.declares, Roles.extend_nil]
      exact .pure _
    | string | date =>
      rw [lowerNode, Node.declares, Roles.extend_nil]
      exact .map _ (.build _)
    | identifier position name =>
      rw [Analysis.checkNode] at good
      have known := covers.known name (List.mem_singleton_self _)
        (Analysis.checkReference_good good).1
      rw [lowerNode, Node.declares, Roles.extend_nil]
      exact .map _ (.lowerIdentifier routine (.of_roles known))
    | declaration position name type =>
      rw [Analysis.checkNode] at good
      rw [lowerNode, Node.declares]
      exact .statement (checkDeclaration_agrees
        (fun kind _ _ _ => ⟨{ name, shape := .scalar, kind }, rfl, rfl, fun _ => rfl⟩) good covers)
    | arrayDeclaration position name type first last =>
      rw [Analysis.checkNode] at good
      rw [lowerNode, Node.declares]
      refine .statement (checkDeclaration_agrees (fun kind table later declared => ?_) good covers)
      refine ⟨{ name, shape := .array first last, kind }, rfl, rfl, fun _ => if_neg fun wrong => ?_⟩
      rw [Table.declareArray, if_pos wrong] at declared
      cases declared
    | assignment position name value =>
      rw [Node.orderly, Bool.and_eq_true, Roles.lookup_isNone] at orderly
      rw [Analysis.checkNode] at good
      rw [Node.declares, Node.uses] at covers
      obtain ⟨goodValue, goodName⟩ := Analysis.both_good good
      obtain ⟨inner, roles⟩ := (children value (by simp) orderly.1).required
        goodValue (covers.mono (fun _ => id) fun _ => List.mem_cons_of_mem _)
      have known := (Analysis.checkReference_good goodName).1
      rw [roles, Roles.find?_extend_of_not_mem _ orderly.2] at known
      rw [lowerNode, Node.declares]
      exact .statement (.lowerAssignment routine
        (.of_roles (covers.known name (List.mem_cons_self ..) known)) (.operandOf _ inner))
    | arrayAssignment position name index value =>
      rw [Node.orderly, Bool.and_eq_true, Bool.and_eq_true, Roles.lookup_isNone] at orderly
      rw [Analysis.checkNode] at good
      rw [Node.declares, Node.uses] at covers
      obtain ⟨goodBoth, goodName⟩ := Analysis.both_good good
      obtain ⟨goodIndex, goodValue⟩ := Analysis.both_good goodBoth
      have present := Bool.eq_false_iff.mp (Analysis.required_good goodIndex).1
      obtain ⟨first, indexRoles⟩ := (children index (by simp) orderly.1.1).required
        goodIndex covers.first
      have covers := covers.behind
      rw [← indexRoles] at covers
      obtain ⟨second, valueRoles⟩ := (children value (by simp) orderly.1.2).required
        goodValue (covers.mono (fun _ => id) fun _ => List.mem_cons_of_mem _)
      have known := (Analysis.checkReference_good goodName).1
      rw [Analysis.both_after, valueRoles, Roles.find?_extend_of_not_mem _ orderly.2] at known
      rw [lowerNode, Node.declares, if_neg present, Roles.extend_append]
      exact .statement (.lowerElementAssignment routine (.operandOf _ first)
        (.of_roles (covers.known name (List.mem_cons_self ..) known)) (.operandOf _ second))
    | arrayAccess position name index =>
      rw [Analysis.checkNode] at good
      rw [Node.declares, Node.uses] at covers
      obtain ⟨goodIndex, goodName⟩ := Analysis.both_good good
      obtain ⟨inner, roles⟩ := (children index (by simp) orderly).required
        goodIndex (covers_first covers)
      have known := (Analysis.checkReference_good goodName).1
      rw [roles] at known
      rw [lowerNode, Node.declares]
      exact .map _ (.lowerElement routine (.operandOf _ inner)
        (.of_roles ((covers_behind covers).known name (List.mem_singleton_self _) known)))
    | binary position operator left right =>
      rw [Node.orderly, Bool.and_eq_true] at orderly
      rw [Analysis.checkNode] at good
      rw [Node.declares, Node.uses] at covers
      rw [lowerNode, Node.declares]
      split at good
      · rename_i missing
        rw [if_pos missing]
        cases Node.eq_missing missing
        obtain ⟨place, name, rfl, goodName⟩ := Analysis.checkPostfix_good good
        have known := covers.known name (List.mem_append_left _ (List.mem_singleton_self _))
          (Analysis.checkReference_good goodName).1
        simp only [Node.declares, List.append_nil, Roles.extend_nil]
        refine .map _ (.lowerPostfix routine operator fun _ _ same => ?_)
        cases same
        exact .of_roles known
      · rename_i present
        rw [if_neg present]
        obtain ⟨first, second⟩ := (children left (by simp) orderly.1).pair
          (children right (by simp) orderly.2) good covers
        exact .map _ (.lowerBinary _ first second)
    | unary position operator child =>
      rw [Analysis.checkNode] at good
      rw [lowerNode, Node.declares]
      exact .map _ (.lowerUnary _ (.operandOf _
        ((children child (by simp) orderly).required good covers).1))
    | comparison position operator left right =>
      rw [Node.orderly, Bool.and_eq_true] at orderly
      rw [Analysis.checkNode] at good
      rw [lowerNode, Node.declares]
      obtain ⟨first, second⟩ := (children left (by simp) orderly.1).pair
        (children right (by simp) orderly.2) good covers
      exact .map _ (.lowerComparison _ first second)
    | logical position operator left right =>
      rw [Node.orderly, Bool.and_eq_true] at orderly
      rw [Analysis.checkNode] at good
      rw [Node.declares, Node.uses] at covers
      rw [lowerNode, Node.declares]
      split at good
      · rename_i isNot
        rw [if_pos isNot, if_pos isNot] at covers
        rw [if_pos isNot]
        exact .map _ (.lowerNegation isNot _ (.operandOf _
          ((children right (by simp) orderly.2).required good covers).1))
      · rename_i isNot
        rw [if_neg isNot, if_neg isNot] at covers
        rw [if_neg isNot]
        obtain ⟨first, second⟩ := (children left (by simp) orderly.1).pair
          (children right (by simp) orderly.2) good covers
        exact .map _ (.lowerLogical isNot first second)
    | conditional position condition consequent alternative =>
      rw [Node.orderly, Bool.and_eq_true, Bool.and_eq_true] at orderly
      rw [Analysis.checkNode] at good
      rw [Node.declares, Node.uses] at covers
      rw [lowerNode, Node.declares]
      exact .statement (checkConditional_agrees (children condition (by simp) orderly.1.1)
        (fun node member => children node (by simp [member]) (orderly_of_mem orderly.1.2 member))
        (fun node member => children node (by simp [member])
          (orderly_of_mem orderly.2 member)) good covers)
    | forLoop position start condition step body =>
      simp only [Node.orderly, Bool.and_eq_true, List.all_eq_true, Roles.lookup_isNone] at orderly
      rw [Analysis.checkNode] at good
      rw [Node.declares, Node.uses] at covers
      rw [lowerNode, Node.declares, Roles.extend_nil]
      obtain ⟨⟨⟨⟨⟨ofStart, ofTest⟩, ofStep⟩, ofBody⟩, apart⟩, calls⟩ := orderly
      exact .statement (checkFor_agrees (children start (by simp) ofStart)
        (children condition (by simp) ofTest)
        (children step (by simp) ofStep)
        (fun node member => children node (by simp [member]) (orderly_of_mem ofBody member)) apart
        (fun use member isCall => by simpa [isCall] using calls use member) good covers)
    | whileLoop position condition body =>
      rw [Node.orderly, Bool.and_eq_true] at orderly
      rw [Analysis.checkNode] at good
      rw [Node.declares, Node.uses] at covers
      obtain ⟨goodTest, goodBody⟩ := Analysis.both_good good
      obtain ⟨test, roles⟩ := (children condition (by simp) orderly.1).required
        goodTest (covers_first covers)
      have covers := covers_behind covers
      rw [← roles] at covers
      rw [lowerNode, Node.declares]
      exact .statement (.lowerWhile (.operandOf _ test) (checkScope_agrees (fun node member =>
        children node (by simp [member]) (orderly_of_mem orderly.2 member))
        goodBody covers fun _ => id))
    | repeatLoop position body condition =>
      rw [Node.orderly, Bool.and_eq_true] at orderly
      rw [Analysis.checkNode] at good
      rw [Node.declares, Node.uses] at covers
      rw [lowerNode, Node.declares, Roles.extend_nil]
      exact .statement (checkRepeat_agrees (children condition (by simp) orderly.2)
        (fun node member => children node (by simp [member])
          (orderly_of_mem orderly.1 member)) good covers)
    | procedure position name params body =>
      rw [Analysis.checkNode] at good
      rw [lowerNode, Node.declares]
      exact .statement (checkRoutine_agrees
        (fun node member => children node member (orderly_of_mem orderly member)) good covers)
    | function position name params result body =>
      rw [Analysis.checkNode] at good
      rw [lowerNode, Node.declares]
      exact .statement (checkRoutine_agrees
        (fun node member => children node member (orderly_of_mem orderly member)) good covers)
    | call position name args =>
      rw [Node.orderly, Bool.and_eq_true, Roles.lookup_isNone] at orderly
      rw [Analysis.checkNode] at good
      rw [lowerNode, Node.declares]
      exact checkCall_agrees (fun node member => children node member
        (orderly_of_mem orderly.1 member)) orderly.2 good covers
    | «return» position value =>
      rw [Analysis.checkNode] at good
      rw [lowerNode, Node.declares]
      split at good
      · rename_i missing
        cases Node.eq_missing missing
        rw [Node.declares, Roles.extend_nil]
        refine .statement (.lowerReturn routine (fun step isStep => ?_) fun _ => rfl)
        cases isStep
      · rename_i present
        rw [if_neg present]
        refine .statement (.lowerReturn routine (fun step isStep => ?_) fun none => by cases none)
        cases isStep
        exact .operandOf _ (children value (by simp) orderly routine state lowered good covers)
    | output position args =>
      rw [Analysis.checkNode] at good
      rw [lowerNode, Node.declares]
      exact .statement (.bind (checkPrinted_agrees
        (fun node member => children node member (orderly_of_mem orderly member)) 0 good covers)
        fun _ => .callFormatted _ _ _ _)
    | input position target =>
      rw [Node.declares, Node.uses] at covers
      cases target with
      | identifier place name =>
        rw [Analysis.checkNode, Analysis.checkNode] at good
        have known := covers.known name (List.mem_singleton_self _)
          (Analysis.checkReference_good good).1
        rw [lowerNode, Node.declares, Node.declares, Roles.extend_nil]
        exact .statement (.bind (.scalarStorage (.of_roles known) routine _) fun _ =>
          .lowerInput _ _)
      | arrayAccess place name index =>
        rw [Analysis.checkNode, Analysis.checkNode] at good
        rw [Node.declares, Node.uses] at covers
        obtain ⟨goodIndex, goodName⟩ := Analysis.both_good good
        obtain ⟨inner, roles⟩ := (children index (by simp) orderly).required
          goodIndex (covers_first covers)
        have known := (Analysis.checkReference_good goodName).1
        rw [roles] at known
        rw [lowerNode, Node.declares, Node.declares]
        exact .statement (.bind (Leads.operandOf _ inner).lowerIndex.opened fun _ =>
          .bind (.storage (.of_roles ((covers_behind covers).known name
            (List.mem_singleton_self _) known)) routine _) fun _ => .lowerInput _ _)
      | _ => cases good
    | block position statements =>
      rw [Analysis.checkNode] at good
      rw [lowerNode, Node.declares]
      exact .statement (.opened (checkNodes_agrees
        (fun node member => children node member (orderly_of_mem orderly member)) good covers))

/-! ### Programs -/

/-- Lowering an orderly program that the analysis has found good resolves its names. -/
theorem lowerProgram_resolves {program : Program} (orderly : Node.orderlyAll program = true)
    (good : (Analysis.checkProgram program {}).1 = true) :
    Resolves nameless.Settled [] [] (lowerProgram program) := by
  obtain ⟨good, _⟩ := Analysis.inScope_good good
  have agrees : ∀ node ∈ program, Agrees node := fun node member =>
    lowerNode_agrees node (orderly_of_mem orderly member)
  exact .bind (.build _) fun function => .bind (.enterRoutine _) fun _ => .ownScope
    (.bind .currentRoutine fun _ =>
      .bind (checkNodes_agrees agrees good (.refl _ _ (List.cons_ne_nil _ _)))
      fun _ => .bind .get fun _ => .ite (fun _ => .build _) fun _ => .pure _) rfl

/-- A program that is found good and does not compile fails in its lowering. -/
theorem lowerProgram_of_compile_error {name : Bytes} {program : Program}
    {failure : LoweringFailure} (good : (Analysis.checkProgram program {}).1 = true)
    (failed : compile name program = .error failure) :
    ∃ workspace, lowerProgram program (.fresh name) = .error failure workspace := by
  have analyzed : (Session.new name).analyze program =
      (.ok (), ((Session.new name).analyze program).2) := Prod.ext (if_pos good) rfl
  have named : ((Session.new name).analyze program).2.name = name := rfl
  unfold compile Session.compile at failed
  rw [analyzed] at failed
  simp only [Session.lower, Session.workspace_clearModule, named] at failed
  cases lowered : lowerProgram program (.fresh name) with
  | ok made workspace =>
    rw [lowered] at failed
    cases failed
  | error other workspace =>
    rw [lowered] at failed
    cases failed
    exact ⟨workspace, rfl⟩

/-- Analysis and lowering agree on names: an orderly program in which the analysis finds no fault
does not fail to compile because of a type, a declaration or the meaning of a name. -/
theorem compile_resolvesNames {name : Bytes} {program : Program} {failure : LoweringFailure}
    (orderly : Node.orderlyAll program = true) (checked : check name program = .ok ())
    (failed : compile name program = .error failure) : failure.cause.isNaming = false := by
  have good : (Analysis.checkProgram program {}).1 = true := by
    by_contra bad
    rw [show check name program = .error _ from if_neg bad] at checked
    cases checked
  obtain ⟨workspace, lowered⟩ := lowerProgram_of_compile_error good failed
  have resolved := @lowerProgram_resolves program orderly good (.fresh name) rfl
  rw [lowered] at resolved
  cases resolved with
  | error settled => exact isNaming_of_settled settled

/-- A loop with names in every part, and a failure of lowering that has nothing to do with them: the
loop is fine, and the text that is assigned behind it is not. -/
theorem compile_resolvesNames_loop :
    let program : Program :=
      [.declaration 0 "i" "INTEGER",
       .procedure 0 "f" [⟨"n", "INTEGER"⟩] [.assignment 0 "i" (.identifier 0 "n")],
       .forLoop 0 (.assignment 0 "i" (.integer 0 0))
        (.comparison 0 "<" (.identifier 0 "i") (.integer 0 3))
        (.call 0 "f" [.binary 0 "+" (.identifier 0 "i") (.integer 0 1)])
        [.declaration 0 "n" "CHAR", .output 0 [.identifier 0 "n"]],
       .assignment 0 "i" (.string 0 "text")]
    ∃ failure, compile "t" program = .error failure ∧ failure.cause.isNaming = false := by
  intro program
  have fails : (compile "t" program).isOk = false := by decide +kernel
  cases compiled : compile "t" program with
  | ok unit =>
    rw [compiled] at fails
    cases fails
  | error failure =>
    exact ⟨failure, rfl,
      compile_resolvesNames (by decide +kernel) (by decide +kernel) compiled⟩

/-- Without this order they do not agree. The analysis visits the step of a loop before its body
and a value before the variable it is assigned to, and lowering after it; so lowering finds another
meaning of the name or none. -/
theorem compile_unresolved_disorderly :
    let overtaken : Program :=
      [.declaration 0 "i" "INTEGER",
       .procedure 0 "f" [] [.binary 0 "+" (.identifier 0 "i") .missing],
       .forLoop 0 (.assignment 0 "i" (.integer 0 0))
        (.comparison 0 "<" (.identifier 0 "i") (.integer 0 1)) (.call 0 "f" [])
        [.declaration 0 "f" "INTEGER"],
       .output 0 [.identifier 0 "i"]]
    let selfMade : Program := [.assignment 0 "x" (.declaration 0 "x" "INTEGER")]
    (check "t" overtaken = .ok () ∧ compile "t" overtaken =
      .error ⟨[.step], .fault (.diagnostic (.named .unknownFunction "f"))⟩) ∧
    check "t" selfMade = .ok () ∧ compile "t" selfMade =
      .error ⟨[], .fault (.diagnostic (.named .undeclaredIdentifier "x"))⟩ := by
  decide +kernel

end Lowering

end Pascaline
