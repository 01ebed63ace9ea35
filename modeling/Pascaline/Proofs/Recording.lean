/-
Every declaration is recorded. Lowering a node adds to the ledger exactly the variables that the
node declares, in the order in which it is lowered, and gives each of them fresh storage of the
function whose body declares it, or of the module if that is the outermost scope of the main
routine. Names in scope keep their storage meanwhile, and using a name adds none.

If lowering fails, the module still has a ledger, which tells of all storage reserved until then.
-/

import Pascaline.Proofs.Construction
import Pascaline.Proofs.Ledger
import Pascaline.Proofs.Scoping

namespace Pascaline

open IR (Build Builder Operand Slot)

/-! ### What nodes declare -/

/-- A declaration: of a variable, in the outermost scope of the main routine or elsewhere, or of a
routine with all that it declares itself. -/
inductive Plan where
  | variable (name type : Bytes) (shape : Shape) (outermost : Bool)
  | routine (inner : List Plan)

def Param.plan (param : Param) : Plan := .variable param.name param.type .scalar false

mutual

/-- What a node declares, in the order in which it is lowered. -/
def Node.plan (outermost : Bool) (node : Node) : List Plan :=
  match node with
  | .declaration _ name type => [.variable name type .scalar outermost]
  | .arrayDeclaration _ name type first last => [.variable name type (.array first last) outermost]
  | .arrayAssignment _ _ index value => index.plan outermost ++ value.plan outermost
  | .binary _ _ left right =>
    if right.isMissing then [] else left.plan outermost ++ right.plan outermost
  | .comparison _ _ left right => left.plan outermost ++ right.plan outermost
  | .logical _ operator left right =>
    if Operator.isNot operator then right.plan outermost
    else left.plan outermost ++ right.plan outermost
  | .assignment _ _ child | .arrayAccess _ _ child | .unary _ _ child | .return _ child
  | .input _ child => child.plan outermost
  | .call _ _ nodes | .output _ nodes | .block _ nodes => Node.planAll outermost nodes
  | .conditional _ condition consequent alternative =>
    condition.plan outermost ++ (Node.planAll false consequent ++ Node.planAll false alternative)
  | .forLoop _ start condition step body =>
    start.plan false ++ (condition.plan false ++ (Node.planAll false body ++ step.plan false))
  | .whileLoop _ condition body => condition.plan outermost ++ Node.planAll false body
  | .repeatLoop _ body condition => Node.planAll false body ++ condition.plan false
  | .procedure _ _ params body | .function _ _ params _ body =>
    [.routine (params.map Param.plan ++ Node.planAll false body)]
  | _ => []

/-- What nodes declare one after the other. -/
def Node.planAll (outermost : Bool) (nodes : List Node) : List Plan :=
  match nodes with
  | [] => []
  | node :: rest => node.plan outermost ++ Node.planAll outermost rest

end

/-- A variable as it was planned in the body of a function. -/
structure Symbol.Meets (function : Nat) (name type : Bytes) (shape : Shape) (outermost : Bool)
    (symbol : Symbol) : Prop where
  name : symbol.name = name
  shape : symbol.shape = shape
  kind : Kind.ofName? type = some symbol.kind
  owner : symbol.owner = if outermost then none else some function

/-- Variables as they were planned in the body of a function, in order. The functions of the
routines inside get numbers from `start` on and before `stop`, in order too. -/
inductive Fulfils : (function start stop : Nat) → List Plan → List Symbol → Prop
  | nil {function start stop : Nat} (later : start ≤ stop) : Fulfils function start stop [] []
  | «variable» {function start stop : Nat} {plan : List Plan} {symbols : List Symbol}
      {name type : Bytes} {shape : Shape} {outermost : Bool} {symbol : Symbol}
      (meets : symbol.Meets function name type shape outermost)
      (rest : Fulfils function start stop plan symbols) :
      Fulfils function start stop (.variable name type shape outermost :: plan)
        (symbol :: symbols)
  | routine {function start inner middle stop : Nat} {plan innerPlan : List Plan}
      {symbols innerSymbols : List Symbol} (later : start ≤ inner)
      (body : Fulfils inner (inner + 1) middle innerPlan innerSymbols)
      (rest : Fulfils function middle stop plan symbols) :
      Fulfils function start stop (.routine innerPlan :: plan) (innerSymbols ++ symbols)

/-- Variables as they were planned until something failed, which may be inside of a routine. -/
inductive Begins : (function start stop : Nat) → List Plan → List Symbol → Prop
  | cut {function start stop : Nat} {plan : List Plan} (later : start ≤ stop) :
      Begins function start stop plan []
  | «variable» {function start stop : Nat} {plan : List Plan} {symbols : List Symbol}
      {name type : Bytes} {shape : Shape} {outermost : Bool} {symbol : Symbol}
      (meets : symbol.Meets function name type shape outermost)
      (rest : Begins function start stop plan symbols) :
      Begins function start stop (.variable name type shape outermost :: plan) (symbol :: symbols)
  | routine {function start inner middle stop : Nat} {plan innerPlan : List Plan}
      {symbols innerSymbols : List Symbol} (later : start ≤ inner)
      (body : Fulfils inner (inner + 1) middle innerPlan innerSymbols)
      (rest : Begins function middle stop plan symbols) :
      Begins function start stop (.routine innerPlan :: plan) (innerSymbols ++ symbols)
  | inside {function start inner stop : Nat} {plan innerPlan : List Plan} {symbols : List Symbol}
      (later : start ≤ inner) (body : Begins inner (inner + 1) stop innerPlan symbols) :
      Begins function start stop (.routine innerPlan :: plan) symbols

namespace Fulfils

variable {function start middle stop : Nat} {plan planToo : List Plan}
  {symbols symbolsToo : List Symbol}

theorem le (fulfils : Fulfils function start stop plan symbols) : start ≤ stop := by
  induction fulfils with
  | nil later => exact later
  | «variable» meets rest inner => exact inner
  | routine later body rest bodyLe restLe => omega

theorem weaken {earlier : Nat} (before : earlier ≤ start)
    (fulfils : Fulfils function start stop plan symbols) :
    Fulfils function earlier stop plan symbols := by
  induction fulfils with
  | nil later => exact .nil (before.trans later)
  | «variable» meets rest inner => exact .variable meets (inner before)
  | routine later body rest _ _ => exact .routine (before.trans later) body rest

theorem append (first : Fulfils function start middle plan symbols)
    (second : Fulfils function middle stop planToo symbolsToo) :
    Fulfils function start stop (plan ++ planToo) (symbols ++ symbolsToo) := by
  induction first with
  | nil later => exact second.weaken later
  | «variable» meets rest inner => exact .variable meets (inner second)
  | routine later body rest _ inner =>
    rw [List.append_assoc]
    exact .routine later body (inner second)

end Fulfils

namespace Begins

variable {function start middle stop : Nat} {plan planToo : List Plan}
  {symbols symbolsToo : List Symbol}

theorem weaken {earlier : Nat} (before : earlier ≤ start)
    (begins : Begins function start stop plan symbols) :
    Begins function earlier stop plan symbols := by
  induction begins with
  | cut later => exact .cut (before.trans later)
  | «variable» meets rest inner => exact .variable meets (inner before)
  | routine later body rest _ => exact .routine (before.trans later) body rest
  | inside later body _ => exact .inside (before.trans later) body

/-- What failed need not have been the last part of a plan. -/
theorem append (begins : Begins function start stop plan symbols) (planToo : List Plan) :
    Begins function start stop (plan ++ planToo) symbols := by
  induction begins with
  | cut later => exact .cut later
  | «variable» meets rest inner => exact .variable meets inner
  | routine later body rest inner => exact .routine later body inner
  | inside later body _ => exact .inside later body

theorem behind (first : Fulfils function start middle plan symbols)
    (second : Begins function middle stop planToo symbolsToo) :
    Begins function start stop (plan ++ planToo) (symbols ++ symbolsToo) := by
  induction first with
  | nil later => exact second.weaken later
  | «variable» meets rest inner => exact .variable meets (inner second)
  | routine later body rest _ inner =>
    rw [List.append_assoc]
    exact .routine later body (inner second)

end Begins

namespace Lowering

variable {Result Next : Type}

/-! ### Steps that record what they declare -/

/-- A table with more symbols in its innermost scope. -/
def Gains (before after : Table) : Prop :=
  ∃ added scope outer, before.scopes = scope :: outer ∧ after.scopes = (added ++ scope) :: outer

/-- A workspace with its ledger, in which every variable in scope is listed. -/
structure Kept (ledger : List Symbol) (routine : Routine) (outermost : Bool)
    (workspace : Workspace) : Prop where
  builder : workspace.builder.Upholds ledger routine.function
  inside : workspace.table.scopes ≠ []
  listed : ∀ scope ∈ workspace.table.scopes, ∀ symbol ∈ scope, symbol.isRoutine = false →
    symbol ∈ ledger
  outermost : outermost = true ↔ routine.isMain = true ∧ workspace.table.depth = 1

/-- What a step leads to that declares what is planned: it succeeds and has recorded just that, or
it fails and has recorded it up to there. -/
inductive Recorded (routine : Routine) (outermost : Bool) (ledger : List Symbol)
    (before : Workspace) (plan : List Plan) (good : Builder → Result → Prop) :
    EStateM.Result LoweringFailure Workspace Result → Prop
  | ok {made : Result} {after : Workspace} {more : List Symbol}
      (kept : Kept (ledger ++ more) routine outermost after)
      (gains : Gains before.table after.table)
      (fulfils : Fulfils routine.function before.builder.unit.functions.size
        after.builder.unit.functions.size plan more)
      (isGood : good after.builder made) :
      Recorded routine outermost ledger before plan good (.ok made after)
  | error {failure : LoweringFailure} {after : Workspace} {more : List Symbol}
      (stored : Stored (ledger ++ more) after.builder.unit)
      (begins : Begins routine.function before.builder.unit.functions.size
        after.builder.unit.functions.size plan more) :
      Recorded routine outermost ledger before plan good (.error failure after)

def Records (routine : Routine) (outermost : Bool) (plan : List Plan)
    (good : Builder → Result → Prop) (step : Lower Result) : Prop :=
  ∀ ⦃ledger : List Symbol⦄ ⦃before : Workspace⦄, Kept ledger routine outermost before →
    Recorded routine outermost ledger before plan good (step before)

theorem Gains.refl {table : Table} (inside : table.scopes ≠ []) : Gains table table := by
  obtain ⟨scope, outer, scopes⟩ := List.exists_cons_of_ne_nil inside
  exact ⟨[], scope, outer, scopes, scopes⟩

theorem Gains.trans {first second third : Table} (early : Gains first second)
    (late : Gains second third) : Gains first third := by
  obtain ⟨added, scope, outer, isFirst, isSecond⟩ := early
  obtain ⟨addedToo, _, _, same, isThird⟩ := late
  rw [isSecond] at same
  cases same
  exact ⟨addedToo ++ added, scope, outer, isFirst, by rw [isThird, List.append_assoc]⟩

variable {ledger : List Symbol} {routine : Routine} {outermost : Bool} {workspace : Workspace}

/-- The variable that a name means has its slot. -/
theorem Kept.found {name : Bytes} {symbol : Symbol} (kept : Kept ledger routine outermost workspace)
    (found : workspace.table.find? name = some symbol) (isVariable : symbol.isRoutine = false) :
    symbol ∈ ledger ∧ ∃ slot, symbol.Placed slot := by
  obtain ⟨scope, member, here, _⟩ := Table.find?_mem found
  have listed := kept.listed scope member symbol here isVariable
  exact ⟨listed, kept.builder.stored.placed symbol listed⟩

/-- A scope of its own is never the outermost one. -/
theorem Kept.scope (kept : Kept ledger routine outermost workspace) :
    Kept ledger routine false { workspace with table := workspace.table.enter } := by
  refine ⟨kept.builder, List.cons_ne_nil _ _, fun scope member symbol here => ?_, ?_⟩
  · rcases List.mem_cons.mp member with rfl | member
    · cases here
    · exact kept.listed scope member symbol here
  · have inside : 0 < workspace.table.scopes.length := List.length_pos_iff.mpr kept.inside
    have deeper : workspace.table.enter.depth ≠ 1 := by
      simp only [Table.enter, Table.depth, List.length_cons]
      omega
    simp [deeper]

section Composition

variable {routine : Routine} {outermost : Bool} {ledger : List Symbol} {before : Workspace}
  {plan planToo : List Plan} {good : Builder → Result → Prop} {goodNext : Builder → Next → Prop}

namespace Recorded

/-- A step that changes nothing. -/
theorem same (kept : Kept ledger routine outermost before) {made : Result}
    (isGood : good before.builder made) :
    Recorded routine outermost ledger before [] good (.ok made before) := by
  have unchanged : Kept (ledger ++ []) routine outermost before := by
    rw [List.append_nil]
    exact kept
  exact .ok unchanged (.refl kept.inside) (.nil (Nat.le_refl _)) isGood

/-- A failure that changes nothing. -/
theorem fails (kept : Kept ledger routine outermost before) (failure : LoweringFailure) :
    Recorded routine outermost ledger before plan good (.error failure before) := by
  have unchanged : Stored (ledger ++ []) before.builder.unit := by
    rw [List.append_nil]
    exact kept.builder.stored
  exact .error unchanged (.cut (Nat.le_refl _))

theorem bind {step : Lower Result} {next : Result → Lower Next}
    (first : Recorded routine outermost ledger before plan good (step before))
    (second : ∀ more made middle, Kept (ledger ++ more) routine outermost middle →
      Gains before.table middle.table → good middle.builder made →
      Recorded routine outermost (ledger ++ more) middle planToo goodNext (next made middle)) :
    Recorded routine outermost ledger before (plan ++ planToo) goodNext
      ((step >>= next) before) := by
  simp only [Bind.bind, EStateM.bind]
  generalize step before = ran at first ⊢
  cases first with
  | @ok made middle more kept gains fulfils isGood =>
    have late := second more made middle kept gains isGood
    dsimp only
    generalize next made middle = ranToo at late ⊢
    cases late with
    | @ok _ _ others keptToo gainsToo fulfilsToo isGoodToo =>
      rw [List.append_assoc] at keptToo
      exact .ok keptToo (gains.trans gainsToo) (fulfils.append fulfilsToo) isGoodToo
    | error stored begins =>
      rw [List.append_assoc] at stored
      exact .error stored (.behind fulfils begins)
  | error stored begins => exact .error stored (begins.append _)

theorem imp {goodToo : Builder → Result → Prop}
    {ran : EStateM.Result LoweringFailure Workspace Result}
    (recorded : Recorded routine outermost ledger before plan good ran)
    (implies : ∀ builder made, good builder made → goodToo builder made) :
    Recorded routine outermost ledger before plan goodToo ran := by
  cases recorded with
  | ok kept gains fulfils isGood => exact .ok kept gains fulfils (implies _ _ isGood)
  | error stored begins => exact .error stored begins

end Recorded

namespace Records

theorem pure {made : Result} (isGood : ∀ builder, good builder made) :
    Records routine outermost [] good (pure made) :=
  fun _ before kept => .same kept (isGood before.builder)

theorem fail (cause : Cause) :
    Records routine outermost plan good (fail cause : Lower Result) :=
  fun _ _ kept => .fails kept _

theorem failWith (diagnostic : Diagnostic) :
    Records routine outermost plan good (failWith diagnostic : Lower Result) :=
  .fail _

variable {step : Lower Result} {next : Result → Lower Next}

theorem bind (first : Records routine outermost plan good step)
    (second : ∀ builder made, good builder made →
      Records routine outermost planToo goodNext (next made)) :
    Records routine outermost (plan ++ planToo) goodNext (step >>= next) :=
  fun _ _ kept => (first kept).bind fun _ made middle keptToo _ isGood =>
    second middle.builder made isGood keptToo

/-- A step that declares nothing, before another. -/
theorem andThen (first : Records routine outermost [] good step)
    (second : ∀ builder made, good builder made →
      Records routine outermost plan goodNext (next made)) :
    Records routine outermost plan goodNext (step >>= next) :=
  first.bind second

/-- A step that declares nothing, behind another. -/
theorem beforeAll (first : Records routine outermost plan good step)
    (second : ∀ builder made, good builder made →
      Records routine outermost [] goodNext (next made)) :
    Records routine outermost plan goodNext (step >>= next) := by
  rw [← List.append_nil plan]
  exact first.bind second

theorem imp {goodToo : Builder → Result → Prop} (inner : Records routine outermost plan good step)
    (implies : ∀ builder made, good builder made → goodToo builder made) :
    Records routine outermost plan goodToo step :=
  fun _ _ kept => (inner kept).imp implies

theorem unasked (inner : Records routine outermost plan good step) :
    Records routine outermost plan IR.Unasked step :=
  inner.imp fun _ _ _ => trivial

theorem ite {condition : Prop} [Decidable condition] {other : Lower Result}
    (yes : condition → Records routine outermost plan good step)
    (no : ¬condition → Records routine outermost plan good other) :
    Records routine outermost plan good (if condition then step else other) := by
  split
  · exact yes ‹_›
  · exact no ‹_›

theorem map {change : Result → Next} (inner : Records routine outermost plan good step)
    (isGood : ∀ builder made, good builder made → goodNext builder (change made)) :
    Records routine outermost plan goodNext (change <$> step) := by
  rw [← List.append_nil plan]
  intro ledger before kept
  refine (inner kept).bind fun _ made middle keptToo _ madeGood => ?_
  exact .same keptToo (isGood _ _ madeGood)

theorem get : Records routine outermost [] IR.Unasked get :=
  fun _ _ kept => .same kept trivial

theorem build {step : Build Result} (upholding : step.Upholding good) :
    Records routine outermost [] good (build step) := by
  intro ledger before kept
  obtain ⟨later, fewer, isGood⟩ := upholding kept.builder
  have keptToo : Kept (ledger ++ []) routine outermost
      { before with builder := (step before.builder).2 } := by
    rw [List.append_nil]
    exact ⟨later, kept.inside, kept.listed, kept.outermost⟩
  exact .ok keptToo (.refl kept.inside) (.nil fewer) isGood

/-- A change to something else than the names and the module. -/
theorem modify {change : Workspace → Workspace}
    (table : ∀ workspace, (change workspace).table = workspace.table)
    (builder : ∀ workspace, (change workspace).builder = workspace.builder) :
    Records routine outermost [] IR.Unasked (modify change : Lower PUnit) := by
  intro ledger before kept
  have keptToo : Kept (ledger ++ []) routine outermost (change before) := by
    rw [List.append_nil]
    exact ⟨builder before ▸ kept.builder, table before ▸ kept.inside, table before ▸ kept.listed,
      table before ▸ kept.outermost⟩
  refine .ok keptToo ?_ (.nil ?_) trivial
  · rw [table]
    exact .refl kept.inside
  · rw [builder]

theorem external (service : Service) :
    Records routine outermost [] IR.Unasked (external service) := by
  refine .andThen .get fun _ workspace _ => ?_
  cases workspace.externals.number? service with
  | some function => exact .pure fun _ => trivial
  | none =>
    refine .andThen (.build (Build.declareFunction_upholding _ _)) fun _ function _ => ?_
    exact .andThen (.modify (fun _ => rfl) fun _ => rfl) fun _ _ _ => .pure fun _ => trivial

theorem within (stage : Stage) (inner : Records routine outermost plan good step) :
    Records routine outermost plan good (within stage step) := by
  intro ledger before kept
  have inner := inner kept
  simp only [Lowering.within]
  generalize step before = ran at inner ⊢
  cases inner with
  | ok kept gains fulfils isGood => exact .ok kept gains fulfils isGood
  | error stored begins => exact .error stored begins

theorem located (position : Int) (inner : Records routine outermost plan good step) :
    Records routine outermost plan good (located position step) := by
  intro ledger before kept
  have inner := inner kept
  simp only [Lowering.located]
  generalize step before = ran at inner ⊢
  cases inner with
  | ok kept gains fulfils isGood => exact .ok kept gains fulfils isGood
  | @error failure _ _ stored begins =>
    obtain ⟨trail, cause⟩ := failure
    cases trail <;> exact .error stored begins

theorem inScope (inner : Records routine false plan good step) :
    Records routine outermost plan good (inScope step) := by
  intro ledger before kept
  have inner := inner kept.scope
  simp only [Lowering.inScope]
  generalize step { before with table := before.table.enter } = ran at inner ⊢
  cases inner with
  | @ok made after more keptToo gains fulfils isGood =>
    obtain ⟨added, scope, outer, isTable, scopes⟩ := gains
    cases isTable
    have closed : after.table.exit = before.table := by rw [Table.exit, scopes, List.tail_cons]
    have exited : Kept (ledger ++ more) routine outermost
        { after with table := after.table.exit } := by
      rw [closed]
      exact ⟨keptToo.builder, kept.inside, fun scope member symbol here isVariable =>
        List.mem_append_left _ (kept.listed scope member symbol here isVariable), kept.outermost⟩
    exact .ok exited (by rw [closed]; exact .refl kept.inside) fulfils isGood
  | error stored begins => exact .error stored begins

theorem find? (name : Bytes) : Records routine outermost [] IR.Unasked (find? name) :=
  .andThen .get fun _ _ _ => .pure fun _ => trivial

theorem resolve (type : Bytes) :
    Records routine outermost [] (fun _ kind => Kind.ofName? type = some kind) (resolve type) := by
  unfold Lowering.resolve
  cases named : Kind.ofName? type with
  | some kind => exact .pure fun _ => rfl
  | none => exact .failWith _

end Records

end Composition

/-! ### Fresh storage -/

section Reservation

variable {ledger : List Symbol} {builder : Builder} {routine : Routine} {symbol : Symbol}

/-- A fresh variable with a slot that has the next number of its owner. -/
structure Reserved (ledger : List Symbol) (routine : Routine) (symbol : Symbol) (builder : Builder)
    (owner : Option Nat) (made : Slot × Builder) : Prop where
  owner : (routine.claimed symbol made.1).owner = owner
  upholds : made.2.Upholds (ledger ++ [routine.claimed symbol made.1]) routine.function
  fewer : builder.unit.functions.size ≤ made.2.unit.functions.size

theorem globalVariable_reserved (upholds : builder.Upholds ledger routine.function)
    (isVariable : symbol.isRoutine = false) (unowned : symbol.owner = none) :
    Reserved ledger routine symbol builder none
      (Build.globalVariable symbol.name symbol.nativeType builder) := by
  have claimed : routine.claimed symbol
      (Build.globalVariable symbol.name symbol.nativeType builder).1 =
        symbol.bind ⟨builder.unit.globals.size, .global, symbol.nativeType⟩ := if_pos rfl
  refine ⟨claimed ▸ unowned, ?_, Nat.le_refl _⟩
  rw [claimed]
  have placed : (symbol.bind ⟨builder.unit.globals.size, .global, symbol.nativeType⟩).Placed
      ⟨builder.unit.globals.size, .global, symbol.nativeType⟩ :=
    ⟨isVariable, rfl, rfl, (if_pos unowned).symm⟩
  have owner : (symbol.bind ⟨builder.unit.globals.size, .global, symbol.nativeType⟩).owner = none :=
    unowned
  refine ⟨upholds.stored.append placed ?_ ?_ fun other different => ?_, upholds.tidy.append _,
    upholds.here, upholds.inside⟩
  · rw [owner]
    rfl
  · rw [owner]
    exact Array.size_push _
  · cases other with
    | none => exact (different owner.symm).elim
    | some function => rfl

/-- The function at work gets one more variable. -/
theorem room_grown (upholds : builder.Upholds ledger routine.function) (place : IR.Local)
    (owner : Option Nat) :
    (builder.modifyCurrentFunction fun function => { function with
      locals := function.locals.push place }).unit.room owner =
        if owner = some routine.function then builder.unit.room owner + 1
        else builder.unit.room owner := by
  obtain ⟨cursor, isCursor, here⟩ := Option.map_eq_some_iff.mp upholds.here
  have modified : (builder.modifyCurrentFunction fun function => { function with
      locals := function.locals.push place }).unit.functions =
        builder.unit.functions.modify routine.function fun function => { function with
          locals := function.locals.push place } := by
    simp only [Builder.modifyCurrentFunction, isCursor, Builder.modifyFunction, here]
  have found := Array.getElem?_eq_getElem upholds.inside
  cases owner with
  | none =>
    simp only [Builder.modifyCurrentFunction, isCursor]
    rfl
  | some number =>
    simp only [IR.Module.room, modified, Array.getElem?_modify, Option.some.injEq]
    by_cases same : routine.function = number
    · subst same
      simp [found]
    · simp [same, Ne.symm same]

theorem alloca_reserved (upholds : builder.Upholds ledger routine.function)
    (isVariable : symbol.isRoutine = false) :
    Reserved ledger routine symbol builder (some routine.function)
      (Build.alloca symbol.name symbol.nativeType builder) := by
  generalize isPlace : IR.Local.mk symbol.name symbol.nativeType = place
  generalize isSlot : Slot.mk (builder.unit.room (some routine.function)) .stack
    symbol.nativeType = slot
  have rooms := room_grown upholds place
  generalize isGrown : (builder.modifyCurrentFunction fun function => { function with
    locals := function.locals.push place }) = grown at rooms
  have made : Build.alloca symbol.name symbol.nativeType builder =
      (slot, (Build.emit (.alloca slot) grown).2) := by
    have counted : (builder.currentFunction?.map fun function => function.locals.size).getD 0 =
        builder.unit.room (some routine.function) := by
      obtain ⟨cursor, isCursor, here⟩ := Option.map_eq_some_iff.mp upholds.here
      simp [Builder.currentFunction?, Builder.function?, isCursor, here, IR.Module.room]
    rw [← isSlot, ← isGrown, ← isPlace, ← counted]
    rfl
  have claimed : routine.claimed symbol slot =
      { symbol.bind slot with owner := some routine.function } :=
    if_neg (by simp [← isSlot])
  have owner : (routine.claimed symbol slot).owner = some routine.function := by rw [claimed]
  have placed : (routine.claimed symbol slot).Placed slot := by
    rw [claimed, ← isSlot]
    exact ⟨isVariable, rfl, rfl, (if_neg (Option.some_ne_none _)).symm⟩
  have stored : Stored (ledger ++ [routine.claimed symbol slot]) grown.unit := by
    refine upholds.stored.append placed ?_ ?_ fun other different => ?_
    · rw [owner, ← isSlot]
    · rw [owner, rooms, if_pos rfl]
    · rw [rooms, if_neg (owner ▸ different)]
  have grew : grown.Upholds (ledger ++ [routine.claimed symbol slot]) routine.function := by
    rw [← isGrown] at stored ⊢
    exact upholds.changeFunction stored (upholds.tidy.append _) fun _ _ tidy => tidy
  obtain ⟨later, fewer, _⟩ := Build.emit_upholding
    (show IR.Instr.IsTidy (.alloca slot) from trivial) grew
  rw [made]
  refine ⟨owner, later, ?_⟩
  rw [← isGrown] at fewer ⊢
  exact (builder.sameMembers_modifyCurrentFunction _).functions.ge.trans fewer

/-- Storage for a symbol that has just been declared inside some outer scopes. -/
theorem reserved_reserved (upholds : builder.Upholds ledger routine.function) (outer : List Scope)
    (isVariable : symbol.isRoutine = false) (unowned : symbol.owner = none) :
    Reserved ledger routine symbol builder
      (if routine.isMain ∧ outer.length + 1 = 1 then none else some routine.function)
      (routine.reserved outer symbol builder) := by
  unfold Routine.reserved Routine.reserve
  split
  · exact globalVariable_reserved upholds isVariable unowned
  · exact alloca_reserved upholds isVariable

end Reservation

/-! ### Names -/

section Names

variable {routine : Routine} {outermost : Bool} {ledger : List Symbol} {before : Workspace}
  {plan planToo : List Plan} {goodNext : Builder → Next → Prop} {name : Bytes}

/-- What the use of a name leads to: it fails and changes nothing, or it finds a variable of the
ledger and yields its slot, or the address of an element behind that slot. -/
inductive Uses (ledger : List Symbol) (routine : Routine) (name : Bytes) (index : Option Operand)
    (before : Workspace) : EStateM.Result LoweringFailure Workspace (Symbol × Operand) → Prop
  | failed (failure : LoweringFailure) :
      Uses ledger routine name index before (.error failure before)
  | whole {symbol : Symbol} {slot : Slot} (found : before.table.find? name = some symbol)
      (listed : symbol ∈ ledger) (placed : symbol.Placed slot)
      (reachable : symbol.owner = none ∨ symbol.owner = some routine.function)
      (isWhole : index = none) :
      Uses ledger routine name index before (.ok (symbol, .slot slot) before)
  | element {symbol : Symbol} {slot : Slot} {first last : Int64} {place : Operand}
      (found : before.table.find? name = some symbol) (listed : symbol ∈ ledger)
      (placed : symbol.Placed slot)
      (reachable : symbol.owner = none ∨ symbol.owner = some routine.function)
      (isElement : index = some place) (shape : symbol.shape = .array first last) :
      Uses ledger routine name index before
        (.ok (symbol, (elementOf slot first place before.builder).1)
          { before with builder := (elementOf slot first place before.builder).2 })

theorem find?_run (name : Bytes) (next : Option Symbol → Lower Next) (before : Workspace) :
    (Lowering.find? name >>= next) before = next (before.table.find? name) before := rfl

theorem bind_run {step : Lower Result} {next : Result → Lower Next} {middle : Workspace}
    {made : Result} (ran : step before = .ok made middle) :
    (step >>= next) before = next made middle := by
  simp only [Bind.bind, EStateM.bind, ran]

theorem Kept.uses (kept : Kept ledger routine outermost before) (name : Bytes)
    (index : Option Operand) :
    Uses ledger routine name index before (routine.storage name index before) := by
  rw [Routine.storage, find?_run]
  cases found : before.table.find? name with
  | none => exact .failed _
  | some symbol =>
    cases isRoutine : symbol.isRoutine with
    | true =>
      simp only [isRoutine, if_true]
      exact .failed _
    | false =>
      obtain ⟨listed, slot, placed⟩ := kept.found found isRoutine
      have allocated : allocate (routine.reserve before.table.depth) name before =
          .ok slot before := by
        rw [allocate, find?_run, found]
        simp only [isRoutine, placed.bound, Bool.false_eq_true, if_false]
        rfl
      have looked (reachable : symbol.owner = none ∨ symbol.owner = some routine.function) :
          Uses ledger routine name index before
            ((lookup (routine.reserve before.table.depth) name index >>= fun address =>
              Pure.pure (symbol, address)) before) := by
        rw [lookup, bind_assoc, bind_run allocated]
        cases index with
        | none => exact .whole found listed placed reachable rfl
        | some place =>
          dsimp only
          rw [bind_assoc, find?_run, found]
          cases shape : symbol.shape with
          | array first last =>
            simp only [Option.map_some, shape]
            exact .element found listed placed reachable rfl shape
          | scalar | routine =>
            simp only [Option.map_some, shape]
            exact .failed _
      simp only [isRoutine, Bool.false_eq_true, if_false]
      cases owned : symbol.owner with
      | none => exact looked (.inl owned)
      | some owner =>
        dsimp only
        split
        · exact .failed _
        · rename_i own
          exact looked (.inr (owned.trans (congrArg some (Decidable.not_not.mp own))))

/-- An address that is not a parameter. -/
def Addressing (_ : Builder) (found : Symbol × Operand) : Prop :=
  ∀ slot, found.2 = .slot slot → slot.storage ≠ .param

theorem Records.storage (name : Bytes) :
    Records routine outermost [] Addressing (routine.storage name none) := by
  intro ledger before kept
  have uses := kept.uses name none
  generalize routine.storage name none before = ran at uses ⊢
  cases uses with
  | failed => exact .fails kept _
  | whole found listed placed =>
    refine .same kept fun slot isSlot => ?_
    cases isSlot
    rw [placed.storage]
    split <;> nofun
  | element found listed placed reachable isElement => cases isElement

theorem Records.scalarStorage (name misuse : Bytes) :
    Records routine outermost [] Addressing (routine.scalarStorage name misuse) :=
  .andThen (.storage name) fun _ _ isGood => .ite (fun _ => .failWith _) fun _ =>
    .pure fun _ => isGood

theorem Records.expectCategory (place : Bytes) (category : Category) (value : Operand) :
    Records routine outermost [] (fun _ _ => value.type.category = category)
      (expectCategory place category value) :=
  .ite (fun same => .pure fun _ => same) fun _ => .failWith _

theorem Kept.element (kept : Kept ledger routine outermost before) (name : Bytes)
    {value place : Operand} (widened : IR.Widened value before.builder place) :
    Recorded routine outermost ledger before []
      (fun _ found => ∃ register, found.2 = .reg register)
      (routine.storage name (some place) before) := by
  have uses := kept.uses name (some place)
  generalize routine.storage name (some place) before = ran at uses ⊢
  cases uses with
  | failed => exact .fails kept _
  | whole found listed placed reachable isWhole => cases isWhole
  | @element symbol slot first last _ found listed placed reachable isElement shape =>
    cases isElement
    obtain ⟨later, fewer, isRegister⟩ :=
      elementOf_upholds kept.builder listed reachable placed.bound shape widened
    have keptToo : Kept (ledger ++ []) routine outermost
        { before with builder := (elementOf slot first place before.builder).2 } := by
      rw [List.append_nil]
      exact ⟨later, kept.inside, kept.listed, kept.outermost⟩
    exact .ok keptToo (.refl kept.inside) (.nil fewer) isRegister

/-- An element, addressed right behind its index. -/
theorem Records.element {index : Lower Operand} {next : Symbol × Operand → Lower Next}
    (inner : Records routine outermost plan IR.Settling index) (name : Bytes)
    (rest : ∀ symbol register, Records routine outermost planToo goodNext
      (next (symbol, .reg register))) :
    Records routine outermost (plan ++ planToo) goodNext
      (lowerIndex index >>= fun place => routine.storage name (some place) >>= next) := by
  have widened : Records routine outermost plan
      (fun builder place => ∃ value, IR.Widened value builder place) (lowerIndex index) :=
    .within _ (.beforeAll inner fun _ value settled =>
      .andThen (.expectCategory _ _ value) fun _ _ integral =>
        .imp (.build (resize_widened settled integral)) fun _ _ widened => ⟨value, widened⟩)
  intro ledger before kept
  refine (widened kept).bind fun more place middle keptToo _ isWidened => ?_
  obtain ⟨value, isWidened⟩ := isWidened
  refine (keptToo.element name isWidened).bind fun _ found later keptLater _ isRegister => ?_
  obtain ⟨symbol, _⟩ := found
  obtain ⟨register, rfl⟩ := isRegister
  exact rest symbol register keptLater

/-! ### Declarations -/

theorem claimed_shape (routine : Routine) (symbol : Symbol) (slot : Slot) :
    (routine.claimed symbol slot).shape = symbol.shape := by
  unfold Routine.claimed
  split <;> rfl

theorem claimed_kind (routine : Routine) (symbol : Symbol) (slot : Slot) :
    (routine.claimed symbol slot).kind = symbol.kind := by
  unfold Routine.claimed
  split <;> rfl

variable {declaration : Table → Except Fault Table} {type : Bytes} {shape : Shape} {kind : Kind}
  {params : List Param} {kinds : List Kind} {scope : Scope} {outer : List Scope}

theorem declare_failed {fault : Fault} (declared : declaration before.table = .error fault)
    (next : Unit → Lower Next) :
    (declare declaration >>= next) before = .error (.bare (.fault fault)) before := by
  simp only [Bind.bind, EStateM.bind, declare_of_error declared]

/-- A declaration of a variable, together with its storage. -/
theorem Kept.declared {claiming : Lower Slot} (kept : Kept ledger routine outermost before)
    (named : Kind.ofName? type = some kind)
    (declares : ∀ table later, declaration table = .ok later →
      table.declare { name, shape, kind } = .ok later) (isVariable : shape.role ≠ .routine)
    (claims : ∀ workspace slot after, routine.claim name workspace = .ok slot after →
      claiming workspace = .ok slot after) :
    Recorded routine outermost ledger before [.variable name type shape outermost] IR.Unasked
      ((declare declaration >>= fun _ => claiming) before) := by
  cases declared : declaration before.table with
  | error fault =>
    rw [declare_failed declared]
    exact .fails kept _
  | ok table =>
    obtain ⟨scope, outer, scopes, fresh, rfl⟩ := Table.declare_eq_ok.mp (declares _ _ declared)
    have isVariable : Symbol.isRoutine { name, shape, kind } = false := decide_eq_false isVariable
    have reserved := reserved_reserved kept.builder outer isVariable rfl
    generalize isSymbol : ({ name, shape, kind } : Symbol) = symbol at *
    have ran : (declare declaration >>= fun _ => claiming) before =
        .ok (routine.reserved outer symbol before.builder).1
          { before with
            table := ⟨(routine.claimed symbol (routine.reserved outer symbol before.builder).1 ::
              scope) :: outer⟩
            builder := (routine.reserved outer symbol before.builder).2 } := by
      rw [bind_run ((declare_eq_ok _ _ () _).mpr ⟨_, declared, rfl⟩)]
      have isName : symbol.name = name := by rw [← isSymbol]
      exact claims _ _ _ (isName ▸ claim_eq isVariable (by rw [← isSymbol]) fresh)
    rw [ran]
    generalize routine.reserved outer symbol before.builder = made at reserved
    obtain ⟨slot, builder⟩ := made
    obtain ⟨owner, upholds, fewer⟩ := reserved
    have inOutermost : outermost = true ↔ routine.isMain = true ∧ outer.length + 1 = 1 := by
      rw [kept.outermost, Table.depth, scopes, List.length_cons]
    refine .ok ⟨upholds, List.cons_ne_nil _ _, fun inner member other here isVariable => ?_, ?_⟩
      ⟨[_], scope, outer, scopes, rfl⟩ (.variable ⟨?_, ?_, ?_, ?_⟩ (.nil fewer)) trivial
    · rcases List.mem_cons.mp member with rfl | member
      · rcases List.mem_cons.mp here with rfl | here
        · exact List.mem_append_right _ (List.mem_singleton_self _)
        · exact List.mem_append_left _
            (kept.listed scope (scopes ▸ List.mem_cons_self ..) other here isVariable)
      · exact List.mem_append_left _
          (kept.listed inner (scopes ▸ List.mem_cons_of_mem _ member) other here isVariable)
    · exact inOutermost
    · rw [claimed_name, ← isSymbol]
    · rw [claimed_shape, ← isSymbol]
    · rw [claimed_kind, ← isSymbol, named]
    · rw [owner]
      simp only [inOutermost]

theorem Records.declareVariable {declaration : Kind → Table → Except Fault Table}
    (declares : ∀ kind table later, declaration kind table = .ok later →
      table.declare { name, shape, kind } = .ok later) (isVariable : shape.role ≠ .routine) :
    Records routine outermost [.variable name type shape outermost] IR.Unasked
      (routine.declareVariable name type declaration) := by
  unfold Routine.declareVariable
  refine .ite (fun _ => .failWith _) fun _ => .andThen (.resolve type) fun _ kind named => ?_
  rw [← bind_assoc]
  have declared : Records routine outermost [.variable name type shape outermost] IR.Unasked
      (Lowering.declare (declaration kind) >>= fun _ =>
        Lowering.within .allocate (routine.claim name)) :=
    fun _ _ kept => kept.declared named (declares kind) isVariable fun _ _ _ claimed =>
      (within_eq_ok _ _ _ _ _).mpr claimed
  refine declared.bind fun _ slot _ => .ite (fun _ => ?_) fun _ => .pure fun _ => trivial
  cases Operand.zero? slot.type with
  | none => exact .pure fun _ => trivial
  | some zero => exact .build (Build.store_upholding nofun)

/-- All parameters are recorded, in order. -/
theorem Records.declareParams (resolved : paramKinds? params = some kinds) (position : Nat) :
    Records routine false (params.map Param.plan) IR.Unasked
      (routine.declareParams position params kinds) := by
  induction params generalizing kinds position with
  | nil =>
    cases resolved
    exact .pure fun _ => trivial
  | cons param params step =>
    simp only [paramKinds?, List.mapM_cons, Option.bind_eq_bind, Option.bind_eq_some_iff,
      Option.pure_def, Option.some.injEq] at resolved
    obtain ⟨kind, named, rest, resolved, rfl⟩ := resolved
    have declared : Records routine false [param.plan] IR.Unasked
        (Lowering.within (.param param.name) (do
          Lowering.declare fun table => table.declareScalar param.name kind
          routine.claim param.name)) :=
      .within _ fun _ _ kept =>
        kept.declared named (fun _ _ declared => declared) (by decide) fun _ _ _ claimed => claimed
    have argument : (Build.argument position).Upholding IR.Unasked :=
      Build.upholding_bind Build.get_upholding fun _ _ _ => Build.upholding_pure fun _ => trivial
    have stores (slot : Slot) : (do Build.store (.slot slot) (.slot (← Build.argument position)) :
        Build Unit).Upholding IR.Unasked :=
      Build.upholding_bind argument fun _ _ _ =>
        Build.store_upholding fun _ isRegister => by cases isRegister
    exact declared.bind fun _ slot _ => .andThen (.build (stores slot)) fun _ _ _ =>
      step resolved (position + 1)

/-- The workspace in which the scope of a routine is opened: its name is in scope, its function is
new, and it is the context. -/
def beforeRoutine (name : Bytes) (params : List Param) (kinds : List Kind) (result : Kind)
    (scope : Scope) (outer : List Scope) (before : Workspace) : Workspace :=
  { before with
    table := ⟨(routineSymbol name kinds result before.builder.unit.functions.size :: scope) ::
      outer⟩
    builder := (Build.defineFunction name
      { params := kinds.map Kind.native, result := result.native } (params.map Param.name)
      before.builder).2
    context := ⟨before.builder.unit.functions.size, result, false⟩ }

/-- Lowering a routine starts with its own function at work. -/
theorem Kept.enters (kept : Kept ledger routine outermost before)
    (scopes : before.table.scopes = scope :: outer) (name : Bytes) (params : List Param)
    (kinds : List Kind) (kind : Kind) :
    Kept ledger ⟨before.builder.unit.functions.size, kind, false⟩ false
      (beforeRoutine name params kinds kind scope outer before) := by
  refine ⟨Build.defineFunction_upholds kept.builder.stored kept.builder.tidy _ _ _,
    List.cons_ne_nil _ _, fun inner member symbol here isVariable => ?_, by simp⟩
  rcases List.mem_cons.mp member with rfl | member
  · rcases List.mem_cons.mp here with rfl | here
    · cases isVariable
    · exact kept.listed scope (scopes ▸ List.mem_cons_self ..) symbol here isVariable
  · exact kept.listed inner (scopes ▸ List.mem_cons_of_mem _ member) symbol here isVariable

/-- Behind a routine the outer function is at work again. -/
theorem Kept.leaves {ran : EStateM.Result LoweringFailure Workspace Unit}
    (kept : Kept ledger routine outermost before) (scopes : before.table.scopes = scope :: outer)
    (inside : Recorded ⟨before.builder.unit.functions.size, kind, false⟩ false ledger
      (beforeRoutine name params kinds kind scope outer before) plan IR.Unasked ran) :
    Recorded routine outermost ledger before [.routine plan] IR.Unasked
      (aside (fun _ => ran) before) := by
  have size : (beforeRoutine name params kinds kind scope outer
      before).builder.unit.functions.size = before.builder.unit.functions.size + 1 :=
    Array.size_push _
  cases inside with
  | error stored begins => exact .error stored (.inside (Nat.le_refl _) (size ▸ begins))
  | @ok _ after more keptInside gains fulfils =>
    obtain ⟨added, _, _, same, later⟩ := gains
    cases same
    rw [size] at fulfils
    have left : Kept (ledger ++ more) routine outermost (after.backTo before) := by
      refine ⟨⟨keptInside.builder.stored, keptInside.builder.tidy, kept.builder.here, ?_⟩,
        keptInside.inside, keptInside.listed, ?_⟩
      · have inside := kept.builder.inside
        have fewer := fulfils.le
        show routine.function < after.builder.unit.functions.size
        omega
      · rw [kept.outermost, show (after.backTo before).table = after.table from rfl]
        simp only [Table.depth, scopes, later, List.length_cons]
    have fulfils : Fulfils routine.function before.builder.unit.functions.size
        after.builder.unit.functions.size [.routine plan] more := by
      rw [← List.append_nil more]
      exact .routine (Nat.le_refl _) fulfils (.nil (Nat.le_refl _))
    have gains : Gains before.table after.table :=
      ⟨added ++ [routineSymbol name kinds kind before.builder.unit.functions.size], scope, outer,
        scopes, by rw [later, List.append_assoc, List.singleton_append]⟩
    exact .ok left gains fulfils trivial

end Names

/-! ### Expressions and statements -/

/-- An operand that can be stored: a constant or a register. -/
def Storable (_ : Builder) (operand : Operand) : Prop := operand.IsDirect

/-- A value, if there is one, that is settled. -/
def SettlingIfAny (_ : Builder) (made : Option Operand) : Prop :=
  ∀ value, made = some value → value.IsSettled

namespace Records

variable {routine : Routine} {outermost : Bool} {plan planToo : List Plan}

theorem newBlock (stem : Bytes) :
    Records routine outermost [] IR.Unasked (Lowering.build (Build.newBlock stem)) :=
  .build (Build.newBlock_upholding stem)

theorem moveTo (block : Nat) :
    Records routine outermost [] IR.Unasked (Lowering.build (Build.moveTo block)) :=
  .build (Build.moveTo_upholding block)

theorem finish {terminator : IR.Terminator} (isTidy : terminator.IsTidy) :
    Records routine outermost [] IR.Unasked (Lowering.build (Build.finish terminator)) :=
  .build (Build.finish_upholding isTidy)

variable {value : Operand} {lowered : Lower (Option Operand)} {nodes : List Node}

theorem store {address : Operand} (storable : value.IsDirect) :
    Records routine outermost [] IR.Unasked (Lowering.build (Build.store address value)) :=
  .build (Build.store_upholding fun _ _ => storable)

theorem fit (settled : value.IsSettled) (name : Bytes) (target : Ty) :
    Records routine outermost [] Storable (fit name target value) := by
  have same : Records routine outermost [] Storable (Pure.pure value) :=
    .pure fun _ => settled.direct
  refine .ite (fun _ => .failWith _) fun _ => ?_
  cases target with
  | int type => exact .ite (fun _ => .build (resize_upholding settled type)) fun _ => same
  | _ => exact same

theorem unify {left right : Operand} (first : left.IsSettled) (second : right.IsSettled)
    (operator : Bytes) :
    Records routine outermost [] IR.Unasked (unify operator left right) := by
  refine .ite (fun _ => .failWith _) fun _ => ?_
  split
  · refine .ite (fun _ => ?_) fun _ => .ite (fun _ => ?_) fun _ => .pure fun _ => trivial
    · exact .andThen (.build (resize_upholding first _)) fun _ _ _ => .pure fun _ => trivial
    · exact .andThen (.build (resize_upholding second _)) fun _ _ _ => .pure fun _ => trivial
  · exact .pure fun _ => trivial

theorem truth (settled : value.IsSettled) :
    Records routine outermost [] IR.Settling (truth value) := by
  unfold Lowering.truth
  split
  · exact .ite (fun _ => .pure fun _ => settled) fun _ => .build (Build.compare_upholding _ _ _)
  · exact .build (Build.compare_upholding _ _ _)
  · exact .build (Build.compare_upholding _ _ _)
  · exact .failWith _

theorem negate (settled : value.IsSettled) :
    Records routine outermost [] IR.Settling (negate value) :=
  .andThen (.truth settled) fun _ _ _ => .build (Build.binary_upholding _ _ _)

theorem expectType (name : Bytes) (kind : Kind) (value : Operand) :
    Records routine outermost [] IR.Unasked (expectType name kind value) :=
  .ite (fun _ => .pure fun _ => trivial) fun _ => .failWith _

theorem lowerCondition {condition : Lower Operand}
    (inner : Records routine outermost plan IR.Settling condition) :
    Records routine outermost plan IR.Unasked (lowerCondition condition) :=
  .beforeAll (.within _ inner) fun _ _ _ => .andThen (.expectCategory _ _ _) fun _ _ _ =>
    .pure fun _ => trivial

theorem lowerIdentifier (name : Bytes) :
    Records routine outermost [] IR.Settling (lowerIdentifier routine name) :=
  .andThen (.scalarStorage name _) fun _ (_, _) isAddress => .build (read_upholding isAddress)

theorem lowerElement (name : Bytes) {index : Lower Operand}
    (inner : Records routine outermost plan IR.Settling index) :
    Records routine outermost plan IR.Settling (lowerElement routine name index) := by
  rw [← List.append_nil plan]
  exact .element inner name fun _ _ => .build (Build.load_upholding _)

theorem lowerPostfix (operator : Bytes) (target : Node) :
    Records routine outermost [] IR.Settling (lowerPostfix routine operator target) := by
  cases target with
  | identifier position name =>
    refine .andThen (.scalarStorage name _) fun _ (_, address) isAddress =>
      .andThen (.build (read_upholding isAddress)) fun _ old settled => ?_
    dsimp only
    split
    · rename_i operation one _ _ _
      have stores : (do Build.store address (← Build.binary operation old one) :
          Build Unit).Upholding IR.Unasked :=
        Build.upholding_bind (Build.binary_upholding operation old one) fun _ _ isValue =>
          Build.store_upholding fun _ _ => isValue.direct
      exact .andThen (.build stores) fun _ _ _ => .pure fun _ => settled
    · exact .failWith _
  | _ => exact .failWith _

theorem lowerUnary (operator : Bytes) {operand : Lower Operand}
    (inner : Records routine outermost plan IR.Settling operand) :
    Records routine outermost plan IR.Settling (lowerUnary operator operand) := by
  refine .beforeAll inner fun _ value settled => .ite (fun _ => .pure fun _ => settled) fun _ =>
    .ite (fun _ => ?_) fun _ => .ite (fun _ => .build (Build.binary_upholding _ _ _)) fun _ =>
      .ite (fun _ => .negate settled) fun _ => .failWith _
  split
  · exact .build (Build.binary_upholding _ _ _)
  · exact .pure fun _ => settled

section Pairs

variable {left right : Lower Operand} (first : Records routine outermost plan IR.Settling left)
  (second : Records routine outermost planToo IR.Settling right)

include first second

/-- Both operands of an operator are settled. -/
theorem lowerPair :
    Records routine outermost (plan ++ planToo)
      (fun _ made => made.1.IsSettled ∧ made.2.IsSettled) (lowerPair left right) :=
  .bind (.within _ first) fun _ _ isLeft => .beforeAll (.within _ second) fun _ _ isRight =>
    .pure fun _ => ⟨isLeft, isRight⟩

theorem lowerBinary (operator : Bytes) :
    Records routine outermost (plan ++ planToo) IR.Settling (lowerBinary operator left right) := by
  refine .beforeAll (.lowerPair first second) fun _ (_, _) isPair =>
    .andThen (.unify isPair.1 isPair.2 _) fun _ (_, _, _) _ => ?_
  dsimp only
  split
  · exact .build (Build.binary_upholding _ _ _)
  · exact .failWith _

theorem lowerComparison (operator : Bytes) :
    Records routine outermost (plan ++ planToo) IR.Settling
      (lowerComparison operator left right) := by
  refine .beforeAll (.lowerPair first second) fun _ (_, _) isPair =>
    .andThen (.unify isPair.1 isPair.2 _) fun _ (_, _, _) _ => ?_
  dsimp only
  split
  · exact .build (Build.compare_upholding _ _ _)
  · exact .failWith _

/-- A connective lowers its left operand only if it has one. -/
theorem lowerLogical (operator : Bytes) :
    Records routine outermost (if Operator.isNot operator then planToo else plan ++ planToo)
      IR.Settling (lowerLogical operator left right) := by
  unfold Lowering.lowerLogical
  split
  · exact .beforeAll second fun _ _ settled => .negate settled
  · refine .beforeAll (.lowerPair first second) fun _ (_, _) isPair => ?_
    dsimp only
    split
    · exact .andThen (.truth isPair.1) fun _ _ _ => .andThen (.truth isPair.2) fun _ _ _ =>
        .build (Build.binary_upholding _ _ _)
    · exact .failWith _

/-- An assignment to an element, whose index is the first operand. -/
theorem lowerElementAssignment (name : Bytes) :
    Records routine outermost (plan ++ planToo) IR.Unasked
      (lowerElementAssignment routine name left right) :=
  .element first name fun _ _ => .beforeAll second fun _ _ settled =>
    .andThen (.fit settled _ _) fun _ _ storable => .store storable

end Pairs

theorem lowerAssignment (name : Bytes) {value : Lower Operand}
    (inner : Records routine outermost plan IR.Settling value) :
    Records routine outermost plan IR.Unasked (lowerAssignment routine name value) :=
  .andThen (.scalarStorage name _) fun _ (_, _) _ => .beforeAll inner fun _ _ settled =>
    .andThen (.fit settled _ _) fun _ _ storable => .store storable

theorem branchTo (block : Nat) : Records routine outermost [] IR.Unasked (branchTo block) :=
  .andThen .get fun _ _ _ => .ite (fun _ => .finish trivial) fun _ => .pure fun _ => trivial

/-! ### Control -/

section Control

variable {condition : Lower Operand} {testPlan bodyPlan : List Plan}

theorem lowerConditional {consequent alternative : Lower Unit}
    (test : Records routine outermost testPlan IR.Settling condition)
    (yes : Records routine false plan IR.Unasked consequent)
    (no : Records routine false planToo IR.Unasked alternative) :
    Records routine outermost (testPlan ++ (plan ++ planToo)) IR.Unasked
      (lowerConditional condition consequent alternative) :=
  .bind test.lowerCondition fun _ _ _ => .andThen (.newBlock _) fun _ _ _ =>
    .andThen (.newBlock _) fun _ _ _ => .andThen (.newBlock _) fun _ _ _ =>
    .andThen (.finish trivial) fun _ _ _ => .andThen (.moveTo _) fun _ _ _ =>
    .bind (.within _ yes.inScope) fun _ _ _ => .andThen (.branchTo _) fun _ _ _ =>
    .andThen (.moveTo _) fun _ _ _ => .beforeAll (.within _ no.inScope) fun _ _ _ =>
    .andThen (.branchTo _) fun _ _ _ => .moveTo _

theorem lowerWhile {body : Lower Unit}
    (test : Records routine outermost testPlan IR.Settling condition)
    (inner : Records routine false bodyPlan IR.Unasked body) :
    Records routine outermost (testPlan ++ bodyPlan) IR.Unasked (lowerWhile condition body) :=
  .andThen (.newBlock _) fun _ _ _ => .andThen (.newBlock _) fun _ _ _ =>
    .andThen (.newBlock _) fun _ _ _ => .andThen (.finish trivial) fun _ _ _ =>
    .andThen (.moveTo _) fun _ _ _ => .bind test.lowerCondition fun _ _ _ =>
    .andThen (.finish trivial) fun _ _ _ => .andThen (.moveTo _) fun _ _ _ =>
    .beforeAll (.within _ inner.inScope) fun _ _ _ => .andThen (.branchTo _) fun _ _ _ =>
    .moveTo _

theorem lowerRepeat {body : Lower Unit} (inner : Records routine false bodyPlan IR.Unasked body)
    (test : Records routine false testPlan IR.Settling condition) :
    Records routine outermost (bodyPlan ++ testPlan) IR.Unasked (lowerRepeat body condition) :=
  .andThen (.newBlock _) fun _ _ _ => .andThen (.newBlock _) fun _ _ _ =>
    .andThen (.newBlock _) fun _ _ _ => .inScope (.andThen (.finish trivial) fun _ _ _ =>
    .andThen (.moveTo _) fun _ _ _ => .bind (.within _ inner) fun _ _ _ =>
    .andThen (.branchTo _) fun _ _ _ => .andThen (.moveTo _) fun _ _ _ =>
    .beforeAll test.lowerCondition fun _ _ _ => .andThen (.finish trivial) fun _ _ _ => .moveTo _)

theorem lowerFor {start step body : Lower Unit} {startPlan stepPlan : List Plan}
    (first : Records routine false startPlan IR.Unasked start)
    (test : Records routine false testPlan IR.Settling condition)
    (next : Records routine false stepPlan IR.Unasked step)
    (inner : Records routine false bodyPlan IR.Unasked body) :
    Records routine outermost (startPlan ++ (testPlan ++ (bodyPlan ++ stepPlan))) IR.Unasked
      (lowerFor start condition step body) :=
  .inScope (.bind (.within _ first) fun _ _ _ => .andThen (.newBlock _) fun _ _ _ =>
    .andThen (.newBlock _) fun _ _ _ => .andThen (.newBlock _) fun _ _ _ =>
    .andThen (.finish trivial) fun _ _ _ => .andThen (.moveTo _) fun _ _ _ =>
    .bind test.lowerCondition fun _ _ _ => .andThen (.finish trivial) fun _ _ _ =>
    .andThen (.moveTo _) fun _ _ _ => .bind (.within _ inner) fun _ _ _ =>
    .beforeAll (.within _ next) fun _ _ _ => .andThen (.branchTo _) fun _ _ _ => .moveTo _)

end Control

/-! ### Routines -/

theorem resolveParams (params : List Param) :
    Records routine outermost [] (fun _ kinds => paramKinds? params = some kinds)
      (resolveParams params) := by
  induction params with
  | nil => exact .pure fun _ => rfl
  | cons param params rest =>
    refine .andThen (.within _ (.resolve _)) fun _ kind named =>
      .andThen rest fun _ kinds resolved =>
      .pure fun _ => ?_
    simp only [paramKinds?] at resolved
    simp [paramKinds?, named, resolved]

theorem resolveResult (result : Bytes) :
    Records routine outermost [] IR.Unasked (resolveResult result) :=
  .ite (fun _ => .pure fun _ => trivial) fun _ => (within _ (.resolve _)).unasked

theorem finishRoutine (name : Bytes) :
    Records routine outermost [] IR.Unasked (finishRoutine routine name) :=
  .andThen .get fun _ _ _ => .ite (fun _ => .pure fun _ => trivial) fun _ =>
    .ite (fun _ => .finish trivial) fun _ => .ite (fun _ => .failWith _) fun _ => .finish trivial

/-- The variables of a routine belong to its function, which is the next one of the module. -/
theorem lowerRoutine (name : Bytes) (params : List Param) (result : Bytes)
    {body : Routine → Lower Unit}
    (inner : ∀ routine, Records routine false plan IR.Unasked (body routine)) :
    Records routine outermost [.routine (params.map Param.plan ++ plan)] IR.Unasked
      (lowerRoutine name params result body) := by
  refine .ite (fun _ => .failWith _) fun _ =>
    .andThen (.resolveParams params) fun _ kinds resolved =>
    .andThen (.resolveResult result) fun _ kind _ => ?_
  intro ledger before kept
  cases declared : before.table.declareRoutine name kinds kind with
  | error fault =>
    rw [declare_failed declared]
    exact .fails kept _
  | ok table =>
    obtain ⟨scope, outer, scopes, fresh, rfl⟩ := Table.declare_eq_ok.mp declared
    rw [bind_run ((declare_eq_ok _ _ () _).mpr ⟨_, declared, rfl⟩)]
    have entered : Records ⟨before.builder.unit.functions.size, kind, false⟩ false
        (params.map Param.plan ++ plan) IR.Unasked (Lowering.inScope (do
          Routine.declareParams ⟨before.builder.unit.functions.size, kind, false⟩ 0 params kinds
          Lowering.within (.routine name) (body ⟨before.builder.unit.functions.size, kind, false⟩)
          Lowering.finishRoutine ⟨before.builder.unit.functions.size, kind, false⟩ name)) :=
      .inScope (.bind (.declareParams resolved 0) fun _ _ _ =>
        .beforeAll (.within _ (inner _)) fun _ _ _ => .finishRoutine name)
    have updated : Table.update ⟨({ name, shape := .routine kinds, kind } :: scope) :: outer⟩ name
        (fun symbol => { symbol with code := some before.builder.unit.functions.size }) =
          ⟨(routineSymbol name kinds kind before.builder.unit.functions.size :: scope) :: outer⟩ :=
      Table.update_cons rfl fresh _
    have left := kept.leaves scopes (entered (kept.enters scopes name params kinds kind))
    rw [beforeRoutine, ← updated] at left
    exact left

theorem callable (name : Bytes) (count : Nat) :
    Records routine outermost [] IR.Unasked (callable name count) := by
  refine .andThen (.find? name) fun _ found _ => ?_
  split
  · exact .ite (fun _ => .failWith _) fun _ => .pure fun _ => trivial
  · exact .failWith _

theorem lowerReturn {value : Lower Operand}
    (inner : Records routine outermost plan IR.Settling value) :
    Records routine outermost plan IR.Unasked (lowerReturn routine (.some value)) :=
  .ite (fun _ => .failWith _) fun _ => .beforeAll (.within _ inner)
    fun _ _ settled => .andThen (.expectType _ _ _) fun _ _ _ => .finish settled

theorem lowerReturn_none :
    Records routine outermost [] IR.Unasked (Lowering.lowerReturn routine none) :=
  .ite (fun _ => .finish trivial) fun _ =>
    .ite (fun _ => .finish ⟨.i32, by decide⟩) fun _ => .failWith _

/-! ### Output and input -/

theorem lowerPrinted (position : Nat) (value : Operand) :
    Records routine outermost [] IR.Unasked (lowerPrinted position value) := by
  unfold Lowering.lowerPrinted
  split
  · exact .andThen (.build (promote_upholding value)) fun _ _ _ => .pure fun _ => trivial
  · exact .failWith _

theorem callFormatted (service : Service) (formatName format : Bytes) (args : List Operand) :
    Records routine outermost [] IR.Unasked (callFormatted service formatName format args) :=
  .andThen (.build (Build.string_upholding _ _)) fun _ _ _ => .andThen (.external service)
    fun _ _ _ => .andThen (.build (Build.call_upholding _ _)) fun _ _ _ => .pure fun _ => trivial

theorem lowerOutput (printed : List (Bytes × Operand)) :
    Records routine outermost [] IR.Unasked (lowerOutput printed) :=
  .callFormatted _ _ _ _

theorem lowerInput (symbol : Symbol) (address : Operand) :
    Records routine outermost [] IR.Unasked (lowerInput symbol address) := by
  unfold Lowering.lowerInput
  split
  · exact .callFormatted _ _ _ _
  · exact .failWith _

/-! ### Nodes -/

theorem operand {child : Node} (inner : Records routine outermost plan SettlingIfAny lowered) :
    Records routine outermost plan IR.Settling (operand child lowered) := by
  refine .ite (fun _ => .fail _) fun _ => .beforeAll (.located _ inner) fun _ made settled => ?_
  cases made with
  | some value => exact .pure fun _ => settled value rfl
  | none => exact .fail _

theorem some {step : Lower Operand} (inner : Records routine outermost plan IR.Settling step) :
    Records routine outermost plan SettlingIfAny (some <$> step) := by
  refine .map inner fun _ made settled value isValue => ?_
  cases isValue
  exact settled

theorem constant (settled : value.IsSettled) :
    Records routine outermost [] SettlingIfAny (Pure.pure (.some value)) := by
  refine .pure fun _ other isValue => ?_
  cases isValue
  exact settled

theorem statement {step : Lower Unit} (inner : Records routine outermost plan IR.Unasked step) :
    Records routine outermost plan SettlingIfAny (statement step) :=
  .beforeAll inner fun _ _ _ => .pure fun _ => nofun

theorem discarding (node : Node) (inner : Records routine outermost plan SettlingIfAny lowered) :
    Records routine outermost plan IR.Unasked (discarding node lowered) :=
  .beforeAll (.located _ inner) fun _ _ _ => .pure fun _ => trivial

theorem lowerNodes
    (each : ∀ node ∈ nodes,
      Records routine outermost (node.plan outermost) SettlingIfAny (lowerNode node routine)) :
    Records routine outermost (Node.planAll outermost nodes) IR.Unasked
      (lowerNodes nodes routine) := by
  induction nodes with
  | nil =>
    rw [Lowering.lowerNodes, Node.planAll]
    exact .pure fun _ => trivial
  | cons node nodes rest =>
    rw [Lowering.lowerNodes, Node.planAll]
    exact .bind (.discarding _ (each node (List.mem_cons_self ..))) fun _ _ _ =>
      rest fun node member => each node (List.mem_cons_of_mem _ member)

theorem lowerArguments
    (each : ∀ node ∈ nodes,
      Records routine outermost (node.plan outermost) SettlingIfAny (lowerNode node routine))
    (name : Bytes) (position : Nat) (kinds : List Kind) :
    Records routine outermost (Node.planAll outermost nodes) IR.Unasked
      (lowerArguments name position nodes kinds routine) := by
  induction nodes generalizing position with
  | nil =>
    rw [Lowering.lowerArguments, Node.planAll]
    exact .pure fun _ => trivial
  | cons node nodes rest =>
    rw [Lowering.lowerArguments, Node.planAll]
    exact .bind (.within _ (.operand (each node (List.mem_cons_self ..)))) fun _ _ _ =>
      .andThen (.expectType _ _ _) fun _ _ _ =>
        .beforeAll (rest (fun node member => each node (List.mem_cons_of_mem _ member)) _)
          fun _ _ _ => .pure fun _ => trivial

theorem lowerPrintedList
    (each : ∀ node ∈ nodes,
      Records routine outermost (node.plan outermost) SettlingIfAny (lowerNode node routine))
    (position : Nat) :
    Records routine outermost (Node.planAll outermost nodes) IR.Unasked
      (lowerPrintedList position nodes routine) := by
  induction nodes generalizing position with
  | nil =>
    rw [Lowering.lowerPrintedList, Node.planAll]
    exact .pure fun _ => trivial
  | cons node nodes rest =>
    rw [Lowering.lowerPrintedList, Node.planAll]
    exact .bind (.within _ (.operand (each node (List.mem_cons_self ..)))) fun _ _ _ =>
      .andThen (.lowerPrinted _ _) fun _ _ _ =>
        .beforeAll (rest (fun node member => each node (List.mem_cons_of_mem _ member)) _)
          fun _ _ _ => .pure fun _ => trivial

end Records

/-- Lowering a node records what the node declares. -/
theorem lowerNode_records (node : Node) (routine : Routine) (outermost : Bool) :
    Records routine outermost (node.plan outermost) SettlingIfAny (lowerNode node routine) := by
  induction node using Node.inductionOn generalizing routine outermost with
  | step node children =>
    have operands : ∀ child ∈ node.children, ∀ outermost,
        Records routine outermost (child.plan outermost) IR.Settling
          (operand child (lowerNode child routine)) :=
      fun child member outermost => .operand (children child member routine outermost)
    have list (nodes : List Node) (members : ∀ child ∈ nodes, child ∈ node.children)
        (routine : Routine) (outermost : Bool) :
        Records routine outermost (Node.planAll outermost nodes) IR.Unasked
          (lowerNodes nodes routine) :=
      .lowerNodes fun child member => children child (members child member) routine outermost
    cases node with
    | missing =>
      rw [lowerNode]
      exact .fail _
    | integer position value =>
      rw [lowerNode]
      exact .constant ⟨.i32, by simp [wrapToWidth, IntType.i32]⟩
    | real position value =>
      rw [lowerNode]
      exact .constant trivial
    | char position value =>
      rw [lowerNode]
      exact .constant ⟨.i8, by simp [wrapToWidth, IntType.i8]⟩
    | boolean position value =>
      rw [lowerNode]
      exact .constant ⟨.i1, by cases value <;> decide⟩
    | string | date =>
      rw [lowerNode]
      exact .some (.build (Build.string_upholding _ _))
    | identifier position name =>
      rw [lowerNode]
      exact .some (.lowerIdentifier _)
    | declaration position name type =>
      rw [lowerNode, Node.plan]
      exact .statement (.declareVariable (fun _ _ _ declared => declared) (by decide))
    | arrayDeclaration position name type first last =>
      rw [lowerNode, Node.plan]
      exact .statement (.declareVariable declares_array (by simp [Shape.role]))
    | assignment position name value =>
      rw [lowerNode, Node.plan]
      exact .statement (.lowerAssignment _ (operands value (by simp) _))
    | arrayAssignment position name index value =>
      have valueRecords := operands value (by simp) outermost
      rw [lowerNode, Node.plan]
      refine .statement (.ite (fun missing => ?_) fun _ =>
        .lowerElementAssignment (operands index (by simp) _) valueRecords _)
      rw [Node.eq_missing missing]
      exact .lowerAssignment _ valueRecords
    | arrayAccess position name index =>
      rw [lowerNode, Node.plan]
      exact .some (.lowerElement _ (operands index (by simp) _))
    | binary position operator left right =>
      rw [lowerNode, Node.plan]
      split
      · exact .some (.lowerPostfix _ _)
      · exact .some (.lowerBinary (operands left (by simp) _) (operands right (by simp) _) _)
    | unary position operator child =>
      rw [lowerNode, Node.plan]
      exact .some (.lowerUnary _ (operands child (by simp) _))
    | comparison position operator left right =>
      rw [lowerNode, Node.plan]
      exact .some (.lowerComparison (operands left (by simp) _) (operands right (by simp) _) _)
    | logical position operator left right =>
      rw [lowerNode, Node.plan]
      exact .some (.lowerLogical (operands left (by simp) _) (operands right (by simp) _) _)
    | conditional position condition consequent alternative =>
      rw [lowerNode, Node.plan]
      exact .statement (.lowerConditional (operands condition (by simp) _)
        (list consequent (by simp +contextual) _ _)
        (list alternative (by simp +contextual) _ _))
    | forLoop position start condition step body =>
      rw [lowerNode, Node.plan]
      exact .statement (.lowerFor (.discarding _ (children start (by simp) _ _))
        (operands condition (by simp) _)
        (.discarding _ (children step (by simp) _ _))
        (list body (by simp +contextual) _ _))
    | whileLoop position condition body =>
      rw [lowerNode, Node.plan]
      exact .statement (.lowerWhile (operands condition (by simp) _)
        (list body (by simp +contextual) _ _))
    | repeatLoop position body condition =>
      rw [lowerNode, Node.plan]
      exact .statement (.lowerRepeat (list body (by simp +contextual) _ _)
        (operands condition (by simp) _))
    | procedure position name params body =>
      rw [lowerNode, Node.plan]
      exact .statement (.lowerRoutine _ _ _ fun inner =>
        list body (by simp) inner _)
    | function position name params result body =>
      rw [lowerNode, Node.plan]
      exact .statement (.lowerRoutine _ _ _ fun inner =>
        list body (by simp) inner _)
    | call position name args =>
      rw [lowerNode, Node.plan]
      refine .andThen (.callable _ _) fun _ found _ => ?_
      obtain ⟨_, _⟩ := found
      exact .beforeAll
        (.lowerArguments (fun node member => children node member routine outermost) _ _ _)
        fun _ _ _ => .build (Build.call_upholding _ _)
    | «return» position value =>
      rw [lowerNode, Node.plan]
      refine .statement ?_
      split
      · rename_i missing
        rw [Node.eq_missing missing]
        exact .lowerReturn_none
      · exact .lowerReturn (operands value (by simp) _)
    | output position args =>
      rw [lowerNode, Node.plan]
      exact .statement (.beforeAll
        (.lowerPrintedList (fun node member => children node member routine outermost) _)
        fun _ _ _ => .lowerOutput _)
    | input position target =>
      cases target with
      | identifier position name =>
        rw [lowerNode, Node.plan]
        refine .statement (.andThen (.scalarStorage name _) fun _ found _ => ?_)
        obtain ⟨_, _⟩ := found
        exact .lowerInput _ _
      | arrayAccess position name index =>
        rw [lowerNode, Node.plan, Node.plan, ← List.append_nil (index.plan outermost)]
        exact .statement (.element (operands index (by simp) _) name fun _ _ =>
          .lowerInput _ _)
      | _ => exact .failWith _
    | block position statements =>
      rw [lowerNode, Node.plan]
      exact .statement (list statements (by simp) _ _)

end Lowering

end Pascaline
