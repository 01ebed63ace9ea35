/-
Renaming of programs. A renaming sends different names to different names and leaves the reserved
ones alone. Applied to all declarations and references of a program it moves every scope along, so
that the analysis finds the renamed program good exactly if it finds the program good.
-/

import Pascaline.Proofs.Extension

namespace Pascaline

/-- A change of names under which different names stay different. -/
structure Renaming where
  apply : Bytes → Bytes
  injective : Function.Injective apply
  fixes : ∀ name, isReserved name = true → apply name = name

namespace Renaming

instance : CoeFun Renaming fun _ => Bytes → Bytes := ⟨Renaming.apply⟩

variable (names : Renaming)

/-- The renaming that changes nothing. -/
def unchanged : Renaming := ⟨id, fun _ _ same => same, fun _ _ => rfl⟩

/-- Reserved names stay what they are, and no other name becomes reserved: a renaming is injective,
and what would be mapped to a reserved name is taken already by that name itself. -/
@[simp]
theorem isReserved_apply (name : Bytes) : isReserved (names name) = isReserved name := by
  cases reserved : isReserved name with
  | true => rw [names.fixes name reserved, reserved]
  | false =>
    by_contra reservedToo
    have same := names.injective (names.fixes _ (Bool.eq_true_of_not_eq_false reservedToo))
    rw [same] at reservedToo
    exact reservedToo reserved

/-- A name and what it becomes are looked for by the machine both or not at all. -/
theorem alike (name : Bytes) :
    name = names name ∨ (isReserved name = false ∧ isReserved (names name) = false) := by
  cases reserved : isReserved name with
  | true => exact .inl (names.fixes name reserved).symm
  | false => exact .inr ⟨rfl, (names.isReserved_apply name).trans reserved⟩

end Renaming

/-! ### Renamed trees -/

def Param.rename (names : Renaming) (param : Param) : Param :=
  { param with name := names param.name }

namespace Node

mutual

/-- The tree with the names of its variables, arrays, parameters and routines changed. -/
def rename (names : Renaming) : Node → Node
  | .missing => .missing
  | .integer position value => .integer position value
  | .real position value => .real position value
  | .char position value => .char position value
  | .string position value => .string position value
  | .date position value => .date position value
  | .boolean position value => .boolean position value
  | .identifier position name => .identifier position (names name)
  | .declaration position name type => .declaration position (names name) type
  | .arrayDeclaration position name type first last =>
    .arrayDeclaration position (names name) type first last
  | .assignment position name value =>
    .assignment position (names name) (value.rename names)
  | .arrayAssignment position name index value =>
    .arrayAssignment position (names name) (index.rename names) (value.rename names)
  | .arrayAccess position name index =>
    .arrayAccess position (names name) (index.rename names)
  | .binary position operator left right =>
    .binary position operator (left.rename names) (right.rename names)
  | .unary position operator operand => .unary position operator (operand.rename names)
  | .comparison position operator left right =>
    .comparison position operator (left.rename names) (right.rename names)
  | .logical position operator left right =>
    .logical position operator (left.rename names) (right.rename names)
  | .conditional position condition consequent alternative =>
    .conditional position (condition.rename names) (renameAll names consequent)
      (renameAll names alternative)
  | .forLoop position start condition step body =>
    .forLoop position (start.rename names) (condition.rename names) (step.rename names)
      (renameAll names body)
  | .whileLoop position condition body =>
    .whileLoop position (condition.rename names) (renameAll names body)
  | .repeatLoop position body condition =>
    .repeatLoop position (renameAll names body) (condition.rename names)
  | .procedure position name params body =>
    .procedure position (names name) (params.map (Param.rename names))
      (renameAll names body)
  | .function position name params result body =>
    .function position (names name) (params.map (Param.rename names)) result
      (renameAll names body)
  | .call position name args => .call position (names name) (renameAll names args)
  | .return position value => .return position (value.rename names)
  | .output position args => .output position (renameAll names args)
  | .input position target => .input position (target.rename names)
  | .block position statements => .block position (renameAll names statements)

/-- The trees with their names changed. -/
def renameAll (names : Renaming) : List Node → List Node
  | [] => []
  | node :: rest => node.rename names :: renameAll names rest

end

variable (names : Renaming)

/-- Lists are renamed member by member. The function of its own is there for the recursion over
trees. -/
theorem renameAll_eq_map (nodes : List Node) :
    renameAll names nodes = nodes.map (rename names) := by
  induction nodes with
  | nil => rfl
  | cons node rest same => rw [renameAll, same, List.map_cons]

@[simp]
theorem isMissing_rename (node : Node) : (node.rename names).isMissing = node.isMissing := by
  cases node <;> rfl

/-- So faults are reported at the same positions. -/
@[simp]
theorem position_rename (node : Node) : (node.rename names).position = node.position := by
  cases node <;> rfl

@[simp]
theorem length_renameAll (nodes : List Node) :
    (renameAll names nodes).length = nodes.length := by
  rw [renameAll_eq_map, List.length_map]

end Node

/-- The program with all its names changed. -/
def Program.rename (names : Renaming) (program : Program) : Program :=
  Node.renameAll names program

/-! ### Renamed scopes -/

def Symbol.rename (names : Renaming) (symbol : Symbol) : Symbol :=
  { symbol with name := names symbol.name }

def Scope.rename (names : Renaming) (scope : Scope) : Scope :=
  List.map (Symbol.rename names) scope

namespace Table

variable (names : Renaming) (table : Table)

/-- The same scopes with all names changed. -/
def rename : Table := ⟨table.scopes.map (Scope.rename names)⟩

@[simp]
theorem depth_rename : (table.rename names).depth = table.depth := by
  simp [rename, depth]

@[simp]
theorem enter_rename : (table.rename names).enter = table.enter.rename names := rfl

/-- Scopes are left alone as scopes, so opening and closing them commutes with the renaming. -/
@[simp]
theorem exit_rename : (table.rename names).exit = table.exit.rename names := by
  simp [rename, exit]

/-- A scope has a symbol under a new name exactly if it had it under the old one. This is where
different names have to stay different. -/
theorem scope_find?_rename (scope : Scope) (name : Bytes) :
    (scope.rename names).find? (names name) =
      (scope.find? name).map (Symbol.rename names) := by
  simp only [Scope.find?, Scope.rename, List.find?_map, Function.comp_def]
  congr 2
  funext symbol
  exact decide_eq_decide.mpr names.injective.eq_iff

/-- The innermost scope that has the name is the same one, by induction over the scopes. -/
@[simp]
theorem find?_rename (name : Bytes) :
    (table.rename names).find? (names name) =
      (table.find? name).map (Symbol.rename names) := by
  simp only [find?, rename, List.findSome?_map, Function.comp_def, scope_find?_rename]
  induction table.scopes with
  | nil => rfl
  | cons scope outer same =>
    rw [List.findSome?_cons, List.findSome?_cons, same]
    cases scope.find? name <;> rfl

@[simp]
theorem isDeclared_rename (name : Bytes) :
    (table.rename names).isDeclared (names name) = table.isDeclared name := by
  simp [isDeclared]

/-- A name can be declared again after the renaming exactly if it could before. -/
@[simp]
theorem declaredHere_rename (name : Bytes) :
    (table.rename names).declaredHere (names name) = table.declaredHere name := by
  obtain ⟨scopes⟩ := table
  cases scopes with
  | nil => rfl
  | cons scope outer =>
    show ((scope.rename names).find? (names name)).isSome = (scope.find? name).isSome
    rw [scope_find?_rename, Option.isSome_map]

/-- The symbol of a name is changed in place, and it is the same place before and behind the
renaming. -/
theorem update_rename (name : Bytes) {change changeToo : Symbol → Symbol}
    (same : ∀ symbol, changeToo (symbol.rename names) = (change symbol).rename names) :
    (table.rename names).update (names name) changeToo =
      (table.update name change).rename names := by
  have scopeSame (scope : Scope) : (scope.rename names).update (names name) changeToo =
      (scope.update name change).rename names := by
    simp only [Scope.rename, Scope.update, List.map_map]
    refine List.map_congr_left fun symbol _ => ?_
    show (if names symbol.name = names name then changeToo (symbol.rename names)
      else symbol.rename names) = Symbol.rename names (if symbol.name = name then _ else _)
    simp only [names.injective.eq_iff, same]
    split <;> rfl
  simp only [rename, update, mk.injEq]
  induction table.scopes with
  | nil => rfl
  | cons scope outer sameRest =>
    simp only [List.map_cons, update.updateFirst, scope_find?_rename, Option.isSome_map]
    split
    · rw [List.map_cons, scopeSame]
    · rw [List.map_cons, sameRest]

theorem depth_update (name : Bytes) (change : Symbol → Symbol) :
    (table.update name change).depth = table.depth := by
  simp only [update, depth]
  induction table.scopes with
  | nil => rfl
  | cons scope outer same =>
    rw [update.updateFirst]
    split
    · rfl
    · rw [List.length_cons, List.length_cons, same]

/-- Two declarations of the same thing under a name and what it becomes: both succeed or both
fail, and no scope is opened or closed. -/
def DeclaresAlike (declaration twin : Table → Except Fault Table) : Prop :=
  ∀ table : Table,
    (∃ made, declaration table = .ok made ∧ twin (table.rename names) = .ok (made.rename names) ∧
      made.depth = table.depth) ∨
    ∃ fault faultToo, declaration table = .error fault ∧
      twin (table.rename names) = .error faultToo

/-- A declaration fails if the innermost scope has the name, which does not depend on how things are
called. If it succeeds, both scopes gain a symbol. -/
theorem declare_alike (symbol : Symbol) :
    DeclaresAlike names (fun table => table.declare symbol)
      fun table => table.declare (symbol.rename names) := by
  intro table
  obtain ⟨scopes⟩ := table
  cases scopes with
  | nil => exact .inr ⟨_, _, rfl, rfl⟩
  | cons scope outer =>
    have here : ((scope.rename names).find? (symbol.rename names).name).isSome =
        (scope.find? symbol.name).isSome := by
      show ((scope.rename names).find? (names symbol.name)).isSome = _
      rw [scope_find?_rename, Option.isSome_map]
    simp only [declare, rename, List.map_cons, here]
    cases (scope.find? symbol.name).isSome with
    | true => exact .inr ⟨_, _, rfl, rfl⟩
    | false => exact .inl ⟨_, rfl, rfl, rfl⟩

theorem declareScalar_alike (name : Bytes) (kind : Kind) :
    DeclaresAlike names (fun table => table.declareScalar name kind)
      fun table => table.declareScalar (names name) kind :=
  declare_alike names { name, shape := .scalar, kind }

/-- The bounds of an array are checked before its name. -/
theorem declareArray_alike (name : Bytes) (kind : Kind) (first last : Int64) :
    DeclaresAlike names (fun table => table.declareArray name kind first last)
      fun table => table.declareArray (names name) kind first last := by
  unfold declareArray
  split
  · exact fun _ => .inr ⟨_, _, rfl, rfl⟩
  · exact declare_alike names { name, shape := .array first last, kind }

theorem declareRoutine_alike (name : Bytes) (params : List Kind) (result : Kind) :
    DeclaresAlike names (fun table => table.declareRoutine name params result)
      fun table => table.declareRoutine (names name) params result :=
  declare_alike names { name, shape := .routine params, kind := result }

end Table

/-! ### Analysis of renamed programs -/

namespace Analysis

variable {declaration : Table → Except Fault Table} {state : State} {twin : Check Bool}
  {nodes : List Node}

theorem declare_of_ok (node : Node) {table : Table}
    (declared : declaration state.table = .ok table) :
    declare node declaration state = (true, { state with table }) := by
  simp [declare, bind, StateT.bind, get, getThe, MonadStateOf.get, StateT.get, modify, modifyGet,
    MonadStateOf.modifyGet, StateT.modifyGet, pure, StateT.pure, declared]

theorem declare_of_error (node : Node) {fault : Fault}
    (declared : declaration state.table = .error fault) :
    declare node declaration state = reportAt node fault state := by
  simp [declare, bind, StateT.bind, get, getThe, MonadStateOf.get, StateT.get, pure, declared]

variable {Result Next : Type} (names : Renaming)

/-- Two checks with the same outcome on scopes that differ in names only, after which the scopes
differ in names only again and none is left open. -/
def Twins (check twin : Check Result) : Prop :=
  ∀ ⦃before other : State⦄, other.table = before.table.rename names →
    (check before).1 = (twin other).1 ∧
      (twin other).2.table = (check before).2.table.rename names ∧
      (check before).2.table.depth = before.table.depth

variable {names}

theorem Twins.pure (result : Result) : Twins names (pure result) (pure result) :=
  fun _ _ same => ⟨rfl, same, rfl⟩

/-- The outcome of the first check is the same on both sides, so that the second ones are compared
for one outcome only. -/
theorem Twins.bind {check twin : Check Result} {next nextToo : Result → Check Next}
    (first : Twins names check twin)
    (second : ∀ result, Twins names (next result) (nextToo result)) :
    Twins names (check >>= next) (twin >>= nextToo) := by
  intro before other same
  obtain ⟨result, table, depth⟩ := first same
  obtain ⟨resultToo, tableToo, depthToo⟩ := second (check before).1 table
  show (next (check before).1 _).1 = (nextToo (twin other).1 _).1 ∧
    (nextToo (twin other).1 _).2.table = _ ∧ _
  rw [← result]
  exact ⟨resultToo, tableToo, depthToo.trans depth⟩

/-- Faults may tell names, so nothing is asked of them. Only the outcome and the scopes count. -/
theorem Twins.report (fault faultToo : Fault) :
    Twins names (report fault) (report faultToo) :=
  fun _ _ same => ⟨rfl, same, rfl⟩

theorem Twins.reportAt (node nodeToo : Node) (fault faultToo : Fault) :
    Twins names (reportAt node fault) (reportAt nodeToo faultToo) :=
  .report _ _

/-- A check that depends on what is known of the names in scope. -/
theorem Twins.reading (view viewToo : Table → Result) (next nextToo : Result → Check Next)
    (same : ∀ table : Table, viewToo (table.rename names) = view table)
    (rest : ∀ result, Twins names (next result) (nextToo result)) :
    Twins names (do next (view (← get).table)) (do nextToo (viewToo (← get).table)) := by
  intro before other table
  show (next (view before.table) before).1 = (nextToo (viewToo other.table) other).1 ∧
    (nextToo (viewToo other.table) other).2.table = _ ∧ _
  rw [table, same]
  exact rest _ table

/-- A declaration changes the scopes or reports a fault, on both sides alike. -/
theorem Twins.declare (node nodeToo : Node) {twin : Table → Except Fault Table}
    (alike : Table.DeclaresAlike names declaration twin) :
    Twins names (declare node declaration) (declare nodeToo twin) := by
  intro before other same
  rcases alike before.table with
    ⟨made, declared, declaredToo, depth⟩ | ⟨_, _, declared, declaredToo⟩
  · rw [declare_of_ok node declared, declare_of_ok nodeToo (same ▸ declaredToo)]
    exact ⟨rfl, rfl, depth⟩
  · rw [declare_of_error node declared, declare_of_error nodeToo (same ▸ declaredToo)]
    exact Twins.reportAt node nodeToo _ _ same

/-- The scope that is closed behind a check is the one that was opened before it, as checks are
balanced. -/
theorem Twins.inScope {check : Check Bool} (inner : Twins names check twin) :
    Twins names (inScope check) (inScope twin) := by
  intro before other same
  have entered : other.table.enter = before.table.enter.rename names := by
    rw [same, Table.enter_rename]
  obtain ⟨result, table, depth⟩ := inner
    (show (⟨other.table.enter, other.faults⟩ : State).table =
      (⟨before.table.enter, before.faults⟩ : State).table.rename names from entered)
  refine ⟨result, ?_, ?_⟩
  · show (twin ⟨other.table.enter, other.faults⟩).2.table.exit = _
    rw [table, Table.exit_rename]
    rfl
  · show (check ⟨before.table.enter, before.faults⟩).2.table.exit.depth = before.table.depth
    rw [Table.exit, Table.depth, List.length_tail]
    exact Nat.sub_eq_of_eq_add depth

/-- Both parts are checked on each side, whatever the first one gives. -/
theorem Twins.both {first second twinToo : Check Bool} (early : Twins names first twin)
    (late : Twins names second twinToo) : Twins names (both first second) (both twin twinToo) :=
  .bind early fun _ => .bind late fun _ => .pure _

theorem Twins.checkReference (node nodeToo : Node) (name : Bytes) :
    Twins names (checkReference node name) (checkReference nodeToo (names name)) := by
  refine .reading (fun table => table.isDeclared name) (fun table => table.isDeclared (names name))
    (fun declared => if declared = true then _ else _)
    (fun declared => if declared = true then _ else _)
    (fun table => table.isDeclared_rename names name) fun declared => ?_
  cases declared with
  | true => exact .pure _
  | false => exact .reportAt _ _ _ _

theorem Twins.checkCallee (node nodeToo : Node) (name : Bytes) :
    Twins names (checkCallee node name) (checkCallee nodeToo (names name)) := by
  have same (table : Table) : ((table.rename names).find? (names name)).any Symbol.isRoutine =
      (table.find? name).any Symbol.isRoutine := by
    rw [Table.find?_rename]
    cases table.find? name <;> rfl
  refine .reading (fun table => (table.find? name).any Symbol.isRoutine)
    (fun table => (table.find? (names name)).any Symbol.isRoutine)
    (fun found => if found = true then _ else _) (fun found => if found = true then _ else _)
    same fun found => ?_
  cases found with
  | true => exact .pure _
  | false => exact .reportAt _ _ _ _

theorem Twins.resolve (node nodeToo : Node) (type : Bytes) :
    Twins names (resolve node type) (resolve nodeToo type) := by
  unfold Analysis.resolve
  cases Kind.ofName? type with
  | some kind => exact .pure _
  | none => exact .bind (.reportAt _ _ _ _) fun _ => .pure _

theorem Twins.resolveParams (node nodeToo : Node) (params : List Param) :
    Twins names (resolveParams node params)
      (resolveParams nodeToo (params.map (Param.rename names))) := by
  induction params with
  | nil => exact .pure _
  | cons param params rest =>
    exact .bind (.resolve _ _ _) fun _ => .bind rest fun _ => .pure _

theorem Twins.resolveResult (node nodeToo : Node) (result : Bytes) :
    Twins names (resolveResult node result) (resolveResult nodeToo result) := by
  unfold Analysis.resolveResult
  split
  · exact .pure _
  · exact .resolve _ _ _

/-- A declaration with an unknown type is a fault on both sides, and declares nothing on either. -/
theorem Twins.checkDeclaration (node nodeToo : Node) (name type : Bytes)
    {declaration twin : Kind → Table → Except Fault Table}
    (alike : ∀ kind, Table.DeclaresAlike names (declaration kind) (twin kind)) :
    Twins names (checkDeclaration node name type declaration)
      (checkDeclaration nodeToo (names name) type twin) := by
  refine .bind (.resolve _ _ _) fun ⟨good, kind⟩ => ?_
  refine .reading (fun table => table.declaredHere name || isReserved name)
    (fun table => table.declaredHere (names name) || isReserved (names name))
    (fun taken => if taken = true then _ else _) (fun taken => if taken = true then _ else _)
    (fun table => by simp) fun taken => ?_
  cases taken with
  | true => exact .reportAt _ _ _ _
  | false => exact .bind (.declare _ _ (alike kind)) fun _ => .pure _

/-- Parameters with the same name are a fault, and they still have the same name behind a renaming.
The induction is over the names and the kinds together. -/
theorem Twins.declareParams (node nodeToo : Node) (params : List Param) (kinds : List Kind) :
    Twins names (declareParams node params kinds)
      (declareParams nodeToo (params.map (Param.rename names)) kinds) := by
  induction params generalizing kinds with
  | nil => exact .pure _
  | cons param params rest =>
    cases kinds with
    | nil => exact .pure _
    | cons kind kinds =>
      exact .bind (.declare _ _ (Table.declareScalar_alike names param.name kind)) fun _ =>
        .bind (rest kinds) fun _ => .pure _

/-- A routine is declared before its body is checked, so that it may call itself, and its parameters
and its body have a scope of their own. -/
theorem Twins.checkRoutine (node nodeToo : Node) (name : Bytes) (params : List Param)
    (result : Bytes) {body : Check Bool} (inner : Twins names body twin) :
    Twins names (checkRoutine node name params result body)
      (checkRoutine nodeToo (names name) (params.map (Param.rename names)) result twin) := by
  refine .bind (.resolveParams _ _ _) fun ⟨goodParams, kinds⟩ =>
    .bind (.resolveResult _ _ _) fun ⟨goodResult, kind⟩ => ?_
  dsimp only
  rw [Renaming.isReserved_apply]
  split <;> refine .bind ?_ fun _ =>
    .bind (.declare _ _ (Table.declareRoutine_alike names name kinds kind)) fun _ =>
      .bind (.inScope (.bind (.declareParams _ _ _ _) fun _ => .bind inner fun _ => .pure _))
        fun _ => .pure _
  · exact .reportAt _ _ _ _
  · exact .pure _

/-- A child that is missing is a fault on both sides, since a renaming leaves it missing. -/
theorem Twins.required (parent parentToo child : Node) {check : Check Bool}
    (inner : Twins names check twin) :
    Twins names (required parent child check)
      (required parentToo (child.rename names) twin) := by
  unfold Analysis.required
  rw [Node.isMissing_rename]
  split
  · exact .reportAt _ _ _ _
  · exact inner

/-- Whether an operator stands behind a variable does not depend on what the variable is called. -/
theorem Twins.checkPostfix (node nodeToo : Node) (operator : Bytes) (target : Node) :
    Twins names (checkPostfix node operator target)
      (checkPostfix nodeToo operator (target.rename names)) := by
  unfold Analysis.checkPostfix
  split
  · cases target with
    | identifier position name => exact .checkReference _ _ _
    | _ => exact .reportAt _ _ _ _
  · exact .reportAt _ _ _ _

/-- All nodes of a list are checked, each one beside its renaming. -/
theorem Twins.checkNodes
    (each : ∀ node ∈ nodes, Twins names (checkNode node) (checkNode (node.rename names))) :
    Twins names (checkNodes nodes) (checkNodes (Node.renameAll names nodes)) := by
  induction nodes with
  | nil => exact .pure _
  | cons node nodes rest =>
    rw [Node.renameAll, Analysis.checkNodes, Analysis.checkNodes]
    exact .both (each node (List.mem_cons_self ..))
      (rest fun node member => each node (List.mem_cons_of_mem _ member))

theorem Twins.checkOperands (parent parentToo : Node)
    (each : ∀ node ∈ nodes, Twins names (checkNode node) (checkNode (node.rename names))) :
    Twins names (checkOperands parent nodes)
      (checkOperands parentToo (Node.renameAll names nodes)) := by
  induction nodes with
  | nil => exact .pure _
  | cons node nodes rest =>
    rw [Node.renameAll, Analysis.checkOperands, Analysis.checkOperands]
    exact .both (.required _ _ _ (each node (List.mem_cons_self ..)))
      (rest fun node member => each node (List.mem_cons_of_mem _ member))

/-- A tree and the renamed tree are good or not alike. -/
theorem checkNode_twins (names : Renaming) (node : Node) :
    Twins names (checkNode node) (checkNode (node.rename names)) := by
  induction node using Node.inductionOn with
  | step node children =>
    cases node with
    | missing =>
      rw [Node.rename, checkNode]
      exact .report _ _
    | integer | real | char | string | date | boolean =>
      rw [Node.rename, checkNode]
      exact .pure _
    | identifier position name =>
      rw [Node.rename, checkNode, checkNode]
      exact .checkReference _ _ _
    | declaration position name type =>
      rw [Node.rename, checkNode, checkNode]
      exact .checkDeclaration _ _ _ _ (Table.declareScalar_alike names name)
    | arrayDeclaration position name type first last =>
      rw [Node.rename, checkNode, checkNode]
      exact .checkDeclaration _ _ _ _ fun kind =>
        Table.declareArray_alike names name kind first last
    | assignment position name value =>
      rw [Node.rename, checkNode, checkNode]
      exact .both (.required _ _ _ (children value (by simp))) (.checkReference _ _ _)
    | arrayAssignment position name index value =>
      rw [Node.rename, checkNode, checkNode]
      exact .both (.both (.required _ _ _ (children index (by simp)))
        (.required _ _ _ (children value (by simp)))) (.checkReference _ _ _)
    | arrayAccess position name index =>
      rw [Node.rename, checkNode, checkNode]
      exact .both (.required _ _ _ (children index (by simp))) (.checkReference _ _ _)
    | binary position operator left right =>
      have leftTwins := children left (by simp)
      have rightTwins := children right (by simp)
      rw [Node.rename, checkNode, checkNode, Node.isMissing_rename]
      split
      · exact .checkPostfix _ _ _ _
      · exact .both (.required _ _ _ leftTwins) (.required _ _ _ rightTwins)
    | comparison position operator left right =>
      rw [Node.rename, checkNode, checkNode]
      exact .both (.required _ _ _ (children left (by simp)))
        (.required _ _ _ (children right (by simp)))
    | logical position operator left right =>
      have leftTwins := children left (by simp)
      have rightTwins := children right (by simp)
      rw [Node.rename, checkNode, checkNode]
      split
      · exact .required _ _ _ rightTwins
      · exact .both (.required _ _ _ leftTwins) (.required _ _ _ rightTwins)
    | unary position operator operand =>
      rw [Node.rename, checkNode, checkNode]
      exact .required _ _ _ (children operand (by simp))
    | conditional position condition consequent alternative =>
      rw [Node.rename, checkNode, checkNode]
      refine .both (.required _ _ _ (children condition (by simp)))
        (.both (.inScope (.checkNodes fun node member => ?_))
          (.inScope (.checkNodes fun node member => ?_)))
      · exact children node (by simp [member])
      · exact children node (by simp [member])
    | forLoop position start condition step body =>
      rw [Node.rename, checkNode, checkNode]
      exact .inScope (.both (.required _ _ _ (children start (by simp)))
        (.both (.required _ _ _ (children condition (by simp)))
          (.both (.required _ _ _ (children step (by simp)))
            (.checkNodes fun node member => children node (by simp [member])))))
    | whileLoop position condition body =>
      rw [Node.rename, checkNode, checkNode]
      exact .both (.required _ _ _ (children condition (by simp)))
        (.inScope (.checkNodes fun node member => children node (by simp [member])))
    | repeatLoop position body condition =>
      rw [Node.rename, checkNode, checkNode]
      exact .inScope (.both (.checkNodes fun node member => children node (by simp [member]))
        (.required _ _ _ (children condition (by simp))))
    | procedure position name params body =>
      rw [Node.rename, checkNode, checkNode]
      exact .checkRoutine _ _ _ _ _ (.checkNodes children)
    | function position name params result body =>
      rw [Node.rename, checkNode, checkNode]
      exact .checkRoutine _ _ _ _ _ (.checkNodes children)
    | call position name args =>
      rw [Node.rename, checkNode, checkNode]
      exact .both (.checkOperands _ _ children) (.checkCallee _ _ _)
    | «return» position value =>
      have valueTwins := children value (by simp)
      rw [Node.rename, checkNode, checkNode, Node.isMissing_rename]
      split
      · exact .pure _
      · exact valueTwins
    | output position args =>
      rw [Node.rename, checkNode, checkNode]
      exact .checkOperands _ _ children
    | input position target =>
      cases target with
      | identifier position name =>
        rw [Node.rename, Node.rename, checkNode, checkNode, checkNode, checkNode]
        exact .checkReference _ _ _
      | arrayAccess position name index =>
        rw [Node.rename, Node.rename, checkNode, checkNode, checkNode, checkNode]
        exact .both (.required _ _ _ (children index (by simp))) (.checkReference _ _ _)
      | _ => exact .reportAt _ _ _ _
    | block position statements =>
      rw [Node.rename, checkNode, checkNode]
      exact .checkNodes children

theorem checkProgram_twins (names : Renaming) (program : Program) :
    Twins names (checkProgram program) (checkProgram (program.rename names)) :=
  .inScope (.checkNodes fun node _ => checkNode_twins names node)

end Analysis

end Pascaline
