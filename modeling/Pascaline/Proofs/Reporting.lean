/-
This file accounts for what the analysis reports.

A check is told apart by the faults that it adds to those found before, and by its verdict. Whether
a check reports something does not depend on what has been reported before; its verdict is bad just
if it has reported something; and of the names in scope it leaves all that it finds, and adds to
those of the innermost scope. All this is kept when checks are put one behind the other, since none
of them is left out for a bad verdict of another one. So it holds for every tree.

The account also says where the faults are placed: at the nodes of the tree.
-/

import Pascaline.Proofs.Scoping
import Pascaline.Session

namespace Pascaline

/-! ### Nodes of a tree -/

namespace Node

/-- The children of a node that stand alone, each in a place of its own. -/
def operands : Node → List Node
  | .assignment _ _ child | .arrayAccess _ _ child | .unary _ _ child | .return _ child
  | .input _ child | .conditional _ child _ _ | .whileLoop _ child _
  | .repeatLoop _ _ child => [child]
  | .arrayAssignment _ _ left right | .binary _ _ left right | .comparison _ _ left right
  | .logical _ _ left right => [left, right]
  | .forLoop _ start condition step _ => [start, condition, step]
  | .call _ _ args | .output _ args => args
  | _ => []

/-- The children of a node that are statements in a list. -/
def statements : Node → List Node
  | .conditional _ _ consequent alternative => consequent ++ alternative
  | .forLoop _ _ _ _ body | .whileLoop _ _ body | .repeatLoop _ body _ | .procedure _ _ _ body
  | .function _ _ _ _ body | .block _ body => body
  | _ => []

/-- Whether a node is a variable or an element of an array, which an input can be stored in. -/
def isPlace : Node → Bool
  | .identifier .. | .arrayAccess .. => true
  | _ => false

/-- The operands that the analysis looks at. It leaves out both sides of an operation without a
right operand, the left side of `not`, the value of a return without one, and whatever an input is
to be stored in without being a place for it. -/
def visited : Node → List Node
  | .binary _ _ left right => if right.isMissing then [] else [left, right]
  | .logical _ operator left right => if Operator.isNot operator then [right] else [left, right]
  | .return _ value => if value.isMissing then [] else [value]
  | .input _ target => if target.isPlace then [target] else []
  | node => node.operands

/-- A node is inside of a tree. A place without a child holds no node, but a list of statements may
hold missing nodes. -/
inductive Inside : Node → Node → Prop
  | self (node : Node) : Inside node node
  | operand {inner child node : Node} (member : child ∈ node.operands)
      (there : child.isMissing = false) (inside : Inside inner child) : Inside inner node
  | statement {inner child node : Node} (member : child ∈ node.statements)
      (inside : Inside inner child) : Inside inner node

theorem sizeOf_part {node child : Node} (member : child ∈ node.operands ++ node.statements) :
    sizeOf child < sizeOf node := by
  have within : ∀ list : List Node, child ∈ list → sizeOf child < sizeOf list :=
    fun _ member => List.sizeOf_lt_of_mem member
  unfold operands statements at member
  split at member <;> grind

/-- Induction over a tree by operands and statements. Unlike `Node.children`, the operands include
the target of an input. -/
theorem inductionOnParts {motive : Node → Prop}
    (step : ∀ node : Node, (∀ child ∈ node.operands, motive child) →
      (∀ child ∈ node.statements, motive child) → motive node) (node : Node) : motive node :=
  have part (child : Node) (member : child ∈ node.operands ++ node.statements) : motive child :=
    have := sizeOf_part member
    inductionOnParts step child
  step node (fun child member => part child (List.mem_append_left _ member))
    fun child member => part child (List.mem_append_right _ member)
termination_by sizeOf node

attribute [simp] operands statements

end Node

/-! ### Tables that gain names -/

/-- The innermost scope of a table has gained names. Those that it had mean what they meant, and the
scopes around it are the same. -/
structure Table.Gains (before after : Table) : Prop where
  depth : after.depth = before.depth
  outer : after.scopes.tail = before.scopes.tail
  kept : ∀ (scope : Scope) (name : Bytes) (symbol : Symbol), before.scopes.head? = some scope →
    scope.find? name = some symbol →
    ∃ scopeToo : Scope, after.scopes.head? = some scopeToo ∧ scopeToo.find? name = some symbol

namespace Table.Gains

theorem refl (table : Table) : table.Gains table :=
  ⟨rfl, rfl, fun scope _ _ isFirst found => ⟨scope, isFirst, found⟩⟩

theorem trans {first second third : Table} (early : first.Gains second)
    (late : second.Gains third) : first.Gains third := by
  refine ⟨late.depth.trans early.depth, late.outer.trans early.outer,
    fun scope name symbol isFirst found => ?_⟩
  obtain ⟨between, isBetween, foundThere⟩ := early.kept scope name symbol isFirst found
  exact late.kept between name symbol isBetween foundThere

/-- What happened in a scope is forgotten with it. -/
theorem exit {table later : Table} (gains : table.enter.Gains later) : later.exit = table :=
  congrArg Table.mk gains.outer

theorem declare {table later : Table} {symbol : Symbol}
    (declared : table.declare symbol = .ok later) : table.Gains later := by
  obtain ⟨scopes⟩ := table
  cases scopes with
  | nil => cases declared
  | cons scope outer =>
    simp only [Table.declare] at declared
    split at declared
    · cases declared
    · rename_i fresh
      cases declared
      refine ⟨rfl, rfl, fun first name other isFirst found => ?_⟩
      cases isFirst
      refine ⟨symbol :: scope, rfl, ?_⟩
      have different : symbol.name ≠ name := by
        rintro rfl
        rw [found] at fresh
        exact fresh rfl
      rw [Scope.find?, List.find?_cons_of_neg (by simpa using different)]
      exact found

theorem declareArray {table later : Table} {name : Bytes} {kind : Kind} {first last : Int64}
    (declared : table.declareArray name kind first last = .ok later) : table.Gains later := by
  unfold Table.declareArray at declared
  split at declared
  · cases declared
  · exact .declare declared

end Table.Gains

namespace Analysis

/-! ### Checks that account for their faults -/

/-- A diagnostic stands where it is allowed to. -/
def Stands (allowed : Int → Prop) (fault : Fault) : Prop :=
  ∀ diagnostic, fault.diagnostic? = some diagnostic → allowed diagnostic.position

/-- What a check does to the names in scope and which faults it adds does not depend on the faults
found before. The verdict on its result is bad just if the verdict before was, or a fault has been
added. -/
def Reports {Result : Type} (allowed : Int → Prop) (good : Bool) (verdict : Result → Bool)
    (check : Check Result) : Prop :=
  ∀ table : Table, ∃ (result : Result) (later : Table) (found : Array Fault), table.Gains later ∧
    (∀ fault ∈ found, Stands allowed fault) ∧
    (verdict result = false ↔ good = false ∨ found ≠ #[]) ∧
    ∀ faults, check ⟨table, faults⟩ = (result, ⟨later, faults ++ found⟩)

namespace Reports

variable {Result Next : Type} {allowed : Int → Prop} {good : Bool} {verdict : Result → Bool}
  {check : Check Result} {fault : Fault} {node : Node}

theorem pure {result : Result} (same : verdict result = good) :
    Reports allowed good verdict (pure result) := by
  intro table
  refine ⟨result, table, #[], .refl table, fun fault member => (by simp at member), ?_,
    fun faults => ?_⟩
  · simp [same]
  · rw [Array.append_empty]
    rfl

theorem bind {verdictToo : Next → Bool} {next : Result → Check Next}
    (first : Reports allowed good verdict check)
    (second : ∀ result, Reports allowed (verdict result) verdictToo (next result)) :
    Reports allowed good verdictToo (check >>= next) := by
  intro table
  obtain ⟨result, middle, found, gains, stands, agrees, checked⟩ := first table
  obtain ⟨resultToo, later, foundToo, gainsToo, standsToo, agreesToo, checkedToo⟩ :=
    second result middle
  refine ⟨resultToo, later, found ++ foundToo, gains.trans gainsToo, fun fault member => ?_, ?_,
    fun faults => ?_⟩
  · rcases Array.mem_append.mp member with early | late
    · exact stands fault early
    · exact standsToo fault late
  · rw [agreesToo, agrees, Ne, Ne, Ne, Array.append_eq_empty_iff, not_and_or, or_assoc]
  · show next (check ⟨table, faults⟩).1 (check ⟨table, faults⟩).2 = _
    rw [checked, checkedToo, Array.append_assoc]

/-- A check that is made for itself counts together with what was found before. -/
theorem also (alone : Reports allowed true verdict check) :
    Reports allowed good (fun result => good && verdict result) check := by
  intro table
  obtain ⟨result, later, found, gains, stands, agrees, checked⟩ := alone table
  refine ⟨result, later, found, gains, stands, ?_, checked⟩
  rw [Bool.and_eq_false_iff, agrees]
  simp

theorem report (stands : Stands allowed fault) : Reports allowed good id (report fault) := by
  intro table
  refine ⟨false, table, #[fault], .refl table, fun other member => ?_, by simp, fun faults => ?_⟩
  · obtain rfl : other = fault := by simpa using member
    exact stands
  · rw [← Array.push_eq_append]
    rfl

/-- A fault that has no position stands at the node where it is reported. -/
theorem reportAt (here : allowed node.position) (unplaced : Stands (· = 0) fault) :
    Reports allowed good id (reportAt node fault) := by
  refine .report fun diagnostic isDiagnostic => ?_
  cases fault with
  | noScope => cases isDiagnostic
  | diagnostic found =>
    cases isDiagnostic
    have isZero : found.position = 0 := unplaced found rfl
    rw [Diagnostic.locatedIfUnplaced, if_pos isZero]
    exact here

theorem reportDiagnostic (here : allowed node.position) {diagnostic : Diagnostic}
    (unplaced : diagnostic.position = 0) :
    Reports allowed good id (reportDiagnostic node diagnostic) :=
  .reportAt here fun _ isDiagnostic => by
    cases isDiagnostic
    exact unplaced

/-- Both checks are made, whatever comes out of the first one. -/
theorem both {first second : Check Bool} (early : Reports allowed true id first)
    (late : Reports allowed true id second) : Reports allowed true id (both first second) :=
  .bind early fun _ => .bind late.also fun _ => .pure rfl

theorem ite {condition : Prop} [Decidable condition] {first second : Check Result}
    (holds : condition → Reports allowed good verdict first)
    (fails : ¬condition → Reports allowed good verdict second) :
    Reports allowed good verdict (if condition then first else second) := by
  split
  · exact holds ‹_›
  · exact fails ‹_›

theorem inScope {check : Check Bool} (inner : Reports allowed true id check) :
    Reports allowed true id (inScope check) := by
  intro table
  obtain ⟨result, later, found, gains, stands, agrees, checked⟩ := inner table.enter
  refine ⟨result, table, found, .refl table, stands, agrees, fun faults => ?_⟩
  show ((check ⟨table.enter, faults⟩).1, (⟨(check ⟨table.enter, faults⟩).2.table.exit,
    (check ⟨table.enter, faults⟩).2.faults⟩ : State)) = _
  rw [checked, gains.exit]

theorem declare (here : allowed node.position) {declaration : Table → Except Fault Table}
    (gains : ∀ table later, declaration table = .ok later → table.Gains later)
    (unplaced : ∀ table fault, declaration table = .error fault → Stands (· = 0) fault) :
    Reports allowed true id (declare node declaration) := by
  intro table
  cases declared : declaration table with
  | ok later =>
    refine ⟨true, later, #[], gains table later declared, fun fault member => (by simp at member),
      by simp, fun faults => ?_⟩
    rw [declare_of_ok node declared, Array.append_empty]
  | error fault =>
    obtain ⟨result, later, found, gains, stands, agrees, checked⟩ :=
      @reportAt allowed true fault node here (unplaced table fault declared) table
    refine ⟨result, later, found, gains, stands, agrees, fun faults => ?_⟩
    rw [declare_of_error node declared, checked]

end Reports

/-! ### Parts of nodes -/

section Parts

variable {allowed : Int → Prop} {node : Node}

theorem unplaced_of_declare {table : Table} {symbol : Symbol} {fault : Fault}
    (refused : table.declare symbol = .error fault) : Stands (· = 0) fault := by
  unfold Table.declare at refused
  split at refused
  · cases refused
    intro diagnostic isDiagnostic
    cases isDiagnostic
  · split at refused
    · cases refused
      intro diagnostic isDiagnostic
      cases isDiagnostic
      rfl
    · cases refused

theorem unplaced_of_declareArray {table : Table} {name : Bytes} {kind : Kind} {first last : Int64}
    {fault : Fault} (refused : table.declareArray name kind first last = .error fault) :
    Stands (· = 0) fault := by
  unfold Table.declareArray at refused
  split at refused
  · cases refused
    intro diagnostic isDiagnostic
    cases isDiagnostic
    rfl
  · exact unplaced_of_declare refused

theorem Reports.checkReference (here : allowed node.position) (name : Bytes) :
    Reports allowed true id (checkReference node name) := by
  have each (table : Table) : Reports allowed true id (if table.isDeclared name then return true
      else Analysis.reportDiagnostic node (.named .undeclaredIdentifier name)) :=
    .ite (fun _ => .pure rfl) fun _ => .reportDiagnostic here rfl
  exact fun table => each table table

theorem Reports.checkCallee (here : allowed node.position) (name : Bytes) :
    Reports allowed true id (checkCallee node name) := by
  have each (table : Table) : Reports allowed true id (
      if (table.find? name).any Symbol.isRoutine then return true
      else Analysis.reportDiagnostic node (.named .unknownFunction name)) :=
    .ite (fun _ => .pure rfl) fun _ => .reportDiagnostic here rfl
  exact fun table => each table table

theorem Reports.checkPostfix (here : allowed node.position) (operator : Bytes) (operand : Node) :
    Reports allowed true id (checkPostfix node operator operand) := by
  unfold Analysis.checkPostfix
  refine .ite (fun _ => ?_) fun _ => .reportDiagnostic here rfl
  split
  · exact .checkReference here _
  · exact .reportDiagnostic here rfl

theorem Reports.required (here : allowed node.position) {child : Node} {check : Check Bool}
    (inner : child.isMissing = false → Reports allowed true id check) :
    Reports allowed true id (required node child check) :=
  .ite (fun _ => .reportDiagnostic here rfl) fun there => inner (Bool.eq_false_iff.mpr there)

theorem Reports.resolve (here : allowed node.position) (type : Bytes) :
    Reports allowed true Prod.fst (resolve node type) := by
  unfold Analysis.resolve
  split
  · exact .pure rfl
  · exact .bind (.reportDiagnostic here rfl) fun _ => .pure rfl

theorem Reports.resolveParams (here : allowed node.position) (params : List Param) :
    Reports allowed true Prod.fst (resolveParams node params) := by
  induction params with
  | nil => exact .pure rfl
  | cons param params rest =>
    exact .bind (.resolve here _) fun _ => .bind rest.also fun _ => .pure rfl

theorem Reports.resolveResult (here : allowed node.position) (result : Bytes) :
    Reports allowed true Prod.fst (resolveResult node result) :=
  .ite (fun _ => .pure rfl) fun _ => .resolve here _

theorem Reports.checkDeclaration (here : allowed node.position) (name type : Bytes)
    {declaration : Kind → Table → Except Fault Table}
    (gains : ∀ kind table later, declaration kind table = .ok later → table.Gains later)
    (unplaced : ∀ kind table fault, declaration kind table = .error fault →
      Stands (· = 0) fault) :
    Reports allowed true id (checkDeclaration node name type declaration) := by
  refine .bind (.resolve here type) fun resolved => ?_
  have each (table : Table) : Reports allowed resolved.1 id (
      if table.declaredHere name || isReserved name then
        Analysis.reportDiagnostic node (.named .duplicateDeclaration name)
      else do
        let declared ← Analysis.declare node (declaration resolved.2)
        return declared && resolved.1) :=
    .ite (fun _ => .reportDiagnostic here rfl) fun _ =>
      .bind (Reports.declare here (gains _) (unplaced _)).also fun _ => .pure (Bool.and_comm ..)
  exact fun table => each table table

theorem Reports.declareParams (here : allowed node.position) (params : List Param)
    (kinds : List Kind) : Reports allowed true id (declareParams node params kinds) := by
  induction params generalizing kinds with
  | nil => exact .pure rfl
  | cons param params rest =>
    cases kinds with
    | nil => exact .pure rfl
    | cons kind kinds =>
      exact .bind (.declare here (fun _ _ => .declare) fun _ _ => unplaced_of_declare) fun _ =>
        .bind (rest kinds).also fun _ => .pure rfl

/-- Everything about a routine is checked, its body included. -/
theorem Reports.checkRoutine (here : allowed node.position) (name : Bytes) (params : List Param)
    (result : Bytes) {body : Check Bool} (inner : Reports allowed true id body) :
    Reports allowed true id (checkRoutine node name params result body) := by
  have inside (kinds : List Kind) : Reports allowed true id (Analysis.inScope do
      let declaredParams ← Analysis.declareParams node params kinds
      let goodBody ← body
      return declaredParams && goodBody) :=
    .inScope (.bind (.declareParams here params kinds) fun _ => .bind inner.also fun _ => .pure rfl)
  refine .bind (.resolveParams here params) fun resolved => ?_
  refine .bind (Reports.resolveResult here result).also fun resolvedToo => ?_
  have declaring (goodName : Bool) :
      Reports allowed (resolved.1 && resolvedToo.1 && goodName) id (do
        let declared ← Analysis.declare node fun table =>
          table.declareRoutine name resolved.2 resolvedToo.2
        let goodBody ← Analysis.inScope do
          let declaredParams ← Analysis.declareParams node params resolved.2
          let goodBody ← body
          return declaredParams && goodBody
        return resolved.1 && resolvedToo.1 && goodName && declared && goodBody) :=
    .bind (Reports.declare here (fun _ _ => .declare) fun _ _ => unplaced_of_declare).also
      fun _ => .bind (inside resolved.2).also fun _ => .pure rfl
  exact .ite (fun _ => .bind (Reports.reportDiagnostic here rfl).also declaring)
    fun _ => .bind (@Reports.pure _ allowed true id true rfl).also declaring

theorem Reports.checkNodes {nodes : List Node}
    (each : ∀ node ∈ nodes, Reports allowed true id (checkNode node)) :
    Reports allowed true id (checkNodes nodes) := by
  induction nodes with
  | nil =>
    rw [Analysis.checkNodes]
    exact .pure rfl
  | cons node nodes rest =>
    rw [Analysis.checkNodes]
    exact .both (each node (List.mem_cons_self ..))
      (rest fun other member => each other (List.mem_cons_of_mem _ member))

theorem Reports.checkOperands (here : allowed node.position) {nodes : List Node}
    (each : ∀ child ∈ nodes, child.isMissing = false → Reports allowed true id (checkNode child)) :
    Reports allowed true id (checkOperands node nodes) := by
  induction nodes with
  | nil =>
    rw [Analysis.checkOperands]
    exact .pure rfl
  | cons child nodes rest =>
    rw [Analysis.checkOperands]
    exact .both (.required here (each child (List.mem_cons_self ..)))
      (rest fun other member => each other (List.mem_cons_of_mem _ member))

end Parts

/-! ### Trees -/

/-- The analysis of a tree accounts for its faults, which stand at nodes of the tree. -/
theorem checkNode_reports {allowed : Int → Prop} (node : Node)
    (sited : ∀ inner : Node, inner.Inside node → allowed inner.position) :
    Reports allowed true id (checkNode node) := by
  induction node using Node.inductionOnParts with
  | step node operands statements =>
    have here := sited node (.self node)
    have whole (child : Node) (member : child ∈ node.operands) (there : child.isMissing = false) :
        Reports allowed true id (checkNode child) :=
      operands child member fun inner inside => sited inner (.operand member there inside)
    have operand (child : Node) (member : child ∈ node.operands) :
        Reports allowed true id (required node child (checkNode child)) :=
      .required here (whole child member)
    have list (nodes : List Node) (members : nodes ⊆ node.statements) :
        Reports allowed true id (checkNodes nodes) :=
      .checkNodes fun child member => statements child (members member) fun inner inside =>
        sited inner (.statement (members member) inside)
    have reference (name : Bytes) : Reports allowed true id (checkReference node name) :=
      .checkReference here name
    cases node with
    | missing =>
      rw [checkNode]
      refine .report fun diagnostic isDiagnostic => ?_
      cases isDiagnostic
      exact here
    | integer | real | char | string | date | boolean =>
      rw [checkNode]
      exact .pure rfl
    | identifier position name =>
      rw [checkNode]
      exact reference name
    | declaration position name type =>
      rw [checkNode]
      exact .checkDeclaration here _ _ (fun _ _ _ => .declare) fun _ _ _ => unplaced_of_declare
    | arrayDeclaration position name type first last =>
      rw [checkNode]
      exact .checkDeclaration here _ _ (fun _ _ _ => .declareArray)
        fun _ _ _ => unplaced_of_declareArray
    | assignment position name value =>
      have ofValue := operand value (List.mem_singleton_self value)
      rw [checkNode]
      exact .both ofValue (reference name)
    | arrayAssignment position name index value =>
      have ofIndex := operand index (by simp)
      have ofValue := operand value (by simp)
      rw [checkNode]
      exact .both (.both ofIndex ofValue) (reference name)
    | arrayAccess position name index =>
      have ofIndex := operand index (List.mem_singleton_self index)
      rw [checkNode]
      exact .both ofIndex (reference name)
    | binary position operator left right =>
      have ofLeft := operand left (by simp)
      have ofRight := operand right (by simp)
      rw [checkNode]
      exact .ite (fun _ => .checkPostfix here operator left) fun _ => .both ofLeft ofRight
    | comparison position operator left right =>
      have ofLeft := operand left (by simp)
      have ofRight := operand right (by simp)
      rw [checkNode]
      exact .both ofLeft ofRight
    | logical position operator left right =>
      have ofLeft := operand left (by simp)
      have ofRight := operand right (by simp)
      rw [checkNode]
      exact .ite (fun _ => ofRight) fun _ => .both ofLeft ofRight
    | unary position operator child =>
      rw [checkNode]
      exact operand child (List.mem_singleton_self child)
    | conditional position condition consequent alternative =>
      have ofCondition := operand condition (List.mem_singleton_self condition)
      have ofConsequent := list consequent (List.subset_append_left _ _)
      have ofAlternative := list alternative (List.subset_append_right _ _)
      rw [checkNode]
      exact .both ofCondition (.both (.inScope ofConsequent) (.inScope ofAlternative))
    | forLoop position start condition step body =>
      have ofStart := operand start (by simp)
      have ofCondition := operand condition (by simp)
      have ofStep := operand step (by simp)
      have ofBody := list body (List.Subset.refl body)
      rw [checkNode]
      exact .inScope (.both ofStart (.both ofCondition (.both ofStep ofBody)))
    | whileLoop position condition body =>
      have ofCondition := operand condition (List.mem_singleton_self condition)
      have ofBody := list body (List.Subset.refl body)
      rw [checkNode]
      exact .both ofCondition (.inScope ofBody)
    | repeatLoop position body condition =>
      have ofBody := list body (List.Subset.refl body)
      have ofCondition := operand condition (List.mem_singleton_self condition)
      rw [checkNode]
      exact .inScope (.both ofBody ofCondition)
    | procedure position name params body =>
      have ofBody := list body (List.Subset.refl body)
      rw [checkNode]
      exact .checkRoutine here name params [] ofBody
    | function position name params result body =>
      have ofBody := list body (List.Subset.refl body)
      rw [checkNode]
      exact .checkRoutine here name params result ofBody
    | call position name args =>
      have ofArgs := Reports.checkOperands here whole
      rw [checkNode]
      exact .both ofArgs (.checkCallee here name)
    | «return» position value =>
      have ofValue := whole value (List.mem_singleton_self value)
      rw [checkNode]
      exact .ite (fun _ => .pure rfl) fun there => ofValue (Bool.eq_false_iff.mpr there)
    | output position args =>
      rw [checkNode]
      exact .checkOperands here whole
    | input position target =>
      have ofTarget := whole target (List.mem_singleton_self target)
      have refused (text : Bytes) : Reports allowed true id
          (reportDiagnostic (.input position target) (.unsupported text)) :=
        .reportDiagnostic here rfl
      cases target with
      | identifier place name =>
        rw [checkNode]
        exact ofTarget rfl
      | arrayAccess place name index =>
        rw [checkNode]
        exact ofTarget rfl
      | _ => exact refused _
    | block position body =>
      rw [checkNode]
      exact list body (List.Subset.refl body)

/-! ### All checks of a node -/

/-- Makes all checks of a list, each one in the state that those before it leave behind. The verdict
is good if all of theirs are, and a bad one keeps no later check from being made. -/
def makeAll : List (Check Bool) → Check Bool
  | [] => fun state => (true, state)
  | check :: checks => fun state =>
    ((check state).1 && (makeAll checks (check state).2).1, (makeAll checks (check state).2).2)

/-- The kind that a type name stands for; an unknown name stands for none. -/
def namedKind (type : Bytes) : Kind := (Kind.ofName? type).getD .none

/-- The check of a type name alone. -/
def checkType (node : Node) (type : Bytes) : Check Bool :=
  if (Kind.ofName? type).isSome then pure true
  else reportDiagnostic node (.named .unknownType type)

/-- The check of a result type; a procedure has none. -/
def checkResult (node : Node) (result : Bytes) : Check Bool :=
  if result = [] then pure true else checkType node result

/-- The check of the name of a routine alone. -/
def checkName (node : Node) (name : Bytes) : Check Bool :=
  if isReserved name then reportDiagnostic node (.named .duplicateDeclaration name) else pure true

/-- The declaration of a name that must be new in its scope. The declaration itself, and with it the
check of the bounds of an array, is tried only for a new name. -/
def declareNew (node : Node) (name : Bytes) (declaration : Table → Except Fault Table) :
    Check Bool := fun state =>
  if state.table.declaredHere name || isReserved name then
    reportDiagnostic node (.named .duplicateDeclaration name) state
  else declare node declaration state

def enterScope : Check Bool := fun state => (true, { state with table := state.table.enter })

def exitScope : Check Bool := fun state => (true, { state with table := state.table.exit })

/-- Checks in a scope of their own. -/
def inOwnScope (checks : List (Check Bool)) : List (Check Bool) :=
  enterScope :: checks ++ [exitScope]

/-- The checks of a child in a place that must not be empty. -/
def checkChild (parent child : Node) : Check Bool := required parent child (checkNode child)

/-- The checks of a routine: the types of its parameters and its result, its name, its declaration,
and in a scope of their own the declarations of its parameters and the nodes of its body. -/
def routineChecks (node : Node) (name : Bytes) (params : List Param) (result : Bytes)
    (body : List Node) : List (Check Bool) :=
  params.map (fun param => checkType node param.type) ++
    [checkResult node result, checkName node name,
      declare node fun table => table.declareRoutine name
        (params.map fun param => namedKind param.type) (namedKind result)] ++
    inOwnScope (params.map (fun param => declare node fun table =>
      table.declareScalar param.name (namedKind param.type)) ++ body.map checkNode)

/-- All checks that belong to a node, in their order. -/
def checks (node : Node) : List (Check Bool) :=
  match node with
  | .missing => [report (.diagnostic (.unsupported node.sortText))]
  | .integer .. | .real .. | .char .. | .string .. | .date .. | .boolean .. => []
  | .identifier _ name => [checkReference node name]
  | .declaration _ name type => [checkType node type,
      declareNew node name fun table => table.declareScalar name (namedKind type)]
  | .arrayDeclaration _ name type first last => [checkType node type,
      declareNew node name fun table => table.declareArray name (namedKind type) first last]
  | .assignment _ name value => [checkChild node value, checkReference node name]
  | .arrayAssignment _ name index value =>
    [checkChild node index, checkChild node value, checkReference node name]
  | .arrayAccess _ name index => [checkChild node index, checkReference node name]
  | .binary _ operator left right =>
    if right.isMissing then [checkPostfix node operator left]
    else [checkChild node left, checkChild node right]
  | .comparison _ _ left right => [checkChild node left, checkChild node right]
  | .logical _ operator left right =>
    if Operator.isNot operator then [checkChild node right]
    else [checkChild node left, checkChild node right]
  | .unary _ _ operand => [checkChild node operand]
  | .conditional _ condition consequent alternative =>
    checkChild node condition ::
      (inOwnScope (consequent.map checkNode) ++ inOwnScope (alternative.map checkNode))
  | .forLoop _ start condition step body =>
    inOwnScope (checkChild node start :: checkChild node condition :: checkChild node step ::
      body.map checkNode)
  | .whileLoop _ condition body =>
    checkChild node condition :: inOwnScope (body.map checkNode)
  | .repeatLoop _ body condition =>
    inOwnScope (body.map checkNode ++ [checkChild node condition])
  | .procedure _ name params body => routineChecks node name params [] body
  | .function _ name params result body => routineChecks node name params result body
  | .call _ name args => args.map (checkChild node) ++ [checkCallee node name]
  | .return _ value => if value.isMissing then [] else [checkChild node value]
  | .output _ args => args.map (checkChild node)
  | .input _ target =>
    if target.isPlace then [checkChild node target]
    else [reportDiagnostic node (.unsupported ("input target " ++ target.sortText))]
  | .block _ statements => statements.map checkNode

theorem both_assoc (first second third : Check Bool) :
    both (both first second) third = both first (both second third) := by
  funext state
  exact Prod.ext (Bool.and_assoc ..) rfl

theorem makeAll_cons (check : Check Bool) (checks : List (Check Bool)) :
    makeAll (check :: checks) = both check (makeAll checks) := rfl

theorem makeAll_singleton (check : Check Bool) : makeAll [check] = check := by
  funext state
  exact Prod.ext (Bool.and_true _) rfl

theorem makeAll_append (front back : List (Check Bool)) :
    makeAll (front ++ back) = both (makeAll front) (makeAll back) := by
  induction front with
  | nil =>
    funext state
    exact Prod.ext (Bool.true_and _).symm rfl
  | cons check front rest =>
    rw [List.cons_append, makeAll_cons, makeAll_cons, rest, both_assoc]

/-- A scope is entered and left again around the checks made in it. -/
theorem makeAll_inOwnScope (checks : List (Check Bool)) :
    makeAll (inOwnScope checks) = inScope (makeAll checks) := by
  funext state
  rw [inOwnScope, List.cons_append, makeAll_cons, makeAll_append, makeAll_singleton]
  exact Prod.ext ((Bool.true_and _).trans (Bool.and_true _)) rfl

theorem checkNodes_eq (nodes : List Node) : checkNodes nodes = makeAll (nodes.map checkNode) := by
  induction nodes with
  | nil => rw [checkNodes]; rfl
  | cons node nodes rest => rw [checkNodes, rest, List.map_cons, makeAll_cons]

theorem checkOperands_eq (parent : Node) (nodes : List Node) :
    checkOperands parent nodes = makeAll (nodes.map (checkChild parent)) := by
  induction nodes with
  | nil => rw [checkOperands]; rfl
  | cons node nodes rest => rw [checkOperands, rest, List.map_cons, makeAll_cons]; rfl

theorem resolve_eq (node : Node) (type : Bytes) (state : State) :
    resolve node type state =
      (((checkType node type state).1, namedKind type), (checkType node type state).2) := by
  unfold resolve checkType namedKind
  cases Kind.ofName? type <;> rfl

theorem resolveParams_eq (node : Node) (params : List Param) (state : State) :
    resolveParams node params state =
      (((makeAll (params.map fun param => checkType node param.type) state).1,
        params.map fun param => namedKind param.type),
        (makeAll (params.map fun param => checkType node param.type) state).2) := by
  induction params generalizing state with
  | nil => rfl
  | cons param params rest =>
    show (((resolve node param.type state).1.1 &&
        (resolveParams node params (resolve node param.type state).2).1.1,
      (resolve node param.type state).1.2 ::
        (resolveParams node params (resolve node param.type state).2).1.2),
      (resolveParams node params (resolve node param.type state).2).2) = _
    rw [resolve_eq, rest]
    rfl

theorem resolveResult_eq (node : Node) (result : Bytes) (state : State) :
    resolveResult node result state =
      (((checkResult node result state).1, namedKind result),
        (checkResult node result state).2) := by
  unfold resolveResult checkResult
  split
  · rename_i isProcedure
    rw [isProcedure]
    rfl
  · exact resolve_eq node result state

theorem declareParams_eq (node : Node) (params : List Param) :
    declareParams node params (params.map fun param => namedKind param.type) =
      makeAll (params.map fun param => declare node fun table =>
        table.declareScalar param.name (namedKind param.type)) := by
  induction params with
  | nil => rfl
  | cons param params rest =>
    rw [List.map_cons, List.map_cons, declareParams, rest, makeAll_cons]
    rfl

theorem checkDeclaration_eq (node : Node) (name type : Bytes)
    (declaration : Kind → Table → Except Fault Table) :
    checkDeclaration node name type declaration =
      makeAll [checkType node type, declareNew node name (declaration (namedKind type))] := by
  funext state
  rw [makeAll_cons, makeAll_singleton]
  show (if (resolve node type state).2.table.declaredHere name || isReserved name then
      reportDiagnostic node (.named .duplicateDeclaration name)
    else do
      let declared ← declare node (declaration (resolve node type state).1.2)
      return declared && (resolve node type state).1.1) (resolve node type state).2 = _
  rw [resolve_eq]
  show _ = ((checkType node type state).1 &&
    (declareNew node name (declaration (namedKind type)) (checkType node type state).2).1,
    (declareNew node name (declaration (namedKind type)) (checkType node type state).2).2)
  unfold declareNew
  split
  · exact Prod.ext (Bool.and_false _).symm rfl
  · exact Prod.ext (Bool.and_comm ..) rfl

theorem checkRoutine_eq (node : Node) (name : Bytes) (params : List Param) (result : Bytes)
    (body : List Node) :
    checkRoutine node name params result (checkNodes body) =
      makeAll (routineChecks node name params result body) := by
  rw [routineChecks, makeAll_append, makeAll_append, makeAll_inOwnScope, makeAll_append,
    ← declareParams_eq, ← checkNodes_eq]
  funext state
  simp only [checkRoutine, bind, StateT.bind, resolveParams_eq, resolveResult_eq]
  have regroup (first second third fourth fifth : Bool) :
      (first && second && third && fourth && fifth) =
        (first && (second && (third && (fourth && true))) && fifth) := by
    simp only [Bool.and_assoc, Bool.and_true]
  unfold checkName
  split
  · exact Prod.ext (regroup ..) rfl
  · exact Prod.ext (regroup ..) rfl

/-- No check of a node is left out, and there are no others. -/
theorem checkNode_eq (node : Node) : checkNode node = makeAll (checks node) := by
  cases node with
  | missing | identifier => rw [checkNode, checks, makeAll_singleton]
  | integer | real | char | string | date | boolean =>
    rw [checkNode]
    rfl
  | declaration | arrayDeclaration =>
    rw [checkNode, checkDeclaration_eq]
    rfl
  | assignment | arrayAccess | comparison =>
    rw [checkNode, checks, makeAll_cons, makeAll_singleton]
    rfl
  | arrayAssignment position name index value =>
    rw [checkNode, checks, makeAll_cons, makeAll_cons, makeAll_singleton, both_assoc]
    rfl
  | binary position operator left right =>
    rw [checkNode, checks]
    split
    · rw [makeAll_singleton]
    · rw [makeAll_cons, makeAll_singleton]
      rfl
  | logical position operator left right =>
    rw [checkNode, checks]
    split
    · rw [makeAll_singleton]
      rfl
    · rw [makeAll_cons, makeAll_singleton]
      rfl
  | unary position operator operand =>
    rw [checkNode, checks, makeAll_singleton]
    rfl
  | conditional position condition consequent alternative =>
    rw [checkNode, checks, makeAll_cons, makeAll_append, makeAll_inOwnScope, makeAll_inOwnScope,
      checkNodes_eq, checkNodes_eq]
    rfl
  | forLoop position start condition step body =>
    rw [checkNode, checks, makeAll_inOwnScope, checkNodes_eq]
    rfl
  | whileLoop position condition body =>
    rw [checkNode, checks, makeAll_cons, makeAll_inOwnScope, checkNodes_eq]
    rfl
  | repeatLoop position body condition =>
    rw [checkNode, checks, makeAll_inOwnScope, makeAll_append, makeAll_singleton, checkNodes_eq]
    rfl
  | procedure | function =>
    rw [checkNode, checkRoutine_eq]
    rfl
  | call position name args =>
    rw [checkNode, checks, makeAll_append, makeAll_singleton, checkOperands_eq]
  | «return» position value =>
    rw [checkNode, checks]
    split
    · rfl
    · rename_i there
      rw [makeAll_singleton, checkChild, required, if_neg there]
  | output position args =>
    rw [checkNode, checks, checkOperands_eq]
  | input position target =>
    rw [checks]
    cases target with
    | identifier | arrayAccess =>
      rw [checkNode]
      exact (makeAll_singleton _).symm
    | _ => exact (makeAll_singleton _).symm
  | block position statements =>
    rw [checkNode, checks, checkNodes_eq]

/-- A check keeps the faults found before and adds new ones behind them. Unlike `Reports`, this
holds of the single steps into a scope and out of it too. -/
def KeepsFaults (check : Check Bool) : Prop :=
  ∀ state : State, ∃ found : Array Fault, (check state).2.faults = state.faults ++ found

namespace KeepsFaults

theorem ofReports {check : Check Bool} (reports : Reports (fun _ => True) true id check) :
    KeepsFaults check := by
  intro state
  obtain ⟨good, later, found, _, _, _, checked⟩ := reports state.table
  exact ⟨found, congrArg (fun outcome => outcome.2.faults) (checked state.faults)⟩

theorem quiet {check : Check Bool} (same : ∀ state, (check state).2.faults = state.faults) :
    KeepsFaults check :=
  fun state => ⟨#[], (same state).trans Array.append_empty.symm⟩

theorem report (fault : Fault) : KeepsFaults (report fault) :=
  .ofReports (.report fun _ _ => trivial)

theorem declare (node : Node) (declaration : Table → Except Fault Table) :
    KeepsFaults (declare node declaration) := by
  rintro ⟨table, faults⟩
  cases declared : declaration table with
  | ok later =>
    rw [declare_of_ok node declared]
    exact ⟨#[], Array.append_empty.symm⟩
  | error fault =>
    rw [declare_of_error node declared]
    exact report _ ⟨table, faults⟩

theorem declareNew (node : Node) (name : Bytes) (declaration : Table → Except Fault Table) :
    KeepsFaults (declareNew node name declaration) := by
  intro state
  unfold Analysis.declareNew
  split
  · exact report _ state
  · exact declare node declaration state

theorem ite {condition : Prop} [Decidable condition] {first second : Check Bool}
    (holds : KeepsFaults first) (fails : KeepsFaults second) :
    KeepsFaults (if condition then first else second) := by
  split
  · exact holds
  · exact fails

theorem checkType (node : Node) (type : Bytes) : KeepsFaults (checkType node type) :=
  .ite (.quiet fun _ => rfl) (report _)

theorem makeAll {checks : List (Check Bool)} (each : ∀ check ∈ checks, KeepsFaults check) :
    KeepsFaults (makeAll checks) := by
  induction checks with
  | nil => exact .quiet fun _ => rfl
  | cons check checks rest =>
    obtain ⟨first, others⟩ := List.forall_mem_cons.mp each
    intro state
    obtain ⟨found, added⟩ := first state
    obtain ⟨foundToo, addedToo⟩ := rest others (check state).2
    refine ⟨found ++ foundToo, addedToo.trans ?_⟩
    rw [added, Array.append_assoc]

end KeepsFaults

/-- All checks of a node keep the faults found before. -/
theorem checks_keepFaults (node : Node) : ∀ check ∈ checks node, KeepsFaults check := by
  have ofNode (child : Node) : KeepsFaults (checkNode child) :=
    .ofReports (checkNode_reports child fun _ _ => trivial)
  have ofChild (child : Node) : KeepsFaults (checkChild node child) :=
    .ofReports (.required trivial fun _ => checkNode_reports child fun _ _ => trivial)
  have ofReference (name : Bytes) : KeepsFaults (checkReference node name) :=
    .ofReports (.checkReference trivial name)
  have ofDiagnostic (diagnostic : Diagnostic) : KeepsFaults (reportDiagnostic node diagnostic) :=
    .report _
  have ofEntry : KeepsFaults enterScope := .quiet fun _ => rfl
  have ofExit : KeepsFaults exitScope := .quiet fun _ => rfl
  have ofRoutine (name : Bytes) (params : List Param) (result : Bytes) (body : List Node) :
      ∀ check ∈ routineChecks node name params result body, KeepsFaults check := by
    have ofResult : KeepsFaults (checkResult node result) :=
      .ite (.quiet fun _ => rfl) (.checkType node result)
    have ofName : KeepsFaults (checkName node name) := .ite (.report _) (.quiet fun _ => rfl)
    simp only [routineChecks, inOwnScope, List.forall_mem_append, List.forall_mem_cons,
      List.forall_mem_map]
    simp [ofNode, ofEntry, ofExit, ofResult, ofName, KeepsFaults.checkType, KeepsFaults.declare]
  cases node with
  | missing => simp [checks, KeepsFaults.report]
  | integer | real | char | string | date | boolean => simp [checks]
  | identifier | assignment | arrayAssignment | arrayAccess | comparison | unary =>
    simp [checks, ofChild, ofReference]
  | declaration | arrayDeclaration =>
    simp [checks, KeepsFaults.checkType, KeepsFaults.declareNew]
  | binary position operator left right =>
    have ofPostfix : KeepsFaults (checkPostfix (.binary position operator left right) operator
        left) := .ofReports (.checkPostfix trivial operator left)
    rw [checks]
    split <;> simp [ofPostfix, ofChild]
  | logical =>
    rw [checks]
    split <;> simp [ofChild]
  | conditional | forLoop | whileLoop | repeatLoop =>
    simp only [checks, inOwnScope, List.forall_mem_append, List.forall_mem_cons,
      List.forall_mem_map]
    simp [ofNode, ofChild, ofEntry, ofExit]
  | procedure | function =>
    rw [checks]
    exact ofRoutine _ _ _ _
  | call position name args =>
    have ofCallee : KeepsFaults (checkCallee (.call position name args) name) :=
      .ofReports (.checkCallee trivial name)
    simp only [checks, List.forall_mem_append, List.forall_mem_map]
    simp [ofChild, ofCallee]
  | «return» =>
    rw [checks]
    split <;> simp [ofChild]
  | output => simp [checks, ofChild]
  | input =>
    rw [checks]
    split <;> simp [ofChild, ofDiagnostic]
  | block => simp [checks, ofNode]

/-- What a check of a node finds is among the faults of the node, whatever the checks before it have
come to. -/
theorem checkNode_of_split {node : Node} {front back : List (Check Bool)} {check : Check Bool}
    (split : checks node = front ++ check :: back) (state : State) :
    ∃ earlier found later : Array Fault,
      (makeAll front state).2.faults = state.faults ++ earlier ∧
      (check (makeAll front state).2).2.faults = state.faults ++ earlier ++ found ∧
      (checkNode node state).2.faults = state.faults ++ earlier ++ found ++ later ∧
      ((check (makeAll front state).2).1 = false → (checkNode node state).1 = false) := by
  have keep := checks_keepFaults node
  rw [split, List.forall_mem_append, List.forall_mem_cons] at keep
  obtain ⟨keepFront, keepCheck, keepBack⟩ := keep
  have whole : checkNode node state = both (makeAll front) (both check (makeAll back)) state := by
    rw [checkNode_eq, split, makeAll_append, makeAll_cons]
  obtain ⟨earlier, isEarlier⟩ := KeepsFaults.makeAll keepFront state
  obtain ⟨found, isFound⟩ := keepCheck (makeAll front state).2
  obtain ⟨later, isLater⟩ := KeepsFaults.makeAll keepBack (check (makeAll front state).2).2
  rw [isEarlier] at isFound
  rw [isFound] at isLater
  refine ⟨earlier, found, later, isEarlier, isFound, ?_, fun bad => ?_⟩
  · rw [whole]
    exact isLater
  · rw [whole]
    show ((makeAll front state).1 && ((check (makeAll front state).2).1 && _)) = false
    rw [bad, Bool.false_and, Bool.and_false]

/-- The faults of a session after an analysis are those that the analysis has found, at nodes of the
program, and it comes to a good verdict just if there are none. -/
theorem analyze_reports {allowed : Int → Prop} {program : Program}
    (sited : ∀ node ∈ program, ∀ inner : Node, inner.Inside node → allowed inner.position)
    (session : Session) :
    (∀ fault ∈ (session.analyze program).2.faults, Stands allowed fault) ∧
      (session.analyze program).1 = if (session.analyze program).2.faults = [] then .ok ()
        else .error (.bare (.faults (session.analyze program).2.faults)) := by
  have reports : Reports allowed true id (checkProgram program) :=
    .inScope (.checkNodes fun node member => checkNode_reports node (sited node member))
  obtain ⟨good, later, found, _, stand, agrees, checked⟩ := reports .empty
  have analyzed : session.analyze program =
      (if good then .ok () else .error (Session.analysisFailure found.toList),
        { session with table := later, faults := found.toList }) := by
    have ran : analyze program ⟨.empty, #[]⟩ = (good, ⟨later, found⟩) :=
      (checked #[]).trans (by rw [Array.empty_append])
    simp only [Session.analyze, Session.clearNames, ran]
  rw [analyzed]
  refine ⟨fun fault member => stand fault (Array.mem_toList_iff.mp member), ?_⟩
  cases good with
  | true =>
    have nothing : found = #[] := by
      by_contra some
      cases agrees.mpr (.inr some)
    simp [nothing]
  | false =>
    have something : found ≠ #[] := (agrees.mp rfl).resolve_left Bool.noConfusion
    simp [something, Session.analysisFailure]

/-- A check has been made of every child that the analysis looks at, and of every statement. -/
theorem children_mem_checks (node : Node) :
    (∀ child ∈ node.visited, checkChild node child ∈ checks node) ∧
      ∀ child ∈ node.statements, checkNode child ∈ checks node := by
  cases node with
  | binary | logical | «return» | input =>
    rw [checks, Node.visited]
    split <;> simp
  | conditional | forLoop | whileLoop | repeatLoop | procedure | function | call | output | block =>
    simp only [checks, routineChecks, inOwnScope, Node.visited, Node.operands, Node.statements]
    grind
  | _ => simp [checks, Node.visited]

/-- The state behind a diagnostic at a position, with nothing else changed. -/
def State.blaming (state : State) (diagnostic : Diagnostic) (position : Int) : State :=
  { state with faults := state.faults.push (.diagnostic (diagnostic.located position)) }

/-- An operation without a right operand, which is none behind a variable, is one fault. Nothing is
reported of its left operand, whatever stands there. -/
theorem checkNode_of_noRight {position : Int} {operator : Bytes} {left right : Node}
    (absent : right.isMissing = true)
    (refused : Operator.isPostfix operator = true → ∀ place name, left ≠ .identifier place name)
    (state : State) : ∃ message, checkNode (.binary position operator left right) state =
      (false, state.blaming (.unsupported message) position) := by
  rw [checkNode, if_pos absent]
  unfold checkPostfix
  split
  · rename_i isPostfix
    split
    · exact absurd rfl (refused isPostfix _ _)
    · exact ⟨_, rfl⟩
  · exact ⟨_, rfl⟩

/-- An array with a name that is taken is one fault. Its bounds are not looked at. -/
theorem checkNode_of_taken {position : Int} {name type : Bytes} {first last : Int64} {kind : Kind}
    {state : State} (known : Kind.ofName? type = some kind)
    (taken : (state.table.declaredHere name || isReserved name) = true) :
    checkNode (.arrayDeclaration position name type first last) state =
      (false, state.blaming (.named .duplicateDeclaration name) position) := by
  rw [checkNode_eq, checks, makeAll_cons, makeAll_singleton, checkType, known]
  show (true && (declareNew _ name _ state).1, (declareNew _ name _ state).2) = _
  rw [declareNew, if_pos taken]
  rfl

/-- The analysis never stops early and tells the truth. Each node, whatever is in scope, has its own
verdict, faults and new names, which do not depend on the faults found before; these stay, the new
faults come behind them, and the verdict is bad just if there is a new fault. The scopes around stay
as they are, and the innermost one only gains names.

All checks of a node are made, one behind the other, among them those of all its statements and of
all its operands that are visited; what each one finds in the state that those before it leave
behind is among the faults of the node, and so is its bad verdict. Just as well all nodes of a list
are checked. Two checks are not made behind a fault of the same node: an operation that lacks its
right operand is reported without a look at the left one, and an array with a name that is taken
without a look at its bounds.

So an analysis in a session succeeds just if no fault is left behind, and fails with all the faults
that are. -/
theorem analysis_truthful :
    (∀ (node : Node) (table : Table), ∃ (good : Bool) (later : Table) (found : Array Fault),
      table.Gains later ∧ (good = false ↔ found ≠ #[]) ∧
        ∀ faults, checkNode node ⟨table, faults⟩ = (good, ⟨later, faults ++ found⟩)) ∧
    (∀ node : Node, checkNode node = makeAll (checks node) ∧
      (∀ child ∈ node.visited, checkChild node child ∈ checks node) ∧
      ∀ child ∈ node.statements, checkNode child ∈ checks node) ∧
    (∀ (node : Node) (front back : List (Check Bool)) (check : Check Bool),
      checks node = front ++ check :: back → ∀ state : State,
        ∃ earlier found later : Array Fault,
          (makeAll front state).2.faults = state.faults ++ earlier ∧
          (check (makeAll front state).2).2.faults = state.faults ++ earlier ++ found ∧
          (checkNode node state).2.faults = state.faults ++ earlier ++ found ++ later ∧
          ((check (makeAll front state).2).1 = false → (checkNode node state).1 = false)) ∧
    (∀ (before after : List Node) (state : State), checkNodes (before ++ after) state =
      ((checkNodes before state).1 && (checkNodes after (checkNodes before state).2).1,
        (checkNodes after (checkNodes before state).2).2)) ∧
    (∀ (position : Int) (operator : Bytes) (left right : Node), right.isMissing = true →
      (Operator.isPostfix operator = true → ∀ place name, left ≠ .identifier place name) →
      ∀ state : State, ∃ message, checkNode (.binary position operator left right) state =
        (false, state.blaming (.unsupported message) position)) ∧
    (∀ (position : Int) (name type : Bytes) (first last : Int64) (kind : Kind) (state : State),
      Kind.ofName? type = some kind → (state.table.declaredHere name || isReserved name) = true →
      checkNode (.arrayDeclaration position name type first last) state =
        (false, state.blaming (.named .duplicateDeclaration name) position)) ∧
    ∀ (session : Session) (program : Program),
      (session.analyze program).1 = if (session.analyze program).2.faults = [] then .ok ()
        else .error (.bare (.faults (session.analyze program).2.faults)) := by
  refine ⟨fun node table => ?_, fun node => ⟨checkNode_eq node, children_mem_checks node⟩,
    fun node front back check split => checkNode_of_split split, fun before after state => ?_,
    fun position operator left right absent refused => checkNode_of_noRight absent refused,
    fun position name type first last kind state known taken => checkNode_of_taken known taken,
    fun session program =>
      (@analyze_reports (fun _ => True) program (fun _ _ _ _ => trivial) session).2⟩
  · obtain ⟨good, later, found, gains, _, agrees, checked⟩ :=
      @checkNode_reports (fun _ => True) node (fun _ _ => trivial) table
    exact ⟨good, later, found, gains, by simpa using agrees, checked⟩
  · simp only [checkNodes_eq, List.map_append, makeAll_append]
    rfl

/-- A comparison of two names. -/
def comparedNames : Node := .comparison 1 "=" (.identifier 2 "a") (.identifier 3 "b")

/-- The state behind the declaration of a variable. -/
def behindVariable : State :=
  (checkNode (.declaration 1 "x" "INTEGER") { table := .enter .empty }).2

/-- Both names of a comparison are reported, if neither is declared. The undeclared name in front of
an operator without a right operand is not, nor are the bounds of an array whose name is taken. -/
theorem analysis_truthful_undeclared :
    (∃ earlier found later : Array Fault, earlier.size = 1 ∧ found.size = 1 ∧
      (checkNode comparedNames {}).2.faults = earlier ++ found ++ later) ∧
    (∃ message, checkNode (.binary 1 "*" (.identifier 2 "z") .missing) {} =
      (false, State.blaming {} (.unsupported message) 1)) ∧
    checkNode (.arrayDeclaration 2 "x" "INTEGER" 5 1) behindVariable =
      (false, behindVariable.blaming (.named .duplicateDeclaration "x") 2) := by
  obtain ⟨_, _, among, _, noRight, taken, _⟩ := analysis_truthful
  have isTaken : (behindVariable.table.declaredHere "x" || isReserved "x") = true := by
    decide +kernel
  refine ⟨?_, noRight 1 "*" (.identifier 2 "z") .missing rfl
    (fun isPostfix => absurd isPostfix (by decide)) {}, taken 2 "x" "INTEGER" 5 1 .integer
      behindVariable rfl isTaken⟩
  obtain ⟨earlier, found, later, isEarlier, isFound, isWhole, _⟩ := among comparedNames
    [checkChild comparedNames (.identifier 2 "a")] [] (checkChild comparedNames (.identifier 3 "b"))
    rfl {}
  have one : earlier.size = 1 := by
    have sizes := congrArg Array.size isEarlier
    rw [Array.empty_append] at sizes
    exact sizes.symm.trans (by decide +kernel)
  have two : (earlier ++ found).size = 2 := by
    have sizes := congrArg Array.size isFound
    rw [Array.empty_append] at sizes
    exact sizes.symm.trans (by decide +kernel)
  rw [Array.size_append, one] at two
  refine ⟨earlier, found, later, one, by omega, ?_⟩
  rw [isWhole, Array.empty_append]

end Analysis

end Pascaline
