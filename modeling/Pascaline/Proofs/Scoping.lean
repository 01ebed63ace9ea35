/-
What trees declare and use. A node may declare names in the scope around it and use names from
there. The analysis and lowering do not visit all children in the same order, and in an orderly tree
that makes no difference to any name.

This file also says what an analysis that finds no fault has made sure of: the names that a tree
declares are new in their scope, and behind the tree they are the only ones that have been added.
-/

import Pascaline.Proofs.Extension
import Pascaline.Proofs.Renaming

namespace Pascaline

/-! ### Roles of names -/

/-- A name that is declared or used, and whether that is as a routine. -/
abbrev Mention := Bytes × Bool

/-- The names of all open scopes with their roles, the innermost scope first. -/
abbrev Roles := List (List Mention)

namespace Roles

/-- The role of a name in the innermost scope that declares it. -/
def find? (roles : Roles) (name : Bytes) : Option Bool :=
  roles.findSome? fun scope => scope.lookup name

/-- Whether the innermost scope declares a name. -/
def isHere : Roles → Bytes → Bool
  | [], _ => false
  | scope :: _, name => (scope.lookup name).isSome

/-- The scopes behind declarations in the innermost one. -/
def extend : Roles → List Mention → Roles
  | [], _ => []
  | scope :: outer, declared => (declared.reverse ++ scope) :: outer

@[simp]
theorem extend_nil (roles : Roles) : roles.extend [] = roles := by
  cases roles <;> rfl

theorem extend_append (roles : Roles) (first second : List Mention) :
    roles.extend (first ++ second) = (roles.extend first).extend second := by
  cases roles with
  | nil => rfl
  | cons scope outer => simp [extend]

theorem extend_ne_nil {roles : Roles} (open_ : roles ≠ []) (declared : List Mention) :
    roles.extend declared ≠ [] := by
  cases roles with
  | nil => exact absurd rfl open_
  | cons scope outer => exact List.cons_ne_nil _ _

theorem find?_cons (scope : List Mention) (outer : Roles) (name : Bytes) :
    find? (scope :: outer) name = (scope.lookup name).or (find? outer name) := by
  rw [find?, List.findSome?_cons]
  cases scope.lookup name <;> rfl

variable {scope declared : List Mention} {name : Bytes}

theorem lookup_isSome : (scope.lookup name).isSome = true ↔ name ∈ scope.map Prod.fst := by
  rw [List.lookup_isSome_iff, List.mem_map]
  refine exists_congr fun mention => and_congr_right fun _ => ?_
  rw [beq_iff_eq, eq_comm]

theorem lookup_eq_none : scope.lookup name = none ↔ name ∉ scope.map Prod.fst := by
  rw [← lookup_isSome, Bool.not_eq_true, Option.isSome_eq_false_iff, Option.isNone_iff_eq_none]

theorem lookup_isNone : (scope.lookup name).isNone = true ↔ name ∉ scope.map Prod.fst := by
  rw [Option.isNone_iff_eq_none, lookup_eq_none]

theorem lookup_reverse_eq_none :
    declared.reverse.lookup name = none ↔ name ∉ declared.map Prod.fst := by
  rw [lookup_eq_none, List.map_reverse, List.mem_reverse]

/-- A name that is not declared anew keeps its role. -/
theorem find?_extend_of_not_mem (roles : Roles) (free : name ∉ declared.map Prod.fst) :
    (roles.extend declared).find? name = roles.find? name := by
  cases roles with
  | nil => rfl
  | cons scope outer =>
    rw [extend, find?_cons, find?_cons, List.lookup_append, lookup_reverse_eq_none.mpr free,
      Option.none_or]

/-- A name that is declared anew has the role of its last declaration. -/
theorem find?_extend_of_mem {roles : Roles} (isOpen : roles ≠ [])
    (known : name ∈ declared.map Prod.fst) :
    (roles.extend declared).find? name = declared.reverse.lookup name := by
  cases roles with
  | nil => exact absurd rfl isOpen
  | cons scope outer =>
    cases role : declared.reverse.lookup name with
    | none => exact absurd known (lookup_reverse_eq_none.mp role)
    | some role' =>
      rw [extend, find?_cons, List.lookup_append, role, Option.some_or, Option.some_or]

theorem isHere_extend {roles : Roles} (isOpen : roles ≠ []) :
    (roles.extend declared).isHere name = true ↔
      name ∈ declared.map Prod.fst ∨ roles.isHere name = true := by
  cases roles with
  | nil => exact absurd rfl isOpen
  | cons scope outer =>
    simp only [extend, isHere, lookup_isSome, List.map_append, List.mem_append, List.map_reverse,
      List.mem_reverse]

theorem isHere_of_extend {roles : Roles} (here : roles.isHere name = true) :
    (roles.extend declared).isHere name = true := by
  cases roles with
  | nil => cases here
  | cons scope outer => exact (isHere_extend (List.cons_ne_nil _ _)).mpr (.inr here)

end Roles

namespace Table

variable (view : Symbol → Bool)

/-- The roles of all names in scope, for a notion of what counts as a routine. -/
def roles (table : Table) : Roles :=
  table.scopes.map fun scope => List.map (fun symbol => (symbol.name, view symbol)) scope

@[simp]
theorem roles_exit (table : Table) : table.exit.roles view = (table.roles view).tail := by
  simp [roles, exit]

theorem lookup_scope (scope : Scope) (name : Bytes) :
    (List.map (fun symbol => (symbol.name, view symbol)) scope).lookup name =
      (scope.find? name).map view := by
  induction scope with
  | nil => rfl
  | cons symbol rest same =>
    rw [List.map_cons, List.lookup_cons, Scope.find?, List.find?_cons]
    by_cases named : symbol.name = name
    · simp [named]
    · have different : (name == symbol.name) = false := beq_eq_false_iff_ne.mpr (Ne.symm named)
      simpa [named, different, Scope.find?] using same

theorem find?_roles (table : Table) (name : Bytes) :
    (table.roles view).find? name = (table.find? name).map view := by
  obtain ⟨scopes⟩ := table
  show Roles.find? (scopes.map _) name = (scopes.findSome? _).map view
  induction scopes with
  | nil => rfl
  | cons scope outer same =>
    rw [List.map_cons, Roles.find?_cons, lookup_scope, same, List.findSome?_cons]
    cases scope.find? name <;> rfl

theorem isHere_roles (table : Table) (name : Bytes) :
    (table.roles view).isHere name = table.declaredHere name := by
  obtain ⟨scopes⟩ := table
  cases scopes with
  | nil => rfl
  | cons scope outer =>
    show (List.lookup name _).isSome = (scope.find? name).isSome
    rw [lookup_scope, Option.isSome_map]

/-- A symbol can be declared in an open scope that does not have its name. -/
theorem declare_isOk (table : Table) (symbol : Symbol) (isOpen : table.roles view ≠ [])
    (free : table.declaredHere symbol.name = false) :
    ∃ later, table.declare symbol = .ok later := by
  obtain ⟨scopes⟩ := table
  cases scopes with
  | nil => exact absurd rfl isOpen
  | cons scope outer =>
    have free : (scope.find? symbol.name).isSome = false := free
    exact ⟨_, by rw [declare]; simp only [free]; rfl⟩

theorem roles_declare {table later : Table} {symbol : Symbol}
    (declared : table.declare symbol = .ok later) :
    later.roles view = (table.roles view).extend [(symbol.name, view symbol)] ∧
      (table.roles view).isHere symbol.name = false ∧ table.roles view ≠ [] := by
  obtain ⟨scope, outer, scopes, fresh, rfl⟩ := declare_eq_ok.mp declared
  obtain ⟨_⟩ := table
  cases scopes
  refine ⟨rfl, ?_, List.cons_ne_nil _ _⟩
  rw [isHere_roles]
  show (scope.find? symbol.name).isSome = false
  rw [fresh]
  rfl

/-- Changes that leave the names and roles of symbols alone. -/
theorem roles_update (table : Table) (name : Bytes) {change : Symbol → Symbol}
    (sameName : ∀ symbol, (change symbol).name = symbol.name)
    (sameRole : ∀ symbol, view (change symbol) = view symbol) :
    (table.update name change).roles view = table.roles view := by
  obtain ⟨scopes⟩ := table
  show (update.updateFirst name change scopes).map _ = scopes.map _
  induction scopes with
  | nil => rfl
  | cons scope outer same =>
    rw [update.updateFirst]
    split
    · rw [List.map_cons, List.map_cons, Scope.update, List.map_map]
      congr 1
      refine List.map_congr_left fun symbol _ => ?_
      show ((if symbol.name = name then change symbol else symbol).name,
        view (if symbol.name = name then change symbol else symbol)) = (symbol.name, view symbol)
      split
      · rw [sameName, sameRole]
      · rfl
    · rw [List.map_cons, List.map_cons, same]

end Table

/-! ### Declared and used names -/

/-- The uses that declarations before them do not answer. -/
def outside (declared uses : List Mention) : List Mention :=
  uses.filter fun use => (declared.lookup use.1).isNone

theorem mem_outside {declared uses : List Mention} {use : Mention} :
    use ∈ outside declared uses ↔ use ∈ uses ∧ use.1 ∉ declared.map Prod.fst := by
  rw [outside, List.mem_filter, Roles.lookup_isNone]

def Param.mention (param : Param) : Mention := (param.name, false)

namespace Node

theorem eq_missing {node : Node} (missing : node.isMissing = true) : node = .missing := by
  cases node <;> first | rfl | cases missing

mutual

/-- The names that a node declares in the scope around it, in the order of their declarations. -/
def declares : Node → List Mention
  | .declaration _ name _ => [(name, false)]
  | .arrayDeclaration _ name _ _ _ => [(name, false)]
  | .procedure _ name _ _ => [(name, true)]
  | .function _ name _ _ _ => [(name, true)]
  | .assignment _ _ value => value.declares
  | .arrayAssignment _ _ index value => index.declares ++ value.declares
  | .arrayAccess _ _ index => index.declares
  | .binary _ _ left right => left.declares ++ right.declares
  | .comparison _ _ left right => left.declares ++ right.declares
  | .logical _ operator left right =>
    if Operator.isNot operator then right.declares else left.declares ++ right.declares
  | .unary _ _ operand => operand.declares
  | .conditional _ condition _ _ => condition.declares
  | .whileLoop _ condition _ => condition.declares
  | .call _ _ args => declaresAll args
  | .return _ value => value.declares
  | .output _ args => declaresAll args
  | .input _ target => target.declares
  | .block _ statements => declaresAll statements
  | .missing | .integer .. | .real .. | .char .. | .string .. | .date .. | .boolean ..
  | .identifier .. | .forLoop .. | .repeatLoop .. => []

/-- The names that nodes declare one after the other. -/
def declaresAll : List Node → List Mention
  | [] => []
  | node :: rest => node.declares ++ declaresAll rest

end

mutual

/-- The names that a node uses from the scope around it. -/
def uses : Node → List Mention
  | .identifier _ name => [(name, false)]
  | .assignment _ name value => (name, false) :: value.uses
  | .arrayAssignment _ name index value =>
    index.uses ++ outside index.declares ((name, false) :: value.uses)
  | .arrayAccess _ name index => index.uses ++ outside index.declares [(name, false)]
  | .binary _ _ left right => left.uses ++ outside left.declares right.uses
  | .comparison _ _ left right => left.uses ++ outside left.declares right.uses
  | .logical _ operator left right =>
    if Operator.isNot operator then right.uses else left.uses ++ outside left.declares right.uses
  | .unary _ _ operand => operand.uses
  | .conditional _ condition consequent alternative =>
    condition.uses ++ outside condition.declares (usesAll consequent ++ usesAll alternative)
  | .forLoop _ start condition step body =>
    start.uses ++ outside start.declares (condition.uses ++ outside condition.declares
      (usesAll body ++ outside (declaresAll body) step.uses))
  | .whileLoop _ condition body => condition.uses ++ outside condition.declares (usesAll body)
  | .repeatLoop _ body condition => usesAll body ++ outside (declaresAll body) condition.uses
  | .procedure _ name params body =>
    outside ((name, true) :: params.map Param.mention) (usesAll body)
  | .function _ name params _ body =>
    outside ((name, true) :: params.map Param.mention) (usesAll body)
  | .call _ name args => (name, true) :: usesAll args
  | .return _ value => value.uses
  | .output _ args => usesAll args
  | .input _ target => target.uses
  | .block _ statements => usesAll statements
  | .missing | .integer .. | .real .. | .char .. | .string .. | .date .. | .boolean ..
  | .declaration .. | .arrayDeclaration .. => []

/-- The names that nodes one after the other use from the scope around them. -/
def usesAll : List Node → List Mention
  | [] => []
  | node :: rest => node.uses ++ outside node.declares (usesAll rest)

end

mutual

/-- Whether the order in which children are visited makes no difference to names. No value declares
the variable that it is assigned to, and no argument the routine that is called. The step of a loop
declares nothing that the body uses, and the body declares no variable under the name of a routine
that the step calls. -/
def orderly : Node → Bool
  | .assignment _ name value => value.orderly && (value.declares.lookup name).isNone
  | .arrayAssignment _ name index value =>
    index.orderly && value.orderly && (value.declares.lookup name).isNone
  | .arrayAccess _ _ index => index.orderly
  | .binary _ _ left right => left.orderly && right.orderly
  | .comparison _ _ left right => left.orderly && right.orderly
  | .logical _ _ left right => left.orderly && right.orderly
  | .unary _ _ operand => operand.orderly
  | .conditional _ condition consequent alternative =>
    condition.orderly && orderlyAll consequent && orderlyAll alternative
  | .forLoop _ start condition step body =>
    start.orderly && condition.orderly && step.orderly && orderlyAll body &&
      ((usesAll body).all fun use => (step.declares.lookup use.1).isNone) &&
      step.uses.all fun use => !(use.2 && (declaresAll body).contains (use.1, false))
  | .whileLoop _ condition body => condition.orderly && orderlyAll body
  | .repeatLoop _ body condition => orderlyAll body && condition.orderly
  | .procedure _ _ _ body => orderlyAll body
  | .function _ _ _ _ body => orderlyAll body
  | .call _ name args => orderlyAll args && ((declaresAll args).lookup name).isNone
  | .return _ value => value.orderly
  | .output _ args => orderlyAll args
  | .input _ target => target.orderly
  | .block _ statements => orderlyAll statements
  | .missing | .integer .. | .real .. | .char .. | .string .. | .date .. | .boolean ..
  | .identifier .. | .declaration .. | .arrayDeclaration .. => true

def orderlyAll : List Node → Bool
  | [] => true
  | node :: rest => node.orderly && orderlyAll rest

end

end Node

/-! ### What a good analysis has made sure of -/

namespace Analysis

/-- The roles of the names that an analysis has in scope. -/
def State.roles (state : State) : Roles := state.table.roles Symbol.isRoutine

/-- A check that, where it finds nothing wrong, adds exactly the given names, all of them new in
their scope. -/
def Adds (declared : List Mention) (check : Check Bool) : Prop :=
  ∀ state : State, (check state).1 = true →
    (check state).2.roles = state.roles.extend declared ∧
      ∀ name ∈ declared.map Prod.fst, state.roles.isHere name = false

variable {state : State} {check body : Check Bool} {node : Node} {name result : Bytes}
  {params : List Param} {declaration : Kind → Table → Except Fault Table} {declared : List Mention}
  {nodes : List Node}

theorem both_good {first second : Check Bool} (good : (both first second state).1 = true) :
    (first state).1 = true ∧ (second (first state).2).1 = true :=
  Bool.and_eq_true_iff.mp good

theorem both_after (first second : Check Bool) (state : State) :
    (both first second state).2 = (second (first state).2).2 := rfl

theorem required_good {parent child : Node} (good : (required parent child check state).1 = true) :
    child.isMissing = false ∧ required parent child check = check := by
  unfold required at good ⊢
  cases missing : child.isMissing with
  | true =>
    rw [missing] at good
    cases good
  | false => exact ⟨rfl, rfl⟩

theorem checkReference_good (good : (checkReference node name state).1 = true) :
    (state.roles.find? name).isSome = true ∧ (checkReference node name state).2 = state := by
  have unfolded : checkReference node name state =
      (if (state.table.find? name).isSome then pure true
        else reportDiagnostic node (.named .undeclaredIdentifier name) : Check Bool) state := rfl
  rw [unfolded] at good ⊢
  rw [State.roles, Table.find?_roles, Option.isSome_map]
  cases declared : (state.table.find? name).isSome with
  | true => exact ⟨rfl, rfl⟩
  | false =>
    rw [if_neg (Bool.eq_false_iff.mp declared)] at good
    cases good

theorem checkCallee_good (good : (checkCallee node name state).1 = true) :
    state.roles.find? name = some true ∧ (checkCallee node name state).2 = state := by
  have unfolded : checkCallee node name state =
      (if (state.table.find? name).any Symbol.isRoutine then pure true
        else reportDiagnostic node (.named .unknownFunction name) : Check Bool) state := rfl
  rw [unfolded] at good ⊢
  rw [State.roles, Table.find?_roles]
  cases found : (state.table.find? name).any Symbol.isRoutine with
  | true =>
    obtain ⟨symbol, isSymbol, isRoutine⟩ := (Option.any_eq_true _ _).mp found
    rw [isSymbol, Option.map_some, isRoutine]
    exact ⟨rfl, rfl⟩
  | false =>
    rw [if_neg (Bool.eq_false_iff.mp found)] at good
    cases good

theorem checkPostfix_good {target : Node} {operator : Bytes}
    (good : (checkPostfix node operator target state).1 = true) :
    ∃ position name, target = .identifier position name ∧
      (checkReference node name state).1 = true := by
  unfold checkPostfix at good
  split at good
  · split at good
    · exact ⟨_, _, rfl, good⟩
    · cases good
  · cases good

theorem declare_good {declaration : Table → Except Fault Table}
    (good : (declare node declaration state).1 = true) :
    ∃ later, declaration state.table = .ok later ∧
      declare node declaration state = (true, { state with table := later }) := by
  cases declared : declaration state.table with
  | ok later => exact ⟨later, rfl, declare_of_ok node declared⟩
  | error fault =>
    rw [declare_of_error node declared] at good
    cases good

theorem resolve_good {type : Bytes} (good : (resolve node type state).1.1 = true) :
    ∃ kind, Kind.ofName? type = some kind ∧ resolve node type state = ((true, kind), state) := by
  unfold resolve at good ⊢
  cases resolved : Kind.ofName? type with
  | some kind => exact ⟨kind, rfl, rfl⟩
  | none =>
    rw [resolved] at good
    cases good

theorem resolveParams_good (good : (resolveParams node params state).1.1 = true) :
    ∃ kinds, Lowering.paramKinds? params = some kinds ∧ params.length = kinds.length ∧
      resolveParams node params state = ((true, kinds), state) := by
  induction params with
  | nil => exact ⟨[], rfl, rfl, rfl⟩
  | cons param params rest =>
    have both : (resolve node param.type state).1.1 = true ∧
        (resolveParams node params (resolve node param.type state).2).1.1 = true :=
      Bool.and_eq_true_iff.mp good
    obtain ⟨kind, resolved, same⟩ := resolve_good both.1
    rw [same] at both
    obtain ⟨kinds, resolvedRest, length, sameRest⟩ := rest both.2
    refine ⟨kind :: kinds, ?_, congrArg Nat.succ length, ?_⟩
    · rw [Lowering.paramKinds?] at resolvedRest ⊢
      simp [List.mapM_cons, resolved, resolvedRest]
    · simp [resolveParams, bind, StateT.bind, same, sameRest, pure, StateT.pure]

theorem resolveResult_good (good : (resolveResult node result state).1.1 = true) :
    ∃ kind, Lowering.resultKind? result = some kind ∧
      resolveResult node result state = ((true, kind), state) := by
  unfold resolveResult at good ⊢
  unfold Lowering.resultKind?
  split
  · exact ⟨.none, rfl, rfl⟩
  · rename_i named
    rw [if_neg named] at good
    exact resolve_good good

theorem checkDeclaration_good {type : Bytes}
    (good : (checkDeclaration node name type declaration state).1 = true) :
    ∃ kind later, Kind.ofName? type = some kind ∧ isReserved name = false ∧
      state.roles.isHere name = false ∧ declaration kind state.table = .ok later ∧
      (checkDeclaration node name type declaration state).2 = { state with table := later } := by
  have unfolded : checkDeclaration node name type declaration state =
      (if ((resolve node type state).2.table.declaredHere name || isReserved name) = true then
        reportDiagnostic node (.named .duplicateDeclaration name)
      else do
        let declared ← declare node (declaration (resolve node type state).1.2)
        return declared && (resolve node type state).1.1 : Check Bool)
        (resolve node type state).2 := rfl
  rw [unfolded] at good ⊢
  cases taken : ((resolve node type state).2.table.declaredHere name || isReserved name) with
  | true =>
    rw [if_pos taken] at good
    cases good
  | false =>
    rw [if_neg (Bool.eq_false_iff.mp taken)] at good
    obtain ⟨declares, resolves⟩ := Bool.and_eq_true_iff.mp good
    obtain ⟨kind, resolved, same⟩ := resolve_good resolves
    rw [same] at declares taken ⊢
    obtain ⟨later, declared, after⟩ := declare_good declares
    obtain ⟨fresh, free⟩ := Bool.or_eq_false_iff.mp taken
    refine ⟨kind, later, resolved, free, ?_, declared, ?_⟩
    · rw [State.roles, Table.isHere_roles]
      exact fresh
    · show (declare node (declaration kind) state).2 = _
      rw [after]

theorem declareParams_good {kinds : List Kind} (length : params.length = kinds.length)
    (good : (declareParams node params kinds state).1 = true) :
    (params.map Param.name).Nodup ∧
      (∀ name ∈ params.map Param.name, state.roles.isHere name = false) ∧
      (declareParams node params kinds state).2.roles =
        state.roles.extend (params.map Param.mention) := by
  induction params generalizing kinds state with
  | nil =>
    refine ⟨List.nodup_nil, fun _ member => absurd member List.not_mem_nil, ?_⟩
    rw [List.map_nil, Roles.extend_nil]
    rfl
  | cons param params rest =>
    cases kinds with
    | nil => cases length
    | cons kind kinds =>
      have split :
          (declare node (fun table => table.declareScalar param.name kind) state).1 = true ∧
          (declareParams node params kinds
            (declare node (fun table => table.declareScalar param.name kind) state).2).1 = true :=
        Bool.and_eq_true_iff.mp good
      obtain ⟨later, declared, after⟩ := declare_good split.1
      obtain ⟨roles, fresh, isOpen⟩ := Table.roles_declare Symbol.isRoutine declared
      rw [after] at split
      obtain ⟨distinct, freshRest, added⟩ := rest (Nat.succ.inj length) split.2
      have roles : ({ state with table := later } : State).roles =
          state.roles.extend [param.mention] := roles
      rw [roles] at freshRest added
      have different : param.name ∉ params.map Param.name := fun member => by
        have here := (@Roles.isHere_extend [param.mention] _ _ isOpen).mpr
          (.inl (List.mem_singleton_self param.name))
        exact Bool.eq_false_iff.mp (freshRest _ member) here
      refine ⟨List.nodup_cons.mpr ⟨different, distinct⟩, ?_, ?_⟩
      · intro name member
        rcases List.mem_cons.mp member with rfl | member
        · exact fresh
        · exact Bool.eq_false_iff.mpr fun here =>
            Bool.eq_false_iff.mp (freshRest name member) (Roles.isHere_of_extend here)
      · show (declareParams node params kinds
          (declare node (fun table => table.declareScalar param.name kind) state).2).2.roles = _
        rw [after, added, ← Roles.extend_append]
        rfl

theorem inScope_good (good : (inScope check state).1 = true) :
    (check { state with table := state.table.enter }).1 = true ∧
      (inScope check state).2.roles =
        (check { state with table := state.table.enter }).2.roles.tail :=
  ⟨good, Table.roles_exit _ _⟩

/-- What is behind a routine without a fault: its types are known, its name is new, its parameters
are different, and the body is good in a scope with the parameters. -/
theorem checkRoutine_good (good : (checkRoutine node name params result body state).1 = true) :
    ∃ (kinds : List Kind) (kind : Kind) (inner : State),
      Lowering.paramKinds? params = some kinds ∧ params.length = kinds.length ∧
      Lowering.resultKind? result = some kind ∧ isReserved name = false ∧ state.roles ≠ [] ∧
      state.roles.isHere name = false ∧
      (params.map Param.name).Nodup ∧
      inner.roles = Roles.extend ([] :: state.roles.extend [(name, true)])
        (params.map Param.mention) ∧
      (body inner).1 = true ∧
      (checkRoutine node name params result body state).2.roles = (body inner).2.roles.tail := by
  cases reserved : isReserved name with
  | true =>
    simp only [checkRoutine, reserved, if_true] at good
    obtain ⟨good, _⟩ := Bool.and_eq_true_iff.mp good
    obtain ⟨good, _⟩ := Bool.and_eq_true_iff.mp good
    obtain ⟨_, good⟩ := Bool.and_eq_true_iff.mp good
    cases good
  | false =>
    -- The steps in the order in which they are made, each from where the one before it ends.
    let resolved := resolveParams node params state
    let answered := resolveResult node result resolved.2
    let declared := declare node (fun table => table.declareRoutine name resolved.1.2 answered.1.2)
      answered.2
    let inside : Check Bool := do
      let declaredParams ← declareParams node params resolved.1.2
      let goodBody ← body
      return declaredParams && goodBody
    have unfolded : checkRoutine node name params result body state =
        (resolved.1.1 && answered.1.1 && true && declared.1 && (inScope inside declared.2).1,
          (inScope inside declared.2).2) := by
      simp only [checkRoutine, reserved, Bool.false_eq_true, if_false]
      rfl
    rw [unfolded] at good ⊢
    simp only [Bool.and_eq_true, and_true] at good
    obtain ⟨⟨⟨goodParams, goodResult⟩, goodDeclare⟩, goodBody⟩ := good
    obtain ⟨kinds, isKinds, length, sameParams⟩ := resolveParams_good goodParams
    have isResolved : resolved = ((true, kinds), state) := sameParams
    obtain ⟨kind, isKind, sameResult⟩ := resolveResult_good goodResult
    have isAnswered : answered = ((true, kind), state) := by
      rw [show answered = ((true, kind), resolved.2) from sameResult, isResolved]
    obtain ⟨later, ran, after⟩ := declare_good goodDeclare
    rw [isResolved, isAnswered] at ran
    have isDeclared : declared = (true, { state with table := later }) := by
      rw [show declared = (true, { answered.2 with table := later }) from after, isAnswered]
    obtain ⟨roles, fresh, isOpen⟩ := Table.roles_declare Symbol.isRoutine ran
    obtain ⟨goodInside, closed⟩ := inScope_good goodBody
    rw [isDeclared] at goodInside closed
    obtain ⟨goodDeclared, goodBody⟩ := Bool.and_eq_true_iff.mp goodInside
    have goodDeclared : (declareParams node params resolved.1.2
        { state with table := later.enter }).1 = true := goodDeclared
    rw [isResolved] at goodDeclared
    obtain ⟨distinct, _, added⟩ := declareParams_good length goodDeclared
    refine ⟨kinds, kind, (declareParams node params kinds { state with table := later.enter }).2,
      isKinds, length, isKind, rfl, isOpen, fresh, distinct, ?_, ?_, ?_⟩
    · rw [added]
      show Roles.extend ([] :: later.roles Symbol.isRoutine) _ = _
      rw [roles]
      rfl
    · have goodBody : (body (declareParams node params resolved.1.2
          { state with table := later.enter }).2).1 = true := goodBody
      rw [isResolved] at goodBody
      exact goodBody
    · rw [isDeclared, closed]
      show (body (declareParams node params resolved.1.2
        { state with table := later.enter }).2).2.roles.tail = _
      rw [isResolved]

/-! ### Analysis of trees -/

theorem Adds.pure (result : Bool) : Adds [] (pure result) :=
  fun state _ => ⟨state.roles.extend_nil.symm, fun _ member => absurd member List.not_mem_nil⟩

theorem Adds.both {first second : Check Bool} {declaredToo : List Mention}
    (early : Adds declared first) (late : Adds declaredToo second) :
    Adds (declared ++ declaredToo) (both first second) := by
  intro state good
  obtain ⟨goodFirst, goodSecond⟩ := both_good good
  obtain ⟨roles, fresh⟩ := early state goodFirst
  obtain ⟨rolesToo, freshToo⟩ := late _ goodSecond
  refine ⟨?_, fun name member => ?_⟩
  · rw [Roles.extend_append, ← roles]
    exact rolesToo
  · rw [List.map_append, List.mem_append] at member
    rcases member with member | member
    · exact fresh name member
    · rw [roles] at freshToo
      exact Bool.eq_false_iff.mpr fun here =>
        Bool.eq_false_iff.mp (freshToo name member) (Roles.isHere_of_extend here)

theorem Adds.required {parent child : Node} (inner : Adds declared check) :
    Adds declared (required parent child check) := by
  intro state good
  have same := (required_good good).2
  rw [same] at good ⊢
  exact inner state good

theorem Adds.inScope (inner : Adds declared check) : Adds [] (inScope check) := by
  intro state good
  obtain ⟨good, closed⟩ := inScope_good good
  refine ⟨?_, fun _ member => absurd member List.not_mem_nil⟩
  rw [closed, (inner _ good).1, Roles.extend_nil]
  rfl

theorem Adds.checkReference (node : Node) (name : Bytes) : Adds [] (checkReference node name) := by
  intro state good
  refine ⟨?_, fun _ member => absurd member List.not_mem_nil⟩
  rw [(checkReference_good good).2, Roles.extend_nil]

theorem Adds.checkCallee (node : Node) (name : Bytes) : Adds [] (checkCallee node name) := by
  intro state good
  refine ⟨?_, fun _ member => absurd member List.not_mem_nil⟩
  rw [(checkCallee_good good).2, Roles.extend_nil]

theorem Adds.checkDeclaration (node : Node) (name type : Bytes)
    (adds : ∀ kind table later, declaration kind table = .ok later →
      later.roles Symbol.isRoutine = (table.roles Symbol.isRoutine).extend [(name, false)]) :
    Adds [(name, false)] (checkDeclaration node name type declaration) := by
  intro state good
  obtain ⟨kind, later, _, _, fresh, declared, after⟩ := checkDeclaration_good good
  rw [after]
  refine ⟨adds kind state.table later declared, fun other member => ?_⟩
  rw [List.map_singleton, List.mem_singleton] at member
  rw [member]
  exact fresh

theorem Adds.checkRoutine (node : Node) (name : Bytes) (params : List Param) (result : Bytes)
    (inner : Adds declared body) :
    Adds [(name, true)] (checkRoutine node name params result body) := by
  intro state good
  obtain ⟨_, _, inside, _, _, _, _, _, fresh, _, roles, goodBody, after⟩ := checkRoutine_good good
  refine ⟨?_, fun other member => ?_⟩
  · rw [after, (inner inside goodBody).1, roles]
    rfl
  · rw [List.map_singleton, List.mem_singleton] at member
    rw [member]
    exact fresh

theorem Adds.checkNodes (each : ∀ node ∈ nodes, Adds node.declares (checkNode node)) :
    Adds (Node.declaresAll nodes) (checkNodes nodes) := by
  induction nodes with
  | nil => exact .pure true
  | cons node nodes rest =>
    rw [Node.declaresAll, Analysis.checkNodes]
    exact .both (each node (List.mem_cons_self ..))
      (rest fun node member => each node (List.mem_cons_of_mem _ member))

theorem Adds.checkOperands (parent : Node)
    (each : ∀ node ∈ nodes, Adds node.declares (checkNode node)) :
    Adds (Node.declaresAll nodes) (checkOperands parent nodes) := by
  induction nodes with
  | nil => exact .pure true
  | cons node nodes rest =>
    rw [Node.declaresAll, Analysis.checkOperands]
    exact .both (.required (each node (List.mem_cons_self ..)))
      (rest fun node member => each node (List.mem_cons_of_mem _ member))

theorem Adds.of_bad (declared : List Mention) (bad : ∀ state, (check state).1 = false) :
    Adds declared check := by
  intro state good
  rw [bad] at good
  cases good

theorem Adds.checkPostfix (node : Node) (operator : Bytes) (target : Node) :
    Adds target.declares (checkPostfix node operator target) := by
  unfold Analysis.checkPostfix
  split
  · cases target with
    | identifier position name => exact .checkReference _ _
    | _ => exact .of_bad _ fun _ => rfl
  · exact .of_bad _ fun _ => rfl

/-- An analysis of a tree without faults adds the names that the tree declares. -/
theorem checkNode_adds (node : Node) : Adds node.declares (checkNode node) := by
  induction node using Node.inductionOn with
  | step node children =>
    cases node with
    | missing =>
      rw [checkNode]
      exact .of_bad _ fun _ => rfl
    | integer | real | char | string | date | boolean =>
      rw [checkNode]
      exact .pure true
    | identifier position name =>
      rw [checkNode]
      exact .checkReference _ _
    | declaration position name type =>
      rw [checkNode]
      exact .checkDeclaration _ _ _ fun kind table later declared =>
        (Table.roles_declare Symbol.isRoutine declared).1
    | arrayDeclaration position name type first last =>
      rw [checkNode]
      refine .checkDeclaration _ _ _ fun kind table later declared => ?_
      unfold Table.declareArray at declared
      split at declared
      · cases declared
      · exact (Table.roles_declare Symbol.isRoutine declared).1
    | assignment position name value =>
      rw [checkNode, Node.declares, ← List.append_nil value.declares]
      exact .both (.required (children value (by simp))) (.checkReference _ _)
    | arrayAssignment position name index value =>
      rw [checkNode, Node.declares, ← List.append_nil (index.declares ++ value.declares)]
      exact .both (.both (.required (children index (by simp)))
        (.required (children value (by simp)))) (.checkReference _ _)
    | arrayAccess position name index =>
      rw [checkNode, Node.declares, ← List.append_nil index.declares]
      exact .both (.required (children index (by simp))) (.checkReference _ _)
    | binary position operator left right =>
      rw [checkNode, Node.declares]
      split
      · rename_i missing
        rw [Node.eq_missing missing, Node.declares, List.append_nil]
        exact .checkPostfix _ _ _
      · exact .both (.required (children left (by simp))) (.required (children right (by simp)))
    | comparison position operator left right =>
      rw [checkNode, Node.declares]
      exact .both (.required (children left (by simp))) (.required (children right (by simp)))
    | logical position operator left right =>
      rw [checkNode, Node.declares]
      split
      · exact .required (children right (by simp))
      · exact .both (.required (children left (by simp))) (.required (children right (by simp)))
    | unary position operator operand =>
      rw [checkNode, Node.declares]
      exact .required (children operand (by simp))
    | conditional position condition consequent alternative =>
      rw [checkNode, Node.declares, ← List.append_nil condition.declares]
      refine .both (.required (children condition (by simp)))
        (.both (.inScope (.checkNodes fun node member => ?_))
          (.inScope (.checkNodes fun node member => ?_)))
      · exact children node (by simp [member])
      · exact children node (by simp [member])
    | forLoop position start condition step body =>
      rw [checkNode, Node.declares]
      exact .inScope (.both (.required (children start (by simp)))
        (.both (.required (children condition (by simp)))
          (.both (.required (children step (by simp)))
            (.checkNodes fun node member => children node (by simp [member])))))
    | whileLoop position condition body =>
      rw [checkNode, Node.declares, ← List.append_nil condition.declares]
      exact .both (.required (children condition (by simp)))
        (.inScope (.checkNodes fun node member => children node (by simp [member])))
    | repeatLoop position body condition =>
      rw [checkNode, Node.declares]
      exact .inScope (.both (.checkNodes fun node member => children node (by simp [member]))
        (.required (children condition (by simp))))
    | procedure position name params body =>
      rw [checkNode, Node.declares]
      exact .checkRoutine _ _ _ _ (.checkNodes children)
    | function position name params result body =>
      rw [checkNode, Node.declares]
      exact .checkRoutine _ _ _ _ (.checkNodes children)
    | call position name args =>
      rw [checkNode, Node.declares, ← List.append_nil (Node.declaresAll args)]
      exact .both (.checkOperands _ children) (.checkCallee _ _)
    | «return» position value =>
      have valueAdds := children value (by simp)
      rw [checkNode, Node.declares]
      split
      · rename_i missing
        rw [Node.eq_missing missing, Node.declares]
        exact .pure true
      · exact valueAdds
    | output position args =>
      rw [checkNode, Node.declares]
      exact .checkOperands _ children
    | input position target =>
      cases target with
      | identifier position name =>
        rw [checkNode, checkNode, Node.declares, Node.declares]
        exact .checkReference _ _
      | arrayAccess position name index =>
        rw [checkNode, checkNode, Node.declares, Node.declares, ← List.append_nil index.declares]
        exact .both (.required (children index (by simp))) (.checkReference _ _)
      | _ => exact .of_bad _ fun _ => rfl
    | block position statements =>
      rw [checkNode, Node.declares]
      exact .checkNodes children

theorem checkNodes_adds (nodes : List Node) : Adds (Node.declaresAll nodes) (checkNodes nodes) :=
  .checkNodes fun node _ => checkNode_adds node

end Analysis

/-! ### Scopes that answer the same uses -/

/-- Where a tree is good under one set of scopes, its uses are answered under another one as well,
and the names that it declares can be declared there. -/
structure Covers (declared uses : List Mention) (checked lowered : Roles) : Prop where
  checkedOpen : checked ≠ []
  loweredOpen : lowered ≠ []
  known : ∀ name, (name, false) ∈ uses → (checked.find? name).isSome = true →
    (lowered.find? name).isSome = true
  routine : ∀ name, (name, true) ∈ uses → checked.find? name = some true →
    lowered.find? name = some true
  fresh : ∀ name ∈ declared.map Prod.fst, lowered.isHere name = true → checked.isHere name = true

namespace Covers

variable {declared declaredToo uses usesToo : List Mention} {checked lowered : Roles}

/-- Equal scopes cover each other. -/
theorem refl (declared uses : List Mention) {roles : Roles} (isOpen : roles ≠ []) :
    Covers declared uses roles roles where
  checkedOpen := isOpen
  loweredOpen := isOpen
  known _ _ := id
  routine _ _ := id
  fresh _ _ := id

/-- Fewer names have to be covered. -/
theorem mono (covers : Covers declared uses checked lowered)
    (fewer : ∀ name ∈ declaredToo.map Prod.fst, name ∈ declared.map Prod.fst)
    (less : ∀ use ∈ usesToo, use ∈ uses) : Covers declaredToo usesToo checked lowered where
  checkedOpen := covers.checkedOpen
  loweredOpen := covers.loweredOpen
  known name used := covers.known name (less _ used)
  routine name used := covers.routine name (less _ used)
  fresh name member := covers.fresh name (fewer name member)

/-- Behind a part that declares names on both sides, the other part is covered still. -/
theorem behind (covers : Covers (declared ++ declaredToo) (uses ++ outside declared usesToo)
    checked lowered) :
    Covers declaredToo usesToo (checked.extend declared) (lowered.extend declared) where
  checkedOpen := Roles.extend_ne_nil covers.checkedOpen _
  loweredOpen := Roles.extend_ne_nil covers.loweredOpen _
  known name used := by
    by_cases again : name ∈ declared.map Prod.fst
    · rw [Roles.find?_extend_of_mem covers.checkedOpen again,
        Roles.find?_extend_of_mem covers.loweredOpen again]
      exact id
    · rw [Roles.find?_extend_of_not_mem _ again, Roles.find?_extend_of_not_mem _ again]
      exact covers.known name (List.mem_append_right _ (mem_outside.mpr ⟨used, again⟩))
  routine name used := by
    by_cases again : name ∈ declared.map Prod.fst
    · rw [Roles.find?_extend_of_mem covers.checkedOpen again,
        Roles.find?_extend_of_mem covers.loweredOpen again]
      exact id
    · rw [Roles.find?_extend_of_not_mem _ again, Roles.find?_extend_of_not_mem _ again]
      exact covers.routine name (List.mem_append_right _ (mem_outside.mpr ⟨used, again⟩))
  fresh name member := by
    rw [Roles.isHere_extend covers.checkedOpen, Roles.isHere_extend covers.loweredOpen]
    exact Or.imp_right (covers.fresh name (by
      rw [List.map_append]
      exact List.mem_append_right _ member))

theorem first (covers : Covers (declared ++ declaredToo) (uses ++ outside declared usesToo)
    checked lowered) : Covers declared uses checked lowered :=
  covers.mono (fun name member => by
    rw [List.map_append]
    exact List.mem_append_left _ member) fun _ => List.mem_append_left _

/-- In a new scope every name can be declared. -/
theorem enter (covers : Covers declared uses checked lowered) (inner : List Mention) :
    Covers inner uses ([] :: checked) ([] :: lowered) where
  checkedOpen := List.cons_ne_nil _ _
  loweredOpen := List.cons_ne_nil _ _
  known := covers.known
  routine := covers.routine
  fresh _ _ here := here

/-- Two parts that the analysis visits in the other order. The first part, which the analysis
visits behind the second one, uses nothing of it. -/
theorem overtaken (covers : Covers (declared ++ declaredToo) (uses ++ outside declared usesToo)
    checked lowered) (apart : ∀ use ∈ uses, use.1 ∉ declaredToo.map Prod.fst) :
    Covers declared uses (checked.extend declaredToo) lowered where
  checkedOpen := Roles.extend_ne_nil covers.checkedOpen _
  loweredOpen := covers.loweredOpen
  known name used := by
    rw [Roles.find?_extend_of_not_mem _ (apart _ used)]
    exact covers.first.known name used
  routine name used := by
    rw [Roles.find?_extend_of_not_mem _ (apart _ used)]
    exact covers.first.routine name used
  fresh name member here := Roles.isHere_of_extend (covers.first.fresh name member here)

/-- The second part, which is visited first by the analysis. Of the names that it calls, the first
part declares none as a variable. -/
theorem overtaking (covers : Covers (declared ++ declaredToo) (uses ++ outside declared usesToo)
    checked lowered) (apart : ∀ name ∈ declaredToo.map Prod.fst, name ∉ declared.map Prod.fst)
    (calls : ∀ use ∈ usesToo, use.2 = true → (use.1, false) ∉ declared) :
    Covers declaredToo usesToo checked (lowered.extend declared) where
  checkedOpen := covers.checkedOpen
  loweredOpen := Roles.extend_ne_nil covers.loweredOpen _
  known name used isKnown := by
    by_cases again : name ∈ declared.map Prod.fst
    · rw [Roles.find?_extend_of_mem covers.loweredOpen again, Roles.lookup_isSome,
        List.map_reverse, List.mem_reverse]
      exact again
    · rw [Roles.find?_extend_of_not_mem _ again]
      exact covers.known name (List.mem_append_right _ (mem_outside.mpr ⟨used, again⟩)) isKnown
  routine name used isRoutine := by
    by_cases again : name ∈ declared.map Prod.fst
    · rw [Roles.find?_extend_of_mem covers.loweredOpen again]
      cases role : declared.reverse.lookup name with
      | none => exact absurd again (Roles.lookup_reverse_eq_none.mp role)
      | some role' =>
        have member : (name, role') ∈ declared := by
          obtain ⟨before, after, split, _⟩ := List.lookup_eq_some_iff.mp role
          rw [← List.mem_reverse, split]
          exact List.mem_append_right _ (List.mem_cons_self ..)
        cases role' with
        | true => rfl
        | false => exact absurd member (calls _ used rfl)
    · rw [Roles.find?_extend_of_not_mem _ again]
      exact covers.routine name (List.mem_append_right _ (mem_outside.mpr ⟨used, again⟩)) isRoutine
  fresh name member here := by
    rcases (Roles.isHere_extend covers.loweredOpen).mp here with again | here
    · exact absurd again (apart name member)
    · exact covers.fresh name (by
        rw [List.map_append]
        exact List.mem_append_right _ member) here

end Covers

end Pascaline
