/-
Successful steps of lowering. A step that succeeds is taken apart into the successful steps it is
made of. Storage is reserved where a variable is declared, so a variable in scope has its slot
already, and using its name changes nothing.
-/

import Pascaline.Lowering.Program
import Pascaline.Proofs.Growth

namespace Pascaline

/-! ### Tables whose variables have storage -/

namespace Table

/-- Every variable in scope has its slot. -/
def Allocated (table : Table) : Prop :=
  ∀ scope ∈ table.scopes, ∀ symbol ∈ scope, symbol.isRoutine = false → symbol.slot.isSome

variable {table : Table} {name : Bytes} {symbol : Symbol} {scope : Scope} {outer : List Scope}

theorem find?_mem (found : table.find? name = some symbol) :
    ∃ scope ∈ table.scopes, symbol ∈ scope ∧ symbol.name = name := by
  obtain ⟨scope, member, here⟩ := List.exists_of_findSome?_eq_some found
  have named := List.find?_some here
  exact ⟨scope, member, List.mem_of_find?_eq_some here, by simpa using named⟩

theorem Allocated.slot (allocated : table.Allocated) (found : table.find? name = some symbol)
    (isVariable : symbol.isRoutine = false) : ∃ slot, symbol.slot = some slot := by
  obtain ⟨scope, member, here, _⟩ := find?_mem found
  exact Option.isSome_iff_exists.mp (allocated scope member symbol here isVariable)

theorem Allocated.enter (allocated : table.Allocated) : table.enter.Allocated := by
  intro scope member symbol here
  rcases List.mem_cons.mp member with rfl | outer
  · cases here
  · exact allocated scope outer symbol here

theorem Allocated.cons (allocated : Allocated ⟨scope :: outer⟩)
    (slot : symbol.isRoutine = false → symbol.slot.isSome) :
    Allocated ⟨(symbol :: scope) :: outer⟩ := by
  intro inner member other here isVariable
  rcases List.mem_cons.mp member with rfl | isOuter
  · rcases List.mem_cons.mp here with rfl | older
    · exact slot isVariable
    · exact allocated scope (List.mem_cons_self ..) other older isVariable
  · exact allocated inner (List.mem_cons_of_mem _ isOuter) other here isVariable

/-- What a name means with one more symbol in the innermost scope. -/
theorem find?_cons (symbol : Symbol) (scope : Scope) (outer : List Scope) (name : Bytes) :
    find? ⟨(symbol :: scope) :: outer⟩ name =
      if symbol.name = name then some symbol else find? ⟨scope :: outer⟩ name := by
  simp only [find?, List.findSome?_cons, Scope.find?, List.find?_cons]
  by_cases named : symbol.name = name <;> simp [named]

theorem declare_eq_ok {later : Table} :
    table.declare symbol = .ok later ↔
      ∃ scope outer, table.scopes = scope :: outer ∧ scope.find? symbol.name = none ∧
        later = ⟨(symbol :: scope) :: outer⟩ := by
  unfold declare
  cases table.scopes with
  | nil => simp
  | cons scope outer =>
    cases fresh : scope.find? symbol.name with
    | none =>
      simp only [fresh, Option.isSome_none, Bool.false_eq_true, if_false, Except.ok.injEq,
        List.cons.injEq]
      constructor
      · rintro rfl
        exact ⟨scope, outer, ⟨rfl, rfl⟩, fresh, rfl⟩
      · rintro ⟨_, _, ⟨rfl, rfl⟩, _, rfl⟩
        rfl
    | some other => simp [fresh]

/-- Changing the symbol that was declared last. -/
theorem update_cons (named : symbol.name = name) (fresh : scope.find? name = none)
    (change : Symbol → Symbol) :
    update ⟨(symbol :: scope) :: outer⟩ name change = ⟨(change symbol :: scope) :: outer⟩ := by
  have others : Scope.update scope name change = scope := by
    refine (List.map_congr_left fun other member => ?_).trans (List.map_id scope)
    have different := List.find?_eq_none.mp fresh other member
    simp only [decide_eq_true_eq] at different
    simp [different]
  have found : (Scope.find? (symbol :: scope) name).isSome = true := by
    simp [Scope.find?, named]
  have changed : Scope.update (symbol :: scope) name change = change symbol :: scope := by
    rw [← others]
    simp only [Scope.update, List.map_cons, named, if_true, List.map_map]
    congr 1
    refine List.map_congr_left fun other member => ?_
    have different := List.find?_eq_none.mp fresh other member
    simp only [decide_eq_true_eq] at different
    simp [different]
  simp only [update, update.updateFirst, found, if_true, changed]

end Table

namespace Lowering

/-- The workspace for a module of which nothing is there yet. -/
def Workspace.fresh (name : Bytes) : Workspace := { table := .empty, builder := .new name }

open IR (Build Operand Slot)

variable {Result Next : Type}

/-! ### Taking successful steps apart -/

@[simp]
theorem bind_eq_ok (step : Lower Result) (next : Result → Lower Next) (before : Workspace)
    (result : Next) (after : Workspace) :
    (step >>= next) before = .ok result after ↔
      ∃ value middle, step before = .ok value middle ∧ next value middle = .ok result after := by
  simp only [bind, EStateM.bind]
  cases step before with
  | ok value middle =>
    refine ⟨fun lowered => ⟨value, middle, rfl, lowered⟩, ?_⟩
    rintro ⟨_, _, same, lowered⟩
    cases same
    exact lowered
  | error failure middle =>
    constructor
    · intro lowered
      cases lowered
    · rintro ⟨_, _, same, _⟩
      cases same

@[simp]
theorem pure_eq_ok (value result : Result) (before after : Workspace) :
    (pure value : Lower Result) before = .ok result after ↔ value = result ∧ before = after := by
  show EStateM.Result.ok value before = .ok result after ↔ _
  constructor
  · intro same
    cases same
    exact ⟨rfl, rfl⟩
  · rintro ⟨rfl, rfl⟩
    rfl

@[simp]
theorem map_eq_ok (change : Result → Next) (step : Lower Result) (before : Workspace)
    (result : Next) (after : Workspace) :
    (change <$> step) before = .ok result after ↔
      ∃ value, step before = .ok value after ∧ change value = result := by
  show (step >>= fun value => pure (change value)) before = .ok result after ↔ _
  simp only [bind_eq_ok, pure_eq_ok]
  constructor
  · rintro ⟨value, _, lowered, rfl, rfl⟩
    exact ⟨value, lowered, rfl⟩
  · rintro ⟨value, lowered, rfl⟩
    exact ⟨value, after, lowered, rfl, rfl⟩

@[simp]
theorem get_eq_ok (before result after : Workspace) :
    (get : Lower Workspace) before = .ok result after ↔ before = result ∧ before = after := by
  show EStateM.Result.ok before before = .ok result after ↔ _
  constructor
  · intro same
    cases same
    exact ⟨rfl, rfl⟩
  · rintro ⟨rfl, rfl⟩
    rfl

@[simp]
theorem modify_eq_ok (change : Workspace → Workspace) (before after : Workspace) (result : PUnit) :
    (modify change : Lower PUnit) before = .ok result after ↔ change before = after := by
  show EStateM.Result.ok PUnit.unit (change before) = .ok result after ↔ _
  constructor
  · intro same
    cases same
    rfl
  · rintro rfl
    rfl

@[simp]
theorem fail_eq_ok (cause : Cause) (before : Workspace) (result : Result) (after : Workspace) :
    fail cause before = .ok result after ↔ False := by
  simp [fail, throw, throwThe, MonadExceptOf.throw, EStateM.throw]

@[simp]
theorem failWith_eq_ok (diagnostic : Diagnostic) (before : Workspace) (result : Result)
    (after : Workspace) : failWith diagnostic before = .ok result after ↔ False :=
  fail_eq_ok _ _ _ _

@[simp]
theorem build_eq_ok (step : Build Result) (before : Workspace) (result : Result)
    (after : Workspace) :
    build step before = .ok result after ↔
      (step before.builder).1 = result ∧
        { before with builder := (step before.builder).2 } = after := by
  show EStateM.Result.ok (step before.builder).1 { before with builder := _ } = _ ↔ _
  constructor
  · intro same
    cases same
    exact ⟨rfl, rfl⟩
  · rintro ⟨rfl, rfl⟩
    rfl

@[simp]
theorem within_eq_ok (stage : Stage) (step : Lower Result) (before : Workspace) (result : Result)
    (after : Workspace) :
    within stage step before = .ok result after ↔ step before = .ok result after := by
  unfold within
  cases step before <;> simp

@[simp]
theorem located_eq_ok (position : Int) (step : Lower Result) (before : Workspace)
    (result : Result) (after : Workspace) :
    located position step before = .ok result after ↔ step before = .ok result after := by
  unfold located
  cases step before with
  | ok => rfl
  | error failure =>
    obtain ⟨trail, cause⟩ := failure
    cases trail <;> simp

@[simp]
theorem inScope_eq_ok (step : Lower Result) (before : Workspace) (result : Result)
    (after : Workspace) :
    inScope step before = .ok result after ↔
      ∃ inner, step { before with table := before.table.enter } = .ok result inner ∧
        { inner with table := inner.table.exit } = after := by
  simp only [inScope]
  cases step { before with table := before.table.enter } with
  | ok value inner =>
    constructor
    · intro same
      cases same
      exact ⟨inner, rfl, rfl⟩
    · rintro ⟨_, same, rfl⟩
      cases same
      rfl
  | error => simp

@[simp]
theorem aside_eq_ok (step : Lower Result) (before : Workspace) (result : Result)
    (after : Workspace) :
    aside step before = .ok result after ↔
      ∃ inner, step before = .ok result inner ∧ inner.backTo before = after := by
  simp only [aside]
  cases step before with
  | ok value inner =>
    constructor
    · intro same
      cases same
      exact ⟨inner, rfl, rfl⟩
    · rintro ⟨_, same, rfl⟩
      cases same
      rfl
  | error => simp

@[simp]
theorem enterRoutine_eq_ok (routine : Routine) (before : Workspace) (result : Unit)
    (after : Workspace) :
    enterRoutine routine before = .ok result after ↔ { before with context := routine } = after :=
  modify_eq_ok _ _ _ _

@[simp]
theorem currentRoutine_eq_ok (before : Workspace) (routine : Routine) (after : Workspace) :
    currentRoutine before = .ok routine after ↔ before.context = routine ∧ before = after := by
  simp only [currentRoutine, bind_eq_ok, get_eq_ok, pure_eq_ok]
  constructor
  · rintro ⟨_, _, ⟨rfl, rfl⟩, isContext, same⟩
    exact ⟨isContext, same⟩
  · rintro ⟨isContext, rfl⟩
    exact ⟨before, before, ⟨rfl, rfl⟩, isContext, rfl⟩

@[simp]
theorem find?_eq_ok (name : Bytes) (before : Workspace) (found : Option Symbol)
    (after : Workspace) :
    find? name before = .ok found after ↔ before.table.find? name = found ∧ before = after := by
  simp only [find?, bind_eq_ok, get_eq_ok, pure_eq_ok]
  constructor
  · rintro ⟨_, _, ⟨rfl, rfl⟩, found, same⟩
    exact ⟨found, same⟩
  · rintro ⟨found, rfl⟩
    exact ⟨before, before, ⟨rfl, rfl⟩, found, rfl⟩

@[simp]
theorem declare_eq_ok (declaration : Table → Except Fault Table) (before : Workspace)
    (result : Unit) (after : Workspace) :
    declare declaration before = .ok result after ↔
      ∃ table, declaration before.table = .ok table ∧ { before with table } = after := by
  simp only [declare, bind_eq_ok, get_eq_ok]
  constructor
  · rintro ⟨_, _, ⟨rfl, rfl⟩, lowered⟩
    cases declared : declaration before.table with
    | ok table => exact ⟨table, rfl, by simpa [declared] using lowered⟩
    | error fault => simp [declared] at lowered
  · rintro ⟨table, declared, rfl⟩
    exact ⟨before, before, ⟨rfl, rfl⟩, by simp [declared]⟩

/-- A declaration that is refused changes nothing. -/
theorem declare_of_error {declaration : Table → Except Fault Table} {fault : Fault}
    {workspace : Workspace} (refused : declaration workspace.table = .error fault) :
    declare declaration workspace = .error (.bare (.fault fault)) workspace := by
  simp only [declare, bind, EStateM.bind, get, getThe, MonadStateOf.get, EStateM.get, refused]
  rfl

@[simp]
theorem updateSymbol_eq_ok (name : Bytes) (change : Symbol → Symbol) (before : Workspace)
    (result : Unit) (after : Workspace) :
    updateSymbol name change before = .ok result after ↔
      { before with table := before.table.update name change } = after :=
  modify_eq_ok _ _ _ _

@[simp]
theorem resolve_eq_ok (type : Bytes) (before : Workspace) (kind : Kind) (after : Workspace) :
    resolve type before = .ok kind after ↔ Kind.ofName? type = some kind ∧ before = after := by
  unfold resolve
  cases Kind.ofName? type <;> simp

@[simp]
theorem statement_eq_ok (step : Lower Unit) (before : Workspace) (result : Option Operand)
    (after : Workspace) :
    statement step before = .ok result after ↔ step before = .ok () after ∧ result = none := by
  simp only [statement, bind_eq_ok, pure_eq_ok]
  constructor
  · rintro ⟨_, _, lowered, rfl, rfl⟩
    exact ⟨lowered, rfl⟩
  · rintro ⟨lowered, rfl⟩
    exact ⟨(), after, lowered, rfl, rfl⟩

@[simp]
theorem discarding_eq_ok (node : Node) (lowered : Lower (Option Operand)) (before : Workspace)
    (result : Unit) (after : Workspace) :
    discarding node lowered before = .ok result after ↔
      ∃ value, lowered before = .ok value after := by
  simp [discarding]

@[simp]
theorem operand_eq_ok (child : Node) (lowered : Lower (Option Operand)) (before : Workspace)
    (result : Operand) (after : Workspace) :
    operand child lowered before = .ok result after ↔
      child.isMissing = false ∧ lowered before = .ok (some result) after := by
  unfold operand
  cases missing : child.isMissing with
  | true => simp
  | false =>
    simp only [bind_eq_ok, located_eq_ok, true_and, Bool.false_eq_true, if_false]
    constructor
    · rintro ⟨value, middle, step, rest⟩
      cases value with
      | none => simp at rest
      | some value =>
        simp only [pure_eq_ok] at rest
        obtain ⟨rfl, rfl⟩ := rest
        exact step
    · intro step
      exact ⟨some result, after, step, by simp⟩

@[simp]
theorem expectCategory_eq_ok (place : Bytes) (category : Category) (value : Operand)
    (before : Workspace) (result : Unit) (after : Workspace) :
    expectCategory place category value before = .ok result after ↔
      value.type.category = category ∧ before = after := by
  unfold expectCategory
  split <;> simp_all

@[simp]
theorem expectType_eq_ok (name : Bytes) (kind : Kind) (value : Operand) (before : Workspace)
    (result : Unit) (after : Workspace) :
    expectType name kind value before = .ok result after ↔
      kind.native.same value.type = true ∧ before = after := by
  unfold expectType
  split <;> simp_all

/-! ### Storage -/

/-- The address of an element of the array behind a slot. -/
def elementOf (slot : Slot) (first : Int64) (index : Operand) : Build Operand :=
  elementOffset first index >>= Build.elementAddress (.slot slot)

variable {reserve : Reserve} {name : Bytes} {before after : Workspace} {slot : Slot}
  {index : Option Operand} {address : Operand} {routine : Routine} {symbol : Symbol} {scope : Scope}
  {outer : List Scope} {result : Unit} {params : List Param}

/-- A slot is either there already or reserved now. -/
theorem allocate_cases (lowered : allocate reserve name before = .ok slot after) :
    ∃ symbol, before.table.find? name = some symbol ∧ symbol.isRoutine = false ∧
      ((symbol.slot = some slot ∧ before = after) ∨
        (symbol.slot = none ∧ (reserve name symbol.nativeType before.builder).1 = slot ∧
          { before with
            table := before.table.update name fun symbol => symbol.bind slot
            builder := (reserve name symbol.nativeType before.builder).2 } = after)) := by
  simp only [allocate, bind_eq_ok, find?_eq_ok] at lowered
  obtain ⟨_, _, ⟨rfl, rfl⟩, lowered⟩ := lowered
  cases found : before.table.find? name with
  | none => simp [found] at lowered
  | some symbol =>
    simp only [found] at lowered
    refine ⟨symbol, rfl, ?_⟩
    cases isRoutine : symbol.isRoutine with
    | true => simp [isRoutine] at lowered
    | false =>
      simp only [isRoutine, Bool.false_eq_true, if_false] at lowered
      refine ⟨rfl, ?_⟩
      cases reserved : symbol.slot with
      | some old =>
        simp only [reserved, pure_eq_ok] at lowered
        obtain ⟨rfl, rfl⟩ := lowered
        exact .inl ⟨rfl, rfl⟩
      | none =>
        simp only [reserved, bind_eq_ok, build_eq_ok, updateSymbol_eq_ok, pure_eq_ok] at lowered
        obtain ⟨_, _, ⟨rfl, rfl⟩, _, _, rfl, rfl, rfl⟩ := lowered
        exact .inr ⟨rfl, rfl, rfl⟩

theorem lookup_cases (lowered : lookup reserve name index before = .ok address after) :
    ∃ slot middle, allocate reserve name before = .ok slot middle ∧
      ((index = none ∧ address = .slot slot ∧ middle = after) ∨
        ∃ place symbol first last, index = some place ∧
          middle.table.find? name = some symbol ∧ symbol.shape = .array first last ∧
          (elementOf slot first place middle.builder).1 = address ∧
          { middle with builder := (elementOf slot first place middle.builder).2 } = after) := by
  simp only [lookup, bind_eq_ok] at lowered
  obtain ⟨slot, middle, allocated, lowered⟩ := lowered
  refine ⟨slot, middle, allocated, ?_⟩
  cases index with
  | none =>
    simp only [pure_eq_ok] at lowered
    obtain ⟨rfl, rfl⟩ := lowered
    exact .inl ⟨rfl, rfl, rfl⟩
  | some place =>
    simp only [bind_eq_ok, find?_eq_ok] at lowered
    obtain ⟨_, _, ⟨rfl, rfl⟩, lowered⟩ := lowered
    cases found : middle.table.find? name with
    | none => simp [found] at lowered
    | some symbol =>
      cases shape : symbol.shape with
      | scalar => simp [found, shape] at lowered
      | routine => simp [found, shape] at lowered
      | array first last =>
        simp only [found, Option.map_some, shape, build_eq_ok] at lowered
        obtain ⟨rfl, rfl⟩ := lowered
        exact .inr ⟨place, symbol, first, last, rfl, rfl, shape, rfl, rfl⟩

/-- What a use of a name is made of: the symbol is a variable that the routine can reach. -/
theorem storage_cases (lowered : routine.storage name index before = .ok (symbol, address) after) :
    before.table.find? name = some symbol ∧ symbol.isRoutine = false ∧
      (symbol.owner = none ∨ symbol.owner = some routine.function) ∧
      lookup (routine.reserve before.table.depth) name index before = .ok address after := by
  simp only [Routine.storage, bind_eq_ok, find?_eq_ok] at lowered
  obtain ⟨_, _, ⟨rfl, rfl⟩, lowered⟩ := lowered
  cases found : before.table.find? name with
  | none => simp [found] at lowered
  | some named =>
    simp only [found] at lowered
    cases isRoutine : named.isRoutine with
    | true => simp [isRoutine] at lowered
    | false =>
      cases owned : named.owner with
      | none =>
        simp only [isRoutine, owned, Bool.false_eq_true, if_false, bind_eq_ok, get_eq_ok,
          pure_eq_ok, Prod.mk.injEq] at lowered
        obtain ⟨_, _, ⟨rfl, rfl⟩, _, _, lowered, ⟨rfl, rfl⟩, rfl⟩ := lowered
        exact ⟨rfl, isRoutine, .inl owned, lowered⟩
      | some owner =>
        by_cases foreign : owner = routine.function
        · simp only [isRoutine, owned, foreign, ne_eq, not_true_eq_false, Bool.false_eq_true,
            if_false, bind_eq_ok, get_eq_ok, pure_eq_ok, Prod.mk.injEq] at lowered
          obtain ⟨_, _, ⟨rfl, rfl⟩, _, _, lowered, ⟨rfl, rfl⟩, rfl⟩ := lowered
          exact ⟨rfl, isRoutine, .inr (owned.trans (congrArg some foreign)), lowered⟩
        · simp [isRoutine, owned, foreign] at lowered

theorem scalarStorage_cases {misuse : Bytes}
    (lowered : routine.scalarStorage name misuse before = .ok (symbol, address) after) :
    routine.storage name none before = .ok (symbol, address) after ∧ symbol.isArray = false := by
  simp only [Routine.scalarStorage, bind_eq_ok] at lowered
  obtain ⟨⟨found, place⟩, _, stored, lowered⟩ := lowered
  cases isArray : found.isArray with
  | true => simp [isArray] at lowered
  | false =>
    simp only [isArray, Bool.false_eq_true, if_false, pure_eq_ok, Prod.mk.injEq] at lowered
    obtain ⟨⟨rfl, rfl⟩, rfl⟩ := lowered
    exact ⟨stored, isArray⟩

/-- The use of a name whose symbol has its slot. -/
theorem storage_of_slot (reserved : symbol.slot = some slot)
    (lowered : routine.storage name index before = .ok (symbol, address) after) :
    (index = none ∧ address = .slot slot ∧ before = after) ∨
      ∃ place first last, index = some place ∧ symbol.shape = .array first last ∧
        (elementOf slot first place before.builder).1 = address ∧
        { before with builder := (elementOf slot first place before.builder).2 } = after := by
  obtain ⟨found, _, _, lowered⟩ := storage_cases lowered
  obtain ⟨slot', middle, allocated, lowered⟩ := lookup_cases lowered
  obtain ⟨symbol', found', _, outcome⟩ := allocate_cases allocated
  obtain rfl : symbol = symbol' := Option.some.inj (found.symm.trans found')
  obtain ⟨same, rfl⟩ : symbol.slot = some slot' ∧ before = middle := by
    rcases outcome with there | ⟨missing, _⟩
    · exact there
    · rw [missing] at reserved
      cases reserved
  obtain rfl : slot = slot' := Option.some.inj (reserved.symm.trans same)
  rcases lowered with
    ⟨none, address, same⟩ | ⟨place, symbol', first, last, some, found', shape, rest⟩
  · exact .inl ⟨none, address, same⟩
  · obtain rfl : symbol = symbol' := Option.some.inj (found.symm.trans found')
    exact .inr ⟨place, first, last, some, shape, rest⟩

/-! ### Declarations -/

/-- A symbol with storage of a routine. Variables of the module have no owner. -/
def Routine.claimed (routine : Routine) (symbol : Symbol) (slot : Slot) : Symbol :=
  if slot.storage = .global then symbol.bind slot
  else { symbol.bind slot with owner := some routine.function }

/-- The storage for a symbol that is declared inside some outer scopes. -/
def Routine.reserved (routine : Routine) (outer : List Scope) (symbol : Symbol) : Build Slot :=
  routine.reserve (outer.length + 1) symbol.name symbol.nativeType

/-- What is stored into a variable when its declaration is executed. -/
def clearing (slot : Slot) : Build Unit :=
  if slot.storage = .global then return ()
  else match Operand.zero? slot.type with
    | some zero => Build.store (.slot slot) zero
    | none => return ()

theorem clearing_global (global : slot.storage = .global) : clearing slot = pure () := by
  simp [clearing, global]

theorem clearing_stack (stack : slot.storage ≠ .global) {zero : Operand}
    (hasZero : Operand.zero? slot.type = some zero) :
    clearing slot = Build.store (.slot slot) zero := by
  simp [clearing, stack, hasZero]

/-- Storage for the symbol that was declared last. -/
theorem claim_eq (isVariable : symbol.isRoutine = false) (unreserved : symbol.slot = none)
    (fresh : scope.find? symbol.name = none) :
    routine.claim symbol.name { before with table := ⟨(symbol :: scope) :: outer⟩ } =
      .ok (routine.reserved outer symbol before.builder).1
        { before with
          table := ⟨(routine.claimed symbol (routine.reserved outer symbol before.builder).1 ::
            scope) :: outer⟩
          builder := (routine.reserved outer symbol before.builder).2 } := by
  have found : Table.find? ⟨(symbol :: scope) :: outer⟩ symbol.name = some symbol := by
    rw [Table.find?_cons, if_pos rfl]
  generalize reservation : routine.reserved outer symbol before.builder = made
  obtain ⟨slot, later⟩ := made
  have allocated : allocate (routine.reserve (outer.length + 1)) symbol.name
      { before with table := ⟨(symbol :: scope) :: outer⟩ } =
        .ok slot { before with
          table := ⟨(symbol.bind slot :: scope) :: outer⟩
          builder := later } := by
    rw [← Table.update_cons rfl fresh fun symbol => symbol.bind slot]
    simp only [allocate, bind_eq_ok, find?_eq_ok]
    refine ⟨_, _, ⟨rfl, rfl⟩, ?_⟩
    simp only [found, isVariable, unreserved, Bool.false_eq_true, if_false, bind_eq_ok, build_eq_ok,
      updateSymbol_eq_ok, pure_eq_ok]
    have reservation : routine.reserve (outer.length + 1) symbol.name symbol.nativeType
        before.builder = (slot, later) := reservation
    rw [reservation]
    exact ⟨_, _, ⟨rfl, rfl⟩, (), _, rfl, rfl, rfl⟩
  simp only [Routine.claim, bind_eq_ok, get_eq_ok]
  refine ⟨_, _, ⟨rfl, rfl⟩, slot, _, allocated, ?_⟩
  by_cases global : slot.storage = .global
  · simp [global, Routine.claimed]
  · have named : (symbol.bind slot).name = symbol.name := rfl
    simp [global, Routine.claimed, Table.update_cons named fresh]

theorem claim_eq_ok (isVariable : symbol.isRoutine = false) (unreserved : symbol.slot = none)
    (fresh : scope.find? symbol.name = none) (slot : Slot) (after : Workspace) :
    routine.claim symbol.name { before with table := ⟨(symbol :: scope) :: outer⟩ } =
        .ok slot after ↔
      (routine.reserved outer symbol before.builder).1 = slot ∧
        { before with
          table := ⟨(routine.claimed symbol slot :: scope) :: outer⟩
          builder := (routine.reserved outer symbol before.builder).2 } = after := by
  rw [claim_eq isVariable unreserved fresh]
  constructor
  · intro same
    cases same
    exact ⟨rfl, rfl⟩
  · rintro ⟨rfl, rfl⟩
    rfl

/-- A declaration of a variable: the symbol is new in the innermost scope, and has its storage. -/
theorem declareVariable_cases {type : Bytes} {shape : Shape}
    {declaration : Kind → Table → Except Fault Table}
    (declares : ∀ kind table later, declaration kind table = .ok later →
      table.declare { name, shape, kind } = .ok later) (isVariable : shape.role ≠ .routine)
    (lowered : routine.declareVariable name type declaration before = .ok result after) :
    ∃ kind scope outer slot builder, isReserved name = false ∧ Kind.ofName? type = some kind ∧
      before.table.scopes = scope :: outer ∧ scope.find? name = none ∧
      (declaration kind before.table).isOk ∧
      routine.reserved outer { name, shape, kind } before.builder = (slot, builder) ∧
      { before with
        table := ⟨(routine.claimed { name, shape, kind } slot :: scope) :: outer⟩
        builder := (clearing slot builder).2 } = after := by
  cases isReserved : isReserved name with
  | true => simp [Routine.declareVariable, isReserved] at lowered
  | false =>
    simp only [Routine.declareVariable, isReserved, Bool.false_eq_true, if_false, bind_eq_ok,
      resolve_eq_ok, Lowering.declare_eq_ok, within_eq_ok] at lowered
    obtain ⟨kind, _, ⟨named, rfl⟩, _, _, ⟨table, declared, rfl⟩, slot, middle, claimed, rest⟩ :=
      lowered
    obtain ⟨scope, outer, scopes, fresh, rfl⟩ := Table.declare_eq_ok.mp (declares _ _ _ declared)
    have isVariable : Symbol.isRoutine { name, shape, kind } = false := decide_eq_false isVariable
    have claimed := (claim_eq_ok isVariable rfl fresh slot middle).mp claimed
    generalize reservation : routine.reserved outer { name, shape, kind } before.builder = made
      at claimed
    obtain ⟨slot, builder⟩ := made
    obtain ⟨rfl, rfl⟩ := claimed
    refine ⟨kind, scope, outer, slot, builder, rfl, named, scopes, fresh, by rw [declared]; rfl,
      reservation, ?_⟩
    by_cases global : slot.storage = .global
    · rw [clearing_global global]
      simp only [global, ne_eq, not_true_eq_false, if_false, pure_eq_ok] at rest
      exact rest.2
    · simp only [global, ne_eq, not_false_eq_true, if_true] at rest
      cases zero : Operand.zero? slot.type with
      | none =>
        have nothing : clearing slot = pure () := by simp [clearing, zero]
        rw [nothing]
        simp only [zero, pure_eq_ok] at rest
        exact rest.2
      | some value =>
        rw [clearing_stack global zero]
        simpa [zero] using rest

theorem declareParams_cases {position : Nat} {param : Param} {kind : Kind} {kinds : List Kind}
    (lowered : routine.declareParams position (param :: params) (kind :: kinds) before =
      .ok result after) :
    ∃ scope outer slot builder, before.table.scopes = scope :: outer ∧
      scope.find? param.name = none ∧
      routine.reserved outer { name := param.name, shape := .scalar, kind } before.builder =
        (slot, builder) ∧
      routine.declareParams (position + 1) params kinds
        { before with
          table := ⟨(routine.claimed { name := param.name, shape := .scalar, kind } slot ::
            scope) ::
            outer⟩
          builder :=
            (Build.store (.slot slot) (.slot (Build.argument position builder).1) builder).2 } =
        .ok result after := by
  simp only [Routine.declareParams, bind_eq_ok, within_eq_ok, Lowering.declare_eq_ok,
    build_eq_ok] at lowered
  obtain ⟨slot, middle, ⟨_, _, ⟨table, declared, rfl⟩, claimed⟩, _, _, ⟨_, rfl⟩, rest⟩ := lowered
  obtain ⟨scope, outer, scopes, fresh, rfl⟩ := Table.declare_eq_ok.mp declared
  obtain ⟨rfl, rfl⟩ := (claim_eq_ok rfl rfl fresh slot middle).mp claimed
  exact ⟨scope, outer, _, _, scopes, fresh, rfl, rest⟩

/-! ### Routines -/

/-- The kinds of the types that parameters name. -/
def paramKinds? (params : List Param) : Option (List Kind) :=
  params.mapM fun param => Kind.ofName? param.type

/-- The kind of the result that a routine names, none for a procedure. -/
def resultKind? (result : Bytes) : Option Kind :=
  if result = [] then some .none else Kind.ofName? result

@[simp]
theorem resolveParams_eq_ok (params : List Param) (before : Workspace) (kinds : List Kind)
    (after : Workspace) :
    resolveParams params before = .ok kinds after ↔
      paramKinds? params = some kinds ∧ before = after := by
  induction params generalizing kinds with
  | nil => simp [resolveParams, paramKinds?]
  | cons param params step =>
    simp only [resolveParams, bind_eq_ok, within_eq_ok, resolve_eq_ok, pure_eq_ok, paramKinds?,
      List.mapM_cons, Option.bind_eq_bind, Option.bind_eq_some_iff, Option.pure_def,
      Option.some.injEq]
    constructor
    · rintro ⟨kind, _, ⟨named, rfl⟩, rest, _, lowered, rfl, rfl⟩
      obtain ⟨resolved, rfl⟩ := (step rest).mp lowered
      exact ⟨⟨kind, named, rest, resolved, rfl⟩, rfl⟩
    · rintro ⟨⟨kind, named, rest, resolved, rfl⟩, rfl⟩
      exact ⟨kind, _, ⟨named, rfl⟩, rest, _, (step rest).mpr ⟨resolved, rfl⟩, rfl, rfl⟩

@[simp]
theorem resolveResult_eq_ok (result : Bytes) (before : Workspace) (kind : Kind)
    (after : Workspace) :
    resolveResult result before = .ok kind after ↔
      resultKind? result = some kind ∧ before = after := by
  unfold resolveResult resultKind?
  split <;> simp

/-- The symbol of a routine whose function exists. -/
def routineSymbol (name : Bytes) (kinds : List Kind) (result : Kind) (code : Nat) : Symbol :=
  { name, shape := .routine kinds, kind := result, code := some code }

/-- The workspace in which a routine is lowered: its name is in scope, a scope of its own is open,
its function is new, and it is the context. -/
def routineStart (name : Bytes) (params : List Param) (kinds : List Kind) (result : Kind)
    (scope : Scope) (outer : List Scope) (before : Workspace) : Workspace :=
  { before with
    table := ⟨[] :: (routineSymbol name kinds result before.builder.unit.functions.size :: scope) ::
      outer⟩
    builder := (Build.defineFunction name
      { params := kinds.map Kind.native, result := result.native } (params.map Param.name)
      before.builder).2
    context := ⟨before.builder.unit.functions.size, result, false⟩ }

/-- The parameters and the body of a routine. -/
structure BodySteps (params : List Param) (kinds : List Kind) (routine : Routine)
    (body : Lower Unit) (start declared bodied : Workspace) : Prop where
  params : routine.declareParams 0 params kinds start = .ok () declared
  body : body declared = .ok () bodied

/-- The parameters, the body and the end of a routine. -/
structure RoutineSteps (name : Bytes) (params : List Param) (kinds : List Kind)
    (routine : Routine) (body : Lower Unit) (start declared bodied finished : Workspace) : Prop
    extends BodySteps params kinds routine body start declared bodied where
  finish : finishRoutine routine name bodied = .ok () finished

theorem lowerRoutine_cases {result : Bytes} {body : Routine → Lower Unit} {value : Unit}
    (lowered : lowerRoutine name params result body before = .ok value after) :
    ∃ kinds kind scope outer declared bodied finished, isReserved name = false ∧
      paramKinds? params = some kinds ∧ resultKind? result = some kind ∧
      before.table.scopes = scope :: outer ∧ scope.find? name = none ∧
      RoutineSteps name params kinds ⟨before.builder.unit.functions.size, kind, false⟩
        (body ⟨before.builder.unit.functions.size, kind, false⟩)
        (routineStart name params kinds kind scope outer before) declared bodied finished ∧
      Workspace.backTo { finished with table := finished.table.exit } before = after := by
  cases isReserved : isReserved name with
  | true => simp [lowerRoutine, isReserved] at lowered
  | false =>
    simp only [lowerRoutine, isReserved, Bool.false_eq_true, if_false, bind_eq_ok,
      resolveParams_eq_ok, resolveResult_eq_ok, Lowering.declare_eq_ok, build_eq_ok,
      updateSymbol_eq_ok, aside_eq_ok, enterRoutine_eq_ok, currentRoutine_eq_ok, inScope_eq_ok,
      within_eq_ok] at lowered
    obtain ⟨kinds, _, ⟨resolved, rfl⟩, kind, _, ⟨resultResolved, rfl⟩, _, _, ⟨table, declared, rfl⟩,
      _, ⟨function, _, ⟨isFunction, rfl⟩, _, _, rfl, _, _, rfl, inner, ⟨_, _, ⟨rfl, rfl⟩, _,
        afterParams, params, _, afterBody, body, finish⟩, rfl⟩, rfl⟩ := lowered
    obtain ⟨scope, outer, scopes, fresh, rfl⟩ := Table.declare_eq_ok.mp declared
    obtain rfl : before.builder.unit.functions.size = function := isFunction
    have updated : Table.update ⟨({ name, shape := .routine kinds, kind } :: scope) :: outer⟩ name
        (fun symbol => { symbol with code := some before.builder.unit.functions.size }) =
          ⟨(routineSymbol name kinds kind before.builder.unit.functions.size :: scope) :: outer⟩ :=
      Table.update_cons rfl fresh _
    rw [updated] at params
    exact ⟨kinds, kind, scope, outer, afterParams, afterBody, inner, rfl, resolved, resultResolved,
      scopes, fresh, ⟨⟨params, body⟩, finish⟩, rfl⟩

/-- The end of a routine that gets one. -/
theorem finishRoutine_cases (lowered : finishRoutine routine name before = .ok result after) :
    (before.builder.terminated = true ∧ before = after) ∨
      (before.builder.terminated = false ∧ routine.result = .none ∧
        { before with builder := (Build.ret none before.builder).2 } = after) ∨
      (before.builder.terminated = false ∧ routine.result ≠ .none ∧
        ((before.builder.function? routine.function).map IR.Function.openBlocks).getD [] = [] ∧
        { before with builder := (Build.unreachable before.builder).2 } = after) := by
  simp only [finishRoutine, bind_eq_ok, get_eq_ok] at lowered
  obtain ⟨_, _, ⟨rfl, rfl⟩, lowered⟩ := lowered
  cases ended : before.builder.terminated with
  | true =>
    simp only [ended, if_true, pure_eq_ok, true_and] at lowered
    exact .inl ⟨rfl, lowered⟩
  | false =>
    simp only [ended, Bool.false_eq_true, if_false] at lowered
    by_cases procedure : routine.result = .none
    · simp only [procedure, if_true, build_eq_ok] at lowered
      exact .inr (.inl ⟨rfl, procedure, lowered.2⟩)
    · simp only [procedure, if_false] at lowered
      split at lowered
      · simp at lowered
      · rename_i noOpen
        simp only [build_eq_ok] at lowered
        exact .inr (.inr ⟨rfl, procedure, Decidable.not_not.mp noOpen, lowered.2⟩)

/-! ### External functions -/

theorem Externals.number?_keep (externals : Externals) (service other : Service) (function : Nat) :
    (externals.keep service function).number? other =
      if other = service then some function else externals.number? other := by
  cases service <;> cases other <;> rfl

variable {service : Service} {function : Nat} {unit later : IR.Module}

/-- An external function is known already, or it is declared now and kept. -/
theorem external_cases (lowered : external service before = .ok function after) :
    (before.externals.number? service = some function ∧ before = after) ∨
      ((Build.declareFunction service.name formattedSignature before.builder).1 = function ∧
        { before with
          builder := (Build.declareFunction service.name formattedSignature before.builder).2
          externals := before.externals.keep service function } = after) := by
  simp only [external, bind_eq_ok, get_eq_ok] at lowered
  obtain ⟨_, _, ⟨rfl, rfl⟩, lowered⟩ := lowered
  cases known : before.externals.number? service with
  | some number =>
    simp only [known, pure_eq_ok] at lowered
    obtain ⟨rfl, rfl⟩ := lowered
    exact .inl ⟨rfl, rfl⟩
  | none =>
    simp only [known, bind_eq_ok, build_eq_ok, modify_eq_ok, pure_eq_ok] at lowered
    obtain ⟨_, _, ⟨rfl, rfl⟩, _, _, rfl, rfl, rfl⟩ := lowered
    exact .inr ⟨rfl, rfl⟩

/-- A number that the declaration of an external function has given, in this module. -/
def Service.Declared (service : Service) (unit : IR.Module) (function : Nat) : Prop :=
  ∃ builder : IR.Builder,
    (Build.declareFunction service.name formattedSignature builder).1 = function ∧
      (Build.declareFunction service.name formattedSignature builder).2.unit.Grows unit

theorem Service.Declared.mono (declared : service.Declared unit function)
    (grows : unit.Grows later) : service.Declared later function := by
  obtain ⟨builder, isNumber, early⟩ := declared
  exact ⟨builder, isNumber, early.trans grows⟩

/-- The numbers that are kept belong to the module under construction. Numbers of another module
would be read as those of any functions. -/
def Workspace.Coherent (workspace : Workspace) : Prop :=
  ∀ ⦃service : Service⦄ ⦃function : Nat⦄, workspace.externals.number? service = some function →
    service.Declared workspace.builder.unit function

theorem Workspace.Coherent.mono (coherent : before.Coherent)
    (grows : before.builder.unit.Grows after.builder.unit)
    (same : after.externals = before.externals) : after.Coherent := by
  intro service function known
  rw [same] at known
  exact (coherent known).mono grows

/-- An external function has the number of its declaration, and stays known. -/
theorem external_declared (lowered : external service before = .ok function after)
    (coherent : before.Coherent) :
    after.Coherent ∧ service.Declared after.builder.unit function := by
  rcases external_cases lowered with ⟨known, rfl⟩ | ⟨isNumber, rfl⟩
  · exact ⟨coherent, coherent known⟩
  · have declared : service.Declared
        (Build.declareFunction service.name formattedSignature before.builder).2.unit function :=
      ⟨before.builder, isNumber, .refl _⟩
    refine ⟨fun other number known => ?_, declared⟩
    rw [Externals.number?_keep] at known
    split at known
    · rename_i isSame
      cases known
      rw [isSame]
      exact declared
    · exact (coherent known).mono (Build.declareFunction_extends ..).unit

end Lowering

end Pascaline
