/-
Names carry no meaning once a module is made. What is left of a module when its names are taken
away, but for those that the machine itself looks for, decides how further code is added to it, and
it decides every run but for the words of a failure.
-/

import Pascaline.Proofs.Construction
import Pascaline.Proofs.Runs

namespace Pascaline.IR

/-! ### Modules without names -/

/-- The name of a member of a module, taken away unless the machine looks for it. -/
def eraseName (name : Bytes) : Bytes := if isReserved name then name else []

/-- The function without its names and those of its variables. -/
def Function.anonymous (function : Function) : Function :=
  { function with
    name := eraseName function.name
    params := function.params.map fun _ => []
    locals := function.locals.map fun place => { place with name := [] } }

def Variable.anonymous (global : Variable) : Variable :=
  { global with name := eraseName global.name }

/-- The module without the names of its functions and of all variables. -/
def Module.anonymous (unit : Module) : Module :=
  { unit with
    globals := unit.globals.map Variable.anonymous
    functions := unit.functions.map Function.anonymous }

def Builder.anonymous (builder : Builder) : Builder :=
  { builder with unit := builder.unit.anonymous }

theorem eraseName_of_free {name : Bytes} (free : isReserved name = false) :
    eraseName name = [] := by
  rw [eraseName, free]
  rfl

/-- Taking a name away does not hide a reserved one, and makes no other name look like one. -/
theorem eraseName_eq_iff {name reserved : Bytes} (isReserved : isReserved reserved = true) :
    eraseName name = reserved ↔ name = reserved := by
  unfold eraseName
  split
  · exact Iff.rfl
  · rename_i free
    constructor
    · rintro rfl
      cases isReserved
    · rintro rfl
      exact absurd isReserved free

theorem Module.anonymous_names (unit : Module) :
    unit.anonymous.names = unit.names.map eraseName := by
  simp [Module.names, Module.anonymous, Function.anonymous, Variable.anonymous, Function.comp_def]

theorem Module.anonymous_functions (unit : Module) (id : Nat) :
    unit.anonymous.functions[id]? = (unit.functions[id]?).map Function.anonymous := by
  simp [Module.anonymous]

/-- The machine looks for reserved names only, and these lead to the same function when all other
names are gone. -/
theorem Module.anonymous_findFunction? (unit : Module) {name : Bytes}
    (reserved : isReserved name = true) :
    unit.anonymous.findFunction? name = unit.findFunction? name := by
  unfold Module.findFunction? Module.anonymous
  rw [Array.findIdx?_map]
  congr 1
  funext function
  simp only [Function.comp_apply, Function.anonymous, eraseName_eq_iff reserved]

/-- Which blocks are reached depends on the branches between them. Both searches take the same
steps, so the induction follows the search. -/
theorem Function.explore_anonymous (function : Function) (pending unseen : List Nat)
    (reached : BlockSet) :
    function.anonymous.explore pending unseen reached =
      function.explore pending unseen reached := by
  induction pending, unseen, reached using explore.induct function with
  | case1 unseen reached => rw [explore, explore]
  | case2 unseen reached id pending mem rest =>
    rw [explore, explore, if_pos mem, if_pos mem]
    exact rest
  | case3 unseen reached id pending mem rest =>
    rw [explore, explore, if_neg mem, if_neg mem]
    exact rest

/-- So whether a function lacks a return can be told without its names. -/
theorem Function.openBlocks_anonymous (function : Function) :
    function.anonymous.openBlocks = function.openBlocks := by
  have same : function.anonymous.reachable = function.reachable :=
    function.explore_anonymous [0] _ _
  rw [openBlocks, openBlocks, same]
  rfl

/-- A name that is taken gets a number, and then no machine looks for it. -/
theorem freshName_taken {taken : List Bytes} {name : Bytes} (mem : name ∈ taken) :
    isReserved (freshName taken name) = false := by
  have numbered (number : Nat) : isReserved (candidateName name (number + 1)) = false := by
    cases reserved : isReserved (candidateName name (number + 1)) with
    | false => rfl
    | true =>
      have listed : candidateName name (number + 1) ∈ reservedNames := by
        simpa [isReserved] using reserved
      have plain : ∀ other ∈ reservedNames, Bytes.code '.' ∉ other := by decide
      refine (plain _ listed ?_).elim
      simp only [candidateName, List.mem_append]
      exact .inl (.inr (by decide))
  unfold freshName
  dsimp only
  cases found : (List.range (taken.length + 1)).find? fun number =>
      !taken.contains (candidateName name number) with
  | none => exact numbered _
  | some number =>
    cases number with
    | zero =>
      have free := List.find?_some found
      simp [candidateName, mem] at free
    | succ number => exact numbered number

/-- Fresh names are alike: either both are looked for, or neither is. -/
theorem eraseName_freshName {taken other : List Bytes} {name twin : Bytes}
    (same : taken.map eraseName = other.map eraseName)
    (alike : name = twin ∨ (isReserved name = false ∧ isReserved twin = false)) :
    eraseName (freshName taken name) = eraseName (freshName other twin) := by
  rcases alike with rfl | ⟨free, freeToo⟩
  · cases reserved : isReserved name with
    | false =>
      rw [eraseName_of_free (Lowering.freshName_free reserved),
        eraseName_of_free (Lowering.freshName_free reserved)]
    | true =>
      have listed (names : List Bytes) : name ∈ names ↔ name ∈ names.map eraseName := by
        simp [eraseName_eq_iff reserved]
      by_cases mem : name ∈ taken
      · have memToo : name ∈ other := by
          rw [listed, ← same, ← listed]
          exact mem
        rw [eraseName_of_free (freshName_taken mem), eraseName_of_free (freshName_taken memToo)]
      · have notMem : name ∉ other := by
          rw [listed, ← same, ← listed]
          exact mem
        rw [Lowering.freshName_of_not_mem mem, Lowering.freshName_of_not_mem notMem]
  · rw [eraseName_of_free (Lowering.freshName_free free),
      eraseName_of_free (Lowering.freshName_free freeToo)]

/-! ### Builders without names -/

namespace Builder

variable (builder : Builder)

theorem anonymous_function? (id : Nat) :
    builder.anonymous.function? id = (builder.function? id).map Function.anonymous :=
  builder.unit.anonymous_functions id

theorem anonymous_currentFunction? :
    builder.anonymous.currentFunction? = builder.currentFunction?.map Function.anonymous := by
  obtain ⟨unit, _ | cursor⟩ := builder
  · rfl
  · exact unit.anonymous_functions cursor.function

/-- Blocks have no names of members in them, so the current one is the same. -/
theorem anonymous_currentBlock? : builder.anonymous.currentBlock? = builder.currentBlock? := by
  obtain ⟨unit, _ | cursor⟩ := builder
  · rfl
  · show (unit.anonymous.functions[cursor.function]?).bind _ =
      (unit.functions[cursor.function]?).bind fun function => function.blocks[cursor.block]?
    rw [unit.anonymous_functions, Option.bind_map]
    rfl

theorem anonymous_terminated : builder.anonymous.terminated = builder.terminated := by
  rw [Builder.terminated, Builder.terminated, anonymous_currentBlock?]

/-- A change of a function can be made without names if something does the same that knows none. The
two differ where a variable is added, which brings its own name along. -/
theorem anonymous_modifyFunction (id : Nat) {change twin : Function → Function}
    (keeps : ∀ function, (change function).anonymous = twin function.anonymous) :
    (builder.modifyFunction id change).anonymous =
      builder.anonymous.modifyFunction id twin := by
  unfold Builder.modifyFunction Builder.anonymous Module.anonymous
  congr 2
  apply Array.ext_getElem?
  intro place
  simp only [Array.getElem?_map, Array.getElem?_modify]
  split
  · cases builder.unit.functions[place]? with
    | none => rfl
    | some function => exact congrArg some (keeps function)
  · rfl

theorem anonymous_modifyCurrentFunction {change twin : Function → Function}
    (keeps : ∀ function, (change function).anonymous = twin function.anonymous) :
    (builder.modifyCurrentFunction change).anonymous =
      builder.anonymous.modifyCurrentFunction twin := by
  obtain ⟨unit, _ | cursor⟩ := builder
  · rfl
  · exact anonymous_modifyFunction ⟨unit, some cursor⟩ cursor.function keeps

theorem anonymous_modifyCurrentBlock (change : Block → Block) :
    (builder.modifyCurrentBlock change).anonymous =
      builder.anonymous.modifyCurrentBlock change := by
  obtain ⟨unit, _ | cursor⟩ := builder
  · rfl
  · exact anonymous_modifyFunction ⟨unit, some cursor⟩ cursor.function fun _ => rfl

end Builder

/-! ### Building without names -/

namespace Build

variable {Result Next : Type}

/-- Two steps of building that do the same to modules that differ in names only. -/
def Twins (step twin : Build Result) : Prop :=
  ∀ ⦃builder other : Builder⦄, builder.anonymous = other.anonymous →
    (step builder).1 = (twin other).1 ∧
      (step builder).2.anonymous = (twin other).2.anonymous

/-- A step of building that can be done without names. -/
def Blind (step : Build Result) : Prop :=
  ∀ builder : Builder, step builder.anonymous = ((step builder).1, (step builder).2.anonymous)

variable {step : Build Result} {next : Result → Build Next} {builder other : Builder} {name : Bytes}

/-- What can be done without names is done alike to modules that are the same without them, since
both go through what it does to their common rest. -/
theorem Blind.twins (blind : Blind step) : Twins step step := by
  intro builder other same
  have both := (blind builder).symm.trans ((congrArg step same).trans (blind other))
  exact Prod.ext_iff.mp both

/-- Twins compose. The second steps are compared for one result only, because the first ones agree
on theirs. -/
theorem Twins.bind {twin : Build Result} {nextToo : Result → Build Next} (first : Twins step twin)
    (second : ∀ result, Twins (next result) (nextToo result)) :
    Twins (step >>= next) (twin >>= nextToo) := by
  intro builder other same
  obtain ⟨result, left⟩ := first same
  have rest := second (step builder).1 left
  rw [result] at rest
  show (next (step builder).1 (step builder).2).1 = _ ∧ (next (step builder).1 _).2.anonymous = _
  rw [result]
  exact rest

theorem Blind.pure (result : Result) : Blind (pure result : Build Result) := fun _ => rfl

theorem Blind.bind (first : Blind step) (second : ∀ result, Blind (next result)) :
    Blind (step >>= next) := by
  intro builder
  show next (step builder.anonymous).1 (step builder.anonymous).2 = _
  rw [first builder]
  exact second _ _

/-- A change of the builder is blind if it does not matter whether the names are taken away before
it or behind it. -/
theorem Blind.modify {change : Builder → Builder}
    (keeps : ∀ builder, (change builder).anonymous = change builder.anonymous) :
    Blind (modify change : Build PUnit) :=
  fun builder => Prod.ext rfl (keeps builder).symm

theorem terminated_blind : Blind terminated := fun builder =>
  Prod.ext builder.anonymous_terminated rfl

theorem moveTo_blind (block : Nat) : Blind (moveTo block) := fun _ => rfl

theorem string_blind (name bytes : Bytes) : Blind (string name bytes) := fun _ => rfl

/-- The label of a block is numbered by the blocks of the function with the same stem, which are no
names of members. -/
theorem newBlock_blind (stem : Bytes) : Blind (newBlock stem) := by
  intro builder
  have current := builder.anonymous_currentFunction?
  cases found : builder.currentFunction? with
  | none =>
    rw [found] at current
    rw [newBlock_of_none found, newBlock_of_none current]
  | some function =>
    rw [found] at current
    rw [newBlock_of_some found, newBlock_of_some current]
    refine Prod.ext rfl (Eq.symm ?_)
    exact builder.anonymous_modifyCurrentFunction fun _ => rfl

theorem leaveTerminated_blind : Blind leaveTerminated := by
  refine .bind terminated_blind fun ended => ?_
  split
  · exact .bind (newBlock_blind _) fun _ => .modify fun _ => rfl
  · exact .pure _

theorem emit_blind (instr : Instr) : Blind (emit instr) :=
  .bind leaveTerminated_blind fun _ =>
    .modify fun builder => builder.anonymous_modifyCurrentBlock _

theorem finish_blind (terminator : Terminator) : Blind (finish terminator) :=
  .bind leaveTerminated_blind fun _ =>
    .modify fun builder => builder.anonymous_modifyCurrentBlock _

/-- Registers are numbered in the order in which they are written. -/
theorem freshRegister_blind (type : Ty) : Blind (freshRegister type) := by
  intro builder
  refine Prod.ext ?_ (Eq.symm ?_)
  · show Register.mk ((builder.anonymous.currentFunction?.map Function.registers).getD 0) type = _
    rw [builder.anonymous_currentFunction?, Option.map_map]
    rfl
  · exact builder.anonymous_modifyCurrentFunction fun _ => rfl

/-- The type of a parameter comes from the signature, so its name is not asked for. -/
theorem argument_blind (index : Nat) : Blind (argument index) := by
  intro builder
  refine Prod.ext ?_ rfl
  show Slot.mk index .param ((((builder.anonymous.currentFunction?.map fun function =>
    function.signature.params).getD [])[index]?).getD .unknown) = _
  rw [builder.anonymous_currentFunction?, Option.map_map]
  rfl

/-- All instructions with a result take a fresh register and are written behind the others, so that
one argument serves for each of them. -/
theorem defining_blind (type : Ty) (instr : Register → Instr) :
    Blind (do
      let out ← freshRegister type
      emit (instr out)
      return Operand.reg out) :=
  .bind (freshRegister_blind type) fun _ => .bind (emit_blind _) fun _ => .pure _

theorem load_blind (address : Operand) : Blind (load address) := defining_blind _ _

theorem store_blind (address value : Operand) : Blind (store address value) := emit_blind _

theorem elementAddress_blind (base index : Operand) : Blind (elementAddress base index) :=
  defining_blind _ _

theorem binary_blind (op : BinaryOp) (left right : Operand) : Blind (binary op left right) :=
  defining_blind _ _

theorem compare_blind (predicate : Predicate) (left right : Operand) :
    Blind (compare predicate left right) :=
  defining_blind _ _

theorem convert_blind (cast : Cast) (operand : Operand) (type : Ty) :
    Blind (convert cast operand type) :=
  defining_blind _ _

/-- A call needs the signature of what it calls. It has a result in both modules or in neither, and
both cases are written alike. -/
theorem call_blind (callee : Nat) (args : List Operand) : Blind (call callee args) := by
  intro builder
  have signature : (builder.anonymous.function? callee).map Function.signature =
      (builder.function? callee).map Function.signature := by
    rw [builder.anonymous_function?, Option.map_map]
    rfl
  -- What is written depends on the module through the signature only.
  have chosen (found : Signature) (isResult : found.hasResult = true) (other : Builder)
      (known : (other.function? callee).map Function.signature = some found) :
      call callee args other = (do
        let out ← freshRegister found.result
        emit (.call (some out) callee args)
        return some (Operand.reg out) : Build (Option Operand)) other := by
    simp only [call, bind, StateT.bind, get, getThe, MonadStateOf.get, StateT.get, pure,
      StateT.pure, known, isResult, if_true]
  have chosenToo (known : Option Signature) (noResult : known.any Signature.hasResult = false)
      (other : Builder) (isKnown : (other.function? callee).map Function.signature = known) :
      call callee args other = (do
        emit (.call none callee args)
        return none : Build (Option Operand)) other := by
    cases known with
    | none =>
      simp only [call, bind, StateT.bind, get, getThe, MonadStateOf.get, StateT.get, pure,
        StateT.pure, isKnown]
    | some found =>
      have noResult : found.hasResult = false := by simpa using noResult
      simp only [call, bind, StateT.bind, get, getThe, MonadStateOf.get, StateT.get, pure,
        StateT.pure, isKnown, noResult, Bool.false_eq_true, if_false]
  cases hasResult : ((builder.function? callee).map Function.signature).any Signature.hasResult with
  | true =>
    obtain ⟨found, isSignature, isResult⟩ := (Option.any_eq_true _ _).mp hasResult
    rw [chosen found isResult builder isSignature,
      chosen found isResult _ (signature.trans isSignature)]
    exact Blind.bind (freshRegister_blind _)
      (fun _ => .bind (emit_blind _) fun _ => .pure _) builder
  | false =>
    rw [chosenToo _ hasResult builder rfl, chosenToo _ hasResult _ signature]
    exact Blind.bind (emit_blind _) (fun _ => .pure _) builder

/-! ### Members with names -/

/-- Modules that are the same without names have the same reserved names taken, at the same places.
That is all that the choice of a fresh name may depend on. -/
theorem names_alike (same : builder.anonymous = other.anonymous) :
    builder.unit.names.map eraseName = other.unit.names.map eraseName := by
  rw [← builder.unit.anonymous_names, ← other.unit.anonymous_names]
  exact congrArg (fun builder => builder.unit.names) same

/-- Two functions that are added to the module, of which neither or both are looked for. -/
theorem pushFunction_alike {function twin : Function} (same : builder.anonymous = other.anonymous)
    (alike : function.anonymous = twin.anonymous) (cursor : Option Cursor) :
    Builder.anonymous ⟨{ builder.unit with functions := builder.unit.functions.push function },
        cursor⟩ =
      Builder.anonymous ⟨{ other.unit with functions := other.unit.functions.push twin },
        cursor⟩ := by
  have units := congrArg Builder.unit same
  simp only [Builder.anonymous, Module.anonymous, Module.mk.injEq, Builder.mk.injEq,
    Array.map_push, alike] at units ⊢
  simp [units]

theorem cursor_eq (same : builder.anonymous = other.anonymous) : builder.cursor = other.cursor := by
  show builder.anonymous.cursor = other.anonymous.cursor
  rw [same]

theorem functions_size_eq (same : builder.anonymous = other.anonymous) :
    builder.unit.functions.size = other.unit.functions.size := by
  have sizes := congrArg (fun builder => builder.unit.functions.size) same
  simpa [Builder.anonymous, Module.anonymous] using sizes

/-- A function may be defined under two names, if both are reserved or neither is, and its
parameters under any names as long as there are as many. -/
theorem defineFunction_twins {twin : Bytes} {params paramsToo : List Bytes}
    (alike : name = twin ∨ (isReserved name = false ∧ isReserved twin = false))
    (length : params.length = paramsToo.length) (signature : Signature) :
    Twins (defineFunction name signature params) (defineFunction twin signature paramsToo) := by
  intro builder other same
  have size := functions_size_eq same
  refine ⟨size, ?_⟩
  have named := eraseName_freshName (names_alike same) alike
  have noParams : params.map (fun _ => ([] : Bytes)) = paramsToo.map fun _ => [] := by
    rw [List.map_const', List.map_const', length]
  show Builder.anonymous ⟨_, some ⟨builder.unit.functions.size, 0⟩⟩ =
    Builder.anonymous ⟨_, some ⟨other.unit.functions.size, 0⟩⟩
  rw [size]
  exact pushFunction_alike same (by
    simp [Function.anonymous, Function.addBlock, Function.nextBlock, named, noParams]) _

/-- An external function is looked for by its reserved name, which both modules have or neither has.
Only in the second case a function is added. -/
theorem declareFunction_twins (reserved : isReserved name = true) (signature : Signature) :
    Twins (declareFunction name signature) (declareFunction name signature) := by
  intro builder other same
  have found : builder.unit.findFunction? name = other.unit.findFunction? name := by
    rw [← builder.unit.anonymous_findFunction? reserved,
      ← other.unit.anonymous_findFunction? reserved]
    exact congrArg (fun builder => builder.unit.findFunction? name) same
  cases isFound : other.unit.findFunction? name with
  | some id =>
    rw [declareFunction_of_some (found.trans isFound), declareFunction_of_some isFound]
    exact ⟨rfl, same⟩
  | none =>
    rw [declareFunction_of_none (found.trans isFound), declareFunction_of_none isFound]
    refine ⟨functions_size_eq same, ?_⟩
    have named := eraseName_freshName (names_alike same) (.inl (rfl : name = name))
    show Builder.anonymous ⟨_, builder.cursor⟩ = Builder.anonymous ⟨_, other.cursor⟩
    rw [cursor_eq same]
    exact pushFunction_alike same (by simp [Function.anonymous, named]) _

/-- A variable of the module may be added under two names, if both are reserved or neither is. -/
theorem globalVariable_twins {twin : Bytes}
    (alike : name = twin ∨ (isReserved name = false ∧ isReserved twin = false)) (type : Ty) :
    Twins (globalVariable name type) (globalVariable twin type) := by
  intro builder other same
  have named := eraseName_freshName (names_alike same) alike
  have units := congrArg Builder.unit same
  have globals : builder.unit.globals.map Variable.anonymous =
      other.unit.globals.map Variable.anonymous := congrArg Module.globals units
  have size : builder.unit.globals.size = other.unit.globals.size := by
    simpa using congrArg Array.size globals
  constructor
  · show Slot.mk builder.unit.globals.size .global type =
      Slot.mk other.unit.globals.size .global type
    rw [size]
  · show Builder.anonymous ⟨{ builder.unit with globals := builder.unit.globals.push _ }, _⟩ =
      Builder.anonymous ⟨{ other.unit with globals := other.unit.globals.push _ }, _⟩
    simp only [Builder.anonymous, Module.anonymous, Module.mk.injEq, Builder.mk.injEq,
      Array.map_push, Variable.anonymous, named, cursor_eq same] at units ⊢
    simp [units]

/-- Nobody looks for the name of a stack variable, so that it may have any two names. -/
theorem alloca_twins (name twin : Bytes) (type : Ty) :
    Twins (alloca name type) (alloca twin type) := by
  -- Without its name, the variable that is added is the same on both sides.
  have added (builder : Builder) (name : Bytes) :
      (builder.modifyCurrentFunction fun function =>
          { function with locals := function.locals.push { name, type } }).anonymous =
        builder.anonymous.modifyCurrentFunction fun function =>
          { function with locals := function.locals.push { name := [], type } } :=
    builder.anonymous_modifyCurrentFunction fun _ => by simp [Function.anonymous]
  have next (builder : Builder) :
      builder.anonymous.currentFunction?.map (fun function => function.locals.size) =
        builder.currentFunction?.map fun function => function.locals.size := by
    rw [builder.anonymous_currentFunction?, Option.map_map]
    simp [Function.comp_def, Function.anonymous]
  refine Twins.bind (fun builder other same => ⟨?_, ?_⟩) fun slot =>
    (Blind.bind (emit_blind _) fun _ => .pure _).twins
  · show Slot.mk ((builder.currentFunction?.map fun function => function.locals.size).getD 0)
      .stack type = Slot.mk ((other.currentFunction?.map fun function =>
        function.locals.size).getD 0) .stack type
    rw [← next builder, ← next other, same]
  · refine (added builder name).trans (Eq.trans ?_ (added other twin).symm)
    rw [same]

end Build

end Pascaline.IR

namespace Pascaline.Machine

variable {unit : IR.Module} {Result Other : Type}

/-! ### Instructions without names -/

/-- Two computations that both yield the same, or both fail. -/
def Agree {First Second : Type} (first : Except First Result) (second : Except Second Result) :
    Prop :=
  first.toOption = second.toOption

/-- Either both yield the same result, or both fail. What the failures say is left open, for they
may tell a name. -/
theorem Agree.cases {First Second : Type} {first : Except First Result}
    {second : Except Second Result} (agree : Agree first second) :
    (∃ result, first = .ok result ∧ second = .ok result) ∨
      ∃ failure failureToo, first = .error failure ∧ second = .error failureToo := by
  cases first with
  | ok result =>
    cases second with
    | ok other =>
      cases agree
      exact .inl ⟨result, rfl, rfl⟩
    | error failure => cases agree
  | error failure =>
    cases second with
    | ok other => cases agree
    | error failureToo => exact .inr ⟨failure, failureToo, rfl, rfl⟩

/-- What agrees may be followed by what agrees on every result. -/
theorem Agree.bind {Failure : Type} {first second : Except Failure Result}
    {next nextToo : Result → Except Failure Other} (agree : Agree first second)
    (later : ∀ result, Agree (next result) (nextToo result)) :
    Agree (first >>= next) (second >>= nextToo) := by
  rcases agree.cases with ⟨result, rfl, rfl⟩ | ⟨failure, failureToo, rfl, rfl⟩
  · exact later result
  · rfl

/-- The view of a machine in a module without names. -/
def View.anonymous (view : View) : View := { view with unit := view.unit.anonymous }

namespace View

variable (view : View)

/-- A variable is found by its number. Only the failure tells its name, if it has no memory. -/
theorem slotValue_agree (slot : IR.Slot) :
    Agree (view.slotValue slot) (view.anonymous.slotValue slot) := by
  obtain ⟨unit, machine, frame⟩ := view
  have size : unit.anonymous.globals.size = unit.globals.size := by simp [IR.Module.anonymous]
  unfold slotValue View.anonymous
  cases slot.storage with
  | param => rfl
  | global =>
    dsimp only
    rw [size]
    rfl
  | stack =>
    dsimp only
    cases frame.locals[slot.id]? with
    | none => rfl
    | some memory => cases memory <;> rfl

/-- Of all operands, only a variable is looked up among members that have names. -/
theorem value_agree (operand : IR.Operand) :
    Agree (view.value operand) (view.anonymous.value operand) := by
  cases operand with
  | slot place => exact view.slotValue_agree place
  | _ => rfl

theorem address_agree (operand : IR.Operand) :
    Agree (view.address operand) (view.anonymous.address operand) :=
  (view.value_agree operand).bind fun value => by cases value <;> rfl

theorem integer_agree (operand : IR.Operand) :
    Agree (view.integer operand) (view.anonymous.integer operand) :=
  (view.value_agree operand).bind fun value => by cases value <;> rfl

theorem float_agree (operand : IR.Operand) :
    Agree (view.float operand) (view.anonymous.float operand) :=
  (view.value_agree operand).bind fun value => by cases value <;> rfl

/-- The arguments of a call are read one after the other. The position of an argument goes into the
failure alone, so the induction holds it general. -/
theorem values_agree (position : Nat) (operands : List IR.Operand) :
    Agree (view.values position operands) (view.anonymous.values position operands) := by
  induction operands generalizing position with
  | nil => rfl
  | cons operand rest later =>
    unfold values
    rcases (view.value_agree operand).cases with ⟨value, first, second⟩ | ⟨_, _, first, second⟩
    · rw [first, second]
      exact (later _).bind fun _ => rfl
    · rw [first, second]
      rfl

theorem binary_agree (op : IR.BinaryOp) (left right : IR.Operand) (type : Ty) :
    Agree (view.binary op left right type) (view.anonymous.binary op left right type) := by
  cases op with
  | float arith =>
    exact (view.float_agree left).bind fun _ => (view.float_agree right).bind fun _ => rfl
  | _ =>
    exact (view.integer_agree left).bind fun _ => (view.integer_agree right).bind fun _ => rfl

theorem compare_agree (predicate : IR.Predicate) (left right : IR.Operand) :
    Agree (view.compare predicate left right) (view.anonymous.compare predicate left right) := by
  cases predicate with
  | unordered relation =>
    exact (view.float_agree left).bind fun _ => (view.float_agree right).bind fun _ => rfl
  | signed relation =>
    cases relation with
    | eq | ne =>
      exact (view.value_agree left).bind fun _ => (view.value_agree right).bind fun _ => rfl
    | _ =>
      exact (view.integer_agree left).bind fun _ => (view.integer_agree right).bind fun _ => rfl
  | unnamed code =>
    unfold compare
    dsimp only
    split
    · exact (view.float_agree left).bind fun _ => (view.float_agree right).bind fun _ => rfl
    · exact (view.integer_agree left).bind fun _ => (view.integer_agree right).bind fun _ => rfl

theorem convert_agree (cast : IR.Cast) (operand : IR.Operand) (type : Ty) :
    Agree (view.convert cast operand type) (view.anonymous.convert cast operand type) :=
  (view.integer_agree operand).bind fun _ => rfl

theorem elementAddress_agree (base index : IR.Operand) :
    Agree (view.elementAddress base index) (view.anonymous.elementAddress base index) :=
  (view.address_agree base).bind fun _ => (view.integer_agree index).bind fun _ => rfl

theorem load_agree (address : IR.Operand) :
    Agree (view.load address) (view.anonymous.load address) :=
  (view.address_agree address).bind fun _ => rfl

/-- Zeros are stored without reading a value, which makes them a case of their own. -/
theorem store_agree (address value : IR.Operand) :
    Agree (view.store address value) (view.anonymous.store address value) := by
  refine (view.address_agree address).bind fun _ => ?_
  cases value with
  | zeros type => rfl
  | _ => exact (view.value_agree _).bind fun _ => rfl

/-- What is assigned to a register agrees if the value does. -/
theorem assigning_agree (out : IR.Register) {first second : Except Trap Value}
    (agree : Agree first second) : Agree (assigning out first) (assigning out second) := by
  rcases agree.cases with ⟨value, rfl, rfl⟩ | ⟨_, _, rfl, rfl⟩ <;> rfl

/-- Every instruction has the same effect on a module without names, or fails there too. -/
theorem effect_agree (instr : IR.Instr) :
    Agree (view.effect instr) (view.anonymous.effect instr) := by
  cases instr with
  | alloca slot => rfl
  | load out address => exact assigning_agree out (view.load_agree address)
  | store address value =>
    unfold effect
    dsimp only
    rcases (view.store_agree address value).cases with ⟨_, first, second⟩ | ⟨_, _, first, second⟩
    all_goals
      rw [first, second]
      rfl
  | elementAddress out base index =>
    exact assigning_agree out (view.elementAddress_agree base index)
  | binary out op left right => exact assigning_agree out (view.binary_agree op left right out.type)
  | compare out predicate left right =>
    exact assigning_agree out (view.compare_agree predicate left right)
  | convert out cast operand => exact assigning_agree out (view.convert_agree cast operand out.type)
  | call out callee args => exact (view.values_agree 0 args).bind fun _ => rfl

end View

/-! ### Runs without names -/

/-- Two runs that are at the same place, have ended with the same result, or have failed on the same
machine, with the same input left and the same output. -/
inductive Progress.Alike : Progress → Progress → Prop
  | running (state : State) : Alike (.running state) (.running state)
  | finished (machine : Machine) (result : Value) :
      Alike (.finished machine result) (.finished machine result)
  | failed (machine : Machine) (failure failureToo : MachineFailure) :
      Alike (.failed machine failure) (.failed machine failureToo)

theorem Progress.Alike.refl (progress : Progress) : progress.Alike progress := by
  cases progress <;> constructor

theorem Progress.Alike.symm {first second : Progress} (alike : first.Alike second) :
    second.Alike first := by
  cases alike <;> constructor

theorem Progress.Alike.trans {first second third : Progress} (early : first.Alike second)
    (late : second.Alike third) : first.Alike third := by
  cases early <;> cases late <;> constructor

/-- An external function does the same under a name that is taken away. If it is not served under
its name, it is not served without it either. -/
theorem externalCall_cases (name : Bytes) (machine : Machine) (args : List Value) :
    (∃ later result, externalCall name machine args = (later, .ok result) ∧
        externalCall (IR.eraseName name) machine args = (later, .ok result)) ∨
      ∃ later trap trapToo, externalCall name machine args = (later, .error trap) ∧
        externalCall (IR.eraseName name) machine args = (later, .error trapToo) := by
  cases reserved : isReserved name with
  | true =>
    rw [IR.eraseName, if_pos reserved]
    generalize externalCall name machine args = called
    obtain ⟨later, _ | _⟩ := called
    · exact .inr ⟨_, _, _, rfl, rfl⟩
    · exact .inl ⟨_, _, rfl, rfl⟩
  | false =>
    have unserved := Lowering.unserved_of_free reserved
    have served : ("printf" : Bytes) ∈ Lowering.servedNames ∧
      ("scanf" : Bytes) ∈ Lowering.servedNames := by decide
    refine .inr ⟨machine, .unresolved name, .unresolved [], ?_, ?_⟩
    · unfold externalCall
      rw [if_neg (by rintro rfl; exact unserved served.1),
        if_neg (by rintro rfl; exact unserved served.2)]
    · rw [IR.eraseName_of_free reserved]
      rfl

/-- A call is refused in both modules or in neither. The refusal tells the name of the function, so
the two may differ. -/
theorem entryTrap?_cases (function : IR.Function) (args : List Value) (depth : Int) :
    (entryTrap? function args depth = none ∧ entryTrap? function.anonymous args depth = none) ∨
      ∃ trap trapToo, entryTrap? function args depth = some trap ∧
        entryTrap? function.anonymous args depth = some trapToo := by
  unfold entryTrap? IR.Function.anonymous
  dsimp only
  split
  · exact .inr ⟨_, _, rfl, rfl⟩
  · split
    · exact .inr ⟨_, _, rfl, rfl⟩
    · split
      · exact .inr ⟨_, _, rfl, rfl⟩
      · exact .inl ⟨rfl, rfl⟩

/-- A frame has as many registers and stack variables as its function, whatever their names are. -/
theorem Frame.new_anonymous (id : Nat) (function : IR.Function) (args : List Value) :
    Frame.new id function.anonymous args = Frame.new id function args := by
  simp [Frame.new, IR.Function.anonymous]

/-- The next instruction is found by the numbers of function and block. -/
theorem Frame.next_anonymous (frame : Frame) : frame.next unit.anonymous = frame.next unit := by
  unfold Frame.next
  rw [unit.anonymous_functions, Option.bind_map]
  rfl

/-- A call is served under a reserved name, which is kept, or enters a function by its number. -/
theorem State.call_alike (state : State) (out : Option IR.Register) (callee : Nat)
    (args : List Value) :
    (state.call unit out callee args).Alike (state.call unit.anonymous out callee args) := by
  obtain ⟨machine, frame, callers⟩ := state
  unfold State.call
  dsimp only
  rw [unit.anonymous_functions]
  cases unit.functions[callee]? with
  | none => constructor
  | some function =>
    dsimp only [Option.map_some]
    rw [show function.anonymous.external = function.external from rfl,
      show function.anonymous.name = IR.eraseName function.name from rfl]
    split
    · rcases externalCall_cases function.name machine args with ⟨_, _, first, second⟩ |
        ⟨_, _, _, first, second⟩
      all_goals
        rw [first, second]
        constructor
    · rcases entryTrap?_cases function args machine.depth with ⟨first, second⟩ |
        ⟨_, _, first, second⟩
      · rw [first, second, Frame.new_anonymous]
        constructor
      · rw [first, second]
        constructor

theorem State.execute_alike (state : State) (instr : IR.Instr) :
    (state.execute unit instr).Alike (state.execute unit.anonymous instr) := by
  unfold State.execute
  have agree : Agree (View.effect ⟨unit, state.machine, state.frame⟩ instr)
      (View.effect ⟨unit.anonymous, state.machine, state.frame⟩ instr) :=
    View.effect_agree _ instr
  rcases agree.cases with ⟨effect, first, second⟩ | ⟨_, _, first, second⟩
  · rw [first, second]
    cases effect with
    | call out callee args => exact state.call_alike out callee args
    | _ => constructor
  · rw [first, second]
    constructor

/-- The end of a block goes to another block or back to the caller by numbers. The condition of a
branch is read alike, and so is the value of a return. -/
theorem State.terminate_alike (state : State) (terminator : IR.Terminator) :
    (state.terminate unit terminator).Alike (state.terminate unit.anonymous terminator) := by
  unfold State.terminate
  cases terminator with
  | branch target => constructor
  | branchIf condition consequent alternative =>
    have agree : Agree (View.integer ⟨unit, state.machine, state.frame⟩ condition)
        (View.integer ⟨unit.anonymous, state.machine, state.frame⟩ condition) :=
      View.integer_agree _ condition
    dsimp only
    rcases agree.cases with ⟨number, first, second⟩ | ⟨_, _, first, second⟩
    · rw [first, second]
      exact .refl _
    · rw [first, second]
      constructor
  | ret value =>
    cases value with
    | none => exact .refl _
    | some operand =>
      have agree : Agree (View.value ⟨unit, state.machine, state.frame⟩ operand)
          (View.value ⟨unit.anonymous, state.machine, state.frame⟩ operand) :=
        View.value_agree _ operand
      dsimp only
      rcases agree.cases with ⟨result, first, second⟩ | ⟨_, _, first, second⟩
      · rw [first, second]
        exact .refl _
      · rw [first, second]
        constructor
  | unreachable => constructor

/-- A step does the same in a module without names. -/
theorem State.step_alike (limits : Limits) (state : State) :
    (state.step unit limits).Alike (state.step unit.anonymous limits) := by
  unfold State.step
  rw [Frame.next_anonymous]
  cases state.frame.next unit with
  | nothing => constructor
  | instruction instr =>
    dsimp only
    split
    · constructor
    · exact state.tick.execute_alike instr
  | terminator terminator =>
    dsimp only
    split
    · constructor
    · exact state.tick.terminate_alike terminator

/-- Any number of steps, by induction: one step of each run leads to states that are alike again. -/
theorem Progress.advance_alike (limits : Limits) (fuel : Nat) {first second : Progress}
    (alike : first.Alike second) :
    (first.advance unit limits fuel).Alike (second.advance unit.anonymous limits fuel) := by
  induction fuel generalizing first second with
  | zero =>
    rw [advance_zero, advance_zero]
    exact alike
  | succ fuel rest =>
    cases alike with
    | running state => exact rest (state.step_alike limits)
    | finished machine result => constructor
    | failed machine failure failureToo => constructor

theorem start_alike (machine : Machine) (callee : Nat) (args : List Value) :
    (start unit machine callee args).Alike (start unit.anonymous machine callee args) := by
  unfold start
  rw [unit.anonymous_functions]
  cases unit.functions[callee]? with
  | none => constructor
  | some function =>
    dsimp only [Option.map_some]
    rw [show function.anonymous.external = function.external from rfl,
      show function.anonymous.name = IR.eraseName function.name from rfl]
    split
    · rcases externalCall_cases function.name machine args with ⟨_, _, first, second⟩ |
        ⟨_, _, _, first, second⟩
      all_goals
        rw [first, second]
        constructor
    · rcases entryTrap?_cases function args machine.depth with
        ⟨first, second⟩ | ⟨_, _, first, second⟩
      · rw [first, second, Frame.new_anonymous]
        constructor
      · rw [first, second]
        constructor

/-- A run starts with the main function, which is looked for by its reserved name and so is found in
both modules at the same place. -/
theorem startMain_alike (machine : Machine) :
    (startMain unit machine).Alike (startMain unit.anonymous machine) := by
  unfold startMain
  rw [unit.anonymous_findFunction? (by decide)]
  cases unit.findFunction? "main" with
  | none => constructor
  | some id =>
    have isExternal : (unit.anonymous.functions[id]?).any IR.Function.external =
        (unit.functions[id]?).any IR.Function.external := by
      rw [unit.anonymous_functions, Option.any_map]
      rfl
    dsimp only
    rw [isExternal]
    split
    · constructor
    · exact start_alike machine id []

/-- The memories of a new machine are laid out by the types of the variables. -/
theorem new?_anonymous (input : Bytes) :
    Machine.new? unit.anonymous input = Machine.new? unit input := by
  unfold Machine.new?
  rw [IR.Module.anonymous, Array.mapM_map]
  rfl

/-- Modules that differ in names only start from the same machine, and their runs are alike at
every moment. -/
theorem runs_alike {other : IR.Module} (same : unit.anonymous = other.anonymous) (input : Bytes) :
    Machine.new? unit input = Machine.new? other input ∧
      ∀ (machine : Machine) (limits : Limits) (fuel : Nat),
        ((startMain unit machine).advance unit limits fuel).Alike
          ((startMain other machine).advance other limits fuel) := by
  constructor
  · rw [← new?_anonymous, same, new?_anonymous]
  · intro machine limits fuel
    refine (Progress.advance_alike limits fuel (startMain_alike machine)).trans ?_
    rw [same]
    exact (Progress.advance_alike limits fuel (startMain_alike machine)).symm

end Pascaline.Machine
