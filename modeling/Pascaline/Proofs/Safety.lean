/-
Programs that compile do not go wrong. A machine that conforms to a module whose functions can be
executed takes a conforming step: it goes on, returns a value of the right type, or fails for a
reason that a program can bring about itself. So does every run, whichever function it calls.
-/

import Pascaline.Proofs.Conformance
import Pascaline.Proofs.Encoding
import Pascaline.Proofs.Construction
import Pascaline.Proofs.Truncation

namespace Pascaline

open IR (Operand Slot)

/-- A module that machines can be made for, and whose functions can be executed from their start
or are served from outside. -/
structure IR.Module.Executable (unit : IR.Module) : Prop where
  defined : ∀ (place : Nat) (function : IR.Function), unit.functions[place]? = some function →
    function.external = false →
      ∃ marks, (∀ slot, ¬ marks 0 slot) ∧ function.Executable unit marks
  served : ∀ (place : Nat) (function : IR.Function), unit.functions[place]? = some function →
    function.external = true → function.name ∈ Lowering.servedNames ∧
      function.signature = Lowering.formattedSignature
  allocatable : unit.isAllocatable = true

namespace Machine

/-! ### Runs that conform -/

/-- The reasons for which a run may fail: a limit, a division by zero, an index outside of its
array, or too many active functions. -/
def Trap.isExpected : Trap → Bool
  | .stepLimit | .canceled | .divisionByZero | .indexRange _ _ | .callDepth _ => true
  | _ => false

/-- Whether a value is what a call yields: one of the type of its result, or nil if it has none. -/
def Value.isResult (value : Value) : Option Ty → Bool
  | some type => value.isOf type
  | none => value = .nil

/-- Callers that wait for results, from the one of the running function to that of the function
that was called from outside. -/
inductive Awaits (unit : IR.Module) (machine : Machine) (final : Option Ty) :
    Option Ty → List Caller → Prop
  | outermost : Awaits unit machine final final []
  | caller {caller : Caller} {callers : List Caller} {function : IR.Function} {block : IR.Block}
      {marks : Nat → Nat → Prop} {callee : Nat} {args : List Operand}
      (conforms : caller.frame.Conforms unit function block marks machine)
      (waits : block.code[caller.frame.index]? = some (.call caller.out callee args))
      (rest : Awaits unit machine final function.signature.result? callers) :
      Awaits unit machine final (caller.out.map IR.Register.type) (caller :: callers)

variable {unit : IR.Module} {machine : Machine} {format : Bytes} {value : Value} {type : Ty}
  {trap : Trap} {args : List Value}

theorem Awaits.keeps {later : Machine} {final awaited : Option Ty} {callers : List Caller}
    (awaits : Awaits unit machine final awaited callers) (keeps : machine.Keeps later) :
    Awaits unit later final awaited callers := by
  induction awaits with
  | outermost => exact .outermost
  | caller conforms waits _ rest => exact .caller (conforms.keeps keeps) waits rest

/-- A state that stands in a block of a function, while its callers wait. -/
structure State.Stands (unit : IR.Module) (final : Option Ty) (function : IR.Function)
    (block : IR.Block) (marks : Nat → Nat → Prop) (state : State) : Prop where
  machine : state.machine.Conforms unit
  frame : state.frame.Conforms unit function block marks state.machine
  awaits : Awaits unit state.machine final function.signature.result? state.callers

/-- How far a run may have come whose result is of some type. -/
def Progress.Conforms (unit : IR.Module) (final : Option Ty) : Progress → Prop
  | .running state => ∃ function block marks, state.Stands unit final function block marks
  | .finished machine result => machine.Conforms unit ∧ result.isResult final = true
  | .failed machine failure => machine.Conforms unit ∧ failure.cause.isExpected = true

section Returns

variable {unit : IR.Module} {final : Option Ty} {function : IR.Function} {block next : IR.Block}
  {marks : Nat → Nat → Prop} {state : State} {failure : MachineFailure} {frame : Frame}
  {result : Value}

theorem State.Stands.fail (stands : state.Stands unit final function block marks)
    (expected : failure.cause.isExpected = true) : (state.fail unit failure).Conforms unit final :=
  ⟨(stands.machine.of_memories (unwind_memories _ _)).1, by rw [passOn_cause]; exact expected⟩

theorem State.Stands.failHere (stands : state.Stands unit final function block marks)
    (expected : failure.cause.isExpected = true) :
    (state.failHere unit failure).Conforms unit final :=
  stands.fail expected

/-- The function goes on with a later machine. -/
theorem State.Stands.go {later : Machine} (stands : state.Stands unit final function block marks)
    (machine : later.Conforms unit ∧ state.machine.Keeps later)
    (conforms : frame.Conforms unit function next marks later) :
    (Progress.running ⟨later, frame, state.callers⟩).Conforms unit final :=
  ⟨function, next, marks, machine.1, conforms, stands.awaits.keeps machine.2⟩

/-- The function goes on with the machine as it is. -/
theorem State.Stands.stay (stands : state.Stands unit final function block marks)
    (conforms : frame.Conforms unit function next marks state.machine) :
    (Progress.running ⟨state.machine, frame, state.callers⟩).Conforms unit final :=
  stands.go ⟨stands.machine, .refl _⟩ conforms

/-- A caller takes the result that it waits for. -/
theorem Caller.resume_conforms {caller : Caller} {callee : Nat} {args : List Operand}
    (conforms : caller.frame.Conforms unit function block marks machine)
    (waits : block.code[caller.frame.index]? = some (.call caller.out callee args))
    (isResult : result.isResult (caller.out.map IR.Register.type) = true) :
    (caller.resume result).Conforms unit function block marks machine := by
  obtain ⟨frame, out⟩ := caller
  cases out with
  | none => exact conforms.advance waits rfl (fun _ same => by cases same)
  | some out => exact conforms.compute waits rfl (Value.isOf_fit isResult out.type)

theorem State.Stands.return (stands : state.Stands unit final function block marks)
    (isResult : result.isResult function.signature.result? = true) :
    (state.return result).Conforms unit final := by
  obtain ⟨machine, frame, callers⟩ := state
  obtain ⟨machineConforms, _, awaits⟩ := stands
  dsimp only at awaits
  generalize function.signature.result? = awaited at awaits isResult
  have kept : machine.leave.Conforms unit ∧ machine.Keeps machine.leave :=
    machineConforms.of_memories rfl
  cases awaits with
  | outermost => exact ⟨kept.1, isResult⟩
  | caller conforms waits rest =>
    exact ⟨_, _, _, kept.1, Caller.resume_conforms (conforms.keeps kept.2) waits isResult,
      rest.keeps kept.2⟩

end Returns

/-! ### Operations -/

/-- An operand that can be read, with a value of its type. -/
def View.Reads (view : View) (operand : Operand) : Prop :=
  ∃ value, view.value operand = .ok value ∧ value.isOf operand.type = true

/-- An outcome that is a value of a type, or one of the reasons for which a run may fail. -/
def Yields (type : Ty) : Except Trap Value → Prop
  | .ok value => value.isOf type = true
  | .error trap => trap.isExpected = true

section Operations

variable {unit : IR.Module} {view : View} {left right operand : Operand}

theorem View.Reads.integer {type : IntType} (reads : view.Reads operand)
    (integer : operand.type = .int type) :
    ∃ number, view.value operand = .ok (.int number) := by
  obtain ⟨value, read, isOf⟩ := reads
  rw [integer] at isOf
  obtain ⟨number, rfl⟩ := Value.isOf_int isOf
  exact ⟨number, read⟩

theorem View.Reads.integer_of_integral (reads : view.Reads operand)
    (scalar : operand.type.IsScalar) (integral : operand.type.category = .integral) :
    ∃ number, view.value operand = .ok (.int number) := by
  rcases scalar.eq_of_integral integral with type | type <;> exact reads.integer type

theorem View.Reads.float (reads : view.Reads operand) (scalar : operand.type.IsScalar)
    (floating : operand.type.category = .floating) :
    ∃ number, view.value operand = .ok (.float number) := by
  obtain ⟨value, read, isOf⟩ := reads
  rw [scalar.eq_of_floating floating] at isOf
  obtain ⟨number, rfl⟩ := Value.isOf_float isOf
  exact ⟨number, read⟩

theorem integerArithmetic_yields (arith : IR.Arith) (leftNumber rightNumber : Int64)
    {integer : IntType} (type : Ty) :
    Yields (.int integer) ((integerArithmetic arith leftNumber rightNumber).map
      fun number => (Value.int number).fit type) := by
  have fits (number : Int64) : ((Value.int number).fit type).isOf (.int integer) = true :=
    Value.isOf_fit rfl type
  cases arith with
  | add | sub | mul => exact fits _
  | div | rem =>
    simp only [integerArithmetic]
    split
    · rfl
    · exact fits _

theorem binary_yields {out : IR.Register} {op : IR.BinaryOp} (leftReads : view.Reads left)
    (rightReads : view.Reads right) (scalar : left.type.IsScalar)
    (typed : (IR.Instr.binary out op left right).Typed unit) :
    Yields out.type (view.binary op left right out.type) := by
  obtain ⟨same, outType, takes⟩ := typed
  have bits (isBit : left.type = .i1) {number : Int64 → Int64 → Int64}
      (operation : ∀ leftNumber rightNumber, integerOperation op leftNumber rightNumber =
        .ok (number leftNumber rightNumber)) (notFloat : ∀ arith, op ≠ .float arith) :
      Yields out.type (view.binary op left right out.type) := by
    obtain ⟨leftNumber, leftRead⟩ := leftReads.integer isBit
    obtain ⟨rightNumber, rightRead⟩ := rightReads.integer (same ▸ isBit)
    rw [outType, isBit, View.binary]
    · rw [Evaluation.integer_eq leftRead, Evaluation.integer_eq rightRead]
      show Yields .i1 (integerOperation op leftNumber rightNumber >>= _)
      rw [operation]
      exact Value.isOf_fit rfl _
    · exact notFloat
  cases op with
  | int arith =>
    have integral : left.type.category = .integral := takes
    obtain ⟨leftNumber, leftRead⟩ := leftReads.integer_of_integral scalar integral
    obtain ⟨rightNumber, rightRead⟩ :=
      rightReads.integer_of_integral (same ▸ scalar) (same ▸ integral)
    rw [Evaluation.binary_int_eq leftRead rightRead, outType]
    rcases scalar.eq_of_integral integral with type | type <;> rw [type] <;>
      exact integerArithmetic_yields arith leftNumber rightNumber _
  | float arith =>
    obtain ⟨leftNumber, leftRead⟩ := leftReads.float scalar takes
    obtain ⟨rightNumber, rightRead⟩ := rightReads.float (same ▸ scalar) (same ▸ takes)
    rw [outType, scalar.eq_of_floating takes, View.binary, Evaluation.float_eq leftRead,
      Evaluation.float_eq rightRead]
    rfl
  | and | or | xor =>
    exact bits takes (fun _ _ => rfl) fun _ same => by cases same
  | unnamed code => exact takes.elim

theorem compare_yields {out : IR.Register} {predicate : IR.Predicate}
    (leftReads : view.Reads left) (rightReads : view.Reads right) (scalar : left.type.IsScalar)
    (typed : (IR.Instr.compare out predicate left right).Typed unit) :
    Yields out.type (view.compare predicate left right) := by
  obtain ⟨same, outType, takes⟩ := typed
  rw [outType]
  cases predicate with
  | signed relation =>
    have ordered (integral : left.type.category = .integral) :
        ∃ leftNumber rightNumber, view.integer left = .ok leftNumber ∧
          view.integer right = .ok rightNumber := by
      obtain ⟨leftNumber, leftRead⟩ := leftReads.integer_of_integral scalar integral
      obtain ⟨rightNumber, rightRead⟩ :=
        rightReads.integer_of_integral (same ▸ scalar) (same ▸ integral)
      exact ⟨leftNumber, rightNumber, Evaluation.integer_eq leftRead,
        Evaluation.integer_eq rightRead⟩
    cases relation with
    | eq | ne =>
      obtain ⟨leftValue, leftRead, _⟩ := leftReads
      obtain ⟨rightValue, rightRead, _⟩ := rightReads
      rw [View.compare, leftRead, rightRead]
      rfl
    | lt | le | gt | ge =>
      obtain ⟨leftNumber, rightNumber, leftRead, rightRead⟩ := ordered takes
      simp only [View.compare, leftRead, rightRead]
      rfl
  | unordered relation =>
    obtain ⟨leftNumber, leftRead⟩ := leftReads.float scalar takes
    obtain ⟨rightNumber, rightRead⟩ := rightReads.float (same ▸ scalar) (same ▸ takes)
    rw [View.compare, Evaluation.float_eq leftRead, Evaluation.float_eq rightRead]
    rfl
  | unnamed code => exact takes.elim

theorem castInteger_ok {cast : IR.Cast} {source : IntType} {target : Ty}
    (scalar : (Ty.int source).IsScalar) (takes : cast.Takes (.int source) target)
    (number : Int64) : ∃ result, castInteger cast (.int source) number = .ok result := by
  cases cast with
  | trunc | sext => exact ⟨number, rfl⟩
  | zext => rcases scalar.int with rfl | rfl | rfl <;> exact ⟨_, rfl⟩
  | unnamed code => cases target <;> exact takes.elim

theorem convert_yields {out : IR.Register} {cast : IR.Cast} (reads : view.Reads operand)
    (scalar : operand.type.IsScalar)
    (typed : (IR.Instr.convert out cast operand).Typed unit) :
    Yields out.type (view.convert cast operand out.type) := by
  have takes : cast.Takes operand.type out.type := typed
  obtain ⟨source, target, isSource, isTarget⟩ : ∃ source target,
      operand.type = .int source ∧ out.type = .int target := by
    unfold IR.Cast.Takes at takes
    split at takes
    all_goals first | exact ⟨_, _, ‹_›, ‹_›⟩ | exact takes.elim
  obtain ⟨number, read⟩ := reads.integer isSource
  rw [isSource] at scalar takes
  obtain ⟨result, converted⟩ := castInteger_ok scalar takes number
  rw [View.convert, Evaluation.integer_eq read, isSource]
  show Yields out.type (castInteger cast (.int source) number >>= _)
  rw [converted, isTarget]
  exact Value.isOf_fit rfl _

end Operations

/-! ### Formats -/

/-- A verb prints every value that its operand may have. -/
theorem argumentText_ok {operand : Operand} (prints : operand.PrintsBy format)
    (isOf : value.isOf operand.type = true) :
    ∃ verb text, format = [Bytes.code '%', verb] ∧ verb ≠ Bytes.code '%' ∧
      Print.argumentText verb value = .ok text := by
  rcases prints with rfl | rfl | rfl | ⟨rfl, type, integer⟩
  · exact ⟨Bytes.code 'd', _, rfl, by decide, rfl⟩
  · exact ⟨Bytes.code 'f', _, rfl, by decide, rfl⟩
  · exact ⟨Bytes.code 's', _, rfl, by decide, rfl⟩
  · rw [integer] at isOf
    obtain ⟨number, rfl⟩ := Value.isOf_int isOf
    exact ⟨Bytes.code 'c', _, rfl, by decide, rfl⟩

theorem render_ok {printed : List (Bytes × Operand)} {values : List Value}
    (prints : ∀ pair ∈ printed, pair.2.PrintsBy pair.1)
    (fits : List.Forall₂ (fun pair value => value.isOf pair.2.type = true) printed values) :
    ∃ text, Print.render (printed.flatMap Prod.fst ++ "\n") values = .ok text := by
  induction fits with
  | nil => exact ⟨_, rfl⟩
  | @cons pair value printed values isOf _ rest =>
    obtain ⟨text, rendered⟩ := rest fun other member => prints other (List.mem_cons_of_mem _ member)
    obtain ⟨verb, shown, format, isVerb, prints⟩ :=
      argumentText_ok (prints pair (List.mem_cons_self ..)) isOf
    refine ⟨shown ++ text, ?_⟩
    rw [List.flatMap_cons, format]
    show Print.render (Bytes.code '%' :: verb :: (printed.flatMap Prod.fst ++ "\n"))
      (value :: values) = _
    rw [Print.render, if_neg (not_not_intro rfl), if_neg isVerb, prints, rendered]
    rfl

/-- A conversion reads a value of the type that it is for. -/
theorem conversion_ok (scalar : type.IsScalar) (found : type.scanFormat? = some format)
    (input : Bytes) :
    ∃ rest outcome, Scan.conversion format input = (rest, .ok outcome) ∧
      ∀ value, outcome = .read value → (value.fit type).isOf type = true := by
  obtain ⟨kind, isKind, rfl⟩ := scalar
  obtain ⟨outcome, converted, shows, _⟩ := Evaluation.conversion_take isKind found input
  refine ⟨_, outcome, converted, fun value read => ?_⟩
  obtain ⟨result, _, fits, native⟩ := shows value read
  rw [fits, ← native]
  cases result with
  | text bytes => cases bytes <;> rfl
  | _ => rfl

theorem scanCall_ok {memory offset : Nat} (conforms : machine.Conforms unit)
    (scalar : type.IsScalar) (found : type.scanFormat? = some format)
    (cell : machine.Cell memory offset type) :
    ∃ later number, scanCall machine [.text format, .address memory offset] =
        (later, .ok (.int number)) ∧ later.Conforms unit ∧ machine.Keeps later := by
  obtain ⟨rest, outcome, converted, reads⟩ := conversion_ok scalar found machine.input
  obtain ⟨cells, there, rfl, inside⟩ := cell
  have taken : Machine.Conforms unit { machine with input := rest } ∧
      machine.Keeps { machine with input := rest } := conforms.of_memories rfl
  unfold scanCall
  simp only [converted]
  cases outcome with
  | atEnd | unread => exact ⟨_, _, rfl, taken⟩
  | read value =>
    simp only [there, if_pos inside]
    have written : Machine.Conforms unit (Machine.write { machine with input := rest } memory
        offset (value.fit cells.type)) ∧ _ := taken.1.write fun other otherThere => by
      have otherThere : machine.memories[memory]? = some other := otherThere
      rw [there] at otherThere
      cases otherThere
      exact reads value rfl
    exact ⟨_, _, rfl, written.1, taken.2.trans written.2⟩

/-! ### Calls -/

section Calls

variable {unit : IR.Module} {final : Option Ty} {function called : IR.Function} {block : IR.Block}
  {marks : Nat → Nat → Prop} {machine : Machine} {frame : Frame} {state : State}

/-- Operands that are values can be read one after the other. -/
theorem Frame.Conforms.values {args : List Operand}
    (conforms : frame.Conforms unit function block marks machine)
    (resolves : ∀ arg ∈ args, arg.Resolves unit function
      (IR.writtenBy (block.code.toList.take frame.index)))
    (roles : ∀ arg ∈ args, arg.IsValue function) :
    ∃ values, List.Forall₂ (fun arg value => View.value ⟨unit, machine, frame⟩ arg = .ok value)
        args values ∧
      List.Forall₂ (fun arg value => value.isOf arg.type = true) args values := by
  induction args with
  | nil => exact ⟨[], .nil, .nil⟩
  | cons arg args rest =>
    obtain ⟨value, read, isOf⟩ := conforms.value (resolves arg (List.mem_cons_self ..))
      (roles arg (List.mem_cons_self ..))
    obtain ⟨values, reads, areOf⟩ := rest
      (fun other member => resolves other (List.mem_cons_of_mem _ member))
      fun other member => roles other (List.mem_cons_of_mem _ member)
    exact ⟨value :: values, .cons read reads, .cons isOf areOf⟩

/-- A call by a format that suits its arguments succeeds, with an integer. -/
theorem Frame.Conforms.formatted {name : Bytes} {args : List Operand}
    (conforms : frame.Conforms unit function block marks machine)
    (machineConforms : machine.Conforms unit)
    (resolves : ∀ arg ∈ args, arg.Resolves unit function
      (IR.writtenBy (block.code.toList.take frame.index)))
    (formatted : IR.Formatted unit function (fun slot => marks frame.block slot ∨
      slot ∈ IR.reservedBy (block.code.toList.take frame.index)) name args) :
    ∃ values later number, View.values ⟨unit, machine, frame⟩ 0 args = .ok values ∧
      externalCall name machine values = (later, .ok (.int number)) ∧
      later.Conforms unit ∧ machine.Keeps later := by
  have datumRead {id : Nat} {datum : IR.Datum} (found : unit.data[id]? = some datum) :
      View.value ⟨unit, machine, frame⟩ (.data id) = .ok (.text datum.bytes) := by
    simp [View.value, View.present, found]
  cases formatted with
  | @print id datum printed found format prints roles =>
    obtain ⟨values, reads, areOf⟩ := conforms.values
      (fun arg member => resolves arg (List.mem_cons_of_mem _ member)) fun arg member => by
        obtain ⟨pair, listed, rfl⟩ := List.mem_map.mp member
        exact roles pair listed
    obtain ⟨text, rendered⟩ := render_ok prints (List.forall₂_map_left_iff.mp areOf)
    refine ⟨.text datum.bytes :: values, machine.print text, Int64.ofNat text.length,
      View.values_eq (.cons (datumRead found) reads) 0, ?_, machineConforms.of_memories rfl⟩
    show printCall machine (.text datum.bytes :: values) = _
    rw [printCall, Print.output, format, rendered]
  | @scan id datum target type found format scalar points address =>
    obtain ⟨memory, offset, read, cell⟩ := conforms.cell machineConforms scalar
      (resolves target (by simp)) address points
    obtain ⟨later, number, scanned, facts⟩ := scanCall_ok machineConforms scalar format cell
    exact ⟨[.text datum.bytes, .address memory offset], later, number,
      View.values_eq (.cons (datumRead found) (.cons read .nil)) 0, scanned, facts⟩

/-- The frame of a function that has just been entered. -/
theorem Frame.new_conforms {callee : Nat} {values : List Value} {entry : IR.Block}
    (executable : called.Executable unit marks) (empty : ∀ slot, ¬ marks 0 slot)
    (found : unit.functions[callee]? = some called) (entryFound : called.blocks[0]? = some entry)
    (areOf : List.Forall₂ (fun type value => value.isOf type = true) called.signature.params
      values) : (Frame.new callee called values).Conforms unit called entry marks machine where
  found := found
  code := executable
  here := entryFound
  path := .refl
  registerCount := Array.size_replicate
  localCount := Array.size_replicate
  args place type there := by
    obtain ⟨value, valueThere, isOf⟩ := forall₂_getElem? areOf there
    exact ⟨value, List.getElem?_toArray.trans valueThere, isOf⟩
  locals slot id bound := by
    have bound : (Array.replicate called.locals.size none)[slot]? = some (some id) := bound
    rw [Array.getElem?_replicate] at bound
    split at bound <;> cases bound
  reserved slot marked := by
    rcases marked with isMarked | member
    · exact (empty slot isMarked).elim
    · cases member
  filled instr member := by cases member

/-- Entering a function with arguments of its types. It fails only if too many are active. -/
theorem enter_conforms {callee : Nat} {values : List Value} (executable : unit.Executable)
    (found : unit.functions[callee]? = some called) (defined : called.external = false)
    (areOf : List.Forall₂ (fun type value => value.isOf type = true) called.signature.params
      values) (depth : Int) :
    (∃ trap, entryTrap? called values depth = some trap ∧ trap.isExpected = true) ∨
      entryTrap? called values depth = none ∧ ∃ entry marks, ∀ machine : Machine,
        (Frame.new callee called values).Conforms unit called entry marks machine := by
  obtain ⟨marks, empty, code⟩ := executable.defined callee called found defined
  have entry := code.complete.entry
  unfold entryTrap?
  rw [if_neg (not_not_intro areOf.length_eq.symm)]
  split
  · exact .inl ⟨_, rfl, rfl⟩
  · rw [if_neg (Nat.ne_of_gt entry)]
    exact .inr ⟨rfl, _, marks, fun machine =>
      Frame.new_conforms code empty found (Array.getElem?_eq_getElem entry) areOf⟩

end Calls

/-! ### Steps -/

section Steps

variable {unit : IR.Module} {final : Option Ty} {function : IR.Function} {block : IR.Block}
  {marks : Nat → Nat → Prop} {state : State} {instr : IR.Instr}

/-- Types and roles of the next instruction. -/
theorem Frame.Conforms.next {frame : Frame}
    (conforms : frame.Conforms unit function block marks machine)
    (isNext : block.code[frame.index]? = some instr) :
    instr.Sound unit function (IR.writtenBy (block.code.toList.take frame.index)) ∧
      instr.Guarded unit function fun slot => marks frame.block slot ∨
        slot ∈ IR.reservedBy (block.code.toList.take frame.index) :=
  ⟨(conforms.code.sound.coded _ block conforms.here).code _ instr isNext,
    conforms.code.guarded.code _ _ block instr conforms.here isNext⟩

namespace State.Stands

/-- An instruction that puts an outcome into its register. -/
theorem execute_assigning {out : IR.Register} {outcome : Except Trap Value}
    (stands : state.Stands unit final function block marks)
    (isNext : block.code[state.frame.index]? = some instr) (isValue : instr.value? = some out)
    (yields : Yields out.type outcome)
    (effect : View.effect ⟨unit, state.machine, state.frame⟩ instr = View.assigning out outcome) :
    (state.execute unit instr).Conforms unit final := by
  unfold State.execute
  rw [effect]
  cases outcome with
  | ok value => exact stands.stay (stands.frame.compute isNext isValue yields)
  | error trap => exact stands.failHere yields

theorem execute_alloca {slot : Slot} (executable : unit.Executable)
    (stands : state.Stands unit final function block marks)
    (isNext : block.code[state.frame.index]? = some (.alloca slot)) :
    (state.execute unit (.alloca slot)).Conforms unit final := by
  obtain ⟨sound, _⟩ := stands.frame.next isNext
  have storage : slot.storage = .stack := sound.typed
  have resolves : slot.Resolves unit function := sound.resolves (.slot slot) (by
    simp [IR.Instr.operands])
  rw [IR.Slot.Resolves, storage] at resolves
  obtain ⟨place, placed, type⟩ := Option.map_eq_some_iff.mp resolves
  have allocatable : slot.type.isAllocatable = true := by
    rw [← type]
    exact unit.isAllocatable_local executable.allocatable stands.frame.found placed
  obtain ⟨memory, made, stores, memoryConforms⟩ := Memory.new?_conforms allocatable
  unfold State.execute
  simp only [View.effect, made]
  have allocated := stands.machine.allocate memoryConforms
  exact stands.go allocated (stands.frame.bind isNext placed (type ▸ stores) allocated.2)

theorem execute_load {out : IR.Register} {address : Operand}
    (stands : state.Stands unit final function block marks)
    (isNext : block.code[state.frame.index]? = some (.load out address)) :
    (state.execute unit (.load out address)).Conforms unit final := by
  obtain ⟨sound, scalar, role⟩ := stands.frame.next isNext
  obtain ⟨memory, offset, read, cell⟩ := stands.frame.cell stands.machine scalar
    (sound.resolves address (List.mem_singleton.mpr rfl)) role sound.typed
  obtain ⟨value, there, isOf⟩ := stands.machine.cell cell scalar
  refine stands.execute_assigning isNext rfl ?_ rfl
  rw [View.load, Evaluation.address_eq read]
  show Yields out.type (View.present (state.machine.cell? memory offset))
  rw [there]
  exact isOf

theorem execute_store {address value : Operand}
    (stands : state.Stands unit final function block marks)
    (isNext : block.code[state.frame.index]? = some (.store address value)) :
    (state.execute unit (.store address value)).Conforms unit final := by
  obtain ⟨sound, addressRole, valueRole⟩ := stands.frame.next isNext
  have advanced := stands.frame.advance isNext rfl fun _ same => by cases same
  have resolves := sound.resolves address (List.mem_cons_self ..)
  unfold State.execute
  rcases valueRole with role | ⟨type, rfl⟩
  · obtain ⟨memory, offset, read, cells, found, type, inside⟩ := stands.frame.cell stands.machine
      role.scalar resolves addressRole sound.typed
    obtain ⟨held, valueRead, isOf⟩ := stands.frame.value
      (sound.resolves value (List.mem_cons_of_mem _ (List.mem_singleton.mpr rfl))) role
    have stored : View.store ⟨unit, state.machine, state.frame⟩ address value =
        .ok (.write memory offset (held.fit cells.type)) := by
      have plain : View.store ⟨unit, state.machine, state.frame⟩ address value =
          View.address ⟨unit, state.machine, state.frame⟩ address >>= fun place =>
            View.value ⟨unit, state.machine, state.frame⟩ value >>= fun held =>
              View.write ⟨unit, state.machine, state.frame⟩ place.1 place.2 held := by
        cases role <;> rfl
      rw [plain, Evaluation.address_eq read, valueRead]
      show View.write _ memory offset held = _
      simp only [View.write, found, if_pos inside]
    simp only [View.effect, stored, Except.mapError]
    have written : Machine.Conforms unit
        (state.machine.write memory offset (held.fit cells.type)) ∧ _ :=
      stands.machine.write fun other otherFound => by
        rw [found] at otherFound
        cases otherFound
        exact type.symm ▸ Value.isOf_fit isOf cells.type
    exact stands.go written (advanced.keeps written.2)
  · obtain ⟨memory, offset, read⟩ := stands.frame.address stands.machine resolves addressRole
    have stored : View.store ⟨unit, state.machine, state.frame⟩ address (.zeros type) =
        .ok (.clear memory) := by
      rw [View.store, Evaluation.address_eq read]
      rfl
    simp only [View.effect, stored, Except.mapError]
    have cleared := stands.machine.clear memory
    exact stands.go cleared (advanced.keeps cleared.2)

theorem execute_elementAddress {out : IR.Register} {base index : Operand}
    (stands : state.Stands unit final function block marks)
    (isNext : block.code[state.frame.index]? = some (.elementAddress out base index)) :
    (state.execute unit (.elementAddress out base index)).Conforms unit final := by
  obtain ⟨sound, ⟨slot, rfl⟩, baseRole, indexRole⟩ := stands.frame.next isNext
  obtain ⟨element, length, isArray, outType, indexType⟩ := sound.typed
  obtain ⟨memory, cells, read, found, stores, isPointer⟩ := stands.frame.base stands.machine
    (sound.resolves _ (List.mem_cons_self ..)) baseRole
  rw [isPointer] at isArray
  injection isArray with isArray
  rw [isArray] at stores
  obtain ⟨held, indexRead, isOf⟩ := stands.frame.value
    (sound.resolves index (List.mem_cons_of_mem _ (List.mem_singleton.mpr rfl))) indexRole
  rw [indexType] at isOf
  obtain ⟨number, rfl⟩ := Value.isOf_int isOf
  have computed : View.elementAddress ⟨unit, state.machine, state.frame⟩ (.slot slot) index =
      if ((0 : Nat) : Int) + number.toInt < 0 ∨
          (cells.cells.size : Int) ≤ ((0 : Nat) : Int) + number.toInt then
        .error (.indexRange number.toInt cells.cells.size)
      else .ok (.address memory (((0 : Nat) : Int) + number.toInt).toNat) := by
    rw [View.elementAddress, Evaluation.address_eq read, Evaluation.integer_eq indexRead]
    show ite (_ ∨ (((((state.machine.memories[memory]?).map _).getD 0 : Nat) : Int) ≤ _)) _ _ = _
    rw [found]
    rfl
  unfold State.execute
  rw [View.effect, computed]
  by_cases outside : ((0 : Nat) : Int) + number.toInt < 0 ∨
      (cells.cells.size : Int) ≤ ((0 : Nat) : Int) + number.toInt
  · rw [if_pos outside]
    exact stands.failHere rfl
  · rw [if_neg outside]
    refine stands.stay (stands.frame.assign isNext rfl ?_)
    refine ⟨element, memory, _, outType, stands.frame.assigned isNext rfl _, cells, found, stores,
      ?_⟩
    omega

theorem execute_call {out : Option IR.Register} {callee : Nat} {args : List Operand}
    (executable : unit.Executable) (stands : state.Stands unit final function block marks)
    (isNext : block.code[state.frame.index]? = some (.call out callee args)) :
    (state.execute unit (.call out callee args)).Conforms unit final := by
  obtain ⟨sound, called, found, formatted, values⟩ := stands.frame.next isNext
  obtain ⟨other, otherFound, _, outType⟩ := sound.typed
  rw [found] at otherFound
  cases otherFound
  have effect {values : List Value}
      (read : View.values ⟨unit, state.machine, state.frame⟩ 0 args = .ok values) :
      state.execute unit (.call out callee args) = state.call unit out callee values := by
    unfold State.execute
    simp only [View.effect, read]
    rfl
  cases isExternal : called.external with
  | true =>
    obtain ⟨held, later, number, read, served, kept⟩ :=
      stands.frame.formatted stands.machine sound.resolves (formatted isExternal)
    rw [effect read, State.call]
    simp only [found, isExternal, if_true, served]
    refine stands.go kept (Caller.resume_conforms (stands.frame.keeps kept.2) isNext ?_)
    rw [outType, (executable.served callee called found isExternal).2]
    rfl
  | false =>
    obtain ⟨types, roles⟩ := values isExternal
    obtain ⟨held, reads, areOf⟩ := stands.frame.values sound.resolves roles
    have fitting : List.Forall₂ (fun type value => value.isOf type = true)
        called.signature.params held := by
      rw [← types, List.forall₂_map_left_iff]
      exact areOf
    rw [effect (View.values_eq reads 0), State.call]
    simp only [found, isExternal]
    rcases enter_conforms executable found isExternal fitting state.machine.depth with
      ⟨trap, traps, expected⟩ | ⟨enters, entry, entryMarks, entered⟩
    · simp only [traps]
      exact stands.failHere expected
    · simp only [enters]
      have kept : state.machine.enter.Conforms unit ∧ state.machine.Keeps state.machine.enter :=
        stands.machine.of_memories rfl
      refine ⟨called, entry, entryMarks, kept.1, entered _, ?_⟩
      rw [← outType]
      have waits : block.code[(Caller.mk state.frame out).frame.index]? =
        some (.call (Caller.mk state.frame out).out callee args) := isNext
      exact .caller (stands.frame.keeps kept.2) waits (stands.awaits.keeps kept.2)

/-- Executing the next instruction of a function. -/
theorem execute (executable : unit.Executable)
    (stands : state.Stands unit final function block marks)
    (isNext : block.code[state.frame.index]? = some instr) :
    (state.execute unit instr).Conforms unit final := by
  obtain ⟨sound, guarded⟩ := stands.frame.next isNext
  have reads {operand : Operand} (listed : operand ∈ instr.operands)
      (role : operand.IsValue function) :
      View.Reads ⟨unit, state.machine, state.frame⟩ operand :=
    stands.frame.value (sound.resolves operand listed) role
  cases instr with
  | alloca slot => exact stands.execute_alloca executable isNext
  | load out address => exact stands.execute_load isNext
  | store address value => exact stands.execute_store isNext
  | elementAddress out base index => exact stands.execute_elementAddress isNext
  | binary out op left right =>
    exact stands.execute_assigning isNext rfl (binary_yields (reads (by simp [IR.Instr.operands])
      guarded.1) (reads (by simp [IR.Instr.operands]) guarded.2) guarded.1.scalar sound.typed) rfl
  | compare out predicate left right =>
    exact stands.execute_assigning isNext rfl (compare_yields (reads (by simp [IR.Instr.operands])
      guarded.1) (reads (by simp [IR.Instr.operands]) guarded.2) guarded.1.scalar sound.typed) rfl
  | convert out cast operand =>
    have role : operand.IsValue function := guarded
    exact stands.execute_assigning isNext rfl
      (convert_yields (reads (List.mem_singleton.mpr rfl) role) role.scalar sound.typed) rfl
  | call out callee args => exact stands.execute_call executable isNext

/-- Going where the end of the block says. -/
theorem terminate {terminator : IR.Terminator}
    (stands : state.Stands unit final function block marks)
    (complete : block.code[state.frame.index]? = none)
    (ended : block.terminator = some terminator) :
    (state.terminate unit terminator).Conforms unit final := by
  have whole : block.code.toList.take state.frame.index = block.code.toList :=
    List.take_of_length_le (Array.getElem?_eq_none_iff.mp complete)
  have sound := (stands.frame.code.sound.coded _ block stands.frame.here).ending terminator ended
  have guarded := stands.frame.code.guarded.ending _ block terminator stands.frame.here ended
  have reads {operand : Operand} (listed : operand ∈ terminator.operands) :
      View.Reads ⟨unit, state.machine, state.frame⟩ operand :=
    stands.frame.value (whole.symm ▸ sound.resolves operand listed) (guarded.values operand listed)
  have jumps {target : Nat} (listed : target ∈ terminator.targets) :
      (Progress.running { state with frame := state.frame.jump target }).Conforms unit final := by
    obtain ⟨inside, marked⟩ := guarded.targets target listed
    refine stands.stay (stands.frame.jump (Array.getElem?_eq_getElem inside)
      (IR.Function.mem_successors.mpr ⟨block, terminator, stands.frame.here, ended, listed⟩)
      fun slot isMarked => stands.frame.reserved slot ?_)
    rw [whole]
    exact marked slot isMarked
  unfold State.terminate
  cases terminator with
  | branch target => exact jumps (List.mem_singleton.mpr rfl)
  | branchIf condition consequent alternative =>
    obtain ⟨number, read⟩ := (reads (List.mem_singleton.mpr rfl)).integer sound.typed
    simp only [Evaluation.integer_eq read]
    refine jumps ?_
    show ite _ _ _ ∈ [consequent, alternative]
    split <;> simp
  | ret value =>
    have typed : value.map Operand.type = function.signature.result? := sound.typed
    cases value with
    | none => exact stands.return (typed ▸ rfl)
    | some operand =>
      obtain ⟨value, read, isOf⟩ := reads (List.mem_singleton.mpr rfl)
      simp only [read]
      exact stands.return (typed ▸ isOf)
  | unreachable =>
    exact (stands.frame.code.complete.avoids _ block stands.frame.path stands.frame.here ended).elim

/-- Counting a step changes nothing else. -/
theorem tick (stands : state.Stands unit final function block marks) :
    state.tick.Stands unit final function block marks := by
  have kept : state.tick.machine.Conforms unit ∧ state.machine.Keeps state.tick.machine :=
    stands.machine.of_memories rfl
  exact ⟨kept.1, stands.frame.keeps kept.2, stands.awaits.keeps kept.2⟩

/-- One step. -/
theorem step (executable : unit.Executable) (limits : Limits)
    (stands : state.Stands unit final function block marks) :
    (state.step unit limits).Conforms unit final := by
  have next : (∃ instr, block.code[state.frame.index]? = some instr ∧
        state.frame.next unit = .instruction instr) ∨
      ∃ terminator, block.code[state.frame.index]? = none ∧
        block.terminator = some terminator ∧ state.frame.next unit = .terminator terminator := by
    unfold Frame.next
    simp only [stands.frame.found, Option.bind_some, stands.frame.here]
    cases block.code[state.frame.index]? with
    | some instr => exact .inl ⟨instr, rfl, rfl⟩
    | none =>
      obtain ⟨terminator, ended⟩ := Option.isSome_iff_exists.mp
        (stands.frame.code.complete.ended _ block stands.frame.here)
      exact .inr ⟨terminator, rfl, ended, by rw [ended]⟩
  cases trapped : limits.trap? (state.machine.steps + 1) with
  | some trap =>
    have expected : trap.isExpected = true := by
      unfold Limits.trap? at trapped
      split at trapped
      · cases trapped
        rfl
      · split at trapped <;> cases trapped
        rfl
    have something : state.frame.next unit ≠ .nothing := by
      rcases next with ⟨instr, _, isNext⟩ | ⟨terminator, _, _, isNext⟩ <;> simp [isNext]
    rw [State.step_trapped something trapped]
    exact stands.tick.failHere expected
  | none =>
    rw [State.step_untrapped trapped]
    rcases next with ⟨instr, there, isNext⟩ | ⟨terminator, complete, ended, isNext⟩
    · rw [State.step_instruction isNext]
      exact stands.tick.execute executable there
    · rw [State.step_terminator isNext]
      exact stands.tick.terminate complete ended

end State.Stands

/-- As many steps as one likes. -/
theorem Progress.Conforms.advance {progress : Progress} (executable : unit.Executable)
    (limits : Limits) (conforms : progress.Conforms unit final) (fuel : Nat) :
    (progress.advance unit limits fuel).Conforms unit final := by
  induction fuel generalizing progress with
  | zero =>
    rw [Progress.advance_zero]
    exact conforms
  | succ fuel rest =>
    cases progress with
    | running state =>
      obtain ⟨_, _, _, stands⟩ := conforms
      exact rest (stands.step executable limits)
    | finished machine result => exact conforms
    | failed machine failure => exact conforms

/-- A call from outside with arguments of the right types. -/
theorem start_conforms {callee : Nat} (executable : unit.Executable)
    (conforms : machine.Conforms unit) (found : unit.functions[callee]? = some function)
    (defined : function.external = false)
    (areOf : List.Forall₂ (fun type value => value.isOf type = true) function.signature.params
      args) : (start unit machine callee args).Conforms unit function.signature.result? := by
  unfold start
  simp only [found, defined]
  rcases enter_conforms executable found defined areOf machine.depth with
    ⟨trap, traps, expected⟩ | ⟨enters, entry, marks, entered⟩
  · simp only [traps]
    exact ⟨conforms, expected⟩
  · simp only [enters]
    have kept : machine.enter.Conforms unit ∧ machine.Keeps machine.enter :=
      conforms.of_memories rfl
    exact ⟨function, entry, marks, kept.1, entered _, .outermost⟩

end Steps

/-! ### Functions served from outside -/

/-- The reasons for which a call fails whose format does not suit its arguments. -/
def Trap.isFormat : Trap → Bool
  | .printNoFormat | .printFormatSort _ | .printMissingArgument _ | .printNotCharacter _
  | .printVerb _ | .scanCount _ | .scanFormatSort _ | .scanTargetSort _ | .scanFormat _ => true
  | _ => false

/-- Values that can be given from outside: addresses are not among them. -/
def Value.isPlain : Value → Bool
  | .nil | .int _ | .float _ | .text _ => true
  | .address .. | .function _ => false

theorem Value.isPlain_of_isOf (isOf : value.isOf type = true) : value.isPlain = true := by
  cases value with
  | address | function => cases isOf
  | _ => rfl

theorem argumentText_error {verb : UInt8} (failed : Print.argumentText verb value = .error trap) :
    trap.isFormat = true := by
  unfold Print.argumentText at failed
  repeat' split at failed
  all_goals cases failed
  all_goals rfl

theorem render_error (failed : Print.render format args = .error trap) : trap.isFormat = true := by
  have peel {Result Next : Type} {step : Except Trap Result} {next : Result → Except Trap Next}
      (failed : step >>= next = .error trap) :
      step = .error trap ∨ ∃ result, next result = .error trap := by
    cases step with
    | error other => exact .inl (by cases failed; rfl)
    | ok result => exact .inr ⟨result, failed⟩
  fun_induction Print.render format args with
  | case1 | case2 => cases failed
  | case3 first verb rest args _ step | case4 first rest args _ step =>
    rcases peel failed with inner | ⟨_, returned⟩
    · exact step inner
    · cases returned
  | case5 =>
    cases failed
    rfl
  | case6 first verb rest value args _ _ step =>
    rcases peel failed with inner | ⟨_, failed⟩
    · exact argumentText_error inner
    · rcases peel failed with inner | ⟨_, returned⟩
      · exact step inner
      · cases returned

/-- A call from outside of a served function yields an integer or complains about its format. -/
theorem externalCall_outside {name : Bytes} (served : name ∈ Lowering.servedNames)
    (plain : ∀ value ∈ args, value.isPlain = true) :
    ∃ later outcome, externalCall name machine args = (later, outcome) ∧
      later.memories = machine.memories ∧
      ((∃ number, outcome = .ok (.int number)) ∨
        ∃ trap, outcome = .error trap ∧ trap.isFormat = true) := by
  have fails {later : Machine} {trap : Trap} (memories : later.memories = machine.memories)
      (isFormat : trap.isFormat = true) : ∃ next outcome,
        ((later, .error trap) : Machine × Except Trap Value) = (next, outcome) ∧
        next.memories = machine.memories ∧ ((∃ number, outcome = .ok (.int number)) ∨
          ∃ trap, outcome = .error trap ∧ trap.isFormat = true) :=
    ⟨later, _, rfl, memories, .inr ⟨trap, rfl, isFormat⟩⟩
  rcases List.mem_cons.mp served with rfl | served
  · show ∃ later outcome, printCall machine args = (later, outcome) ∧ _
    unfold printCall
    cases printed : Print.output args with
    | ok text => exact ⟨_, _, rfl, rfl, .inl ⟨_, rfl⟩⟩
    | error trap =>
      refine fails rfl ?_
      unfold Print.output at printed
      split at printed
      · cases printed
        rfl
      · exact render_error printed
      · cases printed
        rfl
  · obtain rfl := List.mem_singleton.mp served
    show ∃ later outcome, scanCall machine args = (later, outcome) ∧ _
    unfold scanCall
    split
    · have isPlain := plain _ (List.mem_cons_of_mem _ (List.mem_singleton.mpr rfl))
      cases isPlain
    · exact fails rfl rfl
    · exact fails rfl rfl
    · exact fails rfl rfl

/-! ### Calls from outside -/

end Machine

/-- Arguments that match the parameters of a function. Functions that are served from outside take
further ones. -/
def IR.Function.Admits (function : IR.Function) (args : List Machine.Value) : Prop :=
  ∃ types, (if function.external then function.signature.params <+: types
      else types = function.signature.params) ∧
    List.Forall₂ (fun type value => value.isOf type = true) types args

namespace Machine

/-- Whether the ending of a call is one that may be: a result of its type, or a failure that may
happen. -/
def Ending.isSafe (function : IR.Function) (ending : Ending) : Bool :=
  match ending.result with
  | .ok result => result.isResult function.signature.result?
  | .error failure =>
    failure.cause.isExpected || (function.external && failure.cause.isFormat)

/-- A machine in service: it has been made for a module, and functions have been called on it. -/
inductive InService (unit : IR.Module) : Machine → Prop
  | made {input : Bytes} {machine : Machine} (made : Machine.new? unit input = some machine) :
      InService unit machine
  | called {machine : Machine} {callee : Nat} {function : IR.Function} {args : List Value}
      {limits : Limits} {ending : Ending} (before : InService unit machine)
      (found : unit.functions[callee]? = some function) (admits : function.Admits args)
      (ends : EndsWith unit limits (start unit machine callee args) ending) :
      InService unit ending.machine

section Service

variable {unit : IR.Module} {machine : Machine} {callee : Nat} {function : IR.Function}
  {args : List Value} {limits : Limits} {ending : Ending}

/-- What has ended does not go on. -/
theorem EndsWith.eq_of_ended {progress : Progress} {other : Ending}
    (ends : EndsWith unit limits progress ending) (ended : progress.ending? = some other) :
    ending = other := by
  obtain ⟨fuel, isEnding⟩ := ends
  cases progress with
  | running state => cases ended
  | finished machine result | failed machine result =>
    cases ended
    cases fuel <;> cases isEnding <;> rfl

theorem Progress.ending_conforms {final : Option Ty} {progress : Progress}
    (conforms : progress.Conforms unit final) (ended : progress.ending? = some ending) :
    ending.machine.Conforms unit ∧
      ((∃ result, ending.result = .ok result ∧ result.isResult final = true) ∨
        ∃ failure, ending.result = .error failure ∧ failure.cause.isExpected = true) := by
  cases progress with
  | running state => cases ended
  | finished machine result =>
    cases ended
    exact ⟨conforms.1, .inl ⟨result, rfl, conforms.2⟩⟩
  | failed machine failure =>
    cases ended
    exact ⟨conforms.1, .inr ⟨failure, rfl, conforms.2⟩⟩

/-- A call on a conforming machine ends as it may, with a conforming machine. -/
theorem call_conforms (executable : unit.Executable) (conforms : machine.Conforms unit)
    (found : unit.functions[callee]? = some function) (admits : function.Admits args)
    (ends : EndsWith unit limits (start unit machine callee args) ending) :
    ending.machine.Conforms unit ∧ ending.isSafe function = true := by
  obtain ⟨types, shape, areOf⟩ := admits
  cases isExternal : function.external with
  | true =>
    have plain : ∀ value ∈ args, value.isPlain = true := by
      intro value member
      obtain ⟨place, there⟩ := List.getElem?_of_mem member
      obtain ⟨_, _, isOf⟩ := forall₂_getElem? areOf.flip there
      exact Value.isPlain_of_isOf isOf
    obtain ⟨served, signature⟩ := executable.served callee function found isExternal
    obtain ⟨later, outcome, called, memories, outcomes⟩ := externalCall_outside served plain
    have laterConforms : later.Conforms unit := (conforms.of_memories memories).1
    rcases outcomes with ⟨number, rfl⟩ | ⟨trap, rfl, isFormat⟩
    · have started : start unit machine callee args = .finished later (.int number) := by
        unfold start
        simp only [found, isExternal, if_true, called]
      rw [started] at ends
      obtain rfl := ends.eq_of_ended rfl
      refine ⟨laterConforms, ?_⟩
      simp only [Ending.isSafe, signature]
      rfl
    · have started : start unit machine callee args = .failed later (.bare trap) := by
        unfold start
        simp only [found, isExternal, if_true, called]
      rw [started] at ends
      obtain rfl := ends.eq_of_ended rfl
      refine ⟨laterConforms, ?_⟩
      simp only [Ending.isSafe, isExternal, Failure.bare, isFormat, Bool.and_self, Bool.or_true]
  | false =>
    rw [isExternal] at shape
    cases shape
    obtain ⟨fuel, ended⟩ := ends
    obtain ⟨machineConforms, outcome⟩ := Progress.ending_conforms
      ((start_conforms executable conforms found isExternal areOf).advance executable limits fuel)
      ended
    refine ⟨machineConforms, ?_⟩
    unfold Ending.isSafe
    rcases outcome with ⟨result, isOk, isResult⟩ | ⟨failure, isError, expected⟩
    · simp only [isOk, isResult]
    · simp only [isError, expected, Bool.true_or]

theorem InService.conforms (executable : unit.Executable) (inService : InService unit machine) :
    machine.Conforms unit := by
  induction inService with
  | made made =>
    obtain ⟨machine, madeToo, conforms⟩ := Machine.new?_conforms executable.allocatable _
    rw [madeToo] at made
    cases made
    exact conforms
  | called _ found admits ends conforms =>
    exact (call_conforms executable conforms found admits ends).1

/-- A step under a limit ends the run or is counted towards the limit. -/
theorem State.step_limited (limited : limits.maximum ≠ 0) (state : State) :
    (∃ ending, EndsWith unit limits (.running state) ending) ∨
      (state.machine.steps + 1 : Int) ≤ limits.maximum ∧
        (state.step unit limits).machine.steps = state.machine.steps + 1 := by
  have fails {later : Machine} {failure : MachineFailure}
      (stepped : state.step unit limits = .failed later failure) :
      ∃ ending, EndsWith unit limits (.running state) ending := by
    refine ⟨⟨later, .error failure⟩, 1, ?_⟩
    rw [Progress.advance_running, Progress.advance_zero, stepped]
    rfl
  cases state.counted unit with
  | fallsOff failure falls => exact .inl (fails (falls limits))
  | counts traps passes continues =>
    cases trapped : limits.trap? (state.machine.steps + 1) with
    | some trap =>
      obtain ⟨failure, _, stepped⟩ := traps limits trap trapped
      exact .inl (fails stepped)
    | none =>
      refine .inr ⟨?_, ?_⟩
      · by_contra passed
        rw [Limits.trap?, if_pos ⟨limited, by omega⟩] at trapped
        cases trapped
      · rw [passes limits trapped]
        exact continues.steps

/-- A run under a limit on its steps ends, whatever is left of the limit. -/
theorem ends_of_left (limited : limits.maximum ≠ 0) (left : Nat) (progress : Progress)
    (near : limits.maximum ≤ progress.machine.steps + left) :
    ∃ ending, EndsWith unit limits progress ending := by
  have ended {progress : Progress} {ending : Ending} (ended : progress.ending? = some ending) :
      ∃ ending, EndsWith unit limits progress ending :=
    ⟨ending, 0, by rw [Progress.advance_zero]; exact ended⟩
  induction left generalizing progress with
  | zero =>
    cases progress with
    | running state =>
      rcases state.step_limited limited with ends | ⟨room, _⟩
      · exact ends
      · have near : limits.maximum ≤ state.machine.steps + (0 : Nat) := near
        omega
    | finished machine result => exact ended rfl
    | failed machine failure => exact ended rfl
  | succ left rest =>
    cases progress with
    | running state =>
      rcases state.step_limited limited with ends | ⟨_, counted⟩
      · exact ends
      · obtain ⟨ending, ends⟩ := rest (state.step unit limits) (by
          have near : limits.maximum ≤ state.machine.steps + (left + 1 : Nat) := near
          rw [counted]
          push_cast at near ⊢
          omega)
        exact ⟨ending, ends.step⟩
    | finished machine result => exact ended rfl
    | failed machine failure => exact ended rfl

end Service

end Machine

/-! ### Compiled modules -/

namespace Lowering

theorem compile_executable {name : Bytes} {program : Program} {unit : IR.Module}
    (compiled : compile name program = .ok unit) (allocatable : unit.isAllocatable = true) :
    unit.Executable := by
  obtain ⟨_, workspace, lowered, rfl⟩ := compile_eq_ok.mp compiled
  obtain ⟨sound, complete⟩ := lowerProgram_sound lowered
  refine ⟨fun place function found defined => ?_, sound.served, allocatable⟩
  have settled {property : Prop} (either : function.external = true ∨ property) : property := by
    rcases either with isExternal | holds
    · rw [defined] at isExternal
      cases isExternal
    · exact holds
  obtain ⟨marks, empty, guarded⟩ := settled (lowerProgram_secure lowered place function found)
  exact ⟨marks, empty, (sound.defined place function found defined).1,
    settled (complete place function found), guarded⟩

open Machine in
/-- Compiled programs do not go wrong. If the arrays of a program can be allocated, machines can be
made for it with any input. Whatever has been called on such a machine, a call of any function of
the module, with arguments that match its parameters and under any limits, yields a value of the
type of its result, or nothing if it has none, or it fails because a limit was reached, a divisor
was zero, an index was outside of its array or too many functions were active. Only the functions
that are served from outside may also complain about their formats. A call ends if the number of
steps is limited. -/
theorem compile_safe {name : Bytes} {program : Program} {unit : IR.Module}
    (compiled : compile name program = .ok unit) (allocatable : unit.isAllocatable = true) :
    (∀ input, ∃ machine, Machine.new? unit input = some machine) ∧
    ∀ (machine : Machine) (callee : Nat) (function : IR.Function) (args : List Value)
      (limits : Limits), InService unit machine → unit.functions[callee]? = some function →
      function.Admits args →
      (∀ ending, EndsWith unit limits (start unit machine callee args) ending →
        ending.isSafe function = true) ∧
      (limits.maximum ≠ 0 →
        ∃ ending, EndsWith unit limits (start unit machine callee args) ending) := by
  have executable := compile_executable compiled allocatable
  refine ⟨fun input => ?_, fun machine callee function args limits inService found admits =>
    ⟨fun ending ends => ?_, fun limited => ?_⟩⟩
  · obtain ⟨machine, made, _⟩ := Machine.new?_conforms allocatable input
    exact ⟨machine, made⟩
  · exact (call_conforms executable (inService.conforms executable) found admits ends).2
  · exact ends_of_left limited limits.maximum.toNat _ (by omega)

/-- A function that divides and keeps the quotient in an array of four elements. -/
def shares : Program :=
  [.function 1 "share" [⟨"total", "INTEGER"⟩, ⟨"parts", "INTEGER"⟩] "INTEGER"
      [.arrayDeclaration 2 "heaps" "INTEGER" 0 3,
      .arrayAssignment 3 "heaps" (.identifier 3 "parts")
        (.binary 3 "/" (.identifier 3 "total") (.identifier 3 "parts")),
      .return 4 (.arrayAccess 4 "heaps" (.identifier 4 "parts"))],
    .output 5 [.call 5 "share" [.integer 5 6, .integer 5 2]]]

open Machine in
theorem compile_safe_shares :
    ∃ unit machine callee function, compile "shares" shares = .ok unit ∧
      unit.isAllocatable = true ∧ Machine.new? unit [] = some machine ∧
      unit.functions[callee]? = some function ∧ function.Admits [.int 6, .int 0] ∧
      ∃ ending, EndsWith unit { maximum := 100 } (start unit machine callee [.int 6, .int 0])
        ending ∧ ending.isSafe function = true := by
  have checks : ((compile "shares" shares).toOption.any fun unit => unit.isAllocatable &&
      (unit.functions[1]?).any fun function =>
        function.external = false ∧ function.signature.params = [.i32, .i32]) = true := by
    decide +kernel
  cases compiled : compile "shares" shares with
  | error failure =>
    rw [compiled] at checks
    cases checks
  | ok unit =>
    rw [compiled] at checks
    obtain ⟨allocatable, any⟩ := Bool.and_eq_true_iff.mp checks
    obtain ⟨function, found, holds⟩ := (Option.any_eq_true ..).mp any
    obtain ⟨defined, params⟩ := of_decide_eq_true holds
    obtain ⟨makes, calls⟩ := compile_safe compiled allocatable
    obtain ⟨machine, made⟩ := makes []
    have admits : function.Admits [.int 6, .int 0] :=
      ⟨[.i32, .i32], by rw [defined, params]; rfl, .cons rfl (.cons rfl .nil)⟩
    obtain ⟨safe, ends⟩ :=
      calls machine 1 function [.int 6, .int 0] { maximum := 100 } (.made made) found admits
    obtain ⟨ending, isEnding⟩ := ends (by decide)
    exact ⟨unit, machine, 1, function, rfl, allocatable, made, found, admits, ending, isEnding,
      safe ending isEnding⟩

open Machine in
/-- A served function that is called from outside can complain about its format, and an array of
less than 2^62 elements can be too long for any memory. -/
theorem unsuited_format_and_long_array :
    (∃ unit machine callee function ending failure,
      compile "out" [.output 1 [.integer 1 1]] = .ok unit ∧ unit.isAllocatable = true ∧
      Machine.new? unit [] = some machine ∧ unit.functions[callee]? = some function ∧
      function.Admits [.text "%d"] ∧
      EndsWith unit {} (start unit machine callee [.text "%d"]) ending ∧
      ending.result = .error failure ∧ failure.cause = .printMissingArgument (Bytes.code 'd') ∧
      failure.cause.isExpected = false) ∧
    ∃ unit, compile "long" [.arrayDeclaration 1 "a" "INTEGER" 1 0x200000000000] = .ok unit ∧
      unit.globals.toList.map IR.Variable.type = [.array .i32 0x200000000000] ∧
      (0x200000000000 : Int64) < 0x4000000000000000 ∧ ∀ input, Machine.new? unit input = none := by
  constructor
  · have checks : ((compile "out" [.output 1 [.integer 1 1]]).toOption.any fun unit =>
        unit.isAllocatable && (unit.functions[1]?).any fun function =>
          function.external = true ∧ function.name = ("printf" : Bytes) ∧
            function.signature.params = [.bytes]) = true := by decide +kernel
    cases compiled : compile "out" [.output 1 [.integer 1 1]] with
    | error failure =>
      rw [compiled] at checks
      cases checks
    | ok unit =>
      rw [compiled] at checks
      obtain ⟨allocatable, any⟩ := Bool.and_eq_true_iff.mp checks
      obtain ⟨function, found, holds⟩ := (Option.any_eq_true ..).mp any
      obtain ⟨served, isPrintf, params⟩ := of_decide_eq_true holds
      obtain ⟨machine, made, _⟩ := Machine.new?_conforms allocatable []
      have admits : function.Admits [.text "%d"] :=
        ⟨[.bytes], by rw [served, params, if_pos rfl], .cons rfl .nil⟩
      have started : start unit machine 1 [.text "%d"] =
          .failed machine (.bare (.printMissingArgument (Bytes.code 'd'))) := by
        unfold start
        simp only [found, served, if_true, isPrintf]
        rfl
      refine ⟨unit, machine, 1, function, ⟨machine, .error (.bare _)⟩, .bare _, rfl, allocatable,
        made, found, admits, ⟨0, ?_⟩, rfl, rfl, rfl⟩
      rw [started]
      rfl
  · have checks : ((compile "long"
        [.arrayDeclaration 1 "a" "INTEGER" 1 0x200000000000]).toOption.any fun unit =>
          unit.globals.toList.map IR.Variable.type = [.array .i32 0x200000000000]) = true := by
      decide +kernel
    cases compiled : compile "long" [.arrayDeclaration 1 "a" "INTEGER" 1 0x200000000000] with
    | error failure =>
      rw [compiled] at checks
      cases checks
    | ok unit =>
      rw [compiled] at checks
      have types := of_decide_eq_true checks
      refine ⟨unit, rfl, types, by decide, fun input => ?_⟩
      obtain ⟨global, rest, isGlobal, type, _⟩ := List.map_eq_cons_iff.mp types
      have unmade : Memory.new? global.type = none := by
        rw [type]
        rfl
      rw [Machine.new?, Array.mapM_eq_mapM_toList, isGlobal, List.mapM_cons, unmade]
      rfl

end Lowering

end Pascaline
