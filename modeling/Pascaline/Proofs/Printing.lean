/-
Output prints what it is given. An output is lowered to one call, with a format that has a
conversion for each argument and with the arguments widened as a function with any number of
arguments takes them. The function that prints takes the format apart again. Nothing but the types
of the arguments ties the two together, and this file shows that they stay in step: every argument
is printed by its own conversion, whether it is a constant or was computed before.
-/

import Pascaline.Proofs.Isolation
import Pascaline.Proofs.Occurrences
import Pascaline.Proofs.Registers

namespace Pascaline

open IR (Operand)
open Evaluation (Scalar)

/-! ### Formats -/

namespace Machine.Print

/-- A format that takes exactly the arguments that it is given: it takes no more of them, and it
complains about every shorter list. -/
def Consumes (format : Bytes) (args : List Value) (text : Bytes) : Prop :=
  (∀ more, render format (args ++ more) = .ok text) ∧
    ∀ count < args.length, ∃ verb, render format (args.take count) =
      .error (.printMissingArgument verb)

end Machine.Print

namespace Evaluation

/-- The conversion for a scalar asks for an argument. -/
theorem render_without {scalar : Scalar} {format : Bytes}
    (found : scalar.native.printFormat? = some format) (rest : Bytes) :
    ∃ verb, Machine.Print.render (format ++ rest) [] = .error (.printMissingArgument verb) := by
  have asks {verb : UInt8} (isVerb : verb ≠ Bytes.code '%') :
      ∃ asked, Machine.Print.render (Bytes.code '%' :: verb :: rest) [] =
        .error (.printMissingArgument asked) :=
    ⟨verb, by rw [Machine.Print.render, if_neg (not_not_intro rfl), if_neg isVerb]⟩
  cases scalar <;> cases found <;> exact asks (by decide)

/-- The conversions of some scalars take these scalars and no other arguments. -/
theorem render_consumes {formats : List Bytes} {scalars : List Scalar}
    (found : List.Forall₂ (fun format scalar => scalar.native.printFormat? = some format)
      formats scalars) :
    Machine.Print.Consumes (formats.flatten ++ "\n") (scalars.map Scalar.encode)
      (scalars.flatMap Scalar.printed ++ "\n") := by
  refine ⟨fun more => render_scalars found "\n" "\n" more rfl, ?_⟩
  induction found with
  | nil => exact fun count few => absurd few (Nat.not_lt_zero count)
  | @cons format scalar formats scalars first _ others =>
    intro count few
    rw [List.flatten_cons, List.append_assoc]
    cases count with
    | zero => exact render_without first _
    | succ count =>
      obtain ⟨verb, asks⟩ := others count (Nat.lt_of_succ_lt_succ few)
      refine ⟨verb, ?_⟩
      rw [List.map_cons, List.take_succ_cons, render_scalar first, asks]
      rfl

end Evaluation

/-! ### Arguments as they are passed -/

/-- How an operand is passed to a function that takes any number of arguments: as it is, or as a
constant of 32 bits, or in a register that it has been widened into. -/
inductive IR.Operand.PassedAs (function : IR.Function) : Operand → Operand → Prop
  | same {operand : Operand} : PassedAs function operand operand
  | constant (source : IntType) (value : Int64) :
      PassedAs function (.int source value) (.int .i32 value)
  | widened {operand : Operand} {source : IntType} {out : IR.Register}
      (integer : operand.type = .int source) (narrow : ¬ 32 ≤ source.bits) (type : out.type = .i32)
      (contains : function.Contains (.convert out (Lowering.promoting source) operand)) :
      PassedAs function operand (.reg out)

theorem IR.Operand.PassedAs.mono {function later : IR.Function} {operand passed : Operand}
    (passedAs : operand.PassedAs function passed) (grows : function.Grows later) :
    operand.PassedAs later passed := by
  cases passedAs with
  | same => exact .same
  | constant source value => exact .constant source value
  | widened integer narrow type contains => exact .widened integer narrow type (contains.mono grows)

namespace Machine

/-- What an operand holds when the arguments of a call are read: a scalar of its type. -/
structure View.Shows (view : View) (operand : Operand) (scalar : Scalar) : Prop where
  type : operand.type = scalar.native
  value : view.value operand = .ok scalar.encode

/-- An argument is passed with the value of its operand. If it has been widened, the register still
holds what widening the operand would yield now. -/
theorem Frame.Retains.passed {unit : IR.Module} {function : IR.Function} {block : IR.Block}
    {marks : Nat → Nat → Prop} {machine : Machine} {frame : Frame} {instr : IR.Instr}
    {operand passed : Operand} {scalar : Scalar}
    (retains : frame.Retains unit function block marks machine)
    (isNext : block.code[frame.index]? = some instr) (reads : passed ∈ instr.operands)
    (passedAs : operand.PassedAs function passed)
    (shows : View.Shows ⟨unit, machine, frame⟩ operand scalar) :
    View.value ⟨unit, machine, frame⟩ passed = .ok scalar.encode := by
  cases passedAs with
  | same => exact shows.value
  | constant source value => exact shows.value
  | @widened _ source out integer narrow type contains =>
    have resolves : out ∈ IR.writtenBy (block.code.toList.take frame.index) :=
      ((retains.code.sound.coded _ block retains.here).code _ instr isNext).resolves _ reads
    obtain ⟨writer, executed, isOut⟩ := List.mem_filterMap.mp resolves
    obtain ⟨place, _, found, _⟩ := place_of_mem_take executed
    cases instr_unique retains.code.sound ⟨_, place, block, retains.here, found⟩ contains
      isOut rfl rfl
    obtain ⟨value, held, computed⟩ := retains.computed _ executed
    rw [type, Evaluation.convert_promoted (shows.type.symm.trans integer) narrow shows.type
      shows.value] at computed
    cases computed
    exact congrArg View.present held

end Machine

/-! ### Lowering an output -/

namespace Lowering

open IR (Build Site)

variable {before after : Workspace} {id : Nat} {site : Site} {unit : IR.Module}

theorem promote_passedAs {operand passed : Operand}
    (lowered : build (promote operand) before = .ok passed after)
    (holds : before.builder.Holds id site) :
    ∃ later, after.builder.Holds id later ∧ site.Confined later ∧
      operand.PassedAs later.function passed := by
  obtain ⟨rfl, rfl⟩ := (build_eq_ok ..).mp lowered
  cases type : operand.type with
  | int source =>
    by_cases wide : 32 ≤ source.bits
    · simp only [promote, type, if_pos wide]
      exact ⟨site, holds, .refl _, .same⟩
    · simp only [promote, type, if_neg wide]
      split
      next given value => exact ⟨site, holds, .refl _, .constant _ _⟩
      next =>
        rw [Build.convert, Build.define_eq holds]
        exact ⟨_, holds.place _, .define .., .widened type wide rfl (Site.contains_emit _ _)⟩
  | _ =>
    simp only [promote, type]
    exact ⟨site, holds, .refl _, .same⟩

/-- The operands that the arguments of an output leave, each of which is widened before the next
argument is lowered. -/
inductive Arguments (routine : Routine) : List Node → Workspace → List Operand → Workspace → Prop
  | nil (before : Workspace) : Arguments routine [] before [] before
  | cons {arg : Node} {args : List Node} {operand passed : Operand} {operands : List Operand}
      {before evaluated widened after : Workspace}
      (lowered : lowerNode arg routine before = .ok (some operand) evaluated)
      (promoted : build (promote operand) evaluated = .ok passed widened)
      (rest : Arguments routine args widened operands after) :
      Arguments routine (arg :: args) before (operand :: operands) after

theorem Arguments.unique {routine : Routine} {args : List Node} {operands others : List Operand}
    {left right : Workspace} (first : Arguments routine args before operands left)
    (second : Arguments routine args before others right) : operands = others := by
  induction first generalizing others with
  | nil before =>
    cases second
    rfl
  | cons lowered promoted _ same =>
    cases second with
    | cons loweredToo promotedToo rest =>
      cases lowered.symm.trans loweredToo
      cases promoted.symm.trans promotedToo
      rw [same rest]

theorem lowerPrinted_cases {position : Nat} {value : Operand} {printed : Bytes × Operand}
    (lowered : lowerPrinted position value before = .ok printed after) :
    value.type.printFormat? = some printed.1 ∧
      build (promote value) before = .ok printed.2 after := by
  unfold lowerPrinted at lowered
  cases format : value.type.printFormat? with
  | none => simp [format] at lowered
  | some text =>
    simp only [format, bind_eq_ok, pure_eq_ok] at lowered
    obtain ⟨promoted, _, promotes, rfl, rfl⟩ := lowered
    exact ⟨rfl, promotes⟩

/-- Every printed argument has the conversion for the type of its operand. -/
theorem lowerPrintedList_passed {args : List Node} {routine : Routine} {position : Nat}
    {printed : List (Bytes × Operand)}
    (lowered : lowerPrintedList position args routine before = .ok printed after)
    (holds : before.builder.Holds id site) :
    ∃ operands later, after.builder.Holds id later ∧ site.Confined later ∧
      Arguments routine args before operands after ∧
      List.Forall₂ (fun operand pair => operand.type.printFormat? = some pair.1 ∧
        operand.PassedAs later.function pair.2) operands printed := by
  induction args generalizing position before printed site with
  | nil =>
    simp only [lowerPrintedList, pure_eq_ok] at lowered
    obtain ⟨rfl, rfl⟩ := lowered
    exact ⟨[], site, holds, .refl _, .nil _, .nil⟩
  | cons arg args rest =>
    simp only [lowerPrintedList, bind_eq_ok, within_eq_ok, operand_eq_ok, pure_eq_ok] at lowered
    obtain ⟨operand, evaluated, ⟨_, yields⟩, first, widened, prints, others, _, printedOthers, rfl,
      rfl⟩ := lowered
    obtain ⟨format, promotes⟩ := lowerPrinted_cases prints
    obtain ⟨middle, extended⟩ := lowerNode_extending arg routine yields holds
    obtain ⟨next, nextHolds, confined, passedAs⟩ := promote_passedAs promotes extended.holds
    obtain ⟨operands, later, laterHolds, confinedToo, arguments, arePassed⟩ :=
      rest printedOthers nextHolds
    exact ⟨operand :: operands, later, laterHolds,
      extended.confined.trans (confined.trans confinedToo), .cons yields promotes arguments,
      .cons ⟨format, passedAs.mono confinedToo.grows⟩ arePassed⟩

/-- A call by a format ends with the call, and the format is a byte string of the module. -/
theorem callFormatted_last {service : Service} {formatName format : Bytes} {args : List Operand}
    {made : Unit} (fair : unit.Fair)
    (lowered : callFormatted service formatName format args before = .ok made after)
    (grows : after.builder.unit.Grows unit) (holds : before.builder.Holds id site)
    (coherent : before.Coherent) :
    ∃ callee place out later function, after.builder.Holds id later ∧ site.Confined later ∧
      later.current.code.back? = some (.call (some out) callee (.data place :: args)) ∧
      out.type = .i32 ∧ unit.data[place]? = some ⟨formatName, format⟩ ∧
      unit.functions[callee]? = some function ∧ function.external = true ∧
      function.name = service.name := by
  simp only [callFormatted, bind_eq_ok, build_eq_ok, pure_eq_ok, true_and] at lowered
  obtain ⟨_, _, ⟨rfl, rfl⟩, callee, asked, asks, _, _, ⟨rfl, rfl⟩, rfl⟩ := lowered
  obtain ⟨_, named, -⟩ := Build.Straight.string before.builder id site holds
  have written := external_written asks (Build.string_holds holds formatName format)
  obtain ⟨_, called, -⟩ := Build.Straight.call asked.builder id site written.holds
  have laterGrows := called.unit.trans grows
  obtain ⟨-, declared⟩ := external_declared asks (coherent.mono named.unit rfl)
  obtain ⟨function, found, isNamed, isExternal, signature⟩ := declared.found (laterGrows.fair fair)
  obtain ⟨grown, grownFound, functionGrows⟩ := laterGrows.functions _ _ found
  refine ⟨_, _, site.nextRegister function.signature.result, _, grown,
    Build.call_holds written.holds found (by rw [signature]; rfl) _, .define .., ?_, ?_,
    (written.builder.unit.trans laterGrows).data _ _ Array.getElem?_push_size, grownFound,
    functionGrows.external.trans isExternal, functionGrows.name.trans isNamed⟩
  · show (site.takeRegister.landing.push _).current.code.back? = _
    rw [Site.push_current]
    exact Array.back?_push
  · show function.signature.result = _
    rw [signature]
    rfl

/-- An output as it stands in a module: a call at the end of its code, of the function that prints,
with the conversions for its operands as the format and the operands as they are passed. -/
structure Printout (unit : IR.Module) (operands : List Operand) where
  passed : List Operand
  formats : List Bytes
  place : Nat
  callee : Nat
  out : IR.Register
  printer : IR.Function
  formatted : List.Forall₂ (fun operand format => operand.type.printFormat? = some format)
    operands formats
  datum : unit.data[place]? = some ⟨".fmt", formats.flatten ++ "\n"⟩
  found : unit.functions[callee]? = some printer
  isExternal : printer.external = true
  isNamed : printer.name = ("printf" : Bytes)
  type : out.type = .i32

/-- The call of the output. -/
def Printout.call {operands : List Operand} (printout : Printout unit operands) : IR.Instr :=
  .call (some printout.out) printout.callee (.data printout.place :: printout.passed)

theorem Occurrence.printout {position : Int} {args : List Node} (fair : unit.Fair)
    (occurrence : Occurrence unit (.output position args)) :
    ∃ operands middle, Arguments occurrence.routine args occurrence.before operands middle ∧
      ∃ printout : Printout unit operands, ∀ frame, occurrence.EndsAt frame →
        frame.next unit = .instruction printout.call ∧
        ∃ function, unit.functions[frame.function]? = some function ∧
          List.Forall₂ (fun operand passed => operand.PassedAs function passed)
            operands printout.passed := by
  obtain ⟨id, site, holds⟩ := IR.Builder.exists_holds occurrence.placed
  have steps := occurrence.lowered
  simp only [lowerNode, statement_eq_ok, bind_eq_ok] at steps
  obtain ⟨⟨printed, middle, prints, calls⟩, _⟩ := steps
  obtain ⟨operands, inner, innerHolds, _, arguments, passed⟩ := lowerPrintedList_passed prints holds
  obtain ⟨_, written⟩ :=
    Straight.lowerPrintedList (fun arg _ => operand_straight arg _) prints holds
  obtain ⟨callee, place, out, later, printer, laterHolds, confined, isLast, type, datum, found,
    isExternal, isNamed⟩ :=
      callFormatted_last fair calls occurrence.grows innerHolds
        (written.coherent occurrence.coherent)
  refine ⟨operands, middle, arguments, ⟨printed.map Prod.snd, printed.map Prod.fst, place, callee,
    out, printer, List.forall₂_map_right_iff.mpr (passed.imp fun _ _ both => both.1),
    by rw [datum, List.flatMap_def], found, isExternal, isNamed, type⟩, fun frame ends => ?_⟩
  obtain ⟨isNext, function, isFunction, grows⟩ := ends.next laterHolds isLast
  exact ⟨isNext, function, isFunction, List.forall₂_map_right_iff.mpr
    (passed.imp fun _ _ both => both.2.mono (confined.grows.trans grows))⟩

end Lowering

/-! ### Executing an output -/

/-- What an output prints: its arguments one behind the other, and a line end. -/
def Evaluation.outputText (scalars : List Scalar) : Bytes :=
  scalars.flatMap Scalar.printed ++ "\n"

namespace Machine

open Lowering (Occurrence Printout Arguments)

variable {unit : IR.Module} {state : State} {operands : List Operand} {scalars : List Scalar}

/-- Operands are not read from memories. -/
theorem View.value_machine (unit : IR.Module) (machine other : Machine) (frame : Frame)
    (operand : Operand) : View.value ⟨unit, machine, frame⟩ operand =
      View.value ⟨unit, other, frame⟩ operand := by
  cases operand with
  | slot slot => cases slot with | mk id storage type => cases storage <;> rfl
  | _ => rfl

variable {function : IR.Function} {block : IR.Block} {marks : Nat → Nat → Prop} {machine : Machine}
  {frame : Frame} {instr : IR.Instr} {view : View}

/-- Arguments are passed with the values of their operands. -/
theorem Frame.Retains.passedAll {passed : List Operand}
    (retains : frame.Retains unit function block marks machine)
    (isNext : block.code[frame.index]? = some instr) (reads : passed ⊆ instr.operands)
    (passes : List.Forall₂ (fun operand passed => operand.PassedAs function passed) operands passed)
    (shows : List.Forall₂ (View.Shows ⟨unit, machine, frame⟩) operands scalars) :
    List.Forall₂ (fun arg value => View.value ⟨unit, machine, frame⟩ arg = .ok value) passed
      (scalars.map Scalar.encode) := by
  induction passes generalizing scalars with
  | nil =>
    cases shows
    exact .nil
  | cons first _ rest =>
    cases shows with
    | cons shown others =>
      exact .cons (retains.passed isNext (reads (List.mem_cons_self ..)) first shown)
        (rest (fun _ member => reads (List.mem_cons_of_mem _ member)) others)

/-- Scalars are printed by the conversions of the operands that hold them. -/
theorem formats_of_shows {formats : List Bytes}
    (formatted : List.Forall₂ (fun operand format => operand.type.printFormat? = some format)
      operands formats) (shows : List.Forall₂ view.Shows operands scalars) :
    List.Forall₂ (fun format scalar => scalar.native.printFormat? = some format)
      formats scalars := by
  induction formatted generalizing scalars with
  | nil =>
    cases shows
    exact .nil
  | cons first _ rest =>
    cases shows with
    | cons shown others => exact .cons (shown.type ▸ first) (rest others)

/-- A call that prints by a format which takes its arguments. -/
theorem printCall_consumes {format text : Bytes} {args : List Value} (machine : Machine)
    (consumes : Print.Consumes format args text) :
    printCall machine (.text format :: args) =
      (machine.print text, .ok (.int (Int64.ofNat text.length))) := by
  have rendered := consumes.1 []
  rw [List.append_nil] at rendered
  rw [printCall, Print.output, rendered]

/-- A byte string of the module is read as its text. -/
theorem View.value_data {place : Nat} {name text : Bytes}
    (found : view.unit.data[place]? = some ⟨name, text⟩) :
    view.value (.data place) = .ok (.text text) := by
  simp [View.value, View.present, found]

/-- A call of a function that is served from outside. -/
theorem State.step_external {out : Option IR.Register} {callee : Nat} {args : List Operand}
    {served : IR.Function} {values : List Value} {after : Machine} {result : Value}
    (isNext : state.frame.next unit = .instruction (.call out callee args))
    (found : unit.functions[callee]? = some served) (isExternal : served.external = true)
    (reads : List.Forall₂ (fun arg value =>
      View.value ⟨unit, state.machine, state.frame⟩ arg = .ok value) args values)
    (serves : externalCall served.name state.tick.machine values = (after, .ok result)) :
    state.step unit {} =
      .running ⟨after, Caller.resume ⟨state.frame, out⟩ result, state.callers⟩ := by
  have readsToo : View.values ⟨unit, state.tick.machine, state.frame⟩ 0 args = .ok values := by
    refine View.values_eq (reads.imp fun arg value read => ?_) 0
    rw [View.value_machine _ _ state.machine]
    exact read
  have effect : View.effect ⟨unit, state.tick.machine, state.tick.frame⟩
      (.call out callee args) = .ok (.call out callee values) := by
    show (View.values ⟨unit, state.tick.machine, state.frame⟩ 0 _ >>= fun values =>
      pure (Effect.call out callee values)) = _
    rw [readsToo]
    rfl
  rw [State.step_instruction isNext, State.execute, effect]
  show State.call unit ⟨state.tick.machine, state.frame, state.callers⟩ _ _ _ = _
  simp only [State.call, found, isExternal, if_true, serves]

/-- What executing an output does where its operands hold some scalars: the arguments are passed
with their values, the format takes them all, and the text is printed at once. The result is the
number of its bytes. -/
structure State.Prints (unit : IR.Module) (state : State) {operands : List Operand}
    (printout : Printout unit operands) (scalars : List Scalar) : Prop where
  passes : List.Forall₂ (fun arg value =>
    View.value ⟨unit, state.machine, state.frame⟩ arg = .ok value)
      printout.passed (scalars.map Scalar.encode)
  consumes : Print.Consumes (printout.formats.flatten ++ "\n") (scalars.map Scalar.encode)
    (Evaluation.outputText scalars)
  returns : externalCall "printf" state.machine
      (.text (printout.formats.flatten ++ "\n") :: scalars.map Scalar.encode) =
    (state.machine.print (Evaluation.outputText scalars),
      .ok (.int (Int64.ofNat (Evaluation.outputText scalars).length)))
  steps : state.step unit {} = .running
    ⟨state.tick.machine.print (Evaluation.outputText scalars),
      Caller.resume ⟨state.frame, some printout.out⟩
        (.int (Int64.ofNat (Evaluation.outputText scalars).length)), state.callers⟩

/-- Executing an output prints what its operands hold. -/
theorem State.Retains.prints {printout : Printout unit operands} (retains : state.Retains unit)
    (isNext : state.frame.next unit = .instruction printout.call)
    (found : unit.functions[state.frame.function]? = some function)
    (passes : List.Forall₂ (fun operand passed => operand.PassedAs function passed)
      operands printout.passed)
    (shows : List.Forall₂ (View.Shows ⟨unit, state.machine, state.frame⟩) operands scalars) :
    state.Prints unit printout scalars := by
  obtain ⟨_, block, marks, frame⟩ := retains.frame
  cases frame.found.symm.trans found
  have reads := frame.passedAll (frame.next_instruction isNext) (List.subset_cons_self _ _) passes
    shows
  have consumes := Evaluation.render_consumes (formats_of_shows printout.formatted shows)
  refine ⟨reads, consumes, printCall_consumes _ consumes, State.step_external isNext
    printout.found printout.isExternal (.cons (View.value_data printout.datum) reads) ?_⟩
  rw [externalCall, if_pos printout.isNamed]
  exact printCall_consumes _ consumes

end Machine

namespace Lowering

theorem compile_sound {name : Bytes} {program : Program} {unit : IR.Module}
    (compiled : compile name program = .ok unit) : unit.Sound := by
  obtain ⟨_, workspace, lowered, rfl⟩ := compile_eq_ok.mp compiled
  exact (lowerProgram_sound lowered).1

theorem compile_fair {name : Bytes} {program : Program} {unit : IR.Module}
    (compiled : compile name program = .ok unit) : unit.Fair := by
  obtain ⟨_, workspace, lowered, rfl⟩ := compile_eq_ok.mp compiled
  exact (lowerProgram_settled lowered).1

open Machine in
/-- Output and the function that prints agree. Every output of a compiled program has its place in
the module. There its arguments have been lowered to operands, and each time that a run comes to its
call and the operands hold scalars of their types, the call prints these scalars and a line end. -/
theorem output_prints {name : Bytes} {program : Program} {unit : IR.Module}
    (compiled : compile name program = .ok unit) (position : Int) (args : List Node) :
    (∀ node ∈ program, Node.Stands (.output position args) node →
      Nonempty (Occurrence unit (.output position args))) ∧
    ∀ occurrence : Occurrence unit (.output position args),
      ∃ operands middle, Arguments occurrence.routine args occurrence.before operands middle ∧
        ∃ printout : Printout unit operands, ∀ (limits : Limits) (callee : Nat) (state : State),
          Progress.Reachable unit limits callee (.running state) → occurrence.EndsAt state.frame →
            state.frame.next unit = .instruction printout.call ∧
            ∀ scalars,
              List.Forall₂ (View.Shows ⟨unit, state.machine, state.frame⟩) operands scalars →
                state.Prints unit printout scalars := by
  refine ⟨fun node member stands =>
    (compile_places compiled member stands).map Moment.toOccurrence, fun occurrence => ?_⟩
  obtain ⟨operands, middle, arguments, printout, calls⟩ :=
    occurrence.printout (compile_fair compiled)
  refine ⟨operands, middle, arguments, printout, fun limits callee state reachable ends => ?_⟩
  obtain ⟨isNext, function, found, passes⟩ := calls state.frame ends
  have retains := reachable.retains (compile_guarded compiled) state rfl
  exact ⟨isNext, fun scalars shows => retains.prints isNext found passes shows⟩

/-- A text that looks like a conversion, a byte that is no number between 0 and 127, a negative
number and a truth value. -/
def greeting : List Node :=
  [.string 1 "50%d", .char 1 200, .integer 1 (-5), .boolean 1 true]

open Machine in
theorem output_prints_greeting :
    ∃ (unit : IR.Module) (state : State) (operands : List Operand)
      (printout : Printout unit operands), compile "greeting" [.output 1 greeting] = .ok unit ∧
        Progress.Reachable unit {} 0 (.running state) ∧
        state.frame.next unit = .instruction printout.call ∧
        state.Prints unit printout
          [.text (some "50%d"), .char (-56), .integer (-5), .boolean true] := by
  have checks : ((compile "greeting" [.output 1 greeting]).toOption.any fun unit =>
      (Machine.new? unit []).any fun machine =>
      ((start unit machine 0 []).state?).any fun state =>
        unit.data[0]? = some ⟨".str", "50%d"⟩ ∧
        (state.frame.function, state.frame.block, state.frame.index) = (0, 0, 0)) = true := by
    decide +kernel
  obtain ⟨unit, compiled, checks⟩ := compile_any checks
  obtain ⟨machine, made, checks⟩ := (Option.any_eq_true ..).mp checks
  obtain ⟨state, isState, checks⟩ := (Option.any_eq_true ..).mp checks
  obtain ⟨datum, place⟩ := of_decide_eq_true checks
  simp only [Prod.mk.injEq] at place
  have reachable : Progress.Reachable unit {} 0 (.running state) := by
    rw [← Progress.eq_running isState]
    exact .call (.made made) (by simp) 0
  have prints := output_prints compiled 1 greeting
  have occurs : compile "greeting" ([] ++ .output 1 greeting :: []) = .ok unit := compiled
  obtain ⟨⟨occurrence, _, _, _⟩, isMain, atStart, endsAt⟩ := compile_moment occurs
  have ends : occurrence.EndsAt state.frame := by
    refine endsAt state.frame ?_
    rw [place.1, place.2.1, place.2.2]
    decide +kernel
  obtain ⟨operands, middle, arguments, printout, prints⟩ := prints.2 occurrence
  obtain ⟨isNext, prints⟩ := prints {} 0 state reachable ends
  have start : programStart "greeting" = occurrence.before := by
    simpa [lowerNodes] using atStart
  rw [isMain, ← start] at arguments
  have expected : Arguments mainRoutine greeting (programStart "greeting")
      [.data 0, .int .i8 (-56), .int .i32 (-5), .ofBool true] _ :=
    .cons (by rfl) (by rfl) (.cons (by rfl) (by rfl) (.cons (by rfl) (by rfl)
      (.cons (by rfl) (by rfl) (.nil _))))
  cases arguments.unique expected
  refine ⟨unit, state, _, printout, compiled, reachable, isNext, prints _ ?_⟩
  exact .cons ⟨rfl, View.value_data datum⟩ (.cons ⟨rfl, rfl⟩ (.cons ⟨rfl, rfl⟩
    (.cons ⟨rfl, rfl⟩ .nil)))

end Lowering

end Pascaline
