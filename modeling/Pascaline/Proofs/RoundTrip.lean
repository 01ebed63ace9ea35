/-
Printed values are read back. What an output prints for an integer, a truth value or a visible
character is a word, which reads as the same value in a cell of the same type. The line end behind
it is a blank, so it ends the word and is skipped by the next input, whatever that reads.
-/

import Pascaline.Proofs.Numerals
import Pascaline.Proofs.Reading

namespace Pascaline

open Evaluation (Scalar)

theorem Bytes.ofInt_solid {number : Int} : Bytes.ofInt number ≠ [] ∧
    ∀ byte ∈ Bytes.ofInt number, Machine.Scan.isBlank byte = false := by
  unfold Bytes.ofInt
  split
  · refine ⟨List.cons_ne_nil _ _, fun byte member => ?_⟩
    rcases List.mem_cons.mp member with rfl | member
    · decide
    · exact (Bytes.mem_ofNat member).2.2
  · exact ⟨Bytes.ofNat_ne_nil _, fun byte member => (Bytes.mem_ofNat member).2.2⟩

theorem splitSign_ofInt (number : Int) :
    splitSign (Bytes.ofInt number) = (decide (number < 0), Bytes.ofNat number.natAbs) := by
  unfold Bytes.ofInt
  split
  · rename_i negative
    simp [splitSign, negative]
  · rename_i positive
    cases digits : Bytes.ofNat number.natAbs with
    | nil => exact absurd digits (Bytes.ofNat_ne_nil _)
    | cons first rest =>
      obtain ⟨noMinus, noPlus, _⟩ : first ≠ Bytes.code '-' ∧ first ≠ Bytes.code '+' ∧ _ :=
        Bytes.mem_ofNat (digits ▸ List.mem_cons_self ..)
      simp [splitSign, noMinus, noPlus, positive]

/-- An integer that is printed in decimal is read back. -/
theorem readInt?_ofInt (number : Int64) : readInt? (Bytes.ofInt number.toInt) = some number := by
  have value : (if decide (number.toInt < 0) = true then -(number.toInt.natAbs : Int)
      else number.toInt.natAbs) = number.toInt := by
    split <;> rename_i negative <;> rw [decide_eq_true_eq] at negative <;> omega
  have fits : fitsSigned 64 number.toInt = true := by
    have low : -9223372036854775808 ≤ number.toInt := number.minValue_le_toInt
    have high : number.toInt < 9223372036854775808 := number.toInt_lt
    exact Bool.and_eq_true_iff.mpr ⟨decide_eq_true low, decide_eq_true high⟩
  rw [readInt?, splitSign_ofInt]
  dsimp only
  rw [naturalOfDigits?_ofNat]
  simp only [guard, Bytes.ofNat_ne_nil, ne_eq, not_false_eq_true, if_true, Option.bind_eq_bind,
    Option.pure_def, Option.bind_some, value, fits, Int64.ofInt_toInt]

/-! ### Values that can be read back -/

namespace Evaluation.Scalar

/-- Integers, truth values and visible characters. -/
def isReadable : Scalar → Bool
  | .integer _ | .boolean _ => true
  | .char code => !Machine.Scan.isBlank code.toUInt8
  | .real _ | .text _ => false

variable {scalar : Scalar} {format : Bytes}

theorem printed_boolean (truth : Bool) :
    (boolean truth).printed = Bytes.ofInt (Int64.toInt (if truth then 1 else 0)) := by
  cases truth <;> decide

/-- What is printed for a readable scalar is a word. -/
theorem printed_solid (readable : scalar.isReadable = true) :
    scalar.printed ≠ [] ∧ ∀ byte ∈ scalar.printed, Machine.Scan.isBlank byte = false := by
  cases scalar with
  | integer number => exact Bytes.ofInt_solid
  | boolean truth =>
    rw [printed_boolean]
    exact Bytes.ofInt_solid
  | char code => exact ⟨List.cons_ne_nil _ _, by simpa [isReadable, printed] using readable⟩
  | real | text => cases readable

theorem printed_character (found : scalar.native.scanFormat? = some format)
    (isCharacter : format = " %c") : scalar.printed.length = 1 := by
  rw [isCharacter] at found
  have other {type : Ty} (differs : type.scanFormat? ≠ some (" %c" : Bytes)) :
      type.scanFormat? = some (" %c" : Bytes) → scalar.printed.length = 1 := fun same =>
    absurd same differs
  cases scalar with
  | char code => rfl
  | integer => exact other (show Ty.scanFormat? .i32 ≠ _ by decide) found
  | boolean => exact other (show Ty.scanFormat? .i1 ≠ _ by decide) found
  | real => exact other (show Ty.scanFormat? .double ≠ _ by decide) found
  | text => exact other (show Ty.scanFormat? .bytes ≠ _ by decide) found

/-- The text of a readable scalar reads as the scalar. -/
theorem value?_printed (readable : scalar.isReadable = true)
    (found : scalar.native.scanFormat? = some format) :
    ∃ value, Machine.Scan.value? format scalar.printed = some value ∧
      value.fit scalar.native = scalar.encode := by
  cases scalar with
  | integer number =>
    cases found
    refine ⟨.int number.toInt64, ?_, by simp [native, encode]⟩
    show (readInt? (Bytes.ofInt number.toInt)).map Machine.Value.int = _
    rw [← Int32.toInt_toInt64, readInt?_ofInt]
    rfl
  | boolean truth =>
    cases found
    refine ⟨.int (if truth then 1 else 0), ?_, by cases truth <;> rfl⟩
    show (readInt? (boolean truth).printed).map Machine.Value.int = _
    rw [printed_boolean, readInt?_ofInt]
    rfl
  | char code =>
    cases found
    exact ⟨.int code.toInt64, by rfl, by simp [native, encode]⟩
  | real | text => cases readable

end Evaluation.Scalar

namespace Machine

/-- A word behind blanks is taken up to the blank behind it. -/
theorem Scan.Begins.unique {format input blanks text rest before word behind : Bytes} {end' : UInt8}
    (begins : Begins format input blanks text rest)
    (isInput : input = before ++ (word ++ end' :: behind))
    (blank : ∀ byte ∈ before, isBlank byte = true)
    (solid : ∀ byte ∈ word, isBlank byte = false) (nonempty : word ≠ [])
    (isEnd : isBlank end' = true) (single : format = " %c" → word.length = 1) :
    text = word ∧ rest = end' :: behind := by
  have skipped {blanks text rest : Bytes} (split : input = blanks ++ (text ++ rest))
      (blank : ∀ byte ∈ blanks, isBlank byte = true) (solid : ∀ byte ∈ text, isBlank byte = false)
      (nonempty : text ≠ []) : skipBlanks input = text ++ rest := by
    rw [split, skipBlanks_append blank]
    cases text with
    | nil => exact absurd rfl nonempty
    | cons byte text =>
      have visible := solid byte (List.mem_cons_self ..)
      simp [skipBlanks, visible]
  have same : text ++ rest = word ++ end' :: behind :=
    (skipped begins.split begins.blank begins.solid begins.nonempty).symm.trans
      (skipped isInput blank solid nonempty)
  have isText : text = word := by
    have ends := begins.ends
    split at ends
    · rename_i isCharacter
      exact (List.append_inj same (ends.trans (single isCharacter).symm)).1
    · have taken {text rest : Bytes} (solid : ∀ byte ∈ text, isBlank byte = false)
          (ends : ∀ byte, rest.head? = some byte → isBlank byte = true) :
          (text ++ rest).takeWhile (!isBlank ·) = text := by
        rw [List.takeWhile_append_of_pos (by simpa using solid)]
        cases rest with
        | nil => simp
        | cons byte rest => simp [ends byte rfl]
      rw [← taken begins.solid ends, same]
      exact taken solid fun byte first => Option.some.inj first ▸ isEnd
  subst isText
  exact ⟨rfl, List.append_cancel_left same⟩

/-- A printed scalar is read back, whatever blanks stand before it. -/
theorem Scans.readable {machine after : Machine} {format blanks rest : Bytes} {memory offset : Nat}
    {result : Int64} {scalar : Scalar} (readable : scalar.isReadable = true)
    (scans : Scans machine format memory offset after result)
    (isInput : machine.input = blanks ++ (Evaluation.outputText [scalar] ++ rest))
    (blank : ∀ byte ∈ blanks, Scan.isBlank byte = true)
    (cell : machine.Cell memory offset scalar.native)
    (found : scalar.native.scanFormat? = some format) :
    result = 1 ∧ after.input = 0x0A :: rest ∧ after.cell? memory offset = some scalar.encode := by
  obtain ⟨nonempty, solid⟩ := Scalar.printed_solid readable
  have isInput : machine.input = blanks ++ (scalar.printed ++ 0x0A :: rest) := by
    rw [isInput, Evaluation.outputText, List.flatMap_cons, List.flatMap_nil, List.append_nil,
      List.append_assoc]
    rfl
  have word {before text behind : Bytes}
      (begins : Scan.Begins format machine.input before text behind) :
      text = scalar.printed ∧ behind = 0x0A :: rest :=
    begins.unique isInput blank solid nonempty (by decide) (Scalar.printed_character found)
  obtain ⟨value, parsed, fits⟩ := Scalar.value?_printed readable found
  cases scans with
  | atEnd allBlank =>
    obtain ⟨byte, member⟩ := List.exists_mem_of_ne_nil _ nonempty
    have isBlank := allBlank byte (by rw [isInput]; simp [member])
    rw [solid byte member] at isBlank
    cases isBlank
  | unread begins failed =>
    rw [(word begins).1, parsed] at failed
    cases failed
  | @read _ _ taken _ cells begins parsedToo there inside =>
    obtain ⟨rfl, rfl⟩ := word begins
    cases parsed.symm.trans parsedToo
    obtain ⟨_, thereToo, isType, _⟩ := cell
    cases there.symm.trans thereToo
    rw [isType, fits]
    have unread : ({ machine with input := 0x0A :: rest } : Machine).memories[memory]? =
        some cells := there
    exact ⟨rfl, rfl, (Machine.cell?_write unread inside _).1⟩

/-! ### Runs that print and runs that read -/

open Lowering (Occurrence Arguments)

/-- The state executes an output whose only argument is a scalar. -/
def State.Writes (unit : IR.Module) (state : State) (scalar : Scalar) : Prop :=
  ∃ (position : Int) (arg : Node) (occurrence : Occurrence unit (.output position [arg]))
    (operands : List IR.Operand) (middle : Lowering.Workspace), occurrence.EndsAt state.frame ∧
      Arguments occurrence.routine [arg] occurrence.before operands middle ∧
      List.Forall₂ (View.Shows ⟨unit, state.machine, state.frame⟩) operands [scalar]

/-- The state executes an input, and the cell that it reads into is of a type. -/
def State.ReadsInto (unit : IR.Module) (state : State) (type : Ty) : Prop :=
  ∃ (position : Int) (target : Node) (occurrence : Occurrence unit (.input position target)),
    occurrence.EndsAt state.frame ∧ ∀ inquiry, state.Asks unit inquiry → inquiry.type = type

/-- What is printed by an output for each scalar. -/
def printedLines (scalars : List Scalar) : Bytes :=
  scalars.flatMap fun scalar => Evaluation.outputText [scalar]

section Runs

variable {unit : IR.Module} {limits : Limits} {state next : State} {fuel callee : Nat}
  {scalar : Scalar} {scalars : List Scalar}

theorem State.Writes.output (fair : unit.Fair) (guarded : unit.Guarded)
    (reachable : Progress.Reachable unit limits callee (.running state))
    (writes : state.Writes unit scalar) (steps : state.step unit limits = .running next) :
    next.machine.output.toList =
      state.machine.output.toList ++ Evaluation.outputText [scalar] := by
  obtain ⟨position, arg, occurrence, operands, middle, ends, arguments, shows⟩ := writes
  obtain ⟨_, _, argumentsToo, printout, calls⟩ := occurrence.printout fair
  cases arguments.unique argumentsToo
  obtain ⟨isNext, function, found, passes⟩ := calls state.frame ends
  have prints := (reachable.retains guarded state rfl).prints isNext found passes shows
  cases (State.step_unlimited steps).symm.trans prints.steps
  show (List.foldl Array.push state.machine.output _).toList = _
  simp

/-- A run prints a line for each of its outputs. -/
theorem visits_printed (fair : unit.Fair) (guarded : unit.Guarded)
    (reachable : Progress.Reachable unit limits callee (.running state))
    (writes : List.Forall₂ (State.Writes unit) (visits unit limits "printf" fuel state) scalars) :
    ((Progress.running state).advance unit limits fuel).machine.output.toList =
      state.machine.output.toList ++ printedLines scalars := by
  induction fuel generalizing state scalars with
  | zero =>
    cases writes
    exact (List.append_nil _).symm
  | succ fuel rest =>
    rcases exists_or_forall_not (state.step unit limits = .running ·) with ⟨next, steps⟩ | ended
    · have later := reachable.step
      rw [steps] at later
      rw [visits_succ steps] at writes
      rw [Progress.advance_running, steps]
      cases calls : state.calls unit "printf" with
      | false =>
        have same := State.step_output limits (.inl calls)
        rw [steps] at same
        have same : next.machine.output = state.machine.output := same
        rw [rest later (by simpa [calls] using writes), same]
      | true =>
        rw [calls, if_pos rfl] at writes
        cases writes with
        | cons first others =>
          rw [rest later others, first.output fair guarded reachable steps, List.append_assoc]
          rfl
    · rw [visits_of_ended ended] at writes
      cases writes
      rw [Progress.advance_running, Progress.advance_of_ended ended,
        State.step_output limits (.inr ended)]
      exact (List.append_nil _).symm

/-- A run reads back what stands in its input line by line. -/
theorem visits_readBack (sound : unit.Sound) (guarded : unit.Guarded)
    (reachable : Progress.Reachable unit limits callee (.running state)) {blanks : Bytes}
    (blank : ∀ byte ∈ blanks, Scan.isBlank byte = true)
    (isInput : state.machine.input = blanks ++ printedLines scalars)
    (readable : ∀ scalar ∈ scalars, scalar.isReadable = true)
    (reads : List.Forall₂ (fun visited scalar => visited.ReadsInto unit scalar.native)
      (visits unit limits "scanf" fuel state) scalars) :
    List.Forall₂ (fun visited scalar => ∃ inquiry next,
        visited.Inputs unit limits inquiry next 1 ∧
        next.machine.cell? inquiry.memory inquiry.offset = some scalar.encode)
      (visits unit limits "scanf" fuel state) scalars := by
  induction fuel generalizing state scalars blanks with
  | zero =>
    cases reads
    exact .nil
  | succ fuel rest =>
    rcases exists_or_forall_not (state.step unit limits = .running ·) with ⟨next, steps⟩ | ended
    · have later := reachable.step
      rw [steps] at later
      rw [visits_succ steps] at reads ⊢
      cases calls : state.calls unit "scanf" with
      | false =>
        have same := State.step_input limits calls
        rw [steps] at same
        have same : next.machine.input = state.machine.input := same
        simp only [calls, Bool.false_eq_true, if_false] at reads ⊢
        exact rest later blank (same.trans isInput) readable reads
      | true =>
        simp only [calls, if_true] at reads ⊢
        cases reads with
        | @cons _ scalar _ scalars first others =>
          obtain ⟨_, _, _, _, isType⟩ := first
          obtain ⟨inquiry, asks⟩ := reachable.asks sound guarded calls
          have isType := isType inquiry asks
          obtain ⟨result, inputs⟩ := asks.inputs_of_step steps
          obtain ⟨rfl, left, stored⟩ := inputs.scans.readable
            (readable scalar (List.mem_cons_self ..)) isInput blank (isType ▸ asks.cell)
            (isType ▸ asks.format)
          have left : next.machine.input = [0x0A] ++ printedLines scalars := left
          exact .cons ⟨inquiry, next, inputs, stored⟩ (rest later
            (fun _ member => List.mem_singleton.mp member ▸ rfl) left
            (fun other member => readable other (List.mem_cons_of_mem _ member)) others)
    · rw [visits_of_ended ended] at reads ⊢
      cases reads
      exact .nil

end Runs

end Machine

namespace Lowering

open Machine in
/-- Printed values are read back. One program prints integers, truth values and visible characters,
each by an output of its own. Another program is given what the first one has printed, and reads by
inputs into cells of the same types in the same order. Then every cell receives its value, and every
input answers 1. -/
theorem output_readBack {writer reader : Bytes} {prints reads : Program}
    {writing reading : IR.Module} (writes : compile writer prints = .ok writing)
    (readsToo : compile reader reads = .ok reading) {scalars : List Scalar}
    (readable : ∀ scalar ∈ scalars, scalar.isReadable = true)
    {limits limitsToo : Limits} {callee calleeToo fuel fuelToo : Nat} {first second : State}
    (printing : Progress.Reachable writing limits callee (.running first))
    (fresh : first.machine.output = #[])
    (printed : List.Forall₂ (State.Writes writing) (visits writing limits "printf" fuel first)
      scalars)
    (scanning : Progress.Reachable reading limitsToo calleeToo (.running second))
    (given : second.machine.input =
      ((Progress.running first).advance writing limits fuel).machine.output.toList)
    (asked : List.Forall₂ (fun visited scalar => visited.ReadsInto reading scalar.native)
      (visits reading limitsToo "scanf" fuelToo second) scalars) :
    List.Forall₂ (fun visited scalar => ∃ inquiry next,
        visited.Inputs reading limitsToo inquiry next 1 ∧
        next.machine.cell? inquiry.memory inquiry.offset = some scalar.encode)
      (visits reading limitsToo "scanf" fuelToo second) scalars := by
  have lines := visits_printed (compile_fair writes) (compile_guarded writes) printing printed
  rw [fresh] at lines
  have isInput : second.machine.input = [] ++ printedLines scalars := given.trans lines
  exact visits_readBack (compile_sound readsToo) (compile_guarded readsToo) scanning (by simp)
    isInput readable asked

section Statements

open Machine

variable {name : Bytes} {unit : IR.Module} {state : State} {index : Nat}

/-- A run that stands behind the first statements of a program executes the next one, an output of a
constant. -/
theorem writes_of_statement (front : List Node) {back : List Node} {position : Int}
    {arg : Node} {operand : IR.Operand} {scalar : Scalar}
    (compiled : compile name (front ++ .output position [arg] :: back) = .ok unit)
    (place : (state.frame.function, state.frame.block, state.frame.index) = (0, 0, index))
    (upTo : writtenUpTo name (front ++ [.output position [arg]]) = some (⟨0, 0⟩, index + 1))
    (arguments : ∀ before, Arguments mainRoutine [arg] before [operand] before)
    (shows : View.Shows ⟨unit, state.machine, state.frame⟩ operand scalar) :
    state.Writes unit scalar := by
  obtain ⟨⟨occurrence, _, _, _⟩, isMain, _, endsAt⟩ := compile_moment compiled
  simp only [Prod.mk.injEq] at place
  refine ⟨position, arg, occurrence, [operand], occurrence.before, endsAt state.frame ?_,
    isMain ▸ arguments _, .cons shows .nil⟩
  rw [place.1, place.2.1, place.2.2]
  exact upTo

/-- A run that stands behind the first statements of a program executes the next one, an input into
a variable of the module. -/
theorem readsInto_of_statement (front : List Node) {back : List Node} {position : Int}
    {target : Node} {out : Option IR.Register} {callee datum : Nat} {slot : IR.Slot} {type : Ty}
    {types : List Ty} (compiled : compile name (front ++ .input position target :: back) = .ok unit)
    (place : (state.frame.function, state.frame.block, state.frame.index, state.frame.next unit,
        state.machine.memories.toList.map Memory.type) =
      (0, 0, index, .instruction (.call out callee [.data datum, .slot slot]), types))
    (upTo : writtenUpTo name (front ++ [.input position target]) = some (⟨0, 0⟩, index + 1))
    (isGlobal : slot.storage = .global) (isType : types[slot.id]? = some type) :
    state.ReadsInto unit type := by
  obtain ⟨⟨occurrence, _, _, _⟩, _, _, endsAt⟩ := compile_moment compiled
  simp only [Prod.mk.injEq] at place
  obtain ⟨isFunction, isBlock, isIndex, isNext, rfl⟩ := place
  refine ⟨position, target, occurrence, endsAt state.frame ?_, fun inquiry asks => ?_⟩
  · rw [isFunction, isBlock, isIndex]
    exact upTo
  obtain ⟨_, _, _, _, _, isNextToo, _, _, _, _, value⟩ := asks.call
  cases isNext.symm.trans isNextToo
  obtain ⟨cells, there, isCell, _⟩ := asks.cell
  simp only [View.value, View.slotValue, isGlobal] at value
  split at value
  · have same : slot.id = inquiry.memory := (Value.address.inj (Except.ok.inj value)).1
    rw [List.getElem?_map, Array.getElem?_toList, same, there] at isType
    exact isCell.symm.trans (Option.some.inj isType)
  · cases value

end Statements

/-- A negative number, a byte above 127 and a truth value. -/
def threeValues : List Scalar := [.integer (-5), .char (-56), .boolean true]

def threeOutputs : Program :=
  [.output 1 [.integer 1 (-5)], .output 2 [.char 2 200], .output 3 [.boolean 3 true]]

def inputsAlike : Program :=
  [.declaration 1 "number" "INTEGER", .declaration 2 "letter" "CHAR",
    .declaration 3 "truth" "BOOLEAN", .input 4 (.identifier 4 "number"),
    .input 5 (.identifier 5 "letter"), .input 6 (.identifier 6 "truth")]

/-- What the outputs print. -/
def threeLines : Bytes := ("-5\n" : Bytes) ++ (200 :: ("\n1\n" : Bytes))

open Machine in
theorem output_readBack_threeValues : ∃ (writing reading : IR.Module) (first second : State),
    compile "writer" threeOutputs = .ok writing ∧ compile "reader" inputsAlike = .ok reading ∧
      ((Progress.running first).advance writing {} 3).machine.output.toList = threeLines ∧
      second.machine.input = threeLines ∧
      List.Forall₂ (State.Writes writing) (visits writing {} "printf" 3 first) threeValues ∧
      List.Forall₂ (fun visited scalar => ∃ inquiry next,
          visited.Inputs reading {} inquiry next 1 ∧
          next.machine.cell? inquiry.memory inquiry.offset = some scalar.encode)
        (visits reading {} "scanf" 3 second) threeValues := by
  have checks : ((compile "writer" threeOutputs).toOption.any fun unit =>
      (Machine.new? unit []).any fun machine =>
      ((start unit machine 0 []).state?).any fun state =>
        state.machine.output = #[] ∧
        ((Progress.running state).advance unit {} 3).machine.output.toList = threeLines ∧
        (visits unit {} "printf" 3 state).map (fun visited =>
          (visited.frame.function, visited.frame.block, visited.frame.index)) =
            [(0, 0, 0), (0, 0, 1), (0, 0, 2)]) = true := by
    decide +kernel
  have checksToo : ((compile "reader" inputsAlike).toOption.any fun unit =>
      (Machine.new? unit threeLines).any fun machine =>
      ((start unit machine 0 []).state?).any fun state =>
        state.machine.input = threeLines ∧
        (visits unit {} "scanf" 3 state).map (fun visited =>
          (visited.frame.function, visited.frame.block, visited.frame.index,
            visited.frame.next unit, visited.machine.memories.toList.map Memory.type)) =
          [(0, 0, 0, .instruction (.call (some ⟨0, .i32⟩) 1 [.data 0, .slot ⟨0, .global, .i32⟩]),
              [.i32, .i8, .i1]),
            (0, 0, 1, .instruction (.call (some ⟨1, .i32⟩) 1 [.data 1, .slot ⟨1, .global, .i8⟩]),
              [.i32, .i8, .i1]),
            (0, 0, 2, .instruction (.call (some ⟨2, .i32⟩) 1 [.data 2, .slot ⟨2, .global, .i1⟩]),
              [.i32, .i8, .i1])]) = true := by
    decide +kernel
  obtain ⟨writing, writes, checks⟩ := compile_any checks
  obtain ⟨_, made, checks⟩ := (Option.any_eq_true ..).mp checks
  obtain ⟨first, isFirst, checks⟩ := (Option.any_eq_true ..).mp checks
  obtain ⟨fresh, isOutput, isPrinted⟩ := of_decide_eq_true checks
  obtain ⟨reading, reads, checksToo⟩ := compile_any checksToo
  obtain ⟨_, madeToo, checksToo⟩ := (Option.any_eq_true ..).mp checksToo
  obtain ⟨second, isSecond, checksToo⟩ := (Option.any_eq_true ..).mp checksToo
  obtain ⟨isInput, isScanned⟩ := of_decide_eq_true checksToo
  have printing : Progress.Reachable writing {} 0 (.running first) := by
    rw [← Progress.eq_running isFirst]
    exact .call (.made made) (by simp) 0
  have scanning : Progress.Reachable reading {} 0 (.running second) := by
    rw [← Progress.eq_running isSecond]
    exact .call (.made madeToo) (by simp) 0
  have printed : List.Forall₂ (State.Writes writing) (visits writing {} "printf" 3 first)
      threeValues := by
    obtain ⟨_, _, isVisits, one, isPrinted⟩ := List.map_eq_cons_iff.mp isPrinted
    obtain ⟨_, _, rfl, two, isPrinted⟩ := List.map_eq_cons_iff.mp isPrinted
    obtain ⟨_, _, rfl, three, isPrinted⟩ := List.map_eq_cons_iff.mp isPrinted
    rw [isVisits, List.map_eq_nil_iff.mp isPrinted]
    exact .cons (writes_of_statement [] writes one (by decide +kernel)
      (fun _ => .cons rfl rfl (.nil _))
        ⟨rfl, rfl⟩)
      (.cons (writes_of_statement [_] writes two (by decide +kernel)
        (fun _ => .cons rfl rfl (.nil _))
        ⟨rfl, rfl⟩)
      (.cons (writes_of_statement [_, _] writes three (by decide +kernel)
        (fun _ => .cons rfl rfl (.nil _)) ⟨rfl, rfl⟩) .nil))
  have asked : List.Forall₂ (fun visited scalar => visited.ReadsInto reading (Scalar.native scalar))
      (visits reading {} "scanf" 3 second) threeValues := by
    obtain ⟨_, _, isVisits, one, isScanned⟩ := List.map_eq_cons_iff.mp isScanned
    obtain ⟨_, _, rfl, two, isScanned⟩ := List.map_eq_cons_iff.mp isScanned
    obtain ⟨_, _, rfl, three, isScanned⟩ := List.map_eq_cons_iff.mp isScanned
    rw [isVisits, List.map_eq_nil_iff.mp isScanned]
    exact .cons (readsInto_of_statement [_, _, _] reads one (by decide +kernel) rfl rfl)
      (.cons (readsInto_of_statement [_, _, _, _] reads two (by decide +kernel) rfl rfl)
      (.cons (readsInto_of_statement [_, _, _, _, _] reads three (by decide +kernel) rfl rfl) .nil))
  exact ⟨writing, reading, first, second, writes, reads, isOutput, isInput, printed,
    output_readBack writes reads (by decide) printing fresh printed scanning
      (isInput.trans isOutput.symm) asked⟩

end Lowering

end Pascaline
