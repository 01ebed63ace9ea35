/-
Inputs read what is there, and leave the rest. The function that reads skips blanks and takes a
word, or one byte; what it does not take stays for the next input. So what the inputs of a run take
and what is left make up the whole input, and inputs that read words store the words of the input
one behind the other. The calls of a run are listed by the states that make them.
-/

import Pascaline.Proofs.Printing
import Pascaline.Proofs.Elements

namespace Pascaline

open IR (Operand)

namespace Machine

/-! ### Words of an input -/

namespace Scan

/-- The formats by which inputs read. -/
def formats : List Bytes := ["%d", "%f", "%s", " %c"]

/-- What a format makes of the text that it has taken. -/
def value? (format text : Bytes) : Option Value :=
  if format = "%d" then (readInt? text).map .int
  else if format = "%f" then (readReal? text).map .float
  else if format = "%s" then some (.text text)
  else text.head?.map fun byte => .int byte.toInt8.toInt64

/-- An input begins with blanks and a word, both as long as they can be. A character is the first
byte of a word. -/
structure Begins (format input blanks text rest : Bytes) : Prop where
  split : input = blanks ++ (text ++ rest)
  blank : ∀ byte ∈ blanks, isBlank byte = true
  solid : ∀ byte ∈ text, isBlank byte = false
  nonempty : text ≠ []
  ends : if format = " %c" then text.length = 1
    else ∀ byte, rest.head? = some byte → isBlank byte = true

/-- The words of an input, which stand between blanks. -/
def words (input : Bytes) : List Bytes :=
  (input.splitOnP isBlank).filter fun word => !word.isEmpty

theorem skipBlanks_eq_nil {input : Bytes} :
    skipBlanks input = [] ↔ ∀ byte ∈ input, isBlank byte = true := List.dropWhile_eq_nil_iff

variable {blanks rest format : Bytes} {byte : UInt8}

theorem skipBlanks_append (blank : ∀ byte ∈ blanks, isBlank byte = true) :
    skipBlanks (blanks ++ rest) = skipBlanks rest := List.dropWhile_append_of_pos blank

/-- The first byte behind the blanks is none. -/
theorem isBlank_of_skipBlanks {input : Bytes} (skipped : skipBlanks input = byte :: rest) :
    isBlank byte = false := by
  have first := List.head?_dropWhile_not isBlank input
  rw [show input.dropWhile isBlank = byte :: rest from skipped] at first
  exact first

/-- What comes behind the blanks is not blank as far as the word goes. -/
theorem begins_word {input : Bytes} (isWord : format ≠ " %c")
    (visible : ∃ byte ∈ input, isBlank byte = false) :
    Begins format input (input.takeWhile isBlank) (word input).1 (word input).2 := by
  have split : (word input).1 ++ (word input).2 = skipBlanks input :=
    List.takeWhile_append_dropWhile
  refine ⟨?_, fun byte member => List.mem_takeWhile_imp member, fun byte member => ?_, ?_, ?_⟩
  · rw [split]
    exact List.takeWhile_append_dropWhile.symm
  · simpa using List.mem_takeWhile_imp member
  · cases skipped : skipBlanks input with
    | nil =>
      obtain ⟨byte, member, isSolid⟩ := visible
      rw [skipBlanks_eq_nil.mp skipped byte member] at isSolid
      cases isSolid
    | cons byte rest => simp [word, skipped, isBlank_of_skipBlanks skipped]
  · rw [if_neg isWord]
    intro byte isFirst
    have first := List.head?_dropWhile_not (!isBlank ·) (skipBlanks input)
    rw [show ((skipBlanks input).dropWhile (!isBlank ·)).head? = some byte from isFirst] at first
    simpa using first

theorem begins_character {input : Bytes} (skipped : skipBlanks input = byte :: rest) :
    Begins " %c" input (input.takeWhile isBlank) [byte] rest := by
  refine ⟨?_, fun byte member => List.mem_takeWhile_imp member, ?_, List.cons_ne_nil _ _, by simp⟩
  · rw [List.singleton_append, ← skipped]
    exact List.takeWhile_append_dropWhile.symm
  · simpa using isBlank_of_skipBlanks skipped

theorem readWord_eq (reader : Bytes → Option Value) (input : Bytes) :
    readWord reader input = ((word input).2, if (word input).1 = [] then .atEnd
      else .ofOption (reader (word input).1)) := by
  unfold readWord
  split <;> rename_i isWord <;> simp_all

/-- A conversion skips blanks and takes a word. Nothing but blanks is the end of the input. -/
theorem conversion_cases (known : format ∈ formats) (input : Bytes) :
    ((∀ byte ∈ input, isBlank byte = true) ∧ conversion format input = ([], .ok .atEnd)) ∨
      ∃ blanks text rest, Begins format input blanks text rest ∧
        conversion format input = (rest, .ok (.ofOption (value? format text))) := by
  have byWord (verb : UInt8) (reader : Bytes → Option Value) (isVerb : verb ≠ Bytes.code 'c')
      (reads : wordReader? verb = some reader)
      (same : ∀ text, value? [Bytes.code '%', verb] text = reader text) :
      ((∀ byte ∈ input, isBlank byte = true) ∧
        conversion [Bytes.code '%', verb] input = ([], .ok .atEnd)) ∨
      ∃ blanks text rest, Begins [Bytes.code '%', verb] input blanks text rest ∧
        conversion [Bytes.code '%', verb] input =
          (rest, .ok (.ofOption (value? [Bytes.code '%', verb] text))) := by
    have converted : conversion [Bytes.code '%', verb] input =
        ((word input).2, .ok (if (word input).1 = [] then .atEnd
          else .ofOption (reader (word input).1))) := by
      rw [conversion, Evaluation.request_verb]
      simp only [isVerb, if_false, reads, readWord_eq]
      rfl
    have isWord : [Bytes.code '%', verb] ≠ (" %c" : Bytes) := fun same => by cases same
    by_cases allBlank : ∀ byte ∈ input, isBlank byte = true
    · refine .inl ⟨allBlank, ?_⟩
      simp [converted, word, skipBlanks_eq_nil.mpr allBlank]
    · have begins := begins_word isWord (by simpa using allBlank)
      refine .inr ⟨_, _, _, begins, ?_⟩
      rw [converted, if_neg begins.nonempty, same]
  have shape : format = "%d" ∨ format = "%f" ∨ format = "%s" ∨ format = " %c" := by
    simpa [formats] using known
  rcases shape with rfl | rfl | rfl | rfl
  · exact byWord (Bytes.code 'd') _ (by decide) rfl fun _ => rfl
  · exact byWord (Bytes.code 'f') _ (by decide) rfl fun _ => rfl
  · exact byWord (Bytes.code 's') _ (by decide) rfl fun _ => rfl
  · cases skipped : skipBlanks input with
    | nil =>
      refine .inl ⟨skipBlanks_eq_nil.mp skipped, ?_⟩
      show conversion [0x20, Bytes.code '%', Bytes.code 'c'] input = _
      rw [conversion, request, if_pos rfl, skipped]
    | cons byte rest =>
      refine .inr ⟨_, _, _, begins_character skipped, ?_⟩
      show conversion [0x20, Bytes.code '%', Bytes.code 'c'] input = _
      rw [conversion, request, if_pos rfl, skipped]
      rfl

/-! ### Words one by one -/

theorem words_of_blank (blank : ∀ byte ∈ blanks, isBlank byte = true) :
    words (blanks ++ rest) = words rest := by
  induction blanks with
  | nil => rfl
  | cons byte blanks others =>
    rw [← others fun other member => blank other (List.mem_cons_of_mem _ member)]
    simp [words, List.splitOnP_cons_eq_if_modifyHead, blank byte (List.mem_cons_self ..)]

/-- A word that is taken is the first one, and leaves the others. -/
theorem Begins.words {input text : Bytes} (isWord : format ≠ " %c")
    (begins : Begins format input blanks text rest) : words input = text :: words rest := by
  obtain ⟨rfl, blank, solid, nonempty, ends⟩ := begins
  rw [if_neg isWord] at ends
  rw [words_of_blank blank]
  have visible : text.isEmpty = false := List.isEmpty_eq_false_iff.mpr nonempty
  cases rest with
  | nil => simp [Scan.words, List.splitOnP_eq_singleton solid, List.splitOnP_nil, visible]
  | cons byte rest =>
    have isBlank := ends byte rfl
    rw [Scan.words, List.splitOnP_append_cons_of_forall_mem solid _ isBlank]
    simp [Scan.words, visible, List.splitOnP_cons_eq_if_modifyHead, isBlank]

end Scan

/-! ### Calls that read -/

/-- What a call of the function that reads does to a machine, and what it answers. -/
inductive Scans (machine : Machine) (format : Bytes) (memory offset : Nat) :
    Machine → Int64 → Prop
  | atEnd (blank : ∀ byte ∈ machine.input, Scan.isBlank byte = true) :
      Scans machine format memory offset { machine with input := [] } (-1)
  | unread {blanks text rest : Bytes} (begins : Scan.Begins format machine.input blanks text rest)
      (failed : Scan.value? format text = none) :
      Scans machine format memory offset { machine with input := rest } 0
  | read {blanks text rest : Bytes} {value : Value} {cells : Memory}
      (begins : Scan.Begins format machine.input blanks text rest)
      (parsed : Scan.value? format text = some value)
      (there : machine.memories[memory]? = some cells) (inside : offset < cells.cells.size) :
      Scans machine format memory offset
        (Machine.write { machine with input := rest } memory offset (value.fit cells.type)) 1

section Calls

variable {machine after : Machine} {format : Bytes} {memory offset : Nat} {type : Ty}
  {result : Int64}

theorem scanCall_scans (known : format ∈ Scan.formats) (cell : machine.Cell memory offset type) :
    ∃ after result, scanCall machine [.text format, .address memory offset] =
      (after, .ok (.int result)) ∧ Scans machine format memory offset after result := by
  obtain ⟨cells, there, rfl, inside⟩ := cell
  rcases Scan.conversion_cases known machine.input with ⟨blank, converted⟩ |
    ⟨blanks, text, rest, begins, converted⟩
  · refine ⟨_, _, ?_, .atEnd blank⟩
    simp only [scanCall, converted]
    rfl
  · cases parsed : Scan.value? format text with
    | none =>
      refine ⟨_, _, ?_, .unread begins parsed⟩
      simp only [scanCall, converted, parsed]
      rfl
    | some value =>
      refine ⟨_, _, ?_, .read begins parsed there inside⟩
      simp only [scanCall, converted, parsed, Scan.Outcome.ofOption, there, if_pos inside]
      rfl

namespace Scans

/-- Only the target is written, and only if something was read. -/
theorem others (scans : Scans machine format memory offset after result) {other place : Nat}
    (apart : (other, place) ≠ (memory, offset) ∨ result ≠ 1) :
    after.cell? other place = machine.cell? other place := by
  cases scans with
  | atEnd | unread => rfl
  | @read blanks text rest value cells begins parsed there inside =>
    have unread : ({ machine with input := rest } : Machine).memories[memory]? = some cells := there
    exact (Machine.cell?_write unread inside _).2 other place
      (apart.resolve_right (not_not_intro rfl))

/-- The input is what has been taken and what is left. -/
theorem input (scans : Scans machine format memory offset after result) :
    ∃ taken, machine.input = taken ++ after.input := by
  cases scans with
  | atEnd => exact ⟨machine.input, (List.append_nil _).symm⟩
  | unread begins | read begins =>
    exact ⟨_, begins.split.trans (List.append_assoc ..).symm⟩

theorem fits (scans : Scans machine format memory offset after result) :
    (Value.int result).fit .i32 = .int result := by
  cases scans <;> rfl

/-- Words are taken in their order. -/
theorem word (scans : Scans machine "%s" memory offset after result) :
    Scan.words after.input = (Scan.words machine.input).tail ∧
    ((Scan.words machine.input = [] ∧ result = -1 ∧ after.input = []) ∨
      ∃ word, (Scan.words machine.input).head? = some word ∧ result = 1 ∧
        ∀ cells, machine.memories[memory]? = some cells →
          after.cell? memory offset = some ((Value.text word).fit cells.type)) := by
  cases scans with
  | atEnd blank =>
    have none : Scan.words machine.input = [] := by
      have all : Scan.words (machine.input ++ []) = [] := Scan.words_of_blank blank
      rwa [List.append_nil] at all
    exact ⟨by rw [none]; rfl, .inl ⟨none, rfl, rfl⟩⟩
  | unread begins failed => cases failed
  | @read blanks text rest value cells begins parsed there inside =>
    have isText : Value.text text = value := Option.some.inj parsed
    have split := begins.words (by decide)
    refine ⟨by rw [split]; rfl, .inr ⟨text, by rw [split]; rfl, rfl, fun other otherThere => ?_⟩⟩
    cases there.symm.trans otherThere
    rw [isText]
    have unread : ({ machine with input := rest } : Machine).memories[memory]? = some cells := there
    exact (Machine.cell?_write unread inside _).1

end Scans

end Calls

/-! ### Cells behind addresses -/

/-- The target of an input is a cell of its type. -/
theorem Frame.Retains.cell {unit : IR.Module} {function : IR.Function} {block : IR.Block}
    {marks : Nat → Nat → Prop} {machine : Machine} {frame : Frame} {base : Nat} {instr : IR.Instr}
    {operand : Operand} {type : Ty} (retains : frame.Retains unit function block marks machine)
    (contained : frame.Contained unit function base machine)
    (machineContained : machine.Contained unit) (isNext : block.code[frame.index]? = some instr)
    (reads : operand ∈ instr.operands) (scalar : type.IsScalar)
    (role : operand.IsAddress function fun slot =>
      marks frame.block slot ∨ slot ∈ IR.reservedBy (block.code.toList.take frame.index))
    (points : operand.type = .ptr type) :
    ∃ memory offset, View.value ⟨unit, machine, frame⟩ operand = .ok (.address memory offset) ∧
      machine.Cell memory offset type := by
  have resolves := ((retains.code.sound.coded _ block retains.here).code _ instr isNext).resolves _
    reads
  have slotCell {slot : IR.Slot} (isSlot : operand = .slot slot)
      (pointee : (Operand.slot slot).type = .ptr slot.type) : ∃ memory offset,
      View.value ⟨unit, machine, frame⟩ operand = .ok (.address memory offset) ∧
        machine.Cell memory offset type := by
    subst isSlot
    obtain ⟨memory, cells, value, there, isFor⟩ :=
      retains.slot_read contained machineContained resolves role fun _ => id
    rw [pointee, Ty.ptr.injEq] at points
    rw [points] at isFor
    refine ⟨memory, 0, value, cells, there, isFor.scalar scalar, ?_⟩
    rcases scalar.cases with rfl | rfl | rfl | rfl | rfl <;> exact isFor.2 ▸ Nat.zero_lt_one
  cases role with
  | stack storage => exact slotCell rfl (by simp [Operand.type, IR.Slot.valueType, storage])
  | «global» storage => exact slotCell rfl (by simp [Operand.type, IR.Slot.valueType, storage])
  | @element register base index contains =>
    obtain ⟨writer, executed, isOut⟩ := List.mem_filterMap.mp resolves
    obtain ⟨place, _, found, _⟩ := place_of_mem_take executed
    cases instr_unique retains.code.sound ⟨_, place, block, retains.here, found⟩ contains isOut rfl
      rfl
    obtain ⟨slot, memory, cells, number, rfl, there, isFor, _, _, inside, held⟩ :=
      retains.computed _ executed
    obtain ⟨element, length, isArray, isElement, _⟩ :=
      ((retains.code.sound.coded _ block retains.here).code _ _ found).typed
    obtain ⟨_, baseRole, _⟩ := retains.code.guarded.code _ _ block _ retains.here found
    have isType : slot.type = .array element length := by
      cases baseRole with
      | stack storage => simpa [Operand.type, IR.Slot.valueType, storage] using isArray
      | «global» storage => simpa [Operand.type, IR.Slot.valueType, storage] using isArray
    have same : Ty.ptr element = .ptr type := isElement.symm.trans points
    rw [isType, Ty.ptr.inj same] at isFor
    have read : View.value ⟨unit, machine, frame⟩ (.reg register) =
        .ok (.address memory number.toInt.toNat) := congrArg View.present held
    exact ⟨memory, _, read, cells, there, isFor.1, by omega⟩

/-! ### Calls in a run -/

/-- Whether the next instruction calls the function that is served under a name. -/
def State.calls (unit : IR.Module) (name : Bytes) (state : State) : Bool :=
  match state.frame.next unit with
  | .instruction (.call _ callee _) =>
    (unit.functions[callee]?).any fun function => function.external && function.name = name
  | _ => false

/-- The states of a run that call the function that is served under a name, and go on. -/
def visits (unit : IR.Module) (limits : Limits) (name : Bytes) : Nat → State → List State
  | 0, _ => []
  | fuel + 1, state =>
    match state.step unit limits with
    | .running next =>
      if state.calls unit name then state :: visits unit limits name fuel next
      else visits unit limits name fuel next
    | _ => []

section Visits

variable {unit : IR.Module} {limits : Limits} {name : Bytes} {state next : State} {fuel : Nat}
  {callee : Nat}

theorem State.calls_iff : state.calls unit name = true ↔
    ∃ out callee args served, state.frame.next unit = .instruction (.call out callee args) ∧
      unit.functions[callee]? = some served ∧ served.external = true ∧ served.name = name := by
  unfold State.calls
  split
  · rename_i out callee args isNext
    rw [isNext]
    constructor
    · intro calls
      obtain ⟨served, found, both⟩ := (Option.any_eq_true ..).mp calls
      obtain ⟨isExternal, isNamed⟩ := Bool.and_eq_true_iff.mp both
      exact ⟨out, callee, args, served, rfl, found, isExternal, of_decide_eq_true isNamed⟩
    · rintro ⟨_, _, _, served, same, found, isExternal, isNamed⟩
      cases same
      simp [found, isExternal, isNamed]
  · rename_i other
    constructor
    · intro calls
      cases calls
    · rintro ⟨out, callee, args, _, isNext, _⟩
      exact absurd isNext (other out callee args)

theorem visits_succ (steps : state.step unit limits = .running next) :
    visits unit limits name (fuel + 1) state =
      if state.calls unit name then state :: visits unit limits name fuel next
      else visits unit limits name fuel next := by
  rw [visits, steps]

theorem visits_of_ended (ended : ∀ next, state.step unit limits ≠ .running next) :
    visits unit limits name fuel state = [] := by
  cases fuel with
  | zero => rfl
  | succ fuel =>
    rw [visits]
    split
    · rename_i next steps
      exact absurd steps (ended next)
    · rfl

theorem Progress.Reachable.step
    (reachable : Progress.Reachable unit limits callee (.running state)) :
    Progress.Reachable unit limits callee (state.step unit limits) := by
  generalize isRunning : Progress.running state = progress at reachable
  obtain ⟨inUse, plain, fuel⟩ := reachable
  rw [← Progress.advance_zero (state.step unit limits), ← Progress.advance_running, isRunning,
    ← Progress.advance_add]
  exact .call inUse plain _

/-- The states that call a function are states of the run. -/
theorem visits_visited (reachable : Progress.Reachable unit limits callee (.running state))
    {visited : State} (member : visited ∈ visits unit limits name fuel state) :
    Progress.Reachable unit limits callee (.running visited) ∧ visited.calls unit name = true ∧
      ∃ next, visited.step unit limits = .running next := by
  induction fuel generalizing state with
  | zero => cases member
  | succ fuel rest =>
    rcases exists_or_forall_not (state.step unit limits = .running ·) with ⟨next, steps⟩ | ended
    · rw [visits_succ steps] at member
      have later := reachable.step
      rw [steps] at later
      split at member
      · rename_i calls
        rcases List.mem_cons.mp member with rfl | member
        · exact ⟨reachable, calls, next, steps⟩
        · exact rest later member
      · exact rest later member
    · rw [visits_of_ended ended] at member
      cases member

/-- A step that goes on under limits goes on without them. -/
theorem State.step_unlimited (steps : state.step unit limits = .running next) :
    state.step unit {} = .running next := by
  cases state.counted unit with
  | fallsOff failure falls => cases steps.symm.trans (falls limits)
  | counts traps passes continues =>
    cases trapped : limits.trap? (state.machine.steps + 1) with
    | some trap =>
      obtain ⟨failure, _, failed⟩ := traps limits trap trapped
      cases steps.symm.trans failed
    | none => exact (passes limits trapped).symm.trans steps

/-- A step that goes on without limits goes on under them, unless they cut it short. -/
theorem State.step_limits (limits : Limits) (steps : state.step unit {} = .running next) :
    state.step unit limits = .running next ∨
      ∃ failure,
        state.step unit limits = .failed (unwind state.callers state.tick.machine) failure := by
  cases state.counted unit with
  | fallsOff failure falls => cases steps.symm.trans (falls {})
  | counts traps passes continues =>
    cases trapped : limits.trap? (state.machine.steps + 1) with
    | some trap =>
      obtain ⟨failure, _, failed⟩ := traps limits trap trapped
      exact .inr ⟨failure, failed⟩
    | none => exact .inl ((passes limits trapped).trans steps)

end Visits

/-! ### Input and output between calls -/

section Streams

variable {unit : IR.Module} {machine : Machine} {state : State} {name : Bytes}

/-- Nothing has been read or printed. -/
def SameStreams (machine later : Machine) : Prop :=
  later.input = machine.input ∧ later.output = machine.output

theorem unwind_sameStreams (callers : List Caller) (machine : Machine) :
    SameStreams machine (unwind callers machine) := by
  rw [unwind_eq]
  exact ⟨rfl, rfl⟩

theorem State.return_sameStreams (result : Value) :
    SameStreams state.machine (state.return result).machine := by
  obtain ⟨machine, frame, callers⟩ := state
  cases callers <;> exact ⟨rfl, rfl⟩

theorem State.terminate_sameStreams (terminator : IR.Terminator) :
    SameStreams state.machine (state.terminate unit terminator).machine := by
  have failed := unwind_sameStreams state.callers state.machine
  unfold State.terminate
  cases terminator with
  | branch => exact ⟨rfl, rfl⟩
  | branchIf condition consequent alternative =>
    dsimp only
    split
    · exact ⟨rfl, rfl⟩
    · exact failed
  | ret value =>
    cases value with
    | none => exact state.return_sameStreams _
    | some operand =>
      dsimp only
      split
      · exact state.return_sameStreams _
      · exact failed
  | unreachable => exact failed

/-- A step reads and prints nothing, unless it calls a function that is served from outside. It goes
on behind such a call if that has not failed. -/
theorem State.step_streams (unit : IR.Module) (limits : Limits) (state : State) :
    SameStreams state.machine (state.step unit limits).machine ∨
      ∃ name values, state.calls unit name = true ∧
        SameStreams (externalCall name state.tick.machine values).1
          (state.step unit limits).machine ∧
        ((∃ next, state.step unit limits = .running next) ∨
          ∃ trap, (externalCall name state.tick.machine values).2 = .error trap) := by
  have same : SameStreams state.machine state.tick.machine := ⟨rfl, rfl⟩
  have failed : SameStreams state.machine (unwind state.callers state.tick.machine) :=
    unwind_sameStreams state.callers state.tick.machine
  unfold State.step
  rcases state.frame.next_cases unit with nothing | ⟨_, _, _, _, ⟨instr, _, isNext⟩ |
    ⟨terminator, _, _, isNext⟩⟩
  · rw [nothing]
    exact .inl (unwind_sameStreams state.callers state.machine)
  · rw [isNext]
    dsimp only
    split
    · exact .inl failed
    · unfold State.execute
      split
      · rename_i effect done
        cases effect with
        | call out callee values =>
          obtain ⟨args, rfl⟩ := View.effect_comesFrom done
          simp only [State.apply, State.call]
          split
          · exact .inl failed
          · rename_i served found
            split
            · rename_i isExternal
              refine .inr ⟨served.name, values,
                State.calls_iff.mpr ⟨_, _, _, _, isNext, found, isExternal, rfl⟩, ?_⟩
              split <;> rename_i called <;> rw [called]
              · exact ⟨⟨rfl, rfl⟩, .inl ⟨_, rfl⟩⟩
              · exact ⟨unwind_sameStreams _ _, .inr ⟨_, rfl⟩⟩
            · split
              · exact .inl failed
              · exact .inl same
        | _ => exact .inl same
      · exact .inl failed
  · rw [isNext]
    dsimp only
    split
    · exact .inl failed
    · exact .inl (state.tick.terminate_sameStreams terminator)

theorem scanCall_output (machine : Machine) (args : List Value) :
    (scanCall machine args).1.output = machine.output := by
  unfold scanCall
  split
  · split
    · rfl
    · dsimp only
      split
      · split
        · split <;> rfl
        · rfl
      · rfl
  all_goals rfl

theorem printCall_input (machine : Machine) (args : List Value) :
    (printCall machine args).1.input = machine.input := by
  unfold printCall
  split <;> rfl

theorem printCall_failed {args : List Value} {trap : Trap}
    (failed : (printCall machine args).2 = .error trap) : (printCall machine args).1 = machine := by
  unfold printCall at failed ⊢
  split <;> rename_i printed <;> simp_all

/-- Only the function that reads takes from the input. -/
theorem State.step_input (limits : Limits) (quiet : state.calls unit "scanf" = false) :
    (state.step unit limits).machine.input = state.machine.input := by
  rcases state.step_streams unit limits with same | ⟨name, values, calls, served, _⟩
  · exact same.1
  · have other : name ≠ "scanf" := by
      rintro rfl
      rw [quiet] at calls
      cases calls
    rw [served.1, externalCall, if_neg other]
    split
    · exact printCall_input _ _
    · rfl

/-- Only the function that prints adds to the output, and not if it fails. -/
theorem State.step_output (limits : Limits) (quiet : state.calls unit "printf" = false ∨
      ∀ next, state.step unit limits ≠ .running next) :
    (state.step unit limits).machine.output = state.machine.output := by
  rcases state.step_streams unit limits with same | ⟨name, values, calls, served, ends⟩
  · exact same.2
  · rw [served.2]
    unfold externalCall at ends ⊢
    split
    · rename_i isPrint
      rw [if_pos isPrint] at ends
      rcases quiet with quiet | ended
      · rw [isPrint, quiet] at calls
        cases calls
      · rcases ends with ⟨next, steps⟩ | ⟨trap, failed⟩
        · exact absurd steps (ended next)
        · rw [printCall_failed failed]
          rfl
    · split
      · exact scanCall_output _ _
      · rfl

end Streams

/-! ### Inputs in a run -/

/-- What an input asks for: the register for the answer, the format, the cell that it reads into,
and the type of the cell. -/
structure Inquiry where
  out : IR.Register
  format : Bytes
  memory : Nat
  offset : Nat
  type : Ty

/-- The next instruction is an input. -/
structure State.Asks (unit : IR.Module) (state : State) (inquiry : Inquiry) : Prop where
  call : ∃ callee place name target served, state.frame.next unit =
      .instruction (.call (some inquiry.out) callee [.data place, target]) ∧
    unit.functions[callee]? = some served ∧ served.external = true ∧
    served.name = ("scanf" : Bytes) ∧ unit.data[place]? = some ⟨name, inquiry.format⟩ ∧
    View.value ⟨unit, state.machine, state.frame⟩ target =
      .ok (.address inquiry.memory inquiry.offset)
  cell : state.machine.Cell inquiry.memory inquiry.offset inquiry.type
  scalar : inquiry.type.IsScalar
  format : inquiry.type.scanFormat? = some inquiry.format
  room : inquiry.out.id < state.frame.registers.size
  answer : inquiry.out.type = .i32

/-- An input that has been executed. -/
structure State.Inputs (unit : IR.Module) (limits : Limits) (state : State) (inquiry : Inquiry)
    (next : State) (result : Int64) : Prop where
  asks : state.Asks unit inquiry
  steps : state.step unit limits = .running next
  scans : Scans state.tick.machine inquiry.format inquiry.memory inquiry.offset next.machine result
  returns : next.frame.registers[inquiry.out.id]? = some (.int result)

section Inputs

variable {unit : IR.Module} {limits : Limits} {state next : State} {inquiry other : Inquiry}
  {callee : Nat}

theorem State.Asks.unique (asks : state.Asks unit inquiry) (asksToo : state.Asks unit other) :
    inquiry = other := by
  obtain ⟨_, _, _, _, _, isNext, _, _, _, datum, value⟩ := asks.call
  obtain ⟨_, _, _, _, _, isNextToo, _, _, _, datumToo, valueToo⟩ := asksToo.call
  obtain ⟨out, format, memory, offset, type⟩ := inquiry
  obtain ⟨_, _, _, _, typeToo⟩ := other
  cases isNext.symm.trans isNextToo
  cases datum.symm.trans datumToo
  cases value.symm.trans valueToo
  obtain ⟨_, there, rfl, _⟩ := asks.cell
  obtain ⟨_, thereToo, rfl, _⟩ := asksToo.cell
  cases there.symm.trans thereToo
  rfl

/-- The formats for scalars are known. -/
theorem scanFormat?_known {type : Ty} {format : Bytes} (scalar : type.IsScalar)
    (found : type.scanFormat? = some format) : format ∈ Scan.formats := by
  rcases scalar.cases with rfl | rfl | rfl | rfl | rfl <;> cases found <;> decide

/-- Whatever calls the function that reads is an input. -/
theorem State.Retains.asks {base : Nat} {outer : List Caller} (sound : unit.Sound)
    (retains : state.Retains unit) (contained : state.Contained unit base outer)
    (calls : state.calls unit "scanf" = true) : ∃ inquiry, state.Asks unit inquiry := by
  obtain ⟨out, callee, args, served, isNext, found, isExternal, isNamed⟩ := State.calls_iff.mp calls
  obtain ⟨function, block, marks, frame, frameContained, there⟩ := retains.standing contained isNext
  have sounds := (frame.code.sound.coded _ block frame.here).code _ _ there
  obtain ⟨_, servedToo, formatted, _⟩ := frame.code.guarded.code _ _ block _ frame.here there
  cases found.symm.trans servedToo
  have formatted := formatted isExternal
  obtain ⟨_, typedToo, _, result⟩ := sounds.typed
  cases found.symm.trans typedToo
  rw [(sound.served _ _ found isExternal).2] at result
  obtain ⟨register, rfl, answer⟩ := Option.map_eq_some_iff.mp result
  have room := out_lt frame.code.sound frame.here there rfl
  rw [← frame.registerCount] at room
  rw [isNamed] at formatted
  generalize isName : ("scanf" : Bytes) = name at formatted
  cases formatted with
  | print => exact absurd isName (by decide)
  | @scan place datum target type isDatum format scalar points role =>
    obtain ⟨memory, offset, value, cell⟩ := frame.cell frameContained contained.machine there
      (by simp [IR.Instr.operands]) scalar role points
    exact ⟨⟨register, datum.bytes, memory, offset, type⟩,
      ⟨callee, place, datum.name, target, served,
      isNext, found, isExternal, isNamed, isDatum, value⟩, cell, scalar, format, room, answer⟩

/-- An input goes on, having read. -/
theorem State.Asks.inputs (asks : state.Asks unit inquiry) :
    ∃ next result, state.Inputs unit {} inquiry next result := by
  obtain ⟨callee, place, name, target, served, isNext, found, isExternal, isNamed, datum, value⟩ :=
    asks.call
  have cell : state.tick.machine.Cell inquiry.memory inquiry.offset inquiry.type := asks.cell
  obtain ⟨after, result, scanned, scans⟩ :=
    scanCall_scans (scanFormat?_known asks.scalar asks.format) cell
  have serves : externalCall served.name state.tick.machine
      [.text inquiry.format, .address inquiry.memory inquiry.offset] =
        (after, .ok (.int result)) := by
    rw [externalCall, isNamed, if_neg (by decide), if_pos rfl]
    exact scanned
  refine ⟨_, result, asks, State.step_external isNext found isExternal
    (.cons (View.value_data datum) (.cons value .nil)) serves, scans, ?_⟩
  show (state.frame.registers.setIfInBounds inquiry.out.id _)[inquiry.out.id]? = _
  rw [asks.answer, scans.fits]
  exact Array.getElem?_setIfInBounds_self_of_lt asks.room

theorem State.Asks.inputs_of_step (asks : state.Asks unit inquiry)
    (steps : state.step unit limits = .running next) :
    ∃ result, state.Inputs unit limits inquiry next result := by
  obtain ⟨_, result, inputs⟩ := asks.inputs
  cases inputs.steps.symm.trans (State.step_unlimited steps)
  exact ⟨result, { inputs with steps := steps }⟩

end Inputs

/-! ### Whole runs -/

/-- The inputs of a run read one behind the other. Each of them is executed; what they take and what
is left make up the input; and if they all read words, they store the words of the input in their
order and answer -1 when there are no more. -/
structure State.ReadsInOrder (unit : IR.Module) (limits : Limits) (fuel : Nat) (state : State) :
    Prop where
  executed : ∀ visited ∈ visits unit limits "scanf" fuel state,
    ∃ inquiry next result, visited.Inputs unit limits inquiry next result
  accounted : ∃ chunks, state.machine.input =
      chunks.flatten ++ ((Progress.running state).advance unit limits fuel).machine.input ∧
    List.Forall₂ (fun chunk (visited : State) =>
        visited.machine.input = chunk ++ (visited.step unit limits).machine.input)
      chunks (visits unit limits "scanf" fuel state)
  ordered : (∀ visited ∈ visits unit limits "scanf" fuel state,
      ∃ inquiry, visited.Asks unit inquiry ∧ inquiry.format = "%s") →
    ∀ (place : Nat) (visited : State),
      (visits unit limits "scanf" fuel state)[place]? = some visited →
        ∃ inquiry next result, visited.Inputs unit limits inquiry next result ∧
          (∀ word, (Scan.words state.machine.input)[place]? = some word → result = 1 ∧
            next.machine.cell? inquiry.memory inquiry.offset = some (.text word)) ∧
          ((Scan.words state.machine.input)[place]? = none → result = -1 ∧ next.machine.input = [])

section Runs

variable {unit : IR.Module} {limits : Limits} {state next : State} {fuel callee : Nat}
  {inquiry : Inquiry} {result : Int64}

/-- A state of a run that calls the function that reads is about to execute an input. -/
theorem Progress.Reachable.asks (sound : unit.Sound) (guarded : unit.Guarded)
    (reachable : Progress.Reachable unit limits callee (.running state))
    (calls : state.calls unit "scanf" = true) : ∃ inquiry, state.Asks unit inquiry :=
  (reachable.retains guarded state rfl).asks sound (reachable.contained guarded) calls

/-- A step that does not go on has read nothing. -/
theorem Progress.Reachable.unread (sound : unit.Sound) (guarded : unit.Guarded)
    (reachable : Progress.Reachable unit limits callee (.running state))
    (ended : ∀ next, state.step unit limits ≠ .running next) :
    (state.step unit limits).machine.input = state.machine.input := by
  cases calls : state.calls unit "scanf" with
  | false => exact State.step_input limits calls
  | true =>
    obtain ⟨inquiry, asks⟩ := reachable.asks sound guarded calls
    obtain ⟨next, _, inputs⟩ := asks.inputs
    rcases State.step_limits limits inputs.steps with steps | ⟨failure, steps⟩
    · exact absurd steps (ended next)
    · rw [steps]
      exact (unwind_sameStreams state.callers state.tick.machine).1

theorem Progress.advance_of_ended {progress : Progress}
    (ended : ∀ next, progress ≠ .running next) (fuel : Nat) :
    progress.advance unit limits fuel = progress := by
  cases progress with
  | running state => exact absurd rfl (ended state)
  | finished | failed => cases fuel <;> rfl

theorem visits_accounted (sound : unit.Sound) (guarded : unit.Guarded) (fuel : Nat)
    (reachable : Progress.Reachable unit limits callee (.running state)) :
    ∃ chunks, state.machine.input =
        chunks.flatten ++ ((Progress.running state).advance unit limits fuel).machine.input ∧
      List.Forall₂ (fun chunk (visited : State) =>
          visited.machine.input = chunk ++ (visited.step unit limits).machine.input)
        chunks (visits unit limits "scanf" fuel state) := by
  induction fuel generalizing state with
  | zero => exact ⟨[], rfl, .nil⟩
  | succ fuel rest =>
    rcases exists_or_forall_not (state.step unit limits = .running ·) with ⟨next, steps⟩ | ended
    · have later := reachable.step
      rw [steps] at later
      obtain ⟨chunks, isInput, taken⟩ := rest later
      rw [Progress.advance_running, visits_succ steps, steps]
      cases calls : state.calls unit "scanf" with
      | false =>
        have same := State.step_input limits calls
        rw [steps] at same
        exact ⟨chunks, same.symm.trans isInput, by simpa using taken⟩
      | true =>
        obtain ⟨inquiry, asks⟩ := reachable.asks sound guarded calls
        obtain ⟨result, inputs⟩ := asks.inputs_of_step steps
        obtain ⟨chunk, isChunk⟩ := inputs.scans.input
        have isChunk : state.machine.input = chunk ++ next.machine.input := isChunk
        refine ⟨chunk :: chunks, ?_, ?_⟩
        · rw [isChunk, isInput, List.flatten_cons, List.append_assoc]
        · rw [if_pos rfl]
          exact .cons (by rw [steps]; exact isChunk) taken
    · refine ⟨[], ?_, by rw [visits_of_ended ended]; exact .nil⟩
      rw [Progress.advance_running, Progress.advance_of_ended ended]
      exact (reachable.unread sound guarded ended).symm

/-- Before each input there are those words that the inputs before have not taken. -/
theorem visits_words
    (byWord : ∀ visited ∈ visits unit limits "scanf" fuel state,
      ∃ inquiry, visited.Asks unit inquiry ∧ inquiry.format = "%s")
    {place : Nat} {visited : State}
    (found : (visits unit limits "scanf" fuel state)[place]? = some visited) :
    Scan.words visited.machine.input = (Scan.words state.machine.input).drop place := by
  induction fuel generalizing state place with
  | zero => cases found
  | succ fuel rest =>
    rcases exists_or_forall_not (state.step unit limits = .running ·) with ⟨next, steps⟩ | ended
    · rw [visits_succ steps] at found byWord
      cases calls : state.calls unit "scanf" with
      | false =>
        rw [calls] at found byWord
        have same := State.step_input limits calls
        rw [steps] at same
        have same : next.machine.input = state.machine.input := same
        rw [← same]
        exact rest (by simpa using byWord) (by simpa using found)
      | true =>
        rw [calls, if_pos rfl] at found byWord
        cases place with
        | zero =>
          cases found
          rfl
        | succ place =>
          obtain ⟨inquiry, asks, isFormat⟩ := byWord state (List.mem_cons_self ..)
          obtain ⟨result, inputs⟩ := asks.inputs_of_step steps
          have scans := inputs.scans
          rw [isFormat] at scans
          have shorter : Scan.words next.machine.input = (Scan.words state.machine.input).tail :=
            scans.word.1
          rw [rest (fun other member => byWord other (List.mem_cons_of_mem _ member))
            found, shorter,
            ← List.drop_one, List.drop_drop, Nat.add_comm]
    · rw [visits_of_ended ended] at found
      cases found

theorem State.Inputs.word (inputs : state.Inputs unit limits inquiry next result)
    (isFormat : inquiry.format = "%s") :
    (∀ word, (Scan.words state.machine.input).head? = some word → result = 1 ∧
      next.machine.cell? inquiry.memory inquiry.offset = some (.text word)) ∧
    ((Scan.words state.machine.input).head? = none → result = -1 ∧ next.machine.input = []) := by
  have scans := inputs.scans
  rw [isFormat] at scans
  obtain ⟨cells, there, isType, _⟩ := inputs.asks.cell
  rcases scans.word.2 with ⟨none, isResult, isEnd⟩ | ⟨word, isWord, isResult, stored⟩
  · have none : Scan.words state.machine.input = [] := none
    rw [none]
    exact ⟨fun word isWord => absurd isWord (by simp), fun _ => ⟨isResult, isEnd⟩⟩
  · have isWord : (Scan.words state.machine.input).head? = some word := isWord
    rw [isWord]
    refine ⟨fun other same => ⟨isResult, ?_⟩, fun none => absurd none (by simp)⟩
    cases same
    rw [stored cells there]
    rfl

end Runs

end Machine

namespace Lowering

/-- The variable or the element that an input reads into, and its address. -/
inductive Targets (routine : Routine) (before : Workspace) :
    Node → Symbol → Operand → Workspace → Prop
  | «variable» {position : Int} {name : Bytes} {symbol : Symbol} {address : Operand}
      {after : Workspace}
      (found : routine.scalarStorage name "input into whole array" before =
        .ok (symbol, address) after) :
      Targets routine before (.identifier position name) symbol address after
  | element {position : Int} {name : Bytes} {index : Node} {place : Operand} {symbol : Symbol}
      {address : Operand} {middle after : Workspace}
      (indexed : lowerIndex (operand index (lowerNode index routine)) before = .ok place middle)
      (found : routine.storage name (some place) middle = .ok (symbol, address) after) :
      Targets routine before (.arrayAccess position name index) symbol address after

section Inquiries

variable {unit : IR.Module} {position : Int} {target : Node}

/-- An input finds its target and then calls the function that reads. -/
theorem Occurrence.targets (occurrence : Occurrence unit (.input position target)) :
    ∃ symbol address middle id site,
      Targets occurrence.routine occurrence.before target symbol address middle ∧
      middle.builder.Holds id site ∧ middle.Coherent ∧
      lowerInput symbol address middle = .ok () occurrence.after := by
  obtain ⟨id, site, holds⟩ := IR.Builder.exists_holds occurrence.placed
  have steps := occurrence.lowered
  cases target with
  | identifier place name =>
    simp only [lowerNode, statement_eq_ok, bind_eq_ok] at steps
    obtain ⟨⟨⟨symbol, address⟩, middle, found, lowered⟩, _⟩ := steps
    obtain ⟨later, written⟩ := Straight.scalarStorage found holds
    exact ⟨symbol, address, middle, id, later, .variable found, written.holds,
      written.coherent occurrence.coherent, lowered⟩
  | arrayAccess place name index =>
    simp only [lowerNode, statement_eq_ok, bind_eq_ok] at steps
    obtain ⟨⟨offset, _, indexed, ⟨symbol, address⟩, middle, found, lowered⟩, _⟩ := steps
    obtain ⟨between, written⟩ := (operand_straight _ _).lowerIndex indexed holds
    obtain ⟨later, writtenToo⟩ := Straight.storage found written.holds
    exact ⟨symbol, address, middle, id, later, .element indexed found, writtenToo.holds,
      writtenToo.coherent (written.coherent occurrence.coherent), lowered⟩
  | _ =>
    simp only [lowerNode] at steps
    cases steps

open Machine in
/-- A run that comes to the end of an input asks for a value of its variable. -/
theorem Occurrence.asks (sound : unit.Sound) (fair : unit.Fair) (guarded : unit.Guarded)
    (occurrence : Occurrence unit (.input position target)) :
    ∃ symbol address middle,
      Targets occurrence.routine occurrence.before target symbol address middle ∧
      ∀ (limits : Limits) (callee : Nat) (state : State),
        Progress.Reachable unit limits callee (.running state) → occurrence.EndsAt state.frame →
          ∃ inquiry, state.Asks unit inquiry ∧
            symbol.kind.native.scanFormat? = some inquiry.format ∧
            View.value ⟨unit, state.machine, state.frame⟩ address =
              .ok (.address inquiry.memory inquiry.offset) := by
  obtain ⟨symbol, address, middle, id, site, targets, holds, coherent, lowered⟩ :=
    occurrence.targets
  obtain ⟨format, isFormat, calls⟩ : ∃ format, symbol.kind.native.scanFormat? = some format ∧
      callFormatted .scanf ".scan" format [address] middle = .ok () occurrence.after := by
    unfold lowerInput at lowered
    cases format : symbol.kind.native.scanFormat? with
    | none =>
      rw [format] at lowered
      cases lowered
    | some text =>
      rw [format] at lowered
      exact ⟨text, rfl, lowered⟩
  obtain ⟨_, _, _, _, _, lastHolds, _, isLast, _, datum, found, isExternal, isNamed⟩ :=
    callFormatted_last fair calls occurrence.grows holds coherent
  refine ⟨symbol, address, middle, targets, fun limits callee state reachable ends => ?_⟩
  have isNext := (ends.next lastHolds isLast).1
  obtain ⟨inquiry, asks⟩ := reachable.asks sound guarded
    (State.calls_iff.mpr ⟨_, _, _, _, isNext, found, isExternal, isNamed⟩)
  obtain ⟨_, _, _, _, _, isNextToo, _, _, _, datumToo, value⟩ := asks.call
  cases isNext.symm.trans isNextToo
  cases datum.symm.trans datumToo
  exact ⟨inquiry, asks, isFormat, value⟩

end Inquiries

open Machine in
/-- Inputs consume the input exactly. The function that reads skips blanks, takes a word and stores
what it reads as. Every input of a compiled program has its place in the module and calls that
function with the format for its variable, and with a cell of its own. So along every run the inputs
take one word behind the other. -/
theorem inputs_read {name : Bytes} {program : Program} {unit : IR.Module}
    (compiled : compile name program = .ok unit) :
    (∀ (machine : Machine) (format : Bytes) (memory offset : Nat) (type : Ty),
      format ∈ Scan.formats → machine.Cell memory offset type →
        ∃ after result, externalCall "scanf" machine [.text format, .address memory offset] =
            (after, .ok (.int result)) ∧
          Scans machine format memory offset after result ∧
          ∀ other place, (other, place) ≠ (memory, offset) ∨ result ≠ 1 →
            after.cell? other place = machine.cell? other place) ∧
    (∀ (position : Int) (target : Node),
      (∀ node ∈ program, Node.Stands (.input position target) node →
        Nonempty (Occurrence unit (.input position target))) ∧
      ∀ occurrence : Occurrence unit (.input position target), ∃ symbol address middle,
        Targets occurrence.routine occurrence.before target symbol address middle ∧
        ∀ (limits : Limits) (callee : Nat) (state : State),
          Progress.Reachable unit limits callee (.running state) → occurrence.EndsAt state.frame →
            ∃ inquiry, state.Asks unit inquiry ∧
              symbol.kind.native.scanFormat? = some inquiry.format ∧
              View.value ⟨unit, state.machine, state.frame⟩ address =
                .ok (.address inquiry.memory inquiry.offset)) ∧
    ∀ (limits : Limits) (callee fuel : Nat) (state : State),
      Progress.Reachable unit limits callee (.running state) →
        state.ReadsInOrder unit limits fuel := by
  have sound := compile_sound compiled
  have guarded := compile_guarded compiled
  refine ⟨fun machine format memory offset type known cell => ?_, fun position target =>
    ⟨fun node member stands => (compile_places compiled member stands).map Moment.toOccurrence,
      fun occurrence => occurrence.asks sound (compile_fair compiled) guarded⟩,
    fun limits callee fuel state reachable => ?_⟩
  · obtain ⟨after, result, scanned, scans⟩ := scanCall_scans known cell
    exact ⟨after, result, scanned, scans, fun other place apart => scans.others apart⟩
  · have executed (visited : State) (member : visited ∈ visits unit limits "scanf" fuel state) :
        ∃ inquiry next result, visited.Inputs unit limits inquiry next result := by
      obtain ⟨reached, calls, next, steps⟩ := visits_visited reachable member
      obtain ⟨inquiry, asks⟩ := reached.asks sound guarded calls
      exact ⟨inquiry, next, asks.inputs_of_step steps⟩
    refine ⟨executed, visits_accounted sound guarded fuel reachable,
      fun byWord place visited found => ?_⟩
    obtain ⟨inquiry, next, result, inputs⟩ := executed visited (List.mem_of_getElem? found)
    obtain ⟨other, asks, isFormat⟩ := byWord visited (List.mem_of_getElem? found)
    cases asks.unique inputs.asks
    have word := inputs.word isFormat
    rw [visits_words byWord found, List.head?_drop] at word
    exact ⟨_, next, result, inputs, word⟩

/-- Three inputs into one variable. -/
def threeInputs : Program :=
  [.declaration 1 "text" "STRING", .input 2 (.identifier 2 "text"), .input 3 (.identifier 3 "text"),
    .input 4 (.identifier 4 "text")]

open Machine in
theorem inputs_read_twoWords : ∃ (unit : IR.Module) (state first second third : State),
    compile "words" threeInputs = .ok unit ∧ state.machine.input = (" ab\tcd\n" : Bytes) ∧
      Progress.Reachable unit {} 0 (.running state) ∧
      visits unit {} "scanf" 3 state = [first, second, third] ∧
      (∃ inquiry next, first.Inputs unit {} inquiry next 1 ∧
        next.machine.cell? inquiry.memory inquiry.offset = some (.text "ab")) ∧
      (∃ inquiry next, second.Inputs unit {} inquiry next 1 ∧
        next.machine.cell? inquiry.memory inquiry.offset = some (.text "cd")) ∧
      ∃ inquiry next, third.Inputs unit {} inquiry next (-1) ∧ next.machine.input = [] := by
  have checks : ((compile "words" threeInputs).toOption.any fun unit =>
      (Machine.new? unit " ab\tcd\n").any fun machine =>
      ((start unit machine 0 []).state?).any fun state =>
        (∀ datum ∈ unit.data.toList, datum.bytes = "%s") ∧
          state.machine.input = (" ab\tcd\n" : Bytes) ∧
        (visits unit {} "scanf" 3 state).length = 3) = true := by
    decide +kernel
  obtain ⟨unit, compiled, checks⟩ := compile_any checks
  obtain ⟨machine, made, checks⟩ := (Option.any_eq_true ..).mp checks
  obtain ⟨state, isState, checks⟩ := (Option.any_eq_true ..).mp checks
  obtain ⟨formats, isInput, size⟩ := of_decide_eq_true checks
  have reachable : Progress.Reachable unit {} 0 (.running state) := by
    rw [← Progress.eq_running isState]
    exact .call (.made made) (by simp) 0
  obtain ⟨first, second, third, isVisits⟩ := List.length_eq_three.mp size
  have reads := (inputs_read compiled).2.2 {} 0 3 state reachable
  have words := reads.ordered fun visited member => by
    obtain ⟨inquiry, next, result, inputs⟩ := reads.executed visited member
    obtain ⟨_, place, name, _, _, _, _, _, _, datum, _⟩ := inputs.asks.call
    exact ⟨inquiry, inputs.asks, formats _
      (List.mem_of_getElem? (Array.getElem?_toList.trans datum))⟩
  have isWords : Scan.words " ab\tcd\n" = ["ab", "cd"] := by decide +kernel
  rw [isVisits, isInput, isWords] at words
  obtain ⟨_, next, _, inputs, stored, _⟩ := words 0 first rfl
  obtain ⟨_, nextToo, _, inputsToo, storedToo, _⟩ := words 1 second rfl
  obtain ⟨_, last, _, inputsLast, _, ended⟩ := words 2 third rfl
  obtain ⟨rfl, isFirst⟩ := stored "ab" rfl
  obtain ⟨rfl, isSecond⟩ := storedToo "cd" rfl
  obtain ⟨rfl, isEnd⟩ := ended rfl
  exact ⟨unit, state, first, second, third, compiled, isInput, reachable, isVisits,
    ⟨_, next, inputs, isFirst⟩, ⟨_, nextToo, inputsToo, isSecond⟩, _, last, inputsLast, isEnd⟩

end Lowering

end Pascaline
