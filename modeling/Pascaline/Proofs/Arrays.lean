/-
Arrays of all bounds. A declaration is accepted as soon as its last index is not below its first
one. The number of elements is then computed in 64 bits, the first index becomes a constant of 32
bits, and a memory has at most `maximumLength` cells. Bounds are 64-bit numbers too, so that none of
the three follows from the check. This file says for which bounds each of them is right, and what
happens for all others: a machine refuses to make the array, or makes one without elements.
-/

import Pascaline.Proofs.Containment
import Pascaline.Proofs.Ledger

namespace Pascaline

open IR (Operand Slot)
open Machine (Machine Memory Value View)

/-- The number of indices from the first one to the last one. -/
def indexCount (first last : Int64) : Int := last.toInt - first.toInt + 1

/-! ### Lengths in 64 bits -/

/-- The length wraps around as soon as it is no 64-bit number. -/
theorem length_wraps {first last : Int64} (ordered : first ≤ last) :
    (last - first + 1).toInt = if indexCount first last < 2 ^ 63 then indexCount first last
      else indexCount first last - 2 ^ 64 := by
  have ordered := Int64.le_iff_toInt_le.mp ordered
  have one : Int64.toInt 1 = 1 := rfl
  have lower := first.le_toInt
  have upper := last.toInt_lt
  rw [Int64.toInt_add, Int64.toInt_sub, one, indexCount]
  simp only [Int.bmod_def]
  repeat' split
  all_goals omega

theorem indexCount_le (first last : Int64) : indexCount first last ≤ 2 ^ 64 := by
  have lower := first.le_toInt
  have upper := last.toInt_lt
  rw [indexCount]
  omega

/-- A constant of 32 bits is the number itself just if that is a number of 32 bits. -/
theorem isSettled_i32_iff (number : Int64) :
    (Operand.int .i32 number).IsSettled ↔ fitsSigned 32 number.toInt = true := by
  have scalar : (Ty.int .i32).IsScalar := ⟨.integer, by decide, rfl⟩
  have fits : fitsSigned 32 number.toInt = true ↔
      -2 ^ 31 ≤ number.toInt ∧ number.toInt < 2 ^ 31 := by
    simp [fitsSigned]
  rw [fits, Operand.IsSettled, Evaluation.wrapToWidth_i32, ← Int64.toInt_inj, Int32.toInt_toInt64,
    Int64.toInt_toInt32, Int.bmod_def]
  constructor
  · rintro ⟨_, same⟩
    split at same <;> omega
  · intro inside
    refine ⟨scalar, ?_⟩
    split <;> omega

/-! ### Memories of arrays -/

/-- The memory of an array: a zero for each index, if a memory can have as many cells. Otherwise
there is none, with one exception: an array with all indices that there are has no cells. -/
def arrayMemory? (kind : Kind) (first last : Int64) : Option Memory :=
  if indexCount first last ≤ 2 ^ 44 then
    some ⟨kind.native, Array.replicate (indexCount first last).toNat (Value.zero kind.native)⟩
  else if indexCount first last = 2 ^ 64 then some ⟨kind.native, #[]⟩
  else none

theorem new?_array {first last : Int64} (ordered : first ≤ last) (kind : Kind) :
    Memory.new? (.array kind.native (last - first + 1)) = arrayMemory? kind first last := by
  have wraps := length_wraps ordered
  have most := indexCount_le first last
  have maximum : Memory.maximumLength = 2 ^ 44 := rfl
  have zero : Int64.toInt 0 = 0 := rfl
  have clamped : (last - first + 1).toNatClampNeg = (last - first + 1).toInt.toNat := rfl
  have counted : indexCount first last = last.toInt - first.toInt + 1 := rfl
  have positive := Int64.le_iff_toInt_le.mp ordered
  simp only [Memory.new?, arrayMemory?, Int64.lt_iff_toInt_lt, zero, clamped, maximum]
  by_cases short : indexCount first last ≤ 2 ^ 44
  · have unwrapped : (last - first + 1).toInt = indexCount first last := by
      rw [wraps, if_pos (by omega)]
    rw [if_pos short, unwrapped, if_neg (by omega)]
  · rw [if_neg short]
    by_cases whole : indexCount first last = 2 ^ 64
    · have wrapped : (last - first + 1).toInt = 0 := by
        rw [wraps, if_neg (by omega), whole]
        rfl
      rw [if_pos whole, wrapped, if_neg (by decide)]
      rfl
    · rw [if_neg whole, if_pos]
      split at wraps <;> omega

namespace Table

/-- What becomes of an array that has been declared, for all bounds. Its length is the number of its
indices, and so positive, just if that is a 64-bit number; the constant that is taken away from an
index is the first index just if that is a number of 32 bits; and its memory is the one above, both
on the stack and in a module, where a machine cannot even be made if there is none. -/
theorem declareArray_usable {table later : Table} {name : Bytes} {kind : Kind} {first last : Int64}
    (declared : table.declareArray name kind first last = .ok later) :
    ∃ symbol, later.find? name = some symbol ∧ symbol.shape = .array first last ∧
      symbol.kind = kind ∧
      (symbol.length.toInt = indexCount first last ∧ 1 ≤ symbol.length.toInt ↔
        indexCount first last < 2 ^ 63) ∧
      ((Operand.int .i32 symbol.first).IsSettled ↔ fitsSigned 32 first.toInt = true) ∧
      (∀ (view : View) (slot : Slot), slot.type = symbol.nativeType →
        view.effect (.alloca slot) = (arrayMemory? kind first last).elim
          (.error (.bare .wildAccess)) fun memory => .ok (.allocate slot.id memory)) ∧
      ∀ (unit : IR.Module) (input : Bytes) (place : Nat) (global : IR.Variable),
        unit.globals[place]? = some global → global.type = symbol.nativeType →
          (arrayMemory? kind first last = none → Machine.new? unit input = none) ∧
          ∀ machine, Machine.new? unit input = some machine →
            machine.memories[place]? = arrayMemory? kind first last := by
  have ordered : first ≤ last := Lowering.ordered_of_declareArray kind table (by rw [declared]; rfl)
  obtain ⟨scope, outer, _, _, rfl⟩ :=
    declare_eq_ok.mp (Lowering.declares_array kind table later declared)
  have found : find? ⟨({ name, shape := .array first last, kind } :: scope) :: outer⟩ name =
      some { name, shape := .array first last, kind } := by
    rw [find?_cons, if_pos rfl]
  have new : Memory.new? (Symbol.nativeType { name, shape := .array first last, kind }) =
      arrayMemory? kind first last := new?_array ordered kind
  refine ⟨_, found, rfl, rfl, ?_, isSettled_i32_iff first, fun view slot typed => ?_,
    fun unit input place global inModule typed => ⟨fun none => ?_, fun machine made => ?_⟩⟩
  · have wraps := length_wraps ordered
    have positive := Int64.le_iff_toInt_le.mp ordered
    have counted : indexCount first last = last.toInt - first.toInt + 1 := rfl
    show (last - first + 1).toInt = _ ∧ 1 ≤ (last - first + 1).toInt ↔ _
    split at wraps <;> omega
  · rw [← new, ← typed]
    cases made : Memory.new? slot.type <;> simp [View.effect, made]
  · cases made : Machine.new? unit input with
    | none => rfl
    | some machine =>
      obtain ⟨memory, _, isNew⟩ := Machine.new?_memory made inModule
      rw [typed, new, none] at isNew
      cases isNew
  · obtain ⟨memory, there, isNew⟩ := Machine.new?_memory made inModule
    rw [there, ← isNew, typed, new]

theorem declareArray_usable_fiveIndices :
    ∃ later symbol, (enter .empty).declareArray "few" .integer (-2) 2 = .ok later ∧
      later.find? "few" = some symbol ∧ symbol.length.toInt = 5 ∧
      (Operand.int .i32 symbol.first).IsSettled ∧
      ∀ (view : View) (slot : Slot), slot.type = symbol.nativeType →
        view.effect (.alloca slot) =
          .ok (.allocate slot.id ⟨.int .i32, Array.replicate 5 (.int 0)⟩) := by
  have declared : (enter .empty).declareArray "few" .integer (-2) 2 =
      .ok ⟨[[{ name := "few", shape := .array (-2) 2, kind := .integer }]]⟩ := by
    decide +kernel
  obtain ⟨symbol, found, _, _, counted, settled, allocated, _⟩ := declareArray_usable declared
  have short : indexCount (-2) 2 < 2 ^ 63 := by decide
  refine ⟨_, symbol, declared, found, (counted.mpr short).1, settled.mpr (by decide),
    fun view slot typed => ?_⟩
  rw [allocated view slot typed]
  rfl

end Table

/-- Bounds are accepted for which there are more elements than a machine can have, for which the
length is zero in 64 bits, and from which a wrong constant is taken away. -/
theorem wideArrays_unusable :
    (∃ unit, compile "wide" [.arrayDeclaration 1 "wide" "INTEGER" 0 9223372036854775807] =
        .ok unit ∧
      Machine.new? unit [] = none) ∧
    (∃ unit machine, compile "empty"
        [.arrayDeclaration 1 "all" "INTEGER" (-9223372036854775808) 9223372036854775807] =
          .ok unit ∧
      Machine.new? unit [] = some machine ∧ machine.memories = #[⟨.int .i32, #[]⟩]) ∧
    (compile "far" [.arrayDeclaration 1 "far" "INTEGER" 1099511627776 1099511627776]).isOk ∧
      ¬ (Operand.int .i32 1099511627776).IsSettled := by
  have wide : ((compile "wide"
      [.arrayDeclaration 1 "wide" "INTEGER" 0 9223372036854775807]).toOption.any
        fun unit => Machine.new? unit [] = none) = true := by
    decide +kernel
  have whole : ((compile "empty"
      [.arrayDeclaration 1 "all" "INTEGER" (-9223372036854775808)
        9223372036854775807]).toOption.any
          fun unit => (Machine.new? unit []).any
            fun machine => machine.memories = #[⟨.int .i32, #[]⟩]) = true := by
    decide +kernel
  obtain ⟨unit, compiled, refused⟩ := Lowering.compile_any wide
  obtain ⟨unitToo, compiledToo, checks⟩ := Lowering.compile_any whole
  obtain ⟨machine, made, memories⟩ := (Option.any_eq_true ..).mp checks
  refine ⟨⟨unit, compiled, of_decide_eq_true refused⟩,
    ⟨unitToo, machine, compiledToo, made, of_decide_eq_true memories⟩, by decide +kernel, ?_⟩
  rw [isSettled_i32_iff]
  decide

end Pascaline
