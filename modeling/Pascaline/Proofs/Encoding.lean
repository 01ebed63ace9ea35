/-
This file gives the scalars of the source language and relates them to the values of the machine.

Every scalar has one encoding. The machine prints the encoding of a scalar as the scalar, and what
it reads from the input is the encoding of the scalar there.
-/

import Mathlib
import Pascaline.Machine.Run
import Pascaline.Proofs.Typing

namespace Pascaline.Evaluation

open IR (Operand)
open Machine (Value View)

/-! ### Scalars -/

/-- A value of the source language. A text may be absent, as that of a string that was never
assigned. -/
inductive Scalar where
  | integer (value : Int32)
  | char (value : Int8)
  | boolean (value : Bool)
  | real (value : Double)
  | text (bytes : Option Bytes)
  deriving DecidableEq

namespace Scalar

/-- How a scalar is printed. -/
def printed : Scalar → Bytes
  | .integer number => Bytes.ofInt number.toInt
  | .char code => [code.toUInt8]
  | .boolean truth => if truth then "1" else "0"
  | .real number => number.toFixed 6
  | .text none => "(null)"
  | .text (some bytes) => bytes

/-- The value of the machine for a scalar. -/
def encode : Scalar → Value
  | .integer number => .int number.toInt64
  | .char code => .int code.toInt64
  | .boolean truth => .ofBool truth
  | .real number => .float number
  | .text none => .nil
  | .text (some bytes) => .text bytes

/-- The native type of a scalar. -/
def native : Scalar → Ty
  | .integer _ => .i32
  | .char _ => .i8
  | .boolean _ => .i1
  | .real _ => .double
  | .text _ => .bytes

end Scalar

/-- A word of the input as a scalar of a kind. A boolean is the last bit of a number. -/
def ofWord? (kind : Kind) (text : Bytes) : Option Scalar :=
  match kind with
  | .integer => (readInt? text).map fun number => .integer number.toInt32
  | .boolean => (readInt? text).map fun number => .boolean (number &&& 1 = 1)
  | .real => (readReal? text).map .real
  | .string | .date => some (.text (some text))
  | .char | .none => none

/-- Takes a scalar from the input, which is read by words; a character is the first byte that is
not blank. There is no scalar at the end of the input, and none in a word of another form. -/
def take (kind : Kind) (input : Bytes) : Bytes × Option Scalar :=
  match kind with
  | .char =>
    match Machine.Scan.skipBlanks input with
    | [] => ([], none)
    | byte :: rest => (rest, some (.char byte.toInt8))
  | kind =>
    match Machine.Scan.word input with
    | ([], rest) => (rest, none)
    | (text, rest) => (rest, ofWord? kind text)

/-! ### Widths -/

theorem wrapToWidth_i32 (number : Int64) :
    wrapToWidth IntType.i32.bits number = number.toInt32.toInt64 := by
  simp [wrapToWidth, IntType.i32]

theorem wrapToWidth_i8 (number : Int64) :
    wrapToWidth IntType.i8.bits number = number.toInt8.toInt64 := by
  simp [wrapToWidth, IntType.i8]

theorem wrapToWidth_i1 (number : Int64) : wrapToWidth IntType.i1.bits number = number &&& 1 := by
  simp [wrapToWidth, IntType.i1]

@[simp]
theorem fit_i32 (number : Int64) :
    (Value.int number).fit .i32 = .int number.toInt32.toInt64 :=
  congrArg Value.int (wrapToWidth_i32 number)

@[simp]
theorem fit_i8 (number : Int64) : (Value.int number).fit .i8 = .int number.toInt8.toInt64 :=
  congrArg Value.int (wrapToWidth_i8 number)

@[simp]
theorem fit_i1 (number : Int64) : (Value.int number).fit .i1 = .int (number &&& 1) :=
  congrArg Value.int (wrapToWidth_i1 number)

/-- The last bit of a number as a truth. -/
theorem and_one_eq (number : Int64) :
    number &&& 1 = if number &&& 1 = 1 then 1 else 0 := by
  have bit : number &&& 1 = 0 ∨ number &&& 1 = 1 := by
    simp only [← Int64.toBitVec_inj, Int64.toBitVec_and, Int64.toBitVec_one, Int64.toBitVec_zero,
      BitVec.and_one_eq_setWidth_ofBool_getLsbD]
    cases number.toBitVec.getLsbD 0
    · exact .inl rfl
    · exact .inr rfl
  rcases bit with zero | one
  · rw [zero]
    rfl
  · rw [one]
    rfl

/-! ### Operations -/

section Operations

variable {view : View} {left right operand : Operand} {scalar : Scalar}

theorem integer_eq {number : Int64} (read : view.value operand = .ok (.int number)) :
    view.integer operand = .ok number := by
  simp only [View.integer, read]
  rfl

theorem float_eq {number : Double} (read : view.value operand = .ok (.float number)) :
    view.float operand = .ok number := by
  simp only [View.float, read]
  rfl

theorem address_eq {memory offset : Nat}
    (read : view.value operand = .ok (.address memory offset)) :
    view.address operand = .ok (memory, offset) := by
  simp only [View.address, read]
  rfl

theorem binary_int_eq {arith : IR.Arith} {leftNumber rightNumber : Int64} {type : Ty}
    (leftRead : view.value left = .ok (.int leftNumber))
    (rightRead : view.value right = .ok (.int rightNumber)) :
    view.binary (.int arith) left right type =
      (Machine.integerArithmetic arith leftNumber rightNumber).map
        fun number => (Value.int number).fit type := by
  simp only [View.binary, integer_eq leftRead, integer_eq rightRead]
  show (Machine.integerArithmetic arith leftNumber rightNumber >>= fun number =>
    pure ((Value.int number).fit type)) = _
  cases Machine.integerArithmetic arith leftNumber rightNumber <;> rfl

/-! ### Conversions -/

/-- Widening for a variadic function keeps the number. -/
theorem convert_promoted {source : IntType} (integer : scalar.native = .int source)
    (narrow : ¬ 32 ≤ source.bits) (type : operand.type = scalar.native)
    (read : view.value operand = .ok scalar.encode) :
    view.convert (Lowering.promoting source) operand .i32 = .ok scalar.encode := by
  cases scalar with
  | integer number =>
    cases integer
    exact absurd (by decide) narrow
  | char code =>
    cases integer
    simp only [View.convert, integer_eq read]
    exact congrArg Except.ok ((fit_i32 _).trans (by simp [Scalar.encode]))
  | boolean truth =>
    cases integer
    rw [Scalar.native] at type
    simp only [View.convert, integer_eq read, type]
    cases truth <;> rfl
  | _ => cases integer

end Operations

/-! ### Output -/

theorem toUInt8_toInt64 (code : Int8) : code.toInt64.toBitVec.toNat.toUInt8 = code.toUInt8 := by
  apply UInt8.toBitVec_inj.mp
  show BitVec.ofNat 8 (code.toBitVec.signExtend 64).toNat = code.toBitVec
  apply BitVec.eq_of_getLsbD_eq
  intro place inside
  simp [BitVec.getLsbD_signExtend, inside]
  omega

variable {scalar : Scalar} {format : Bytes} {kind : Kind}

/-- A scalar under the conversion of its type is printed as itself. -/
theorem render_scalar (found : scalar.native.printFormat? = some format) (rest : Bytes)
    (args : List Value) :
    Machine.Print.render (format ++ rest) (scalar.encode :: args) =
      (Machine.Print.render rest args).map fun text => scalar.printed ++ text := by
  have printing {verb : UInt8} (isVerb : verb ≠ Bytes.code '%')
      (text : Machine.Print.argumentText verb scalar.encode = .ok scalar.printed) :
      Machine.Print.render (Bytes.code '%' :: verb :: rest) (scalar.encode :: args) =
        (Machine.Print.render rest args).map fun text => scalar.printed ++ text := by
    rw [Machine.Print.render, if_neg (not_not_intro rfl), if_neg isVerb, text]
    show (Machine.Print.render rest args >>= fun text => pure (scalar.printed ++ text)) = _
    cases Machine.Print.render rest args <;> rfl
  cases scalar with
  | integer number =>
    cases found
    exact printing (by decide)
      (congrArg (fun number => Except.ok (Bytes.ofInt number)) (Int32.toInt_toInt64 number))
  | char code =>
    cases found
    exact printing (by decide) (congrArg (fun byte => Except.ok [byte]) (toUInt8_toInt64 code))
  | boolean truth =>
    cases found
    refine printing (by decide) ?_
    cases truth <;> rfl
  | real number =>
    cases found
    exact printing (by decide) rfl
  | text bytes =>
    cases found
    cases bytes <;> exact printing (by decide) rfl

/-- Scalars under the conversions of their types are printed one behind the other. -/
theorem render_scalars {formats : List Bytes} {scalars : List Scalar}
    (found : List.Forall₂ (fun format scalar => scalar.native.printFormat? = some format)
      formats scalars) (rest text : Bytes) (args : List Value)
    (renders : Machine.Print.render rest args = .ok text) :
    Machine.Print.render (formats.flatten ++ rest) (scalars.map Scalar.encode ++ args) =
      .ok (scalars.flatMap Scalar.printed ++ text) := by
  induction found with
  | nil => exact renders
  | cons first _ others =>
    rw [List.flatten_cons, List.append_assoc, List.map_cons, List.cons_append, render_scalar first,
      others, List.flatMap_cons, List.append_assoc]
    rfl

/-! ### Input -/

theorem request_verb (verb : UInt8) (input : Bytes) :
    Machine.Scan.request none [Bytes.code '%', verb] input = (input, .verb verb) := by
  rw [Machine.Scan.request, if_neg (by decide), if_pos rfl]
  rfl

/-- What became of a conversion is the scalar in the input, if there is one. -/
def Shows (kind : Kind) (outcome : Machine.Scan.Outcome) (scalar : Option Scalar) : Prop :=
  (∀ value, outcome = .read value →
    ∃ result, scalar = some result ∧ value.fit kind.native = result.encode ∧
      result.native = kind.native) ∧
    ((∀ value, outcome ≠ .read value) → scalar = none)

theorem Shows.none {outcome : Machine.Scan.Outcome} (unread : ∀ value, outcome ≠ .read value) :
    Shows kind outcome none :=
  ⟨fun value read => (unread value read).elim, fun _ => rfl⟩

theorem Shows.some {value : Value} (fits : value.fit kind.native = scalar.encode)
    (native : scalar.native = kind.native) : Shows kind (.read value) (some scalar) := by
  refine ⟨fun other read => ?_, fun unread => (unread value rfl).elim⟩
  cases read
  exact ⟨scalar, rfl, fits, native⟩

/-- Words are read alike on both sides. -/
theorem readWord_shows {reader : Bytes → Option Value}
    (isWord : ∀ input, take kind input =
      ((Machine.Scan.word input).2, if (Machine.Scan.word input).1 = [] then none
        else ofWord? kind (Machine.Scan.word input).1))
    (reads : ∀ text, Shows kind (.ofOption (reader text)) (ofWord? kind text)) (input : Bytes) :
    (Machine.Scan.readWord reader input).1 = (take kind input).1 ∧
      Shows kind (Machine.Scan.readWord reader input).2 (take kind input).2 := by
  rw [isWord, Machine.Scan.readWord]
  obtain ⟨text, rest⟩ := Machine.Scan.word input
  cases text with
  | nil => exact ⟨rfl, .none fun value read => by cases read⟩
  | cons byte text => exact ⟨rfl, reads _⟩

theorem ofOption_shows {Read : Type} {found : Option Read} {value : Read → Value}
    {scalar : Read → Scalar} (fits : ∀ read, (value read).fit kind.native = (scalar read).encode)
    (native : ∀ read, (scalar read).native = kind.native) :
    Shows kind (.ofOption (found.map value)) (found.map scalar) := by
  cases found with
  | none => exact .none fun value read => by cases read
  | some read => exact .some (fits read) (native read)

/-- A conversion takes from the input what the source language takes. -/
theorem conversion_take (isKind : kind ≠ .none) (found : kind.native.scanFormat? = some format)
    (input : Bytes) :
    ∃ outcome, Machine.Scan.conversion format input = ((take kind input).1, .ok outcome) ∧
      Shows kind outcome (take kind input).2 := by
  have words {verb : UInt8} {reader : Bytes → Option Value} (isVerb : verb ≠ Bytes.code 'c')
      (isReader : Machine.Scan.wordReader? verb = some reader)
      (isWord : ∀ input, take kind input =
        ((Machine.Scan.word input).2, if (Machine.Scan.word input).1 = [] then none
          else ofWord? kind (Machine.Scan.word input).1))
      (reads : ∀ text, Shows kind (.ofOption (reader text)) (ofWord? kind text)) :
      ∃ outcome, Machine.Scan.conversion [Bytes.code '%', verb] input =
          ((take kind input).1, .ok outcome) ∧ Shows kind outcome (take kind input).2 := by
    obtain ⟨same, shows⟩ := readWord_shows isWord reads input
    refine ⟨_, ?_, shows⟩
    rw [Machine.Scan.conversion, request_verb]
    simp only [isVerb, if_false, isReader]
    rw [← same]
    rfl
  have byWords (other : kind ≠ .char) (input : Bytes) : take kind input =
      ((Machine.Scan.word input).2, if (Machine.Scan.word input).1 = [] then none
        else ofWord? kind (Machine.Scan.word input).1) := by
    cases kind with
    | char => exact (other rfl).elim
    | _ =>
      unfold take
      obtain ⟨text, rest⟩ := Machine.Scan.word input
      cases text <;> rfl
  cases kind with
  | none => exact (isKind rfl).elim
  | integer =>
    cases found
    refine words (by decide) rfl (byWords (by decide)) fun text => ?_
    exact ofOption_shows (fun number => by simp [Kind.native, Scalar.encode]) fun _ => rfl
  | boolean =>
    cases found
    refine words (by decide) rfl (byWords (by decide)) fun text => ?_
    refine ofOption_shows (fun number => ?_) fun _ => rfl
    rw [Kind.native, fit_i1, and_one_eq]
    simp [Scalar.encode, Value.ofBool]
  | real =>
    cases found
    refine words (by decide) rfl (byWords (by decide)) fun text => ?_
    exact ofOption_shows (fun number => rfl) fun _ => rfl
  | string =>
    cases found
    exact words (by decide) rfl (byWords (by decide)) fun text => .some rfl rfl
  | date =>
    cases found
    exact words (by decide) rfl (byWords (by decide)) fun text => .some rfl rfl
  | char =>
    have format : Kind.char.native.scanFormat? =
      some [0x20, Bytes.code '%', Bytes.code 'c'] := by decide
    rw [format] at found
    cases found
    rw [Machine.Scan.conversion, Machine.Scan.request, if_pos rfl, take]
    cases Machine.Scan.skipBlanks input with
    | nil => exact ⟨.atEnd, rfl, .none fun value read => by cases read⟩
    | cons byte rest =>
      dsimp only
      rw [request_verb]
      refine ⟨_, rfl, .some ?_ rfl⟩
      simp [Kind.native, Scalar.encode]

end Pascaline.Evaluation
