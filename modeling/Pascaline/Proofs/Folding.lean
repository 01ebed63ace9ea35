/-
Constants are converted as the machine would convert them. Lowering brings an integer to another
width in two ways: a constant is converted on the spot, and for any other value an instruction is
written, which the machine executes later. Both come to the same number for every number of the
type. So nothing depends on whether an operand is a constant or has been computed.
-/

import Pascaline.Proofs.Widths

namespace Pascaline

namespace IntType

/-- The integer types of lowered programs. -/
def widths : List IntType := [.i1, .i8, .i32]

theorem eq_of_bits_widths {source target : IntType} (isSource : source ∈ widths)
    (isTarget : target ∈ widths) (same : source.bits = target.bits) : source = target := by
  revert same
  fin_cases isSource <;> fin_cases isTarget <;> decide

theorem eq_i32_of_wide {source : IntType} (isSource : source ∈ widths) (wide : 32 ≤ source.bits) :
    source = .i32 := by
  revert wide
  fin_cases isSource <;> decide

/-- A type cuts nothing off its numbers. -/
theorem Holds.wrap {type : IntType} {number : Int64} (holds : type.Holds number)
    (isWidth : type ∈ widths) : wrapToWidth type.bits number = number := by
  fin_cases isWidth
  · rcases holds.i1 rfl with rfl | rfl <;> decide
  · obtain ⟨lower, upper⟩ := holds.i8 rfl
    rw [Evaluation.wrapToWidth_i8, ← Int64.toInt_inj, Int8.toInt_toInt64, Int64.toInt_toInt8]
    exact Int.bmod_eq_of_le lower (by omega)
  · obtain ⟨lower, upper⟩ := holds.i32 rfl
    rw [Evaluation.wrapToWidth_i32, ← Int64.toInt_inj, Int32.toInt_toInt64, Int64.toInt_toInt32]
    exact Int.bmod_eq_of_le lower (by omega)

/-- The numbers of every type are numbers of 32 bits. -/
theorem Holds.i32_of_widths {type : IntType} {number : Int64} (holds : type.Holds number)
    (isWidth : type ∈ widths) : IntType.i32.Holds number := by
  refine ⟨fun _ => ?_, fun bits => absurd bits (by decide), fun bits => absurd bits (by decide)⟩
  fin_cases isWidth
  · rcases holds.i1 rfl with rfl | rfl <;> decide
  · have := holds.i8 rfl
    omega
  · exact holds.i32 rfl

end IntType

namespace Lowering

open IR (Build Operand)
open Machine (Value View)

/-! ### Conversions of one operand -/

/-- An operand of an integer type holds a number of the type. -/
structure Presents (view : View) (type : IntType) (number : Int64) (operand : Operand) :
    Prop where
  isWidth : type ∈ IntType.widths
  inRange : type.Holds number
  type : operand.type = .int type
  read : view.value operand = .ok (.int number)

/-- A conversion comes to a number: it leaves an operand that holds the number, or writes one
instruction that computes it. -/
inductive Yields (view : View) (type : IntType) (number : Int64) : Build Operand → Prop
  | standing {operand : Operand} (isType : operand.type = .int type)
      (read : view.value operand = .ok (.int number)) : Yields view type number (pure operand)
  | computed {cast : IR.Cast} {operand : Operand}
      (computes : view.convert cast operand (.int type) = .ok (.int number)) :
      Yields view type number (Build.convert cast operand (.int type))

section Conversions

variable {view : View} {source target : IntType} {number : Int64} {operand : Operand}

theorem Presents.yields (presents : Presents view source number operand) :
    Yields view source number (pure operand) :=
  .standing presents.type presents.read

theorem convert_eq {cast : IR.Cast} {converted : Int64} (target : IntType)
    (read : view.value operand = .ok (.int number))
    (casts : Machine.castInteger cast operand.type number = .ok converted) :
    view.convert cast operand (.int target) = .ok (.int (wrapToWidth target.bits converted)) := by
  simp only [View.convert, Evaluation.integer_eq read]
  show (Machine.castInteger cast operand.type number >>= fun number =>
    pure ((Value.int number).fit (.int target))) = _
  rw [casts]
  rfl

/-- Any operand comes to the number cut to the new width. -/
theorem resize_yields (presents : Presents view source number operand)
    (isTarget : target ∈ IntType.widths) :
    Yields view target (wrapToWidth target.bits number) (resize operand target) := by
  unfold resize
  simp only [presents.type]
  split
  · rename_i same
    obtain rfl := IntType.eq_of_bits_widths presents.isWidth isTarget same
    rw [presents.inRange.wrap isTarget]
    exact presents.yields
  · split
    · cases presents.read
      exact .standing rfl rfl
    · split <;> exact .computed (convert_eq target presents.read rfl)

/-- Any operand keeps its number when it is widened to 32 bits. -/
theorem promote_yields (presents : Presents view source number operand) :
    Yields view .i32 number (promote operand) := by
  have fits := (presents.inRange.i32_of_widths presents.isWidth).wrap (by decide)
  unfold promote
  simp only [presents.type]
  split
  · rename_i wide
    obtain rfl := IntType.eq_i32_of_wide presents.isWidth wide
    exact presents.yields
  · split
    · cases presents.read
      exact .standing rfl rfl
    · refine .computed ?_
      rw [← fits]
      refine convert_eq .i32 presents.read ?_
      split
      · -- One bit is zero or one, and masking keeps both.
        rename_i bits
        rw [presents.type]
        show Machine.maskToWidth source.bits number = .ok number
        rw [bits]
        rcases presents.inRange.i1 bits with rfl | rfl <;> rfl
      · rfl

end Conversions

/-! ### Uses of operands -/

/-- Two steps that use operands come to the same: they fail alike, or convert one or two operands to
the same numbers and go on in the same way. -/
inductive Coincide {Result : Type} (view : View) : Lower Result → Lower Result → Prop
  | fails (failure : LoweringFailure) : Coincide view (throw failure) (throw failure)
  | one {type : IntType} {number : Int64} {first second : Build Operand}
      (finish : Operand → Result) (yields : Yields view type number first)
      (yieldsToo : Yields view type number second) :
      Coincide view (finish <$> build first) (finish <$> build second)
  | two {type : IntType} {left right : Int64} {first second third fourth : Build Operand}
      (finish : Operand → Operand → Result) (leftYields : Yields view type left first)
      (leftYieldsToo : Yields view type left second) (rightYields : Yields view type right third)
      (rightYieldsToo : Yields view type right fourth) :
      Coincide view (do return finish (← build first) (← build third))
        (do return finish (← build second) (← build fourth))

section Uses

variable {view : View} {source other : IntType} {number numberToo : Int64}
  {first second third fourth : Operand}

theorem Coincide.of_build {conversion conversionToo : Build Operand}
    (yields : Yields view source number conversion)
    (yieldsToo : Yields view source number conversionToo) :
    Coincide view (build conversion) (build conversionToo) := by
  have same := Coincide.one id yields yieldsToo
  rwa [id_map, id_map] at same

/-- What is stored. -/
theorem fit_coincide (name : Bytes) (kind : Kind) (presents : Presents view source number first)
    (presentsToo : Presents view source number second) :
    Coincide view (fit name kind.native first) (fit name kind.native second) := by
  have listed : ∀ type, kind.native = .int type → type ∈ IntType.widths := by
    cases kind <;> rintro _ ⟨⟩ <;> decide
  unfold fit
  rw [presents.type, presentsToo.type]
  split
  · exact .fails _
  · split
    · rename_i type isInteger
      split
      · exact .of_build (resize_yields presents (listed type isInteger))
          (resize_yields presentsToo (listed type isInteger))
      · exact .one id presents.yields presentsToo.yields
    · exact .one id presents.yields presentsToo.yields

/-- What is indexed with. -/
theorem lowerIndex_coincide (presents : Presents view source number first)
    (presentsToo : Presents view source number second) :
    Coincide view (lowerIndex (pure first)) (lowerIndex (pure second)) := by
  have step (operand : Operand) (type : operand.type = .int source) :
      lowerIndex (pure operand) = if (Ty.int source).category = .integral then
        build (resize operand .i32) else throw ⟨[.index], .ofDiagnostic
          (.mismatch "index" Category.integral.text (Ty.int source).category.text)⟩ := by
    funext workspace
    rw [lowerIndex, within, pure_bind, expectCategory, type]
    by_cases integral : (Ty.int source).category = .integral
    · rw [if_pos integral, if_pos integral]
      rfl
    · rw [if_neg integral, if_neg integral]
      rfl
  rw [step first presents.type, step second presentsToo.type]
  split
  · exact .of_build (resize_yields presents (by decide)) (resize_yields presentsToo (by decide))
  · exact .fails _

/-- What is printed. -/
theorem lowerPrinted_coincide (position : Nat) (presents : Presents view source number first)
    (presentsToo : Presents view source number second) :
    Coincide view (lowerPrinted position first) (lowerPrinted position second) := by
  unfold lowerPrinted
  rw [presents.type, presentsToo.type]
  split
  · rename_i format _
    exact .one (format, ·) (promote_yields presents) (promote_yields presentsToo)
  · exact .fails _

/-- What is compared, and what is added, multiplied and so on. -/
theorem unify_coincide (operator : Bytes) (presents : Presents view source number first)
    (presentsToo : Presents view source number second)
    (rightPresents : Presents view other numberToo third)
    (rightPresentsToo : Presents view other numberToo fourth) :
    Coincide view (unify operator first third) (unify operator second fourth) := by
  unfold unify
  simp only [presents.type, presentsToo.type, rightPresents.type, rightPresentsToo.type]
  split
  · exact .fails _
  · split
    · exact .two (fun left right => (left, right, _)) (resize_yields presents rightPresents.isWidth)
        (resize_yields presentsToo rightPresents.isWidth) rightPresents.yields
        rightPresentsToo.yields
    · split
      · exact .two (fun left right => (left, right, _)) presents.yields presentsToo.yields
          (resize_yields rightPresents presents.isWidth)
          (resize_yields rightPresentsToo presents.isWidth)
      · rename_i notNarrower notWider
        obtain rfl := IntType.eq_of_bits_widths presents.isWidth rightPresents.isWidth
          (Int16.le_antisymm (Int16.not_lt.mp notWider) (Int16.not_lt.mp notNarrower))
        exact .two (fun left right => (left, right, _)) presents.yields presentsToo.yields
          rightPresents.yields rightPresentsToo.yields

end Uses

/-- Constants are converted as the machine would convert them. Let a register hold a number of its
integer type. Bringing the number itself to another width, or widening it for printing, gives a
constant, and the conversion that is written for the register comes to the number of that constant.
So it makes no difference to what is stored, indexed with, printed or compared which one of several
operands that hold the same number is used. -/
theorem conversions_fold {view : View} {source : IntType} {number : Int64}
    {register : IR.Register} (presents : Presents view source number (.reg register)) :
    (∀ target ∈ IntType.widths, ∃ folded,
      resize (.int source number) target = pure (.int target folded) ∧
      Yields view target folded (resize (.reg register) target)) ∧
    (∃ folded, promote (.int source number) = pure (.int .i32 folded) ∧
      Yields view .i32 folded (promote (.reg register))) ∧
    ∀ first second, Presents view source number first → Presents view source number second →
      (∀ name (kind : Kind),
        Coincide view (fit name kind.native first) (fit name kind.native second)) ∧
      Coincide view (lowerIndex (pure first)) (lowerIndex (pure second)) ∧
      (∀ position, Coincide view (lowerPrinted position first) (lowerPrinted position second)) ∧
      ∀ operator other numberToo third fourth, Presents view other numberToo third →
        Presents view other numberToo fourth →
          Coincide view (unify operator first third) (unify operator second fourth) ∧
          Coincide view (unify operator third first) (unify operator fourth second) := by
  refine ⟨fun target isTarget => ⟨_, ?_, resize_yields presents isTarget⟩,
    ⟨number, ?_, promote_yields presents⟩, fun first second holds holdsToo =>
      ⟨fun name kind => fit_coincide name kind holds holdsToo, lowerIndex_coincide holds holdsToo,
        fun position => lowerPrinted_coincide position holds holdsToo,
        fun operator other numberToo third fourth rightHolds rightHoldsToo =>
          ⟨unify_coincide operator holds holdsToo rightHolds rightHoldsToo,
            unify_coincide operator rightHolds rightHoldsToo holds holdsToo⟩⟩⟩
  · by_cases same : source.bits = target.bits
    · obtain rfl := IntType.eq_of_bits_widths presents.isWidth isTarget same
      rw [presents.inRange.wrap isTarget]
      exact if_pos rfl
    · exact if_neg same
  · by_cases wide : 32 ≤ source.bits
    · obtain rfl := IntType.eq_i32_of_wide presents.isWidth wide
      rfl
    · exact if_neg wide

/-- A byte above 127, in a character and as a constant. -/
theorem conversions_fold_char :
    let view : View := ⟨⟨[], #[], #[], #[]⟩, ⟨#[], [], #[], 0, 0⟩,
      ⟨0, #[.int (-56)], #[], #[], 0, 0⟩⟩
    Presents view .i8 (-56) (.reg ⟨0, .i8⟩) ∧
      (∃ folded, resize (.int .i8 (-56)) .i32 = pure (.int .i32 folded) ∧
        Yields view .i32 folded (resize (.reg ⟨0, .i8⟩) .i32)) ∧
      Coincide view (unify "<" (.int .i8 (-56)) (.int .i32 200))
        (unify "<" (.reg ⟨0, .i8⟩) (.int .i32 200)) := by
  intro view
  have inRange : IntType.i8.Holds (-56) := ⟨by decide, by decide, by decide⟩
  have presents : Presents view .i8 (-56) (.reg ⟨0, .i8⟩) := ⟨by decide, inRange, rfl, rfl⟩
  have number : Presents view .i32 200 (.int .i32 200) :=
    ⟨by decide, ⟨by decide, by decide, by decide⟩, rfl, rfl⟩
  obtain ⟨resized, _, uses⟩ := conversions_fold presents
  exact ⟨presents, resized .i32 (by decide),
    ((uses _ _ ⟨by decide, inRange, rfl, rfl⟩ presents).2.2.2 "<" _ _ _ _ number number).1⟩

end Lowering

end Pascaline
