/-
Types that are the same. All pointers are alike, and everything else is compared part by part. So
two types are the same just if they agree once what pointers point to is forgotten, and nothing that
can be observed of a type depends on what its pointers point to.
-/

import Mathlib
import Pascaline.Types.Native

namespace Pascaline.Ty

mutual

/-- The type without what its pointers point to. -/
def faceless : Ty → Ty
  | .ptr _ => .ptr .unknown
  | .array element length => .array element.faceless length
  | .func params result variadic => .func (facelessList params) result.faceless variadic
  | .unknown => .unknown
  | .void => .void
  | .int type => .int type
  | .float bits => .float bits

def facelessList : List Ty → List Ty
  | [] => []
  | param :: params => param.faceless :: facelessList params

end

mutual

/-- Whether every part of a type is known. What a pointer points to is no part of it. -/
def isKnown : Ty → Bool
  | .unknown => false
  | .array element _ => element.isKnown
  | .func params result _ => result.isKnown && areKnown params
  | .void | .int _ | .float _ | .ptr _ => true

def areKnown : List Ty → Bool
  | [] => true
  | param :: params => param.isKnown && areKnown params

end

/-! ### Types that are the same -/

mutual

/-- Comparing part by part, with all pointers alike, is comparing once what pointers point to is
forgotten. -/
theorem same_iff : ∀ left right : Ty, left.same right = true ↔ left.faceless = right.faceless
  | .unknown, right | .void, right | .int _, right | .float _, right | .ptr _, right => by
    cases right <;> simp [same, faceless]
  | .array left _, right => by
    cases right <;> simp [same, faceless]
    rw [same_iff left]
    exact And.comm
  | .func params left _, right => by
    cases right <;> simp [same, faceless]
    rw [same_iff left, sameList_iff params]
    tauto

theorem sameList_iff : ∀ lefts rights : List Ty,
    sameList lefts rights = true ↔ facelessList lefts = facelessList rights
  | [], rights => by cases rights <;> simp [sameList, facelessList]
  | left :: lefts, rights => by
    cases rights <;> simp [sameList, facelessList]
    rw [same_iff left, sameList_iff lefts]

end

/-! ### What can be observed of a type -/

mutual

theorem isWritable_faceless : ∀ type : Ty, type.faceless.isWritable = type.isWritable
  | .func params _ _ => areWritable_faceless params
  | .unknown | .void | .int _ | .float _ | .ptr _ | .array _ _ => rfl

theorem areWritable_faceless :
    ∀ types : List Ty, areWritable (facelessList types) = areWritable types
  | [] => rfl
  | type :: types => congrArg₂ and (isWritable_faceless type) (areWritable_faceless types)

end

mutual

/-- What is left out does not show in the text, so types that are the same look the same. -/
theorem text_faceless : ∀ type : Ty, type.faceless.text = type.text
  | .unknown | .void | .int _ | .float _ | .ptr _ => rfl
  | .array element length => by simp [faceless, text, text_faceless element]
  | .func params result variadic => by
    have head := text_faceless result
    have tail := paramsText_faceless params variadic
    have writable := areWritable_faceless params
    cases result <;> simp_all [faceless, text]

theorem paramsText_faceless : ∀ (types : List Ty) (variadic : Bool),
    paramsText (facelessList types) variadic = paramsText types variadic
  | [], _ => rfl
  | [type], _ => by simp [facelessList, paramsText, text_faceless type]
  | type :: next :: types, variadic => by
    have rest := paramsText_faceless (next :: types) variadic
    rw [facelessList] at rest
    simp [facelessList, paramsText, text_faceless type, rest]

end

theorem size?_faceless (type : Ty) : type.faceless.size? = type.size? := by
  induction type using size?.induct <;> simp_all [faceless, size?]

theorem category_faceless (type : Ty) : type.faceless.category = type.category := by
  cases type <;> rfl

theorem printFormat?_faceless (type : Ty) : type.faceless.printFormat? = type.printFormat? := by
  cases type <;> rfl

theorem scanFormat?_faceless (type : Ty) : type.faceless.scanFormat? = type.scanFormat? := by
  rw [scanFormat?, scanFormat?, printFormat?_faceless]

/-! ### Types that are known -/

mutual

/-- A type that is known down to its parts can be written down. -/
theorem isWritable_of_isKnown : ∀ type : Ty, type.isKnown = true → type.isWritable = true
  | .func params _ _, known => areWritable_of_areKnown params (Bool.and_eq_true_iff.mp known).2
  | .void, _ | .int _, _ | .float _, _ | .ptr _, _ | .array _ _, _ => rfl

theorem areWritable_of_areKnown :
    ∀ types : List Ty, areKnown types = true → areWritable types = true
  | [], _ => rfl
  | type :: types, known => by
    obtain ⟨first, rest⟩ := Bool.and_eq_true_iff.mp known
    exact Bool.and_eq_true_iff.mpr
      ⟨isWritable_of_isKnown type first, areWritable_of_areKnown types rest⟩

end

theorem size?_of_isKnown (type : Ty) (known : type.isKnown = true) : type.size?.isSome = true := by
  induction type using size?.induct <;> simp_all [isKnown, size?]

/-- Being the same is a congruence. It is an equivalence of all types, unknown ones and unknown
parts included, and types that are the same have the same text, size, category and conversions. A
type whose parts are known has a text and a size. -/
theorem same_congruence :
    Equivalence (fun left right : Ty => left.same right = true) ∧
    ∀ left right : Ty, left.same right = true →
      left.text = right.text ∧ left.size? = right.size? ∧ left.category = right.category ∧
      left.printFormat? = right.printFormat? ∧ left.scanFormat? = right.scanFormat? ∧
      left.isWritable = right.isWritable ∧
      (left.isKnown = true → left.isWritable = true ∧ left.size?.isSome = true) := by
  simp only [same_iff]
  refine ⟨⟨fun _ => rfl, Eq.symm, Eq.trans⟩, fun left right same => ⟨?_, ?_, ?_, ?_, ?_, ?_,
    fun known => ⟨isWritable_of_isKnown left known, size?_of_isKnown left known⟩⟩⟩
  · rw [← text_faceless left, same, text_faceless]
  · rw [← size?_faceless left, same, size?_faceless]
  · rw [← category_faceless left, same, category_faceless]
  · rw [← printFormat?_faceless left, same, printFormat?_faceless]
  · rw [← scanFormat?_faceless left, same, scanFormat?_faceless]
  · rw [← isWritable_faceless left, same, isWritable_faceless]

/-- Two arrays of functions whose pointers point to different types. -/
theorem same_congruence_callbacks :
    let left : Ty := .array (.func [.ptr .i8, .i32] (.ptr .void) true) 4
    let right : Ty := .array (.func [.ptr (.array .double 3), .i32] (.ptr .unknown) true) 4
    left ≠ right ∧ left.same right = true ∧ left.isKnown = true ∧ left.text = right.text ∧
      left.size? = right.size? ∧ right.size? = some 32 := by
  intro left right
  have same : left.same right = true := by decide
  obtain ⟨text, size, _⟩ := same_congruence.2 left right same
  exact ⟨by decide, same, rfl, text, size, rfl⟩

end Pascaline.Ty
