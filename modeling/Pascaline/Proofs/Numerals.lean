/-
Numbers behind names. A name that is taken gets the first number with which it is not, and blocks
with the same stem are counted. A number behind a text that does not end in a digit can be told from
the text, so no two names that are made in this way are the same.
-/

import Mathlib
import Pascaline.IR.Builder
import Pascaline.Machine.Scan
import Pascaline.Number.Reader

namespace Pascaline

/-! ### Numbers in decimal -/

/-- The byte of a digit stands for its value, and it is neither a sign nor a blank. -/
theorem Bytes.digit {char : Char} (isDigit : char.isDigit = true) :
    Bytes.digitValue? (Bytes.code char) = some (char.toNat - '0'.toNat) ∧
      char.toNat - '0'.toNat < 10 ∧ Bytes.code char ≠ Bytes.code '-' ∧
      Bytes.code char ≠ Bytes.code '+' ∧ Machine.Scan.isBlank (Bytes.code char) = false := by
  have low : 48 ≤ char.toNat := by
    simp only [Char.isDigit, Bool.and_eq_true, decide_eq_true_eq] at isDigit
    exact isDigit.1
  have high : char.toNat ≤ 57 := by
    simp only [Char.isDigit, Bool.and_eq_true, decide_eq_true_eq] at isDigit
    exact isDigit.2
  unfold Bytes.code
  generalize char.toNat = number at low high
  interval_cases number <;> decide

theorem naturalOfDigits?_code {digits : List Char}
    (areDigits : ∀ char ∈ digits, char.isDigit = true) :
    naturalOfDigits? 10 (digits.map Bytes.code) = some (Nat.ofDigitChars 10 digits 0) := by
  unfold naturalOfDigits?
  generalize 0 = value
  induction digits generalizing value with
  | nil => rfl
  | cons char digits others =>
    obtain ⟨isValue, small, _⟩ := Bytes.digit (areDigits char (List.mem_cons_self ..))
    rw [List.map_cons, List.foldlM_cons, isValue, Nat.ofDigitChars_cons]
    have step : (do
        let digit ← some (char.toNat - '0'.toNat)
        if digit < 10 then some (value * 10 + digit) else none) =
          some (10 * value + (char.toNat - '0'.toNat)) := by
      rw [Nat.mul_comm 10 value]
      exact if_pos small
    rw [step]
    exact others (fun other member => areDigits other (List.mem_cons_of_mem _ member)) _

theorem naturalOfDigits?_ofNat (number : Nat) :
    naturalOfDigits? 10 (Bytes.ofNat number) = some number := by
  rw [Bytes.ofNat, naturalOfDigits?_code fun char member =>
    Nat.isDigit_of_mem_toDigits (by decide) (by decide) member,
    Nat.ofDigitChars_toDigits (by decide) (by decide)]

/-- The bytes of a natural number. -/
theorem Bytes.mem_ofNat {number : Nat} {byte : UInt8} (member : byte ∈ Bytes.ofNat number) :
    byte ≠ Bytes.code '-' ∧ byte ≠ Bytes.code '+' ∧ Machine.Scan.isBlank byte = false := by
  obtain ⟨char, listed, rfl⟩ := List.mem_map.mp member
  exact (Bytes.digit (Nat.isDigit_of_mem_toDigits (by decide) (by decide) listed)).2.2

theorem Bytes.ofNat_ne_nil (number : Nat) : Bytes.ofNat number ≠ [] := by
  simp [Bytes.ofNat, Nat.toDigits_ne_nil]

/-! ### Numbers behind texts -/

namespace Bytes

theorem ofNat_injective : Function.Injective ofNat := fun first second same =>
  Option.some.inj (by rw [← naturalOfDigits?_ofNat first, same, naturalOfDigits?_ofNat])

theorem isDigit_of_mem_ofNat {number : Nat} {byte : UInt8} (member : byte ∈ ofNat number) :
    isDigit byte = true := by
  obtain ⟨char, listed, rfl⟩ := List.mem_map.mp member
  have ⟨value, small, _⟩ := digit (Nat.isDigit_of_mem_toDigits (by decide) (by decide) listed)
  by_contra other
  simp only [digitValue?, if_neg other] at value
  split at value
  · have := Option.some.inj value
    omega
  · cases value

/-- A text without the digits at its end. -/
def trunk (text : Bytes) : Bytes := text.rdropWhile isDigit

theorem trunk_append {front back : Bytes} {last : UInt8} (isLast : back.getLast? = some last)
    (isOther : isDigit last = false) : trunk (front ++ back) = front ++ back := by
  refine List.rdropWhile_eq_self_iff.mpr fun something => ?_
  have same : (front ++ back).getLast? = some last := by rw [List.getLast?_append, isLast]; rfl
  rw [List.getLast?_eq_some_getLast something] at same
  simpa [Option.some.inj same] using isOther

theorem trunk_digits {front digits : Bytes} (areDigits : ∀ byte ∈ digits, isDigit byte = true) :
    trunk (front ++ digits) = trunk front := by
  have skipped : (digits.reverse ++ front.reverse).dropWhile isDigit =
      front.reverse.dropWhile isDigit :=
    List.dropWhile_append_of_pos fun byte member => areDigits byte (List.mem_reverse.mp member)
  rw [trunk, List.rdropWhile, List.reverse_append, skipped]
  rfl

/-- Digits behind a text that does not end in one can be told from it. -/
theorem split_digits {front other digits others : Bytes} (whole : trunk front = front)
    (wholeToo : trunk other = other) (areDigits : ∀ byte ∈ digits, isDigit byte = true)
    (areDigitsToo : ∀ byte ∈ others, isDigit byte = true)
    (same : front ++ digits = other ++ others) : front = other ∧ digits = others := by
  have fronts : front = other := by
    rw [← whole, ← trunk_digits areDigits, same, trunk_digits areDigitsToo, wholeToo]
  subst fronts
  exact ⟨rfl, List.append_cancel_left same⟩

/-- So can a number. -/
theorem split_ofNat {front other : Bytes} {number another : Nat} (whole : trunk front = front)
    (wholeToo : trunk other = other) (same : front ++ ofNat number = other ++ ofNat another) :
    front = other ∧ number = another :=
  (split_digits whole wholeToo (fun _ => isDigit_of_mem_ofNat) (fun _ => isDigit_of_mem_ofNat)
    same).imp id (@ofNat_injective _ _)

theorem ne_ofNat {text front : Bytes} {number : Nat} (whole : trunk text = text)
    (wholeToo : trunk front = front) : text ≠ front ++ ofNat number := fun same =>
  ofNat_ne_nil number (split_digits whole wholeToo (List.forall_mem_nil _)
    (fun _ => isDigit_of_mem_ofNat) ((List.append_nil text).trans same)).2.symm

end Bytes

namespace IR

/-! ### Fresh names -/

theorem candidateName_injective (name : Bytes) : Function.Injective (candidateName name) := by
  have longer (number : Nat) : name ≠ candidateName name (number + 1) := by
    simp [candidateName, Bytes.ofNat_ne_nil]
  intro first second same
  cases first with
  | zero =>
    cases second with
    | zero => rfl
    | succ second => exact absurd same (longer second)
  | succ first =>
    cases second with
    | zero => exact absurd same.symm (longer first)
    | succ second => exact Bytes.ofNat_injective (List.append_cancel_left same)

/-- The first candidate that is free is found, at the latest after as many as there are names. -/
theorem freshName_first (taken : List Bytes) (name : Bytes) : ∃ number ≤ taken.length,
    freshName taken name = candidateName name number ∧ candidateName name number ∉ taken ∧
      ∀ earlier < number, candidateName name earlier ∈ taken := by
  cases found : (List.range (taken.length + 1)).find?
      fun number => !taken.contains (candidateName name number) with
  | none =>
    -- There would be more different candidates in the list than it has members.
    have all : (List.range (taken.length + 1)).map (candidateName name) ⊆ taken := by
      intro candidate member
      obtain ⟨number, inRange, rfl⟩ := List.mem_map.mp member
      simpa using List.find?_eq_none.mp found number inRange
    have distinct : ((List.range (taken.length + 1)).map (candidateName name)).Nodup :=
      List.nodup_range.map (candidateName_injective name)
    have short := (distinct.subperm all).length_le
    simp at short
  | some number =>
    obtain ⟨free, inside, early⟩ := List.find?_range_eq_some.mp found
    refine ⟨number, by simpa using inside, ?_, by simpa using free, by simpa using early⟩
    simp only [freshName, found, Option.getD_some]

theorem freshName_not_mem (taken : List Bytes) (name : Bytes) : freshName taken name ∉ taken := by
  obtain ⟨number, _, isName, free, _⟩ := freshName_first taken name
  rwa [isName]

/-! ### Counted blocks -/

/-- Stems with numbers, which count the same stem before. -/
inductive Counted : List (Bytes × Nat) → Prop
  | nil : Counted []
  | snoc {marks : List (Bytes × Nat)} {stem : Bytes} (counted : Counted marks)
      (whole : stem.trunk = stem) : Counted (marks ++ [(stem, marks.countP (·.1 = stem))])

theorem Counted.distinct {marks : List (Bytes × Nat)} (counted : Counted marks) :
    marks.Nodup ∧ ∀ mark ∈ marks, mark.1.trunk = mark.1 ∧ mark.2 < marks.countP (·.1 = mark.1) := by
  induction counted with
  | nil => simp
  | @snoc marks stem _ whole facts =>
    obtain ⟨distinct, facts⟩ := facts
    refine ⟨List.nodup_append.mpr ⟨distinct, List.nodup_singleton _, ?_⟩, fun mark member => ?_⟩
    · -- Earlier marks with the stem have lower numbers than the count.
      rintro mark member _ (_ | ⟨_, ⟨⟩⟩) rfl
      exact Nat.lt_irrefl _ (facts _ member).2
    · rw [List.countP_append]
      rcases List.mem_append.mp member with early | late
      · exact ⟨(facts mark early).1, Nat.lt_add_right _ (facts mark early).2⟩
      · rw [List.mem_singleton.mp late]
        simpa using whole

end IR

end Pascaline
