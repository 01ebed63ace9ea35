/-
The text of data. Between its quotes a datum is written with printable characters alone: a
backslash and two digits stand for each byte that is not printable or would be misread. Reading them
back gives the bytes and the NUL byte behind them, so different bytes are never written in the same
way.
-/

import Pascaline.Proofs.Names

namespace Pascaline.IR

/-! ### Reading back -/

/-- One of the sixteen hexadecimal digits, in upper case. -/
def UpperHex (byte : UInt8) : Prop :=
  Bytes.code '0' ≤ byte ∧ byte ≤ Bytes.code '9' ∨ Bytes.code 'A' ≤ byte ∧ byte ≤ Bytes.code 'F'

/-- The value of a hexadecimal digit, in upper or lower case. -/
def hexValue? (byte : UInt8) : Option Nat := (Bytes.digitValue? byte).filter (· < 16)

/-- A backslash and two hexadecimal digits are the byte with this number, and any other character
is itself. -/
def unescape : Bytes → Bytes
  | first :: high :: low :: rest =>
    match hexValue? high, hexValue? low, first == Bytes.code '\\' with
    | some high, some low, true => (16 * high + low).toUInt8 :: unescape rest
    | _, _, _ => first :: unescape (high :: low :: rest)
  | text => text

theorem unescape_plain {byte : UInt8} (isPlain : byte ≠ Bytes.code '\\') (rest : Bytes) :
    unescape (byte :: rest) = byte :: unescape rest := by
  rcases rest with _ | ⟨high, _ | ⟨low, rest⟩⟩
  · rfl
  · rfl
  · simp [unescape, isPlain]

/-! ### Written bytes -/

/-- Between quotes these stand for themselves. -/
def Plain (byte : UInt8) : Prop :=
  Bytes.code ' ' ≤ byte ∧ byte < 0x7F ∧ byte ≠ Bytes.code '"' ∧ byte ≠ Bytes.code '\\'

theorem upperHexDigit_digit : ∀ digit < 16, UpperHex (upperHexDigit digit) ∧
    hexValue? (upperHexDigit digit) = some digit ∧ Plain (upperHexDigit digit) := by
  simp only [UpperHex, Plain]
  decide

/-- A text that is written for bytes. -/
inductive Written : Bytes → Bytes → Prop
  | nil : Written [] []
  | plain {byte : UInt8} {text bytes : Bytes} (isPlain : Plain byte) (rest : Written text bytes) :
      Written (byte :: text) (byte :: bytes)
  | escaped {high low : Nat} {text bytes : Bytes} (highDigit : high < 16) (lowDigit : low < 16)
      (rest : Written text bytes) :
      Written (Bytes.code '\\' :: upperHexDigit high :: upperHexDigit low :: text)
        ((16 * high + low).toUInt8 :: bytes)

theorem dataText_written (bytes : Bytes) : Written (dataText bytes) (bytes ++ [0]) := by
  induction bytes with
  | nil => exact @Written.escaped 0 0 [] [] (by decide) (by decide) .nil
  | cons byte bytes rest =>
    rw [dataText, List.flatMap_cons, List.append_assoc, ← dataText, dataByteText]
    split
    · rename_i isPlain
      exact .plain isPlain rest
    · have small := byte.toNat_lt
      have whole : (16 * (byte.toNat / 16) + byte.toNat % 16).toUInt8 = byte := by
        rw [Nat.div_add_mod]
        simp
      have written :=
        @Written.escaped (byte.toNat / 16) (byte.toNat % 16) _ _ (by omega) (by omega) rest
      rwa [whole] at written

namespace Written

variable {text bytes : Bytes}

theorem printable (written : Written text bytes) : ∀ byte ∈ text,
    Bytes.code ' ' ≤ byte ∧ byte < 0x7F ∧ byte ≠ Bytes.code '"' := by
  have ofPlain {byte : UInt8} (isPlain : Plain byte) :
      Bytes.code ' ' ≤ byte ∧ byte < 0x7F ∧ byte ≠ Bytes.code '"' :=
    ⟨isPlain.1, isPlain.2.1, isPlain.2.2.1⟩
  induction written with
  | nil => exact List.forall_mem_nil _
  | plain isPlain _ others => exact List.forall_mem_cons.mpr ⟨ofPlain isPlain, others⟩
  | escaped highDigit lowDigit _ others =>
    simp only [List.forall_mem_cons]
    exact ⟨by decide, ofPlain (upperHexDigit_digit _ highDigit).2.2,
      ofPlain (upperHexDigit_digit _ lowDigit).2.2, others⟩

/-- Every backslash is in front of two digits. -/
theorem escapes (written : Written text bytes) {front back : Bytes}
    (split : text = front ++ Bytes.code '\\' :: back) :
    ∃ high low rest, back = high :: low :: rest ∧ UpperHex high ∧ UpperHex low := by
  induction written generalizing front with
  | nil => simp at split
  | plain isPlain _ others =>
    cases front with
    | nil => exact absurd (List.cons.inj split).1 isPlain.2.2.2
    | cons first front => exact others (List.cons.inj split).2
  | escaped highDigit lowDigit _ others =>
    obtain ⟨isHex, _, isPlain⟩ := upperHexDigit_digit _ highDigit
    obtain ⟨alsoHex, _, alsoPlain⟩ := upperHexDigit_digit _ lowDigit
    -- The backslash is the first of three characters, or it is behind all of them.
    rcases front with _ | ⟨_, _ | ⟨_, _ | ⟨_, front⟩⟩⟩
    · exact ⟨_, _, _, (List.cons.inj split).2.symm, isHex, alsoHex⟩
    · simp [isPlain.2.2.2] at split
    · simp [alsoPlain.2.2.2] at split
    · simp only [List.cons_append, List.cons.injEq] at split
      exact others split.2.2.2

theorem unescape_eq (written : Written text bytes) : unescape text = bytes := by
  induction written with
  | nil => rfl
  | plain isPlain _ others => rw [unescape_plain isPlain.2.2.2, others]
  | escaped highDigit lowDigit _ others =>
    obtain ⟨_, value, _⟩ := upperHexDigit_digit _ highDigit
    obtain ⟨_, alsoValue, _⟩ := upperHexDigit_digit _ lowDigit
    simp [unescape, value, alsoValue, others]

end Written

/-! ### Data in a module -/

/-- What a datum is set to, with its length. -/
def initializerText (bytes : Bytes) : Bytes :=
  "[" ++ Bytes.ofNat (bytes.length + 1) ++ " x i8] c\"" ++ dataText bytes ++ "\""

theorem datumText_eq_initializer (datum : Datum) (id : Nat) : datumText datum id =
    datumName datum id ++ " = private constant " ++ initializerText datum.bytes ++ "\n" := by
  simp only [datumText, initializerText, List.append_assoc]
  rfl

theorem initializerText_injective : Function.Injective initializerText := by
  intro first second same
  have opened (bytes : Bytes) : initializerText bytes = "[" ++ Bytes.ofNat (bytes.length + 1) ++
      " x i8] c" ++ Bytes.code '"' :: dataText bytes ++ "\"" := by
    simp only [initializerText, List.append_assoc]
    rfl
  -- The first quote of both texts is the one in front of the data.
  have noQuote (number : Nat) :
      Bytes.code '"' ∉ ("[" ++ Bytes.ofNat number ++ " x i8] c" : Bytes) := by
    simp only [List.mem_append, not_or]
    refine ⟨⟨by decide, fun member => ?_⟩, by decide⟩
    exact absurd (Bytes.isDigit_of_mem_ofNat member) (by decide)
  rw [opened, opened] at same
  obtain ⟨_, _, texts⟩ := (List.append_cons_inj_of_notMem (noQuote _) fun member =>
    ((dataText_written first).printable _ member).2.2 rfl).mp (List.append_cancel_right same)
  have read : first ++ [0] = second ++ [0] := by
    rw [← (dataText_written first).unescape_eq, texts, (dataText_written second).unescape_eq]
  exact List.append_cancel_right read

theorem Module.text_datum (unit : Module) (id : Fin unit.data.size) :
    datumText unit.data[id] id <:+: unit.text := by
  have listed : datumText unit.data[id] id ∈
      unit.data.toList.mapIdx fun id datum => datumText datum id :=
    List.mem_mapIdx.mpr ⟨id, by simp, by simp⟩
  have inData := List.infix_of_mem_flatten listed
  have something : datumText unit.data[id] id ≠ [] :=
    List.append_ne_nil_of_right_ne_nil _ (by decide)
  simp only [text]
  rw [if_neg (by rintro none; exact something (List.infix_nil.mp (none ▸ inData)))]
  exact ((inData.trans (List.suffix_cons _ _).isInfix).trans (List.suffix_append _ _).isInfix).trans
    ((List.prefix_append _ _).trans (List.prefix_append _ _)).isInfix

/-- Data survive printing. What the text of a module has between the quotes of a datum is printable
and without a quote, and every backslash in it is in front of two digits. Read back it is the bytes
of the datum and a NUL byte, as many as the text says, so other bytes have another initializer. -/
theorem datum_readBack (unit : Module) (id : Fin unit.data.size) :
    let datum := unit.data[id]
    let text := dataText datum.bytes
    (datumName datum id ++ " = private constant " ++ initializerText datum.bytes ++ "\n" : Bytes)
      <:+: unit.text ∧
    initializerText datum.bytes =
      "[" ++ Bytes.ofNat (unescape text).length ++ " x i8] c\"" ++ text ++ "\"" ∧
    (∀ byte ∈ text, Bytes.code ' ' ≤ byte ∧ byte < 0x7F ∧ byte ≠ Bytes.code '"') ∧
    (∀ front back, text = front ++ Bytes.code '\\' :: back →
      ∃ high low rest, back = high :: low :: rest ∧ UpperHex high ∧ UpperHex low) ∧
    unescape text = datum.bytes ++ [0] ∧
    ∀ other, initializerText other = initializerText datum.bytes ↔ other = datum.bytes := by
  intro datum text
  have written := dataText_written datum.bytes
  refine ⟨?_, ?_, written.printable, fun front back => written.escapes, written.unescape_eq,
    fun other => initializerText_injective.eq_iff⟩
  · rw [← datumText_eq_initializer]
    exact unit.text_datum id
  · rw [written.unescape_eq, List.length_append]
    rfl

end Pascaline.IR
