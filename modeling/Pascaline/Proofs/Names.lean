/-
Names in the text of a module. Names are made by putting numbers and fixed words behind others, and
the names of a program may look just like that. Still no two of them are the same.
-/

import Pascaline.IR.Text
import Pascaline.Proofs.Containment

namespace Pascaline

namespace IR

open Bytes (trunk)

theorem Function.labels_nodup {function : Function} (counted : Counted function.marks) :
    (function.blocks.toList.map Block.label).Nodup := by
  obtain ⟨distinct, facts⟩ := counted.distinct
  let digits (copy : Nat) : Bytes := if copy = 0 then [] else Bytes.ofNat copy
  have isLabel : function.blocks.toList.map Block.label =
      function.marks.map fun mark => mark.1 ++ digits mark.2 := by
    rw [Function.marks, List.map_map]
    refine List.map_congr_left fun block _ => ?_
    unfold Block.label digits
    grind
  have areDigits (copy : Nat) : ∀ byte ∈ digits copy, Bytes.isDigit byte = true := by
    unfold digits
    split
    · exact List.forall_mem_nil _
    · exact fun byte member => Bytes.isDigit_of_mem_ofNat member
  rw [isLabel]
  refine List.Nodup.map_on (fun mark isMark other isOther same => ?_) distinct
  obtain ⟨sameStem, sameDigits⟩ := Bytes.split_digits (facts mark isMark).1 (facts other isOther).1
    (areDigits _) (areDigits _) same
  refine Prod.ext sameStem ?_
  unfold digits at sameDigits
  have something := Bytes.ofNat_ne_nil
  have injective := Bytes.ofNat_injective
  grind [Function.Injective]

/-- The names of the parameters, stack variables and registers of a function. -/
def Function.valueNames (function : Function) : List Bytes :=
  (List.range function.params.length).map function.paramName ++
    (List.range function.locals.size).map function.localName ++
    function.definitions.map registerName

theorem Function.valueNames_nodup {function : Function} (params : function.params.Nodup)
    (registers : (function.definitions.map Register.id).Nodup) : function.valueNames.Nodup := by
  have ofParam (index : Nat) : trunk (function.paramName index) = function.paramName index :=
    Bytes.trunk_append rfl (by decide)
  have ofLocal (name : Bytes) : trunk ("%" ++ name ++ ".addr") = "%" ++ name ++ ".addr" :=
    Bytes.trunk_append rfl (by decide)
  have ofRegister : trunk "%t" = "%t" := by decide
  have first : ((List.range function.params.length).map function.paramName).Nodup := by
    refine List.Nodup.map_on (fun index isIndex other isOther same => ?_) List.nodup_range
    rw [List.mem_range] at isIndex isOther
    have same := List.append_cancel_left (List.append_cancel_right same)
    rw [List.getElem?_eq_getElem isIndex, List.getElem?_eq_getElem isOther] at same
    exact params.getElem_inj_iff.mp same
  have second : ((List.range function.locals.size).map function.localName).Nodup :=
    List.Nodup.map_on (fun id _ other _ same => (Bytes.split_ofNat (ofLocal _) (ofLocal _) same).2)
      List.nodup_range
  have third : (function.definitions.map registerName).Nodup := by
    have numbers : Function.Injective fun id => Bytes.ofString "%t" ++ Bytes.ofNat id :=
      fun _ _ same => Bytes.ofNat_injective (List.append_cancel_left same)
    have distinct := registers.map numbers
    rwa [List.map_map] at distinct
  refine List.nodup_append.mpr ⟨List.nodup_append.mpr ⟨first, second, ?_⟩, third, ?_⟩
  · intro text isParam other isLocal
    obtain ⟨index, _, rfl⟩ := List.mem_map.mp isParam
    obtain ⟨id, _, rfl⟩ := List.mem_map.mp isLocal
    exact Bytes.ne_ofNat (ofParam index) (ofLocal _)
  · intro text isSlot other isRegister same
    obtain ⟨register, _, rfl⟩ := List.mem_map.mp isRegister
    rcases List.mem_append.mp isSlot with isParam | isLocal
    · obtain ⟨index, _, rfl⟩ := List.mem_map.mp isParam
      exact Bytes.ne_ofNat (ofParam index) ofRegister same
    · -- Without their numbers, the two names end in different letters.
      obtain ⟨id, _, rfl⟩ := List.mem_map.mp isLocal
      have last := congrArg List.getLast? (Bytes.split_ofNat (ofLocal _) ofRegister same).1
      rw [List.getLast?_append] at last
      cases last

end IR

namespace Lowering

/-- All names in the text of a module that a program is compiled to are different, whatever names
the program uses. No two functions or variables of the module have the same name; those that are
served from outside have the names under which they are known there, and the first one is the main
function. In a function, no two blocks have the same label, and no two parameters, stack variables
or registers the same name. A name that is taken gets a number; the search ends, at the latest after
as many numbers as there are names. -/
theorem compile_namesDistinct {name : Bytes} {program : Program} {unit : IR.Module}
    (compiled : compile name program = .ok unit) :
    unit.names.Nodup ∧
    (∀ function ∈ unit.functions, function.external = true →
      function.name = "printf" ∨ function.name = "scanf") ∧
    (unit.functions[0]?).map IR.Function.name = some (Bytes.ofString "main") ∧
    (∀ function ∈ unit.functions, (function.blocks.toList.map IR.Block.label).Nodup ∧
      (function.external = false → function.valueNames.Nodup)) ∧
    ∀ (taken : List Bytes) (wanted : Bytes), ∃ number ≤ taken.length,
      IR.freshName taken wanted = IR.candidateName wanted number ∧
      IR.candidateName wanted number ∉ taken ∧
      ∀ earlier < number, IR.candidateName wanted earlier ∈ taken := by
  obtain ⟨_, workspace, lowered, rfl⟩ := compile_eq_ok.mp compiled
  have sound := (lowerProgram_sound lowered).1
  obtain ⟨fair, settled⟩ := lowerProgram_settled lowered
  refine ⟨fair.distinct, fun function member isExternal => ?_, ?_, fun function member => ?_,
    IR.freshName_first⟩
  · obtain ⟨place, found⟩ := Array.mem_iff_getElem?.mp member
    simpa [servedNames] using (sound.served place function found isExternal).1
  · obtain ⟨finished, steps, isAfter⟩ := lowerProgram_cases lowered
    obtain ⟨atEnd, extended⟩ := lowerNodes_extending _ _ steps (programStart_holds name)
    have holds := extended.holds.place (atEnd.endWith (.ret (some (.int .i32 0))))
    rw [isAfter atEnd extended.holds, Workspace.place, holds.function, Option.map_some,
      (IR.Site.Confined.endWith atEnd _).grows.name, extended.confined.grows.name]
    rfl
  · obtain ⟨place, found⟩ := Array.mem_iff_getElem?.mp member
    have isSettled := settled place function found
    refine ⟨IR.Function.labels_nodup isSettled.marks, fun isDefined => ?_⟩
    refine IR.Function.valueNames_nodup isSettled.params ?_
    exact (sound.defined place function found isDefined).1.registers.nodup_iff.mpr List.nodup_range

/-- A program with names that look like made ones. -/
def imitations : Program :=
  [.declaration 1 "f.1" "INTEGER",
  .procedure 2 "f" [⟨"x", "INTEGER"⟩, ⟨"x.arg", "INTEGER"⟩]
    [.declaration 3 "x.addr0" "INTEGER",
    .procedure 4 "f" [] [],
    .output 5 [.identifier 5 "x"]]]

/-- The names of its functions and variables, and the names in its procedure. -/
def imitated : List Bytes × List Bytes :=
  (["main", "f", "f.2", "printf", "f.1"],
    ["%x.arg", "%x.arg.arg", "%x.addr0", "%x.arg.addr1", "%x.addr0.addr2", "%t0", "%t1"])

theorem compile_namesDistinct_imitations :
    ∃ unit function, compile "names" imitations = .ok unit ∧ unit.functions[1]? = some function ∧
      (unit.names, function.valueNames) = imitated ∧
      unit.names.Nodup ∧ function.valueNames.Nodup := by
  have checks : ((compile "names" imitations).toOption.any fun unit =>
      (unit.functions[1]?).any fun function =>
        function.external = false ∧ (unit.names, function.valueNames) = imitated) = true := by
    decide +kernel
  obtain ⟨unit, compiled, checks⟩ := compile_any checks
  obtain ⟨function, found, checks⟩ := (Option.any_eq_true ..).mp checks
  obtain ⟨defined, names⟩ := of_decide_eq_true checks
  obtain ⟨distinct, _, _, inside, _⟩ := compile_namesDistinct compiled
  exact ⟨unit, function, compiled, found, names, distinct,
    (inside function (Array.mem_of_getElem? found)).2 defined⟩

end Lowering

end Pascaline
