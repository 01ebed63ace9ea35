/-
Points of lowering. A point is a workspace together with the site where a routine is being written,
at which all is well: members of the module have fair names, a variable in scope has storage of its
type, and a routine in scope has a function with its signature. Straight-line code leads from point
to point. It is typed and guarded, also in every later version of the module.

Rules for the steps of lowering take a step apart into the steps it is made of, and say what is
known of its result.
-/

import Pascaline.Proofs.Completion
import Pascaline.Session

namespace Pascaline

open IR (Build Operand Slot Site)

/-- Types of values that are the same for calls are equal. -/
theorem Kind.native_eq_of_same {kind : Kind} {type : Ty} (scalar : type.IsScalar)
    (same : kind.native.same type = true) : type = kind.native := by
  rcases scalar.cases with rfl | rfl | rfl | rfl | rfl <;> cases kind <;>
    first | rfl | exact absurd same (by decide)

theorem Kind.ofName?_ne_none {name : Bytes} {kind : Kind} (named : Kind.ofName? name = some kind) :
    kind ≠ .none := by
  have member : (Kind.lowerName name, kind) ∈ Kind.names := by
    have found := named
    unfold Kind.ofName? at found
    generalize Kind.lowerName name = key at found
    simp only [Kind.names, List.lookup] at found ⊢
    repeat' split at found
    all_goals simp_all
  have listed : ∀ entry ∈ Kind.names, entry.2 ≠ .none := by decide
  exact listed _ member

/-! ### Members of modules -/

namespace Lowering

/-- The names of the functions that are served from outside. -/
def servedNames : List Bytes := ["printf", "scanf"]

theorem Service.served (service : Service) : service.name ∈ servedNames := by
  cases service <;> decide

theorem isReserved_of_served {name : Bytes} (served : name ∈ servedNames) :
    isReserved name = true := by
  have listed : ∀ name ∈ servedNames, isReserved name = true := by decide
  exact listed name served

theorem unserved_of_free {name : Bytes} (free : isReserved name = false) : name ∉ servedNames := by
  intro served
  rw [isReserved_of_served served] at free
  cases free

/-- A name with a number behind it is not reserved. -/
theorem candidateName_reserved {name : Bytes} {number : Nat}
    (reserved : isReserved (IR.candidateName name number) = true) : isReserved name = true := by
  cases number with
  | zero => exact reserved
  | succ number =>
    -- A dot stands in the name, and in no reserved one.
    have dotted : Bytes.code '.' ∈ IR.candidateName name (number + 1) := by
      simp only [IR.candidateName, List.append_assoc, List.mem_append]
      exact .inr (.inl (by decide))
    have plain : ∀ name ∈ reservedNames, Bytes.code '.' ∉ name := by decide
    exact (plain _ (by simpa [isReserved] using reserved) dotted).elim

theorem freshName_free {name : Bytes} {taken : List Bytes} (free : isReserved name = false) :
    isReserved (IR.freshName taken name) = false := by
  rw [Bool.eq_false_iff] at free ⊢
  exact fun reserved => free (candidateName_reserved reserved)

theorem freshName_of_not_mem {name : Bytes} {taken : List Bytes} (free : name ∉ taken) :
    IR.freshName taken name = name := by
  have first : (List.range (taken.length + 1)).find?
      (fun number => !taken.contains (IR.candidateName name number)) = some 0 := by
    rw [List.range_succ_eq_map, List.find?_cons_of_pos]
    simpa [IR.candidateName] using free
  simp only [IR.freshName, first]
  rfl

theorem findFunction?_found {unit : IR.Module} {name : Bytes} {place : Nat}
    (found : unit.findFunction? name = some place) :
    ∃ function, unit.functions[place]? = some function ∧ function.name = name := by
  obtain ⟨inside, named, _⟩ := Array.findIdx?_eq_some_iff_getElem.mp found
  exact ⟨_, Array.getElem?_eq_getElem inside, by simpa using named⟩

end Lowering

namespace IR

/-- A function whose name is its own: functions that are served from outside have theirs to
themselves. -/
def Function.Fair (function : Function) : Prop :=
  if function.external then
    function.name ∈ Lowering.servedNames ∧ function.signature = Lowering.formattedSignature
  else function.name ∉ Lowering.servedNames

/-- A module whose members have fair names, all of them different. -/
structure Module.Fair (unit : Module) : Prop where
  functions : ∀ (place : Nat) (function : Function), unit.functions[place]? = some function →
    function.Fair
  globals : ∀ (place : Nat) (global : Variable), unit.globals[place]? = some global →
    isReserved global.name = false
  distinct : unit.names.Nodup

/-- A module that is right. Functions that are served from outside have their names to
themselves. -/
structure Module.Sound (unit : Module) : Prop where
  defined : ∀ (place : Nat) (function : Function), unit.functions[place]? = some function →
    function.external = false → function.Sound unit ∧ function.name ∉ Lowering.servedNames
  served : ∀ (place : Nat) (function : Function), unit.functions[place]? = some function →
    function.external = true → function.name ∈ Lowering.servedNames ∧
      function.signature = Lowering.formattedSignature
  globals : ∀ (place : Nat) (global : Variable), unit.globals[place]? = some global →
    isReserved global.name = false

theorem Module.Fair.sound {unit : Module} (fair : unit.Fair)
    (defined : ∀ (place : Nat) (function : Function), unit.functions[place]? = some function →
      function.external = false → function.Sound unit) : unit.Sound := by
  refine ⟨fun place function found isDefined => ⟨defined place function found isDefined, ?_⟩,
    fun place function found served => ?_, fair.globals⟩
  · simpa [Function.Fair, isDefined] using fair.functions place function found
  · simpa [Function.Fair, served] using fair.functions place function found

theorem Function.Grows.fair {function grown : Function} (grows : function.Grows grown)
    (fair : function.Fair) : grown.Fair := by
  unfold Function.Fair at fair ⊢
  rwa [grows.external, grows.name, grows.signature]

/-- What is fair in the end was fair before. -/
theorem Module.Grows.fair {unit grown : Module} (grows : unit.Grows grown) (fair : grown.Fair) :
    unit.Fair := by
  refine ⟨fun place function found => ?_, fun place global found =>
    fair.globals place global (grows.globals place global found), ?_⟩
  · obtain ⟨later, foundLater, functionGrows⟩ := grows.functions place function found
    have isFair := fair.functions place later foundLater
    unfold Function.Fair at isFair ⊢
    rwa [functionGrows.external, functionGrows.name, functionGrows.signature] at isFair
  · have functions : unit.functions.toList.map Function.name <+:
        grown.functions.toList.map Function.name := by
      refine List.prefix_iff_getElem?.mpr fun index inside => ?_
      simp only [List.length_map, Array.length_toList] at inside
      obtain ⟨later, found, functionGrows⟩ :=
        grows.functions index _ (Array.getElem?_eq_getElem inside)
      simp [found, functionGrows.name]
    have globals : unit.globals.toList.map Variable.name <+:
        grown.globals.toList.map Variable.name := by
      refine List.prefix_iff_getElem?.mpr fun index inside => ?_
      simp only [List.length_map, Array.length_toList] at inside
      simp [grows.globals index _ (Array.getElem?_eq_getElem inside)]
    exact (functions.sublist.append globals.sublist).nodup fair.distinct

namespace Module.Fair

variable {unit : Module} {name : Bytes}

theorem addFunction (fair : unit.Fair) {function : Function} (isFair : function.Fair)
    (fresh : function.name ∉ unit.names) :
    Fair { unit with functions := unit.functions.push function } := by
  refine ⟨fun place other found => ?_, fair.globals, ?_⟩
  · rw [Array.getElem?_push] at found
    split at found
    · cases found
      exact isFair
    · exact fair.functions place other found
  · have swapped : ((unit.functions.push function).toList.map Function.name ++
        unit.globals.toList.map Variable.name).Perm (function.name :: unit.names) := by
      simp [Module.names]
    exact swapped.nodup_iff.mpr (List.nodup_cons.mpr ⟨fresh, fair.distinct⟩)

theorem place {builder : Builder} {id : Nat} {site later : Site} (fair : builder.unit.Fair)
    (holds : builder.Holds id site) (grows : site.function.Grows later.function) :
    (builder.place id later).unit.Fair := by
  refine ⟨fun place function found => ?_, fair.globals, ?_⟩
  · by_cases isOwn : place = id
    · subst isOwn
      rw [(holds.place later).function] at found
      cases found
      exact grows.fair (fair.functions _ _ holds.function)
    · rw [Builder.place_others _ _ _ isOwn] at found
      exact fair.functions place function found
  · have same : (builder.place id later).unit.names = builder.unit.names := by
      refine congrArg (· ++ _) (List.ext_getElem? fun index => ?_)
      by_cases isOwn : index = id
      · rw [isOwn]
        simp [(holds.place later).function, holds.function, grows.name]
      · simp [Builder.place_others _ _ _ isOwn]
    rw [same]
    exact fair.distinct

/-- A function that is served from outside is there once it has been asked for. -/
theorem declareFunction {builder : Builder} (fair : builder.unit.Fair)
    (served : name ∈ Lowering.servedNames) :
    (Build.declareFunction name Lowering.formattedSignature builder).2.unit.Fair ∧
      ∃ function, (Build.declareFunction name Lowering.formattedSignature builder).2.unit.functions[
          (Build.declareFunction name Lowering.formattedSignature builder).1]? = some function ∧
        function.name = name ∧ function.external = true ∧
        function.signature = Lowering.formattedSignature := by
  cases found : builder.unit.findFunction? name with
  | some id =>
    rw [Build.declareFunction_of_some found]
    obtain ⟨function, found, named⟩ := Lowering.findFunction?_found found
    refine ⟨fair, function, found, named, ?_⟩
    have isFair := fair.functions id function found
    unfold Function.Fair at isFair
    split at isFair
    · exact ⟨by assumption, isFair.2⟩
    · exact (isFair (named ▸ served)).elim
  | none =>
    rw [Build.declareFunction_of_none found]
    have free : name ∉ builder.unit.names := by
      intro taken
      rcases List.mem_append.mp taken with isFunction | isGlobal
      · obtain ⟨function, member, named⟩ := List.mem_map.mp isFunction
        have other := Array.findIdx?_eq_none_iff.mp found function (Array.mem_toList_iff.mp member)
        simp [named] at other
      · obtain ⟨global, member, named⟩ := List.mem_map.mp isGlobal
        obtain ⟨index, found⟩ := List.getElem?_of_mem member
        rw [Array.getElem?_toList] at found
        have isFree := fair.globals index global found
        rw [named, Lowering.isReserved_of_served served] at isFree
        cases isFree
    have named := Lowering.freshName_of_not_mem free
    refine ⟨fair.addFunction ?_ (freshName_not_mem _ _), _, Array.getElem?_push_size,
      named, rfl, rfl⟩
    simpa [Function.Fair, named] using served

end Module.Fair

end IR

/-- A number that was given to an external function belongs to it. -/
theorem Lowering.Service.Declared.found {service : Service} {unit : IR.Module} {id : Nat}
    (declared : service.Declared unit id) (fair : unit.Fair) :
    ∃ function, unit.functions[id]? = some function ∧ function.name = service.name ∧
      function.external = true ∧ function.signature = formattedSignature := by
  obtain ⟨builder, rfl, grows⟩ := declared
  have early := (Build.declareFunction_extends service.name formattedSignature builder).unit
  obtain ⟨-, function, found, named, isExternal, signature⟩ :=
    ((early.trans grows).fair fair).declareFunction service.served
  obtain ⟨grown, foundToo, functionGrows⟩ := grows.functions _ _ found
  exact ⟨grown, foundToo, functionGrows.name.trans named, functionGrows.external.trans isExternal,
    functionGrows.signature.trans signature⟩

namespace IR

/-- A finished function of a module: it is served from outside, or all that is asked of one is
true. -/
structure Function.Settled (unit : Module) (function : Function) : Prop where
  params : function.params.Nodup
  marks : Counted function.marks
  code : function.external = true ∨
    function.Sound unit ∧ function.Complete ∧ function.Secure unit

theorem Function.Settled.mono {unit grown : Module} {function : Function}
    (settled : function.Settled unit) (grows : unit.Grows grown) : function.Settled grown :=
  ⟨settled.params, settled.marks, settled.code.imp_right fun ⟨sound, complete, secure⟩ =>
    ⟨sound.mono grows, complete, secure.mono grows⟩⟩

end IR

/-! ### Names in scope -/

/-- Storage that is there: a variable of the module, which has no owner, or a stack variable of
the owner. -/
def IR.Slot.Placed (unit : IR.Module) (owner : Option Nat) (slot : Slot) : Prop :=
  match slot.storage with
  | .global => owner = none ∧ (unit.globals[slot.id]?).map IR.Variable.type = some slot.type
  | .stack => ∃ id function, owner = some id ∧ unit.functions[id]? = some function ∧
      (function.locals[slot.id]?).map IR.Local.type = some slot.type
  | .param => False

/-- A name that stands for something: a variable with its storage, or a routine with its
function. -/
structure Symbol.Sound (unit : IR.Module) (symbol : Symbol) : Prop where
  storage : symbol.isRoutine = false → symbol.kind ≠ .none ∧ ∃ slot, symbol.slot = some slot ∧
    slot.type = symbol.nativeType ∧ slot.Placed unit symbol.owner
  code : symbol.isRoutine = true → symbol.owner = none ∧ ∃ code function,
    symbol.code = some code ∧ unit.functions[code]? = some function ∧ function.external = false ∧
    function.signature = symbol.signature

def Table.Sound (unit : IR.Module) (table : Table) : Prop :=
  ∀ scope ∈ table.scopes, ∀ symbol ∈ scope, symbol.Sound unit

/-- The stack variables of a function that are in scope. -/
def Table.slots (table : Table) (id : Nat) : Set Nat :=
  {place | ∃ scope ∈ table.scopes, ∃ symbol ∈ scope, symbol.owner = some id ∧
    symbol.slot.map Slot.id = some place}

section Names

variable {unit grown : IR.Module} {owner : Option Nat} {slot : Slot} {symbol : Symbol}
  {table wider : Table} {name : Bytes} {scope : Scope} {outer : List Scope} {id : Nat}

theorem IR.Slot.Placed.mono (placed : slot.Placed unit owner) (grows : unit.Grows grown) :
    slot.Placed grown owner := by
  unfold IR.Slot.Placed at placed ⊢
  split at placed
  · obtain ⟨owned, type⟩ := placed
    obtain ⟨variable', found, isType⟩ := Option.map_eq_some_iff.mp type
    exact ⟨owned, by rw [grows.globals _ _ found, Option.map_some, isType]⟩
  · obtain ⟨id, function, owned, found, type⟩ := placed
    obtain ⟨later, foundLater, functionGrows⟩ := grows.functions id function found
    obtain ⟨stack, foundStack, isType⟩ := Option.map_eq_some_iff.mp type
    exact ⟨id, later, owned, foundLater, by
      rw [functionGrows.locals _ _ foundStack, Option.map_some, isType]⟩
  · exact placed

theorem Symbol.Sound.mono (sound : symbol.Sound unit) (grows : unit.Grows grown) :
    symbol.Sound grown := by
  refine ⟨fun isVariable => ?_, fun isRoutine => ?_⟩
  · obtain ⟨isKind, slot, hasSlot, type, placed⟩ := sound.storage isVariable
    exact ⟨isKind, slot, hasSlot, type, placed.mono grows⟩
  · obtain ⟨unowned, code, function, hasCode, found, defined, signature⟩ := sound.code isRoutine
    obtain ⟨later, foundLater, functionGrows⟩ := grows.functions code function found
    exact ⟨unowned, code, later, hasCode, foundLater, functionGrows.external.trans defined,
      functionGrows.signature.trans signature⟩

namespace Table.Sound

theorem mono (sound : table.Sound unit) (grows : unit.Grows grown) : table.Sound grown :=
  fun scope member symbol here => (sound scope member symbol here).mono grows

theorem find? (sound : table.Sound unit) (found : table.find? name = some symbol) :
    symbol.Sound unit := by
  obtain ⟨scope, member, here, _⟩ := Table.find?_mem found
  exact sound scope member symbol here

theorem enter (sound : table.Sound unit) : table.enter.Sound unit := by
  intro scope member symbol here
  rcases List.mem_cons.mp member with rfl | outer
  · cases here
  · exact sound scope outer symbol here

theorem cons (sound : table.Sound unit) (scopes : table.scopes = scope :: outer)
    (isSound : symbol.Sound unit) : Table.Sound unit ⟨(symbol :: scope) :: outer⟩ := by
  unfold Table.Sound at sound
  rw [scopes] at sound
  intro within member other here
  rcases List.mem_cons.mp member with rfl | isOuter
  · rcases List.mem_cons.mp here with rfl | inScope
    · exact isSound
    · exact sound scope (List.mem_cons_self ..) other inScope
  · exact sound within (List.mem_cons_of_mem _ isOuter) other here

/-- No variable in scope belongs to a function that the module does not have. -/
theorem slots_eq_empty (sound : table.Sound unit) (new : unit.functions.size ≤ id) :
    table.slots id = ∅ := by
  refine Set.eq_empty_iff_forall_notMem.mpr ?_
  rintro place ⟨scope, member, symbol, here, owned, _⟩
  have isSound := sound scope member symbol here
  cases isRoutine : symbol.isRoutine with
  | true =>
    rw [(isSound.code isRoutine).1] at owned
    cases owned
  | false =>
    obtain ⟨_, slot, _, _, placed⟩ := isSound.storage isRoutine
    unfold IR.Slot.Placed at placed
    split at placed
    · rw [placed.1] at owned
      cases owned
    · obtain ⟨id', function, owned', found, _⟩ := placed
      rw [owned] at owned'
      cases owned'
      have inside := (Array.getElem?_eq_some_iff.mp found).1
      omega
    · exact placed

end Table.Sound

@[simp]
theorem Table.slots_enter (table : Table) (id : Nat) : table.enter.slots id = table.slots id := by
  simp [Table.slots, Table.enter]

theorem Table.slots_cons :
    Table.slots ⟨(symbol :: scope) :: outer⟩ id =
      {place | symbol.owner = some id ∧ symbol.slot.map Slot.id = some place} ∪
        Table.slots ⟨scope :: outer⟩ id := by
  ext place
  simp only [Table.slots, List.mem_cons, Set.mem_ofPred_eq, Set.mem_union]
  grind

theorem Table.Widens.slots (widens : table.Widens wider) : table.slots id ⊆ wider.slots id := by
  obtain ⟨added, scopes⟩ := widens
  rintro place ⟨scope, member, symbol, here, seen⟩
  cases table with
  | mk first =>
    cases first with
    | nil => cases member
    | cons inner outer =>
      unfold Table.slots
      rw [scopes]
      rcases List.mem_cons.mp member with rfl | isOuter
      · exact ⟨added ++ scope, List.mem_cons_self .., symbol, List.mem_append_right _ here, seen⟩
      · exact ⟨scope, List.mem_cons_of_mem _ isOuter, symbol, here, seen⟩

end Names

namespace Lowering

/-! ### Points -/

/-- A workspace and the site where a routine is written in it. The stack variables that are in scope
are known to be reserved there. -/
structure Point (routine : Routine) where
  workspace : Workspace
  site : Site
  holds : workspace.builder.Holds routine.function site
  coherent : workspace.Coherent
  fair : workspace.builder.unit.Fair
  table : workspace.table.Sound workspace.builder.unit
  params : site.function.params.length = site.function.signature.params.length
  result : site.function.signature.result = routine.result.native
  main : routine.isMain = true → routine.result = .integer

namespace Point

variable {Result Next : Type} {routine : Routine} {p q r : Point routine} {x y : Operand}
  {type : Ty}

abbrev unit (p : Point routine) : IR.Module := p.workspace.builder.unit

abbrev slots (p : Point routine) : Set Nat := p.workspace.table.slots routine.function

/-- The point at a later site of the function. -/
def moved (p : Point routine) (later : Site) (grows : p.site.function.Grows later.function) :
    Point routine where
  workspace := p.workspace.place routine.function later
  site := later
  holds := p.holds.place later
  coherent := p.coherent.mono (p.holds.extends_place grows).unit rfl
  fair := p.fair.place p.holds grows
  table := p.table.mono (p.holds.extends_place grows).unit
  params := by rw [grows.params, grows.signature, p.params]
  result := grows.signature ▸ p.result
  main := p.main

/-- The point in a module with more members. -/
def withUnit (p : Point routine) (unit : IR.Module) (fair : unit.Fair)
    (grows : p.workspace.builder.Extends { p.workspace.builder with unit })
    (kept : IR.Kept p.unit.functions unit.functions) : Point routine where
  workspace := { p.workspace with builder := { p.workspace.builder with unit } }
  site := p.site
  holds := p.holds.withUnit kept
  coherent := p.coherent.mono grows.unit rfl
  fair := fair
  table := p.table.mono grows.unit
  params := p.params
  result := p.result
  main := p.main

/-- The point with other numbers kept for external functions. -/
def keeping (p : Point routine) (externals : Externals)
    (coherent : Workspace.Coherent { p.workspace with externals }) : Point routine :=
  { p with
    workspace := { p.workspace with externals }
    coherent }

/-- The module has grown from one point to the other, and the functions that it has gained are
settled. -/
structure Leads (p q : Point routine) : Prop where
  builder : p.workspace.builder.Extends q.workspace.builder
  settled : ∀ (place : Nat) (function : IR.Function), p.unit.functions.size ≤ place →
    q.unit.functions[place]? = some function → function.Settled q.unit

theorem Leads.of_size (builder : p.workspace.builder.Extends q.workspace.builder)
    (size : q.unit.functions.size = p.unit.functions.size) : p.Leads q := by
  refine ⟨builder, fun place function beyond found => ?_⟩
  have inside := (Array.getElem?_eq_some_iff.mp found).1
  omega

theorem Leads.trans (early : p.Leads q) (late : q.Leads r) : p.Leads r := by
  refine ⟨early.builder.trans late.builder, fun place function beyond found => ?_⟩
  by_cases isLate : q.unit.functions.size ≤ place
  · exact late.settled place function isLate found
  · -- The function was there before and is not the current one, so it has stayed the same.
    have inside : place < q.unit.functions.size := by omega
    have other : q.workspace.builder.cursor.map IR.Cursor.function ≠ some place := by
      intro same
      rw [early.builder.function, p.holds.cursor] at same
      cases same
      exact absurd p.holds.inside (Nat.not_lt.mpr beyond)
    have same := late.builder.others place _ (Array.getElem?_eq_getElem inside) other
    rw [found] at same
    cases same
    exact (early.settled place _ beyond (Array.getElem?_eq_getElem inside)).mono late.builder.unit

theorem leads_moved (p : Point routine) (later : Site)
    (grows : p.site.function.Grows later.function) :
    p.Leads (p.moved later grows) :=
  .of_size (p.holds.extends_place grows) (p.workspace.builder.place_members _ later).functions

/-- Straight-line code leads from one point to the other. -/
structure Along (p q : Point routine) : Prop extends p.Leads q where
  straight : p.site.Straight q.site
  table : q.workspace.table = p.workspace.table
  code : ∀ unit, q.unit.Grows unit → Site.Writes (some unit) p.site p.slots q.site p.slots true

theorem Along.slots (along : p.Along q) : q.slots = p.slots := by
  unfold Point.slots
  rw [along.table]

theorem Along.refl (p : Point routine) : p.Along p :=
  ⟨.of_size (.refl _) rfl, .refl, rfl, fun _ _ => .refl⟩

theorem Along.trans (early : p.Along q) (late : q.Along r) : p.Along r :=
  ⟨early.toLeads.trans late.toLeads, early.straight.trans late.straight,
    late.table.trans early.table, fun unit grows =>
      (early.code unit (late.builder.unit.trans grows)).trans
        (early.slots ▸ late.code unit grows)⟩

/-- An operand that can be used for its value. -/
abbrev Value (p : Point routine) (operand : Operand) : Prop := p.site.Known p.unit operand

/-- An operand that can be used as the address of something of a type. -/
structure Address (p : Point routine) (type : Ty) (operand : Operand) : Prop where
  offers : p.site.Offers p.unit operand
  points : operand.type = .ptr type
  address : operand.IsAddress p.site.function (· ∈ p.slots)

theorem Along.value (along : p.Along q) (value : p.Value x) : q.Value x :=
  ⟨value.offers.straight along.straight along.builder.unit,
    value.value.mono along.straight.confined.grows⟩

theorem Along.address (along : p.Along q) (address : p.Address type x) : q.Address type x :=
  ⟨address.offers.straight along.straight along.builder.unit, address.points,
    address.address.mono along.straight.confined.grows fun _ => along.slots.symm ▸ id⟩

/-- Constants can be used everywhere. -/
theorem value_constant (constant : x.Resolves p.unit p.site.function [])
    (noRegister : ∀ register, x ≠ .reg register) (isValue : x.IsValue p.site.function) :
    p.Value x := by
  refine ⟨⟨?_, fun register same => (noRegister register same).elim⟩, isValue⟩
  exact constant.mono (.refl _) (.refl _) (List.nil_subset _)

theorem value_int {source : IntType} (scalar : (Ty.int source).IsScalar) (value : Int64) :
    p.Value (.int source value) := value_constant trivial (by simp) (.int value scalar)

theorem value_float (value : Double) : p.Value (.float value) :=
  value_constant trivial (by simp) (.float value)

theorem value_null : p.Value .null := value_constant trivial (by simp) .null

/-! ### Rules -/

/-- A step whose result is good at the point where straight-line code leads to. -/
def Runs (p : Point routine) (step : Lower Result) (good : Point routine → Result → Prop) : Prop :=
  ∀ result after, step p.workspace = .ok result after →
    ∃ q : Point routine, q.workspace = after ∧ p.Along q ∧ good q result

namespace Runs

variable {step : Lower Result} {good goodToo : Point routine → Result → Prop}
  {instr : IR.Register → IR.Instr} {name bytes : Bytes}

theorem pure {result : Result} (isGood : good p result) : p.Runs (pure result) good := by
  rintro made after ⟨⟩
  exact ⟨p, rfl, .refl p, isGood⟩

theorem failWith {diagnostic : Diagnostic} : p.Runs (failWith diagnostic) good := by
  rintro made after ⟨⟩

theorem fail {cause : Cause} : p.Runs (fail cause) good := by
  rintro made after ⟨⟩

theorem bind {next : Result → Lower Next} {good : Point routine → Result → Prop}
    {goodToo : Point routine → Next → Prop} (first : p.Runs step good)
    (second : ∀ q result, p.Along q → good q result → q.Runs (next result) goodToo) :
    p.Runs (step >>= next) goodToo := by
  intro made after lowered
  obtain ⟨value, middle, early, late⟩ := (bind_eq_ok ..).mp lowered
  obtain ⟨q, rfl, along, isGood⟩ := first value middle early
  obtain ⟨r, rfl, alongToo, isGoodToo⟩ := second q value along isGood made after late
  exact ⟨r, rfl, along.trans alongToo, isGoodToo⟩

theorem map {change : Result → Next} {goodToo : Point routine → Next → Prop}
    (runs : p.Runs step good) (implies : ∀ q result, good q result → goodToo q (change result)) :
    p.Runs (change <$> step) goodToo := by
  intro made after lowered
  obtain ⟨value, step, rfl⟩ := (map_eq_ok ..).mp lowered
  obtain ⟨q, isAfter, along, isGood⟩ := runs value after step
  exact ⟨q, isAfter, along, implies q value isGood⟩

theorem mono (runs : p.Runs step good) (implies : ∀ q result, good q result → goodToo q result) :
    p.Runs step goodToo := by
  intro made after lowered
  obtain ⟨q, isAfter, along, isGood⟩ := runs made after lowered
  exact ⟨q, isAfter, along, implies q made isGood⟩

theorem within {stage : Stage} (runs : p.Runs step good) : p.Runs (within stage step) good :=
  fun made after lowered => runs made after ((within_eq_ok ..).mp lowered)

theorem statement {step : Lower Unit} {good : Point routine → Unit → Prop}
    {goodToo : Point routine → Option Operand → Prop} (runs : p.Runs step good)
    (implies : ∀ q, goodToo q none) : p.Runs (statement step) goodToo :=
  .bind runs fun q _ _ _ => .pure (implies q)

theorem expectCategory {category : Category} :
    p.Runs (expectCategory name category x) fun q _ => q = p ∧ x.type.category = category := by
  unfold Lowering.expectCategory
  split
  · exact .pure ⟨rfl, by assumption⟩
  · exact .failWith

theorem expectType {kind : Kind} (scalar : x.type.IsScalar) :
    p.Runs (expectType name kind x) fun q _ => q = p ∧ x.type = kind.native := by
  unfold Lowering.expectType
  split
  · exact .pure ⟨rfl, Kind.native_eq_of_same scalar (by assumption)⟩
  · exact .failWith

end Runs

end Point

theorem build_bind {Result Next : Type} (step : Build Result) (next : Result → Build Next) :
    build (step >>= next) = build step >>= fun value => build (next value) := rfl

/-- The conversion that widens an argument of a variadic function. -/
def promoting (source : IntType) : IR.Cast := if source.bits = 1 then .zext else .sext

namespace Point

variable {routine : Routine} {p q : Point routine} {x y : Operand} {type element : Ty}

/-- An operand that can be used for its value, which is of a type. -/
def Valued (type : Ty) (p : Point routine) (operand : Operand) : Prop :=
  p.Value operand ∧ operand.type = type

namespace Runs

variable {good : Point routine → Operand → Prop} {instr : IR.Register → IR.Instr}
  {name bytes : Bytes}

theorem value {step : Lower Operand} (runs : p.Runs step (Valued type)) : p.Runs step Value :=
  runs.mono fun _ _ valued => valued.1

/-- An instruction that writes the next register. -/
theorem define (out : (instr (p.site.nextRegister type)).out? = some (p.site.nextRegister type))
    (admits : p.site.Admits p.unit p.slots (instr (p.site.nextRegister type)))
    (isGood : ∀ q, p.Along q → q.site = p.site.define type instr →
      good q (.reg (p.site.nextRegister type))) :
    p.Runs (build (do
      let out ← Build.freshRegister type
      Build.emit (instr out)
      return .reg out)) good := by
  intro made after lowered
  obtain ⟨rfl, rfl⟩ := (build_eq_ok ..).mp lowered
  rw [Build.define_eq p.holds]
  have grows := (Site.Confined.define p.site type instr).grows
  have along : p.Along (p.moved (p.site.define type instr) grows) :=
    ⟨p.leads_moved _ grows, .define .refl type instr, rfl, fun unit later => .define type instr
      fun _ isUnit => by
        cases isUnit
        exact ⟨out, admits.mono ((p.leads_moved _ grows).builder.unit.trans later)⟩⟩
  exact ⟨_, rfl, along, isGood _ along rfl⟩

theorem defineValue (scalar : type.IsScalar)
    (isValue : (instr (p.site.nextRegister type)).value? = some (p.site.nextRegister type))
    (out : (instr (p.site.nextRegister type)).out? = some (p.site.nextRegister type))
    (admits : p.site.Admits p.unit p.slots (instr (p.site.nextRegister type))) :
    p.Runs (build (do
      let out ← Build.freshRegister type
      Build.emit (instr out)
      return .reg out)) (Valued type) :=
  define out admits fun q _ isSite => by
    refine ⟨⟨?_, ?_⟩, rfl⟩
    · rw [isSite]
      exact Site.offers_define out
    · rw [isSite]
      exact Site.value_define isValue scalar

theorem emit {instr : IR.Instr} (noOut : instr.out? = none)
    (admits : p.site.Admits p.unit p.slots instr) :
    p.Runs (build (Build.emit instr)) fun _ _ => True := by
  intro made after lowered
  obtain ⟨rfl, rfl⟩ := (build_eq_ok ..).mp lowered
  rw [Build.emit_eq p.holds]
  have grows := (Site.Confined.emit p.site instr).grows
  exact ⟨p.moved (p.site.emit instr) grows, rfl, ⟨p.leads_moved _ grows, .emit .refl instr, rfl,
    fun unit later => .emit instr fun _ isUnit => by
      cases isUnit
      exact ⟨noOut, admits.mono ((p.leads_moved _ grows).builder.unit.trans later)⟩⟩, trivial⟩

theorem binary {op : IR.BinaryOp} (left : p.Value x) (right : p.Value y) (same : x.type = y.type)
    (takes : op.Takes x.type) : p.Runs (build (Build.binary op x y)) (Valued x.type) :=
  defineValue left.value.scalar rfl rfl ⟨⟨same, rfl, takes⟩,
    by simpa [IR.Instr.operands] using ⟨left.offers, right.offers⟩, left.value, right.value⟩

theorem compare {predicate : IR.Predicate} (left : p.Value x) (right : p.Value y)
    (same : x.type = y.type) (takes : predicate.Takes x.type) :
    p.Runs (build (Build.compare predicate x y)) (Valued .i1) :=
  defineValue .i1 rfl rfl ⟨⟨same, rfl, takes⟩,
    by simpa [IR.Instr.operands] using ⟨left.offers, right.offers⟩, left.value, right.value⟩

theorem convert {cast : IR.Cast} (value : p.Value x) (scalar : type.IsScalar)
    (takes : cast.Takes x.type type) : p.Runs (build (Build.convert cast x type)) (Valued type) :=
  defineValue scalar rfl rfl ⟨takes, by simpa [IR.Instr.operands] using value.offers, value.value⟩

theorem load (address : p.Address type x) (scalar : type.IsScalar) :
    p.Runs (build (Build.load x)) (Valued type) := by
  have pointee : x.type.pointee = type := by
    rw [address.points]
    rfl
  subst pointee
  exact defineValue scalar rfl rfl ⟨address.points,
    by simpa [IR.Instr.operands] using address.offers, scalar, address.address⟩

/-- The value of a variable. -/
theorem read (address : p.Address type x) (scalar : type.IsScalar) :
    p.Runs (build (read x)) (Valued type) := by
  have loads := load address scalar
  cases address.address with
  | stack storage => rwa [Lowering.read, if_neg (by simp [storage])]
  | «global» storage => rwa [Lowering.read, if_neg (by simp [storage])]
  | element => exact loads

theorem store (address : p.Address x.type y) (offers : p.site.Offers p.unit x)
    (role : x.IsValue p.site.function ∨ ∃ type, x = .zeros type) :
    p.Runs (build (Build.store y x)) fun _ _ => True :=
  emit rfl ⟨address.points, by simpa [IR.Instr.operands] using ⟨address.offers, offers⟩,
    address.address, role⟩

/-- The address of an element of the array behind a slot. -/
theorem elementOf {slot : Slot} {length : Int64} {first : Int64}
    (address : p.Address (.array element length) (.slot slot)) (index : p.Valued .i32 x) :
    p.Runs (build (elementOf slot first x)) fun q y => q.Address element y := by
  have offset : p.Runs (build (elementOffset first x)) (Valued .i32) := by
    unfold elementOffset
    split
    · exact .pure index
    · refine index.2 ▸ binary index.1 (value_int .i32 _) index.2 ?_
      rw [index.2]
      rfl
  rw [Lowering.elementOf, build_bind]
  refine .bind offset fun q offset along index => ?_
  have array := along.address address
  have isElement : (Operand.slot slot).type.pointee.element = element := by
    rw [array.points]
    rfl
  refine define rfl ⟨⟨element, length, array.points, congrArg Ty.ptr isElement, index.2⟩,
    by simpa [IR.Instr.operands] using ⟨array.offers, index.1.offers⟩, ⟨slot, rfl⟩, array.address,
    index.1.value⟩ fun r _ isSite => ⟨?_, congrArg Ty.ptr isElement, ?_⟩
  · rw [isSite]
    exact Site.offers_define rfl
  · rw [isSite]
    exact .element (Site.contains_emit ..)

end Runs

/-! ### Conversions -/

namespace Runs

variable {source target : IntType} {name operator : Bytes}

/-- Integers of values of one width are of one type. -/
theorem eq_of_bits (scalar : (Ty.int source).IsScalar)
    (targetScalar : (Ty.int target).IsScalar) (same : source.bits = target.bits) :
    source = target := by
  rcases scalar.int with rfl | rfl | rfl <;> rcases targetScalar.int with rfl | rfl | rfl <;>
    first | rfl | exact absurd same (by decide)

theorem resize (value : p.Value x) (integer : x.type = .int source)
    (scalar : (Ty.int target).IsScalar) :
    p.Runs (build (resize x target)) (Valued (.int target)) := by
  have isScalar := integer ▸ value.value.scalar
  unfold Lowering.resize
  rw [integer]
  dsimp only
  split
  · exact .pure ⟨value, integer.trans (congrArg _ (eq_of_bits isScalar scalar (by assumption)))⟩
  · split
    · exact .pure ⟨value_int scalar _, rfl⟩
    · split
      · exact convert value scalar (integer ▸ by assumption)
      · rename_i different _ _ wider
        exact convert value scalar (integer ▸
          Int16.lt_of_le_of_ne (Int16.not_lt.mp wider) different)

/-- An integer stays an integer when it is widened. -/
theorem promote (value : p.Value x) : p.Runs (build (promote x)) fun q y =>
    q.Value y ∧ ∀ source, x.type = .int source → ∃ integer, y.type = .int integer := by
  unfold Lowering.promote
  split
  · rename_i source integer
    split
    · exact .pure ⟨value, fun _ same => ⟨_, same⟩⟩
    · rename_i narrow
      split
      · exact .pure ⟨value_int .i32 _, fun _ _ => ⟨_, rfl⟩⟩
      · refine (convert value .i32 ?_).mono fun _ _ valued => ⟨valued.1, fun _ _ => ⟨_, valued.2⟩⟩
        have narrower := Int16.not_le.mp narrow
        rw [integer]
        split <;> exact narrower
  · exact .pure ⟨value, fun _ same => ⟨_, same⟩⟩

theorem fit {target : Ty} (value : p.Value x) (scalar : target.IsScalar) :
    p.Runs (fit name target x) (Valued target) := by
  unfold Lowering.fit
  split
  · exact .failWith
  · rename_i same
    rw [ne_eq, not_not] at same
    have equal (notIntegral : target.category ≠ .integral) : x.type = target :=
      (scalar.eq_of_category value.value.scalar same notIntegral).symm
    split
    · split
      · rename_i type _ integral
        rcases value.value.scalar.eq_of_integral (same ▸ integral) with isType | isType
        · exact resize value isType scalar
        · exact resize value isType scalar
      · exact .pure ⟨value, equal (by assumption)⟩
    · refine .pure ⟨value, equal fun integral => ?_⟩
      rcases scalar.eq_of_integral integral with rfl | rfl <;> simp_all [Ty.i32, Ty.i8]

/-- Two operands of one type. -/
theorem unify (left : p.Value x) (right : p.Value y) :
    p.Runs (unify operator x y) fun q (made : Operand × Operand × Category) => q.Value made.1 ∧
      q.Value made.2.1 ∧ made.1.type = made.2.1.type ∧ made.1.type.category = made.2.2 := by
  unfold Lowering.unify
  split
  · exact .failWith
  · rename_i same
    rw [ne_eq, not_not] at same
    split
    · rename_i leftType rightType isLeft isRight
      have leftScalar := isLeft ▸ left.value.scalar
      have rightScalar := isRight ▸ right.value.scalar
      split
      · refine .bind (resize left isLeft rightScalar) fun q made along ⟨value, type⟩ => .pure ?_
        exact ⟨value, along.value right, type.trans isRight.symm, by rw [type, same, isRight]⟩
      · split
        · refine .bind (resize right isRight leftScalar) fun q made along ⟨value, type⟩ => .pure ?_
          exact ⟨along.value left, value, isLeft.trans type.symm, rfl⟩
        · refine .pure ⟨left, right, ?_, rfl⟩
          rw [isLeft, isRight, eq_of_bits leftScalar rightScalar (by grind)]
    · rename_i notBoth
      refine .pure ⟨left, right, ?_, rfl⟩
      refine left.value.scalar.eq_of_category right.value.scalar same fun integral => ?_
      rcases left.value.scalar.eq_of_integral integral with isLeft | isLeft <;>
        rcases right.value.scalar.eq_of_integral (same ▸ integral) with isRight | isRight <;>
        exact notBoth _ _ isLeft isRight

theorem truth (value : p.Value x) : p.Runs (truth x) (Valued .i1) := by
  have scalar := value.value.scalar
  unfold Lowering.truth
  split
  · rename_i type isType
    split
    · exact .pure ⟨value, scalar.eq_of_logical (by assumption)⟩
    · rename_i notLogical
      rw [isType] at scalar notLogical
      refine compare value (value_int scalar 0) isType ?_
      rw [isType]
      rcases scalar.int with rfl | rfl | rfl
      · exact .inl rfl
      · exact absurd rfl notLogical
      · exact .inl rfl
  · rename_i isType
    have isDouble : x.type = .double := by
      rcases scalar.cases with same | same | same | same | same <;>
        simp_all [Ty.i32, Ty.i1, Ty.i8, Ty.bytes]
    exact compare value (value_float .zero) isDouble (isDouble ▸ rfl)
  · rename_i isType
    have isBytes : x.type = .bytes := by
      rcases scalar.cases with same | same | same | same | same <;>
        simp_all [Ty.i32, Ty.i1, Ty.i8, Ty.double]
    exact compare value value_null isBytes (isBytes ▸ .inr (.inr rfl))
  · exact .failWith

theorem negate (value : p.Value x) : p.Runs (negate x) (Valued .i1) := by
  refine .bind (truth value) fun q made _ ⟨value, type⟩ => ?_
  exact type ▸ binary value (value_int .i1 _) type type

end Runs

end Point

end Lowering

end Pascaline
