/-
Construction of sound modules. Whatever node is lowered, the code leads from point to point, where
the variables in scope are reserved. A routine that is lowered inside another has a function that is
typed, complete and secure by the time it is left, and so has the whole program.
-/

import Pascaline.Proofs.Values

namespace Pascaline.Lowering

open IR (Build Operand Slot Site)

variable {Result Next : Type} {routine : Routine} {p q : Point routine} {step : Lower Result}
  {through throughToo : Bool} {condition : Lower Operand} {body : Lower Unit} {name : Bytes}
  {names : IR.Stems} {symbol : Symbol} {scope : Scope} {outer : List Scope}

namespace Point

/-- Code leads from one point to the other. Behind it some stack variables are reserved. -/
structure To (p : Point routine) (through : Bool) (slots : Set Nat) (q : Point routine) : Prop
    extends p.Leads q where
  code : ∀ unit, q.unit.Grows unit → Site.Writes (some unit) p.site p.slots q.site slots through

/-- The same point with other names in scope. -/
def withTable (p : Point routine) (table : Table) (sound : table.Sound p.unit) : Point routine :=
  { p with workspace := { p.workspace with table }, table := sound }

/-- The point in a scope of its own. -/
abbrev entered (p : Point routine) : Point routine :=
  p.withTable p.workspace.table.enter p.table.enter

/-- The point in the first of three more blocks. -/
abbrev forked (p : Point routine) (names : IR.Stems) (entry : IR.Terminator) :
    Point routine :=
  p.moved (p.site.fork names entry) (Site.Confined.fork ..).grows

/-- The point in another block, after the current one has been left. -/
abbrev gone (p : Point routine) (way : Site.Way) (block : Nat) : Point routine :=
  p.moved (p.site.go way block) (Site.go_grows ..)

/-- A step behind which the variables in scope are reserved. -/
def Lowers (p : Point routine) (through : Bool) (step : Lower Result) : Prop :=
  ∀ result after, step p.workspace = .ok result after →
    ∃ q : Point routine, q.workspace = after ∧ p.To through q.slots q ∧
      p.workspace.table.Widens q.workspace.table

/-- A step behind which the variables are reserved that were before. Others may have come into scope
meanwhile, as a relation between the names says. -/
def Encloses (p : Point routine) (names : Table → Table → Prop) (through : Bool)
    (step : Lower Result) : Prop :=
  ∀ result after, step p.workspace = .ok result after →
    ∃ q : Point routine, q.workspace = after ∧ p.To through p.slots q ∧
      names p.workspace.table q.workspace.table

/-! ### Rules -/

theorem Along.to (along : p.Along q) : p.To true q.slots q :=
  ⟨along.toLeads, along.slots.symm ▸ along.code⟩

theorem Runs.lowers {good : Point routine → Result → Prop} (runs : p.Runs step good) :
    p.Lowers true step := by
  intro made after lowered
  obtain ⟨q, isAfter, along, _⟩ := runs made after lowered
  exact ⟨q, isAfter, along.to, along.table ▸ .refl _⟩

theorem Lowers.encloses (lowers : p.Lowers through step) :
    p.Encloses Table.Widens through step := by
  intro made after lowered
  obtain ⟨q, isAfter, leads, widens⟩ := lowers made after lowered
  exact ⟨q, isAfter, ⟨leads.toLeads, fun unit grows => (leads.code unit grows).weaken widens.slots⟩,
    widens⟩

theorem Encloses.lowers (encloses : p.Encloses Eq through step) : p.Lowers through step := by
  intro made after lowered
  obtain ⟨q, isAfter, leads, same⟩ := encloses made after lowered
  have slots : q.slots = p.slots := by
    unfold Point.slots
    rw [same]
  exact ⟨q, isAfter, slots ▸ leads, same ▸ .refl _⟩

theorem To.trans {r : Point routine} {slots : Set Nat} (early : p.To through q.slots q)
    (late : q.To throughToo slots r) : p.To (through && throughToo) slots r :=
  ⟨early.toLeads.trans late.toLeads, fun unit grows =>
    (early.code unit (late.builder.unit.trans grows)).trans (late.code unit grows)⟩

namespace Lowers

theorem pure {result : Result} : p.Lowers true (pure result) := by
  rintro made after ⟨⟩
  exact ⟨p, rfl, (Along.refl p).to, .refl _⟩

theorem bind {next : Result → Lower Next} (first : p.Lowers through step)
    (second : ∀ (q : Point routine) (result : Result), q.Lowers throughToo (next result)) :
    p.Lowers (through && throughToo) (step >>= next) := by
  intro made after lowered
  obtain ⟨value, middle, early, late⟩ := (bind_eq_ok ..).mp lowered
  obtain ⟨q, rfl, leads, widens⟩ := first value middle early
  obtain ⟨r, rfl, leadsToo, widensToo⟩ := second q value made after late
  exact ⟨r, rfl, leads.trans leadsToo, widens.trans widensToo⟩

theorem within {stage : Stage} (lowers : p.Lowers through step) :
    p.Lowers through (within stage step) :=
  fun made after lowered => lowers made after ((within_eq_ok ..).mp lowered)

theorem statement {step : Lower Unit} (lowers : p.Lowers through step) :
    p.Lowers through (statement step) := by
  intro made after lowered
  exact lowers () after ((statement_eq_ok ..).mp lowered).1

theorem discarding {node : Node} {step : Lower (Option Operand)} (lowers : p.Lowers through step) :
    p.Lowers through (discarding node step) := by
  intro made after lowered
  obtain ⟨value, lowered⟩ := (discarding_eq_ok ..).mp lowered
  exact lowers value after lowered

end Lowers

theorem To.size_le {slots : Set Nat} (leads : p.To through slots q) :
    p.site.function.blocks.size ≤ q.site.function.blocks.size :=
  (leads.code _ (.refl _)).confined.grows.size_le

/-- A test that is at hand can be used in every later version of the module. -/
theorem tests {test : Operand} {unit : IR.Module} (type : test.type = .i1) (value : p.Value test)
    (grows : p.unit.Grows unit) :
    ∀ other ∈ some unit, test.type = .i1 ∧ p.site.Known other test := by
  intro other isUnit
  cases isUnit
  exact ⟨type, value.mono grows⟩

namespace Encloses

theorem within {stage : Stage} {names : Table → Table → Prop}
    (encloses : p.Encloses names through step) : p.Encloses names through (within stage step) :=
  fun made after lowered => encloses made after ((within_eq_ok ..).mp lowered)

/-- Behind a scope of its own, the names in scope are those before. -/
theorem inScope (encloses : p.entered.Encloses Table.Widens through step) :
    p.Encloses Eq through (inScope step) := by
  intro made after lowered
  obtain ⟨inner, inside, rfl⟩ := (inScope_eq_ok ..).mp lowered
  obtain ⟨q, rfl, leads, widens⟩ := encloses made inner inside
  have exit : q.workspace.table.exit = p.workspace.table := widens.exit
  refine ⟨q.withTable q.workspace.table.exit (exit ▸ p.table.mono leads.builder.unit), rfl,
    ⟨⟨leads.builder, leads.settled⟩, fun unit grows => ?_⟩, exit.symm⟩
  have code := leads.code unit grows
  rwa [show p.entered.slots = p.slots from Table.slots_enter ..] at code

/-- A step in front, whose variables stay reserved. -/
theorem start {next : Result → Lower Next} (first : p.Lowers through step)
    (second : ∀ (q : Point routine) (result : Result),
      q.Encloses Table.Widens throughToo (next result)) :
    p.Encloses Table.Widens (through && throughToo) (step >>= next) := by
  intro made after lowered
  obtain ⟨value, middle, early, late⟩ := (bind_eq_ok ..).mp lowered
  obtain ⟨q, rfl, leads, widens⟩ := first value middle early
  obtain ⟨r, rfl, leadsToo, widensToo⟩ := second q value made after late
  refine ⟨r, rfl, ⟨(leads.trans leadsToo).toLeads, fun unit grows => ?_⟩, widens.trans widensToo⟩
  exact ((leads.trans leadsToo).code unit grows).weaken widens.slots

/-! ### Branches and loops -/

theorem branching {consequent alternative : Lower Unit} (yields : Provides routine condition)
    (first : ∀ q : Point routine, q.Encloses Eq through consequent)
    (second : ∀ q : Point routine, q.Encloses Eq throughToo alternative) :
    p.Encloses Eq (through || throughToo) (branching condition consequent alternative) := by
  intro made after lowered
  obtain ⟨test, tested, lowered, parts⟩ := branching_cases routine.function lowered
  obtain ⟨q, rfl, along, value, type⟩ := Runs.lowerCondition yields test tested lowered
  obtain ⟨thenDone, lowered, parts⟩ := parts q.site q.holds
  obtain ⟨atThen, rfl, early, tables⟩ := first (q.forked branchStems _) _ _ lowered
  have size := Nat.le_trans Site.fork_size early.size_le
  obtain ⟨elseDone, lowered, parts⟩ := parts atThen.site atThen.holds size
  obtain ⟨atElse, rfl, late, tablesToo⟩ := second (atThen.gone _ _) _ _ lowered
  have sizeToo := Nat.le_trans size ((Site.go_grows ..).size_le.trans late.size_le)
  have leaves := atElse.leads_moved (atElse.site.go (.leave (q.site.function.blocks.size + 2))
    (q.site.function.blocks.size + 2)) (Site.go_grows ..)
  have onward := (atThen.leads_moved _ _).trans (late.toLeads.trans leaves)
  have whole := (q.leads_moved _ _).trans (early.toLeads.trans onward)
  have slots : atThen.slots = q.slots := (congrArg (Table.slots · _) tables).symm
  refine ⟨_, (parts atElse.site atElse.holds sizeToo).symm, ⟨along.toLeads.trans whole,
    fun unit grows => ?_⟩, along.table.symm.trans (tables.trans tablesToo)⟩
  have tested := whole.builder.unit.trans grows
  have lateCode := late.code unit (leaves.builder.unit.trans grows)
  rw [show (atThen.gone _ _).slots = q.slots from slots] at lateCode
  have code := Site.Writes.branch _ (tests type value tested)
    (early.code unit (onward.builder.unit.trans grows)) lateCode
  rw [show (q.forked _ _).slots = p.slots from along.slots] at code
  exact (along.code unit tested).trans code

/-- A loop that tests first. -/
theorem looping {tables : Table → Table → Prop} (yields : Provides routine condition)
    (runs : ∀ q : Point routine, q.Encloses tables through body) :
    p.Encloses tables true (looping names condition body) := by
  intro made after lowered
  obtain ⟨test, tested, lowered, parts⟩ := looping_cases lowered p.holds
  obtain ⟨q, rfl, along, value, type⟩ :=
    Runs.lowerCondition (p := p.forked names _) yields test tested lowered
  have size := Nat.le_trans Site.fork_size along.straight.confined.grows.size_le
  obtain ⟨done, lowered, parts⟩ := parts q.site q.holds size
  obtain ⟨atBody, rfl, late, widens⟩ := runs (q.gone _ _) _ _ lowered
  have sizeToo := Nat.le_trans size ((Site.go_grows ..).size_le.trans late.size_le)
  have leaves := atBody.leads_moved (atBody.site.go (.leave p.site.function.blocks.size)
    (p.site.function.blocks.size + 2)) (Site.go_grows ..)
  have onward := (q.leads_moved _ (Site.go_grows ..)).trans (late.toLeads.trans leaves)
  refine ⟨_, (parts atBody.site atBody.holds sizeToo).symm, ⟨(p.leads_moved _ _).trans
    (along.toLeads.trans onward), fun unit grows => ?_⟩, ?_⟩
  · have tested := onward.builder.unit.trans grows
    have lateCode := late.code unit (leaves.builder.unit.trans grows)
    rw [show (q.gone _ _).slots = p.slots from along.slots] at lateCode
    exact .loop names (along.code unit tested) (tests type value tested) lateCode
  · have same : q.workspace.table = p.workspace.table := along.table
    exact same ▸ widens

/-- A loop that tests last. -/
theorem loopingUntil (runs : ∀ q : Point routine, q.Lowers through body)
    (yields : Provides routine condition) :
    p.Encloses Table.Widens through (loopingUntil names body condition) := by
  intro made after lowered
  obtain ⟨done, lowered, parts⟩ := loopingUntil_cases lowered p.holds
  obtain ⟨atBody, rfl, early, widens⟩ := runs (p.forked names _) _ _ lowered
  have size := Nat.le_trans Site.fork_size early.size_le
  obtain ⟨test, tested, lowered, parts⟩ := parts atBody.site atBody.holds size
  obtain ⟨q, rfl, along, value, type⟩ :=
    Runs.lowerCondition (p := atBody.gone _ _) yields test tested lowered
  have sizeToo := Nat.le_trans size ((Site.go_grows ..).size_le.trans
    along.straight.confined.grows.size_le)
  have leaves := q.leads_moved (q.site.go (.finish (.branchIf test (p.site.function.blocks.size + 2)
    p.site.function.blocks.size)) (p.site.function.blocks.size + 2)) (Site.go_grows ..)
  have onward := (atBody.leads_moved _ (Site.go_grows ..)).trans (along.toLeads.trans leaves)
  refine ⟨_, (parts q.site q.holds sizeToo).symm, ⟨(p.leads_moved _ _).trans
    (early.toLeads.trans onward), fun unit grows => ?_⟩, ?_⟩
  · have tested := leaves.builder.unit.trans grows
    exact .weaken (.loopUntil names widens.slots (early.code unit (onward.builder.unit.trans grows))
      (along.code unit tested) (tests type value tested)) widens.slots
  · have same : q.workspace.table = atBody.workspace.table := along.table
    exact same ▸ widens

end Encloses

/-! ### Declarations -/

/-- A symbol comes into scope whose storage has just been reserved. -/
theorem comes_into_scope {r : Point routine} {slot : Slot} {slots : Set Nat}
    (isVariable : symbol.isRoutine = false) (isKind : symbol.kind ≠ .none)
    (unowned : symbol.owner = none) (scopes : p.workspace.table.scopes = scope :: outer)
    (leads : p.Leads r) (isTable : r.workspace.table = p.workspace.table)
    (type : slot.type = symbol.nativeType)
    (placed : slot.Placed r.unit (if slot.storage = .global then none else some routine.function))
    (code : ∀ unit, Site.Writes (some unit) p.site p.slots r.site slots true)
    (more : p.slots ⊆ slots) (reserves : slot.storage ≠ .global → slot.id ∈ slots) :
    ∃ q : Point routine,
      q.workspace =
        { r.workspace with table := ⟨(routine.claimed symbol slot :: scope) :: outer⟩ } ∧
      p.To true q.slots q ∧ q.Address symbol.nativeType (.slot slot) := by
  have claimed : routine.claimed symbol slot = { symbol with
      slot := some slot
      owner := if slot.storage = .global then none else some routine.function } := by
    unfold Routine.claimed Symbol.bind
    split <;> simp [unowned]
  have sound : Symbol.Sound r.unit (routine.claimed symbol slot) := by
    rw [claimed]
    refine ⟨fun _ => ⟨isKind, slot, rfl, type, placed⟩, fun isRoutine => ?_⟩
    exact absurd (isVariable.symm.trans isRoutine) (by simp)
  have owner : (routine.claimed symbol slot).owner =
      if slot.storage = .global then none else some routine.function := by rw [claimed]
  refine ⟨r.withTable _ (r.table.cons (isTable ▸ scopes) sound), rfl,
    ⟨⟨leads.builder, leads.settled⟩, fun unit _ => (code unit).weaken ?_⟩,
    type ▸ placed_address (claimed_slot ..) (owner ▸ placed) ?_
      ((Table.find?_cons _ _ _ symbol.name).trans (if_pos (claimed_name ..)))⟩
  · show Table.slots ⟨(routine.claimed symbol slot :: scope) :: outer⟩ _ ⊆ slots
    rw [Table.slots_cons, owner, claimed_slot]
    refine Set.union_subset ?_ (congrArg Table.mk scopes ▸ more)
    rintro place ⟨owned, isPlace⟩
    cases isPlace
    refine reserves fun isGlobal => ?_
    simp [isGlobal] at owned
  · rw [owner]
    split <;> simp

/-- Storage is reserved for a symbol that is declared. -/
theorem declared {slot : Slot} {builder : IR.Builder} (isVariable : symbol.isRoutine = false)
    (isKind : symbol.kind ≠ .none) (unowned : symbol.owner = none)
    (scopes : p.workspace.table.scopes = scope :: outer)
    (free : routine.isMain = true → isReserved symbol.name = false)
    (reserved : routine.reserved outer symbol p.workspace.builder = (slot, builder)) :
    slot.type = symbol.nativeType ∧ ∃ q : Point routine,
      q.workspace =
        { p.workspace with
          table := ⟨(routine.claimed symbol slot :: scope) :: outer⟩
          builder } ∧
      p.To true q.slots q ∧ q.Address symbol.nativeType (.slot slot) := by
  unfold Routine.reserved Routine.reserve at reserved
  split at reserved
  · rename_i outermost
    obtain ⟨rfl, rfl⟩ := Prod.mk.inj reserved
    have fair : (Build.globalVariable symbol.name symbol.nativeType
        p.workspace.builder).2.unit.Fair := by
      refine ⟨p.fair.functions, fun place global found => ?_, ?_⟩
      · rw [show (Build.globalVariable symbol.name symbol.nativeType
          p.workspace.builder).2.unit.globals = p.unit.globals.push _ from rfl,
          Array.getElem?_push] at found
        split at found
        · cases found
          exact freshName_free (free outermost.1)
        · exact p.fair.globals place global found
      · show (p.unit.functions.toList.map IR.Function.name ++ (p.unit.globals.push
          ⟨IR.freshName p.unit.names symbol.name, _⟩).toList.map IR.Variable.name).Nodup
        rw [Array.toList_push, List.map_append, ← List.append_assoc]
        refine List.nodup_append.mpr ⟨p.fair.distinct, List.nodup_singleton _, ?_⟩
        rintro _ member _ (_ | ⟨_, ⟨⟩⟩) rfl
        exact IR.freshName_not_mem _ _ member
    have grows := Build.extends_withUnit p.workspace.builder (Build.globalVariable symbol.name
      symbol.nativeType p.workspace.builder).2.unit (.refl _) (.push _ _) (.refl _)
    refine ⟨rfl, comes_into_scope (r := p.withUnit _ fair grows (.refl _))
      isVariable isKind unowned scopes (.of_size grows rfl) rfl rfl ⟨rfl, ?_⟩ (fun _ => .refl)
      subset_rfl fun stack => (stack rfl).elim⟩
    exact congrArg (Option.map _) Array.getElem?_push_size
  · rw [Build.alloca_eq p.holds] at reserved
    obtain ⟨rfl, rfl⟩ := Prod.mk.inj reserved
    have grows := (Site.Confined.reserve p.site symbol.name symbol.nativeType).grows
    have kept := (Site.Confined.emit (p.site.addLocal symbol.name symbol.nativeType)
      (.alloca (p.site.nextSlot symbol.nativeType))).grows.locals
    exact ⟨rfl, comes_into_scope (r := p.moved _ grows) isVariable isKind unowned scopes
      (p.leads_moved _ grows) rfl rfl ⟨_, _, rfl, (p.holds.place _).function,
        congrArg (Option.map _) (kept _ _ Array.getElem?_push_size)⟩ (fun _ => .reserve _ _)
      (Set.subset_insert ..) fun _ => Set.mem_insert ..⟩

/-- The default value of a variable can be stored in it. -/
theorem zero_stored {slot : Slot} {zero : Operand} (isVariable : symbol.isRoutine = false)
    (isKind : symbol.kind ≠ .none) (address : p.Address symbol.nativeType (.slot slot))
    (found : Operand.zero? symbol.nativeType = some zero) :
    p.Runs (build (Build.store (.slot slot) zero)) fun _ _ => True := by
  have value {x : Operand} (isValue : p.Value x) (type : x.type = symbol.nativeType) :
      p.Runs (build (Build.store (.slot slot) x)) fun _ _ => True :=
    .store (type ▸ address) isValue.offers (.inl isValue.value)
  cases shape : symbol.shape with
  | scalar =>
    have isType : symbol.nativeType = symbol.kind.native := by rw [Symbol.nativeType, shape]
    have scalar : symbol.kind.native.IsScalar := ⟨_, isKind, rfl⟩
    rw [isType] at found value
    rcases scalar.cases with type | type | type | type | type <;>
      rw [type] at found value scalar <;>
      cases found
    · exact value (value_int scalar _) rfl
    · exact value (value_float _) rfl
    · exact value (value_int scalar _) rfl
    · exact value (value_int scalar _) rfl
    · exact value value_null rfl
  | array first last =>
    have isType : symbol.nativeType = .array symbol.kind.native symbol.length := by
      rw [Symbol.nativeType, shape]
    rw [isType] at found address
    cases found
    exact .store address ⟨trivial, by simp⟩ (.inr ⟨_, rfl⟩)
  | routine => simp [Symbol.isRoutine, Symbol.role, shape, Shape.role] at isVariable

theorem Lowers.declareVariable {type : Bytes} {shape : Shape}
    {declaration : Kind → Table → Except Fault Table}
    (declares : ∀ kind table later, declaration kind table = .ok later →
      table.declare { name, shape, kind } = .ok later) (isVariable : shape.role ≠ .routine) :
    p.Lowers true (routine.declareVariable name type declaration) := by
  intro made after lowered
  obtain ⟨kind, scope, outer, slot, builder, free, named, scopes, fresh, _, reserved, rfl⟩ :=
    declareVariable_cases declares isVariable lowered
  have isKind := Kind.ofName?_ne_none named
  have isVariable : Symbol.isRoutine { name, shape, kind } = false := decide_eq_false isVariable
  obtain ⟨isType, q, isWorkspace, early, address⟩ :=
    declared isVariable isKind rfl scopes (fun _ => free) reserved
  have clears : q.Lowers true (build (clearing slot)) := by
    unfold clearing
    split
    · exact .pure
    · split
      · rename_i found
        exact (zero_stored isVariable isKind address (isType ▸ found)).lowers
      · exact .pure
  obtain ⟨r, isAfter, late, widens⟩ := clears _ _ ((build_eq_ok ..).mpr ⟨rfl, rfl⟩)
  rw [isWorkspace] at isAfter widens
  exact ⟨r, isAfter, early.trans late, (Table.Widens.cons _ scopes).trans widens⟩

theorem drop_cons {Item : Type} {items rest : List Item} {item : Item} {position : Nat}
    (dropped : items.drop position = item :: rest) :
    items[position]? = some item ∧ items.drop (position + 1) = rest := by
  constructor
  · rw [← List.head?_drop, dropped]
    rfl
  · rw [← List.tail_drop, dropped]
    rfl

/-- A parameter of the routine can be used as a value. -/
theorem argument_valued {kinds : List Kind} {kind : Kind} {position : Nat}
    (types : p.site.function.signature.params = kinds.map Kind.native) (isKind : kind ≠ .none)
    (found : kinds[position]? = some kind) :
    p.Valued kind.native (.slot (Build.argument position p.workspace.builder).1) := by
  have isType : p.site.function.signature.params[position]? = some kind.native := by
    rw [types, List.getElem?_map, found, Option.map_some]
  have isSlot : (Build.argument position p.workspace.builder).1 =
      ⟨position, .param, kind.native⟩ := by
    show Slot.mk position .param (((p.workspace.builder.currentFunction?.map fun function =>
      function.signature.params).getD [])[position]?.getD .unknown) = _
    rw [p.holds.currentFunction, Option.map_some, Option.getD_some, isType, Option.getD_some]
  rw [isSlot]
  refine ⟨⟨⟨⟨?_, isType⟩, by simp⟩, .param rfl ⟨_, isKind, rfl⟩⟩, rfl⟩
  rw [p.params]
  exact (List.getElem?_eq_some_iff.mp isType).1

theorem Lowers.declareParams {params : List Param} {kinds all : List Kind} {position : Nat}
    (inner : routine.isMain = false) (rest : all.drop position = kinds)
    (areKinds : ∀ kind ∈ all, kind ≠ .none)
    (types : p.site.function.signature.params = all.map Kind.native) :
    p.Lowers true (routine.declareParams position params kinds) := by
  induction params generalizing position kinds p with
  | nil =>
    rw [Routine.declareParams]
    · exact .pure
    · simp
  | cons param params next =>
    cases kinds with
    | nil =>
      rw [Routine.declareParams]
      · exact .pure
      · simp
    | cons kind kinds =>
      intro made after lowered
      obtain ⟨scope, outer, slot, builder, scopes, fresh, reserved, steps⟩ :=
        declareParams_cases lowered
      obtain ⟨found, others⟩ := drop_cons rest
      have isKind := areKinds kind (List.mem_of_getElem? found)
      obtain ⟨_, q, isWorkspace, early, address⟩ := declared (by rfl) isKind rfl scopes
        (fun isMain => by rw [inner] at isMain; cases isMain) reserved
      have grows := (early.code _ (.refl _)).confined.grows
      obtain ⟨value, isType⟩ := argument_valued (p := q) (grows.signature ▸ types) isKind found
      have address : q.Address kind.native (.slot slot) := address
      rw [← isType] at address
      obtain ⟨r, isStored, store, widens⟩ := (Runs.store address value.offers
        (.inl value.value)).lowers _ _ ((build_eq_ok ..).mpr ⟨rfl, rfl⟩)
      have growsToo := (store.code _ (.refl _)).confined.grows
      rw [isWorkspace] at isStored widens
      rw [← isStored] at steps
      obtain ⟨s, isAfter, late, widensToo⟩ :=
        next others (growsToo.signature ▸ grows.signature ▸ types) made after steps
      exact ⟨s, isAfter, early.trans (store.trans late),
        (Table.Widens.cons _ scopes).trans (widens.trans widensToo)⟩

/-! ### Returns -/

theorem result_type (p : Point routine) : p.site.function.signature.result? =
    if routine.result = .none then none else some routine.result.native := by
  rw [Signature.result?, Signature.hasResult, p.result]
  cases routine.result <;> rfl

theorem Lowers.ret {value : Option Operand} (closes : p.site.Closes p.unit (.ret value)) :
    p.Lowers false (build (Build.ret value)) := by
  intro made after lowered
  obtain ⟨rfl, rfl⟩ := (build_eq_ok ..).mp lowered
  have grows := (Site.Confined.finish p.site (.ret value)).grows
  refine ⟨p.moved _ grows, ?_, ⟨p.leads_moved _ grows, fun unit later => .ret value _ ?_⟩, .refl _⟩
  · rw [Build.ret, Build.finish_eq p.holds]
    rfl
  · intro other isUnit
    cases isUnit
    exact ⟨closes.1, fun operand member => (closes.2 operand member).mono
      ((p.leads_moved _ grows).builder.unit.trans later)⟩

theorem Lowers.lowerReturn {value : Option (Lower Operand)}
    (yields : ∀ given, value = some given → Provides routine given) :
    p.Lowers false (lowerReturn routine value) := by
  have failing {diagnostic : Diagnostic} : p.Lowers false (failWith diagnostic : Lower Unit) := by
    rintro made after ⟨⟩
  unfold Lowering.lowerReturn
  split
  · rename_i given
    split
    · exact failing
    · rename_i hasResult
      intro made after lowered
      obtain ⟨x, middle, given, lowered⟩ := (bind_eq_ok ..).mp lowered
      obtain ⟨q, rfl, along, value⟩ := yields _ rfl p x middle ((within_eq_ok ..).mp given)
      obtain ⟨_, _, expected, lowered⟩ := (bind_eq_ok ..).mp lowered
      obtain ⟨same, rfl⟩ := (expectType_eq_ok ..).mp expected
      have type := Kind.native_eq_of_same value.value.scalar same
      have returns : q.Lowers false (build (Build.ret (some x))) := .ret ⟨by
        rw [IR.Terminator.Typed, q.result_type, if_neg hasResult, Option.map_some, type], by
        simpa [IR.Terminator.operands] using value⟩
      obtain ⟨r, isAfter, late, widens⟩ := returns made after lowered
      exact ⟨r, isAfter, along.to.trans late, along.table ▸ widens⟩
  · split
    · rename_i procedure
      refine .ret ⟨?_, by simp [IR.Terminator.operands]⟩
      rw [IR.Terminator.Typed, p.result_type, if_pos procedure]
      rfl
    · split
      · rename_i hasResult isMain
        refine .ret ⟨?_, by simpa [IR.Terminator.operands] using value_int .i32 0⟩
        rw [IR.Terminator.Typed, p.result_type, if_neg hasResult, p.main isMain]
        rfl
      · exact failing

theorem closes_ending (p : Point routine) : p.site.Closes p.unit routine.ending := by
  unfold Routine.ending
  split
  · rename_i procedure
    refine ⟨?_, by simp [IR.Terminator.operands]⟩
    rw [IR.Terminator.Typed, p.result_type, if_pos procedure]
    rfl
  · exact ⟨trivial, by simp [IR.Terminator.operands]⟩

end Point

/-! ### Routines -/

/-- A function that is written from its start to its end is settled, and so are those that have been
added meanwhile. -/
theorem Point.To.settled_end {start : Point routine} {signature : Signature} {params : List Bytes}
    {slots : Set Nat} {terminator : IR.Terminator} (whole : start.To through slots q)
    (isEntry : start.site = .entry name signature params) (distinct : params.Nodup)
    (unreserved : start.slots = ∅)
    (last : start.unit.functions.size = routine.function + 1) (leaves : terminator.targets = [])
    (closes : q.site.Closes q.unit terminator)
    (unreachable : terminator = .unreachable → through = false)
    (place : Nat) (function : IR.Function) (beyond : routine.function ≤ place)
    (found : (q.moved (q.site.endWith terminator)
      (Site.Confined.endWith ..).grows).unit.functions[place]? = some function) :
    function.Settled
      (q.moved (q.site.endWith terminator) (Site.Confined.endWith ..).grows).unit := by
  have ends := q.leads_moved (q.site.endWith terminator) (Site.Confined.endWith ..).grows
  by_cases isOwn : place = routine.function
  · have own := (q.holds.place (q.site.endWith terminator)).function
    rw [isOwn] at found
    obtain rfl : _ = function := Option.some.inj (own.symm.trans found)
    have grows := (whole.code _ ends.builder.unit).confined.grows.trans
      (Site.Confined.endWith q.site terminator).grows
    have count := start.params
    have writes := whole.code _ ends.builder.unit
    rw [unreserved, isEntry] at writes
    rw [isEntry] at count grows
    obtain ⟨chart, charted, alive⟩ := writes.charted_end leaves (fun _ isUnit => by
      cases isUnit
      exact ⟨closes.1, fun operand member => (closes.2 operand member).mono ends.builder.unit⟩)
      unreachable
    have numbered : (Site.entry name signature params).Numbered := by
      rw [Site.Numbered, Site.entry, IR.Function.definitions_addBlock]
      exact .refl _
    have marked : (Site.entry name signature params).Marked :=
      IR.Counted.snoc .nil (by decide : Bytes.trunk "entry" = "entry")
    refine ⟨?_, (writes.marked marked).endWith terminator, .inr ⟨⟨?_, charted.coded,
      (writes.numbered numbered).endWith terminator⟩, writes.complete charted alive,
      charted.secure fun _ => alive _⟩⟩
    · rw [grows.params]
      exact distinct
    · rw [grows.params, grows.signature, count]
  · exact (whole.toLeads.trans ends).settled place function (by omega) found

theorem paramKinds?_ne_none {params : List Param} {kinds : List Kind}
    (resolved : paramKinds? params = some kinds) :
    kinds.length = params.length ∧ ∀ kind ∈ kinds, kind ≠ .none := by
  induction params generalizing kinds with
  | nil =>
    cases resolved
    exact ⟨rfl, by simp⟩
  | cons param params rest =>
    simp only [paramKinds?, List.mapM_cons, Option.bind_eq_bind, Option.bind_eq_some_iff,
      Option.pure_def, Option.some.injEq] at resolved
    obtain ⟨kind, named, others, resolved, rfl⟩ := resolved
    obtain ⟨length, areKinds⟩ := rest resolved
    refine ⟨congrArg (· + 1) length, fun other member => ?_⟩
    rcases List.mem_cons.mp member with rfl | member
    · exact Kind.ofName?_ne_none named
    · exact areKinds other member

/-- Parameters that can be declared have different names. -/
theorem declareParams_distinct {position : Nat} {params : List Param}
    {kinds : List Kind} {before after : Workspace} {made : Unit}
    (count : params.length = kinds.length)
    (lowered : routine.declareParams position params kinds before = .ok made after) {scope : Scope}
    {outer : List Scope} (scopes : before.table.scopes = scope :: outer) :
    (params.map Param.name).Nodup ∧ ∀ param ∈ params, scope.find? param.name = none := by
  induction params generalizing position kinds before scope outer with
  | nil => simp
  | cons param params rest =>
    cases kinds with
    | nil => cases count
    | cons kind kinds =>
      obtain ⟨_, _, slot, builder, isScope, fresh, _, lowered⟩ := declareParams_cases lowered
      cases scopes.symm.trans isScope
      obtain ⟨distinct, others⟩ := rest (Nat.succ.inj count) lowered rfl
      have apart : ∀ other ∈ params, other.name ≠ param.name ∧ scope.find? other.name = none := by
        intro other member
        have missing := others other member
        rw [Scope.find?, List.find?_cons, claimed_name] at missing
        split at missing
        · cases missing
        · rename_i different
          exact ⟨fun same => by simp [same] at different, missing⟩
      refine ⟨List.nodup_cons.mpr ⟨fun member => ?_, distinct⟩, List.forall_mem_cons.mpr
        ⟨fresh, fun other member => (apart other member).2⟩⟩
      obtain ⟨other, isOther, same⟩ := List.mem_map.mp member
      exact (apart other isOther).1 same

/-- Where the function of a routine starts, and the names behind the routine. -/
theorem Point.started {params : List Param} {kinds : List Kind} (kind : Kind) (p : Point routine)
    (free : isReserved name = false) (count : kinds.length = params.length)
    (scopes : p.workspace.table.scopes = scope :: outer) :
    ∃ start : Point ⟨p.unit.functions.size, kind, false⟩,
      start.workspace = routineStart name params kinds kind scope outer p.workspace ∧
      start.site = routineEntry name params kinds kind p.workspace.builder ∧ start.slots = ∅ ∧
      Table.Sound start.unit
        ⟨(routineSymbol name kinds kind p.unit.functions.size :: scope) :: outer⟩ := by
  have holds := Build.defineFunction_holds p.workspace.builder name
    { params := kinds.map Kind.native, result := kind.native } (params.map Param.name)
  have grows : p.unit.Grows (Build.defineFunction name
      { params := kinds.map Kind.native, result := kind.native } (params.map Param.name)
      p.workspace.builder).2.unit := .ofKept (.refl _) (.refl _) (.push _ _)
  have isSound : (routineSymbol name kinds kind p.unit.functions.size).Sound _ :=
    ⟨nofun, fun _ => ⟨rfl, _, _, rfl, holds.function, rfl, rfl⟩⟩
  have names := (p.table.mono grows).cons scopes isSound
  refine ⟨⟨routineStart name params kinds kind scope outer p.workspace,
    routineEntry name params kinds kind p.workspace.builder, holds,
    routineStart_coherent p.coherent, p.fair.addFunction ?_
      (IR.freshName_not_mem _ _), names.enter,
    ?_, rfl, nofun⟩, rfl, rfl, ?_, names⟩
  · exact unserved_of_free (freshName_free free)
  · simpa [routineEntry, Site.entry, IR.Function.addBlock] using count.symm
  · show Table.slots (Table.enter ⟨_⟩) _ = ∅
    rw [Table.slots_enter, Table.slots_cons, ← show p.workspace.table = ⟨scope :: outer⟩ from
      congrArg Table.mk scopes, p.table.slots_eq_empty (Nat.le_refl _), Set.union_empty]
    simp [routineSymbol]

theorem Point.Lowers.lowerRoutine {params : List Param} {result : Bytes}
    {body : Routine → Lower Unit}
    (lowers : ∀ (inner : Routine) (p : Point inner), p.Lowers through (body inner))
    (extending : ∀ inner, Extending through (body inner)) :
    p.Lowers true (lowerRoutine name params result body) := by
  intro made after lowered
  obtain ⟨kinds, kind, scope, outer, declared, bodied, finished, free, resolved, _, scopes, _,
    steps, rfl⟩ := lowerRoutine_cases lowered
  obtain ⟨count, areKinds⟩ := paramKinds?_ne_none resolved
  obtain ⟨inner, kept⟩ := steps.kept (extending _)
  obtain ⟨atParams, atBody, written⟩ := steps.toBodySteps.written (extending _)
  obtain ⟨start, isStart, isEntry, slots, names⟩ := p.started kind free count scopes
  -- The parameters and the body, from point to point.
  obtain ⟨q, rfl, first, widens⟩ := Lowers.declareParams (p := start) rfl rfl areKinds
    (by rw [isEntry]; rfl) () _ (isStart ▸ steps.params)
  obtain ⟨r, rfl, second, widensToo⟩ := lowers _ q _ _ steps.body
  have isFinished := finishRoutine_place steps.finish r.holds
  have settled := (first.trans second).settled_end isEntry
    (declareParams_distinct count.symm steps.params rfl).1 slots
    (by rw [Point.unit, isStart]; exact Array.size_push ..) (Routine.ending_targets _)
    r.closes_ending (ending_unreachable written steps.finish)
  have exit : finished.table.exit =
      ⟨(routineSymbol name kinds kind p.unit.functions.size :: scope) :: outer⟩ := by
    have wider := widens.trans widensToo
    rw [isStart] at wider
    rw [isFinished]
    exact wider.exit
  have grows : start.unit.Grows finished.builder.unit := by
    rw [Point.unit, isStart]
    exact inner.builder.unit
  have coherent := inner.coherent (routineStart_coherent p.coherent)
  refine ⟨⟨Workspace.backTo { finished with table := finished.table.exit } p.workspace, p.site,
    ⟨p.holds.cursor, kept _ _ p.holds.function⟩, coherent.mono (.refl _) rfl, ?_,
    exit ▸ names.mono grows, p.params, p.result, p.main⟩, rfl,
    ⟨⟨⟨.ofKept inner.builder.unit.data inner.builder.unit.globals kept, rfl,
      fun place function found _ => kept place function found⟩, ?_⟩,
      fun unit _ => .weaken .refl ?_⟩, ?_⟩
  · rw [isFinished]
    exact (r.moved _ (Site.Confined.endWith ..).grows).fair
  · intro place function beyond found
    subst isFinished
    exact settled place function beyond found
  · show finished.table.exit.slots routine.function ⊆ p.slots
    rw [exit, Table.slots_cons]
    refine Set.union_subset ?_ (congrArg Table.mk scopes ▸ subset_rfl)
    rintro place ⟨owned, _⟩
    cases owned
  · show p.workspace.table.Widens finished.table.exit
    rw [exit]
    exact .cons _ scopes

/-! ### Nodes -/

theorem Point.Lowers.lowerNodes {nodes : List Node}
    (lowers : ∀ node ∈ nodes, ∀ p : Point routine, p.Lowers node.completes (lowerNode node routine))
    (p : Point routine) : p.Lowers (Node.completeAll nodes) (lowerNodes nodes routine) := by
  induction nodes generalizing p with
  | nil =>
    rw [Lowering.lowerNodes, Node.completeAll]
    exact .pure
  | cons node nodes rest =>
    rw [Lowering.lowerNodes, Node.completeAll]
    exact .bind (.discarding (lowers node (List.mem_cons_self ..) p)) fun q _ =>
      rest (fun node member => lowers node (List.mem_cons_of_mem _ member)) q

/-- Lowering a node leads from point to point. -/
theorem lowerNode_lowers (node : Node) (p : Point routine) :
    p.Lowers node.completes (lowerNode node routine) := by
  induction node using Node.inductionOn generalizing routine with
  | step node children =>
    have list (nodes : List Node) (members : ∀ child ∈ nodes, child ∈ node.children)
        (inner : Routine) (p : Point inner) :
        p.Lowers (Node.completeAll nodes) (lowerNodes nodes inner) :=
      .lowerNodes (fun child member p => children child (members child member) p) p
    have loose (child : Node) (member : child ∈ node.children) (p : Point routine) :
        p.Lowers child.completes (discarding child (lowerNode child routine)) :=
      .discarding (children child member p)
    have enclosed (nodes : List Node) (stage : Stage)
        (members : ∀ child ∈ nodes, child ∈ node.children) (p : Point routine) :
        p.Encloses Eq (Node.completeAll nodes)
          (within stage (inScope (lowerNodes nodes routine))) :=
      .within (.inScope (list nodes members routine p.entered).encloses)
    by_cases plain : node.isPlain = true
    · rw [Node.completes_of_isPlain plain]
      exact (lowerNode_runs node plain p).lowers
    · cases node with
      | declaration =>
        rw [lowerNode]
        exact .statement (.declareVariable (fun _ _ _ declared => declared) (by decide))
      | arrayDeclaration =>
        rw [lowerNode]
        exact .statement (.declareVariable declares_array (by simp [Shape.role]))
      | conditional position condition consequent alternative =>
        rw [lowerNode, lowerConditional_eq, Node.completes]
        exact .statement (Point.Encloses.lowers (.branching (operand_provides condition routine)
          (enclosed consequent .consequent (by simp +contextual))
          (enclosed alternative .alternative (by simp +contextual))))
      | forLoop position start condition step body =>
        rw [lowerNode, lowerFor_eq, Node.completes]
        rw [← Bool.and_true start.completes]
        exact .statement (Point.Encloses.lowers (.inScope (.start
          (.within (loose start (by simp) p.entered)) fun q _ =>
            .looping (operand_provides condition routine) fun r => Point.Lowers.encloses
              (.bind (.within (list body (by simp +contextual) routine r)) fun s _ =>
                .within (loose step (by simp) s)))))
      | whileLoop position condition body =>
        rw [lowerNode, lowerWhile_eq]
        exact .statement (Point.Encloses.lowers (.looping (operand_provides condition routine)
          (enclosed body .body (by simp +contextual))))
      | repeatLoop position body condition =>
        rw [lowerNode, lowerRepeat_eq, Node.completes]
        exact .statement (Point.Encloses.lowers (.inScope (.loopingUntil
          (fun q => .within (list body (by simp +contextual) routine q))
          (operand_provides condition routine))))
      | procedure position name params body =>
        rw [lowerNode]
        exact .statement (.lowerRoutine (fun inner p => list body (by simp) inner p)
          (lowerNodes_extending body))
      | function position name params result body =>
        rw [lowerNode]
        exact .statement (.lowerRoutine (fun inner p => list body (by simp) inner p)
          (lowerNodes_extending body))
      | «return» position value =>
        rw [lowerNode]
        refine .statement (.lowerReturn fun given isGiven => ?_)
        split at isGiven
        · cases isGiven
        · cases isGiven
          exact operand_provides value routine
      | block position statements =>
        rw [lowerNode, Node.completes]
        exact .statement (list statements (by simp) routine p)
      | _ => exact absurd rfl plain

/-! ### Programs -/

/-- The routine of a whole program, whose function is the first one. -/
def mainRoutine : Routine := { function := 0, result := .integer, isMain := true }

/-- The workspace in which a program is lowered. -/
def programStart (name : Bytes) : Workspace where
  table := Table.enter .empty
  builder := (Build.defineFunction "main" { params := [], result := .i32 } [] (.new name)).2
  context := mainRoutine

/-- The site where the main function starts. -/
def mainEntry : Site := .entry "main" { params := [], result := .i32 } []

theorem programStart_holds (name : Bytes) :
    (programStart name).builder.Holds 0 mainEntry :=
  Build.defineFunction_holds (.new name) _ _ _

/-- No external function has been asked for yet. -/
theorem programStart_coherent (name : Bytes) : (programStart name).Coherent := by
  intro service function known
  cases service <;> cases known

variable {program : Program} {after : Workspace} {made : Unit} {unit : IR.Module}

/-- A program that is lowered: its nodes, and a return at the end. -/
theorem lowerProgram_cases (lowered : lowerProgram program (.fresh name) = .ok made after) :
    ∃ finished, lowerNodes program mainRoutine (programStart name) = .ok () finished ∧
      ∀ atEnd, finished.builder.Holds 0 atEnd → after =
        Workspace.place { finished with table := finished.table.exit } 0
          (atEnd.endWith (.ret (some (.int .i32 0)))) := by
  simp only [lowerProgram, bind_eq_ok, build_eq_ok, enterRoutine_eq_ok, currentRoutine_eq_ok,
    inScope_eq_ok, get_eq_ok] at lowered
  obtain ⟨_, _, ⟨rfl, rfl⟩, _, _, rfl, inner, ⟨_, _, ⟨rfl, rfl⟩, _, finished, steps, _, _,
    ⟨rfl, rfl⟩, ending⟩, rfl⟩ := lowered
  refine ⟨finished, steps, fun atEnd holds => ?_⟩
  have ended := holds.terminated
  cases closed : finished.builder.terminated with
  | true =>
    simp only [closed, Bool.not_true, Bool.false_eq_true, if_false, pure_eq_ok, true_and] at ending
    subst ending
    rw [Site.endWith_of_terminated (ended.symm.trans closed), Workspace.place, holds.place_self]
  | false =>
    simp only [closed, Bool.not_false, if_true, build_eq_ok] at ending
    obtain ⟨_, rfl⟩ := ending
    rw [Site.endWith_of_open (ended.symm.trans closed),
      ← Site.finish_of_open (ended.symm.trans closed), Build.ret, Build.finish_eq holds]
    rfl

/-- Lowering starts from nothing, whatever the session has been used for. -/
theorem Session.workspace_clearModule (session : Session) :
    session.clearModule.workspace = .fresh session.name := rfl

/-- A program compiles if it is found good and can be lowered. -/
theorem compile_eq_ok :
    compile name program = .ok unit ↔
      (Analysis.checkProgram program {}).1 = true ∧
        ∃ workspace, lowerProgram program (.fresh name) = .ok () workspace ∧
          workspace.builder.unit = unit := by
  have analyzed : (Session.new name).analyze program =
      (if (Analysis.checkProgram program {}).1 then .ok ()
        else .error (Session.analysisFailure (Analysis.checkProgram program {}).2.faults.toList),
      { Session.new name with
        table := (Analysis.checkProgram program {}).2.table
        faults := (Analysis.checkProgram program {}).2.faults.toList }) := rfl
  unfold compile Session.compile
  rw [analyzed]
  cases (Analysis.checkProgram program {}).1 with
  | false => simp
  | true =>
    simp only [if_true, Session.lower, Session.workspace_clearModule, Session.new, true_and]
    cases lowerProgram program (.fresh name) with
    | error failure workspace => simp
    | ok made workspace => simp

/-- What is left of a program that has been lowered: all names are fair and all functions are
settled. -/
theorem lowerProgram_settled (lowered : lowerProgram program (.fresh name) = .ok made after) :
    after.builder.unit.Fair ∧ ∀ (place : Nat) (function : IR.Function),
      after.builder.unit.functions[place]? = some function →
        function.Settled after.builder.unit := by
  obtain ⟨finished, steps, isAfter⟩ := lowerProgram_cases lowered
  have fair : (programStart name).builder.unit.Fair := by
    refine IR.Module.Fair.addFunction ⟨by simp [IR.Builder.new], by simp [IR.Builder.new],
      by simp [IR.Builder.new, IR.Module.names]⟩ ?_ (IR.freshName_not_mem _ _)
    show IR.freshName [] "main" ∉ servedNames
    decide
  have sound : (programStart name).table.Sound (programStart name).builder.unit := by
    intro scope member symbol here
    obtain rfl := List.mem_singleton.mp member
    cases here
  let start : Point mainRoutine :=
    ⟨programStart name, mainEntry, programStart_holds name, programStart_coherent name, fair, sound,
      rfl, rfl, fun _ => rfl⟩
  have unreserved : start.slots = ∅ := by
    refine Set.eq_empty_iff_forall_notMem.mpr ?_
    rintro place ⟨scope, member, symbol, here, _⟩
    obtain rfl := List.mem_singleton.mp member
    cases here
  obtain ⟨q, rfl, whole, _⟩ :=
    Point.Lowers.lowerNodes (fun node _ => lowerNode_lowers node) start _ _ steps
  have closes : q.site.Closes q.unit (.ret (some (.int .i32 0))) :=
    ⟨q.result_type.symm, by simpa [IR.Terminator.operands] using Point.value_int .i32 0⟩
  rw [isAfter q.site q.holds]
  exact ⟨(q.moved _ (Site.Confined.endWith ..).grows).fair, fun place function found =>
    whole.settled_end rfl List.nodup_nil unreserved rfl rfl closes (by simp) place function
      (Nat.zero_le _) found⟩

/-- What is left of a program that has been lowered: a sound module in which every function is
served from outside or complete. -/
theorem lowerProgram_sound (lowered : lowerProgram program (.fresh name) = .ok made after) :
    after.builder.unit.Sound ∧ ∀ (place : Nat) (function : IR.Function),
      after.builder.unit.functions[place]? = some function →
        function.external = true ∨ function.Complete := by
  obtain ⟨fair, settled⟩ := lowerProgram_settled lowered
  refine ⟨fair.sound fun place function found defined => ?_, fun place function found =>
    (settled place function found).code.imp_right fun ⟨_, complete, _⟩ => complete⟩
  rcases (settled place function found).code with served | ⟨sound, _⟩
  · rw [defined] at served
    cases served
  · exact sound

/-- Every function of a program that has been lowered is served from outside or secure. -/
theorem lowerProgram_secure
    (lowered : lowerProgram program (.fresh name) = .ok made after) (place : Nat)
    (function : IR.Function) (found : after.builder.unit.functions[place]? = some function) :
    function.external = true ∨ function.Secure after.builder.unit :=
  ((lowerProgram_settled lowered).2 place function found).code.imp_right
    fun ⟨_, _, secure⟩ => secure

/-- A program that compiles has a well-formed module, and the text of the module can be told. -/
theorem compile_wellFormed {name : Bytes} {program : Program} {unit : IR.Module}
    (compiled : compile name program = .ok unit) :
    unit.WellFormed ∧ unit.isPrintable = true := by
  obtain ⟨_, workspace, lowered, rfl⟩ := compile_eq_ok.mp compiled
  have wellFormed : workspace.builder.unit.WellFormed := by
    intro place function found defined
    rcases ((lowerProgram_settled lowered).2 place function found).code with served |
      ⟨sound, complete, _⟩
    · rw [defined] at served
      cases served
    · exact ⟨sound, complete.entry, complete.ended⟩
  exact ⟨wellFormed, wellFormed.isPrintable⟩

/-- A function inside another, which calls it in a loop and adds up its results in a variable of
the module. -/
def nestedSums : Program :=
  [.declaration 1 "total" "INTEGER",
    .function 2 "sum" [⟨"n", "INTEGER"⟩] "INTEGER"
      [.function 3 "twice" [⟨"k", "INTEGER"⟩] "INTEGER"
        [.return 4 (.binary 4 "*" (.identifier 4 "k") (.integer 4 2))],
      .whileLoop 5 (.comparison 5 ">" (.identifier 5 "n") (.integer 5 0))
        [.assignment 6 "total"
          (.binary 6 "+" (.identifier 6 "total") (.call 6 "twice" [.identifier 6 "n"])),
        .binary 7 "-" (.identifier 7 "n") .missing],
      .return 8 (.identifier 8 "total")],
    .output 9 [.call 9 "sum" [.integer 9 3]]]

theorem compile_wellFormed_nestedSums :
    ∃ unit, compile "sums" nestedSums = .ok unit ∧ unit.WellFormed ∧ unit.isPrintable = true := by
  have compiles : (compile "sums" nestedSums).isOk = true := by decide +kernel
  cases compiled : compile "sums" nestedSums with
  | error failure =>
    rw [compiled] at compiles
    cases compiles
  | ok unit => exact ⟨unit, rfl, compile_wellFormed compiled⟩

end Pascaline.Lowering
