/-
Hygiene of names. A program and the renamed program are lowered side by side: at every moment their
scopes differ in names only, and so do their modules. They compile or fail together, and their
modules behave alike.

The relation also says that no scope is left open or closed too often, on success and on failure.
Beside itself, a program shows it of every step of lowering.
-/

import Pascaline.Proofs.Anonymity
import Pascaline.Proofs.Renaming

namespace Pascaline.Lowering

open IR (Build Operand Slot)

variable {First Second Next NextToo : Type}

/-! ### Steps side by side -/

/-- Workspaces whose scopes and modules differ in names only. Functions are known by their numbers,
so what is kept of them is the same. -/
structure Workspace.Renamed (names : Renaming) (workspace other : Workspace) : Prop where
  table : other.table = workspace.table.rename names
  builder : workspace.builder.anonymous = other.builder.anonymous
  externals : other.externals = workspace.externals
  context : other.context = workspace.context

/-- Two steps that have both succeeded with related results, or have both failed, in workspaces
that differ in names only and have as many scopes as before. -/
inductive Alike (names : Renaming) (same : First → Second → Prop) (depth : Nat) :
    EStateM.Result LoweringFailure Workspace First →
      EStateM.Result LoweringFailure Workspace Second → Prop
  | ok {made : First} {madeToo : Second} {after afterToo : Workspace} (alike : same made madeToo)
      (renamed : after.Renamed names afterToo) (balanced : after.table.depth = depth) :
      Alike names same depth (.ok made after) (.ok madeToo afterToo)
  | error {failure failureToo : LoweringFailure} {after afterToo : Workspace}
      (renamed : after.Renamed names afterToo) (balanced : after.table.depth = depth) :
      Alike names same depth (.error failure after) (.error failureToo afterToo)

/-- Two steps that do the same up to names, from workspaces that differ in names only. -/
def Twins (names : Renaming) (same : First → Second → Prop) (step : Lower First)
    (twin : Lower Second) : Prop :=
  ∀ ⦃before other : Workspace⦄, before.Renamed names other →
    Alike names same before.table.depth (step before) (twin other)

/-- The address of an element is computed from numbers alone, so its code can be written without
names. -/
theorem elementOf_blind (slot : Slot) (first : Int64) (index : Operand) :
    Build.Blind (elementOf slot first index) := by
  refine .bind ?_ fun _ => Build.elementAddress_blind _ _
  unfold elementOffset
  split
  · exact .pure _
  · exact Build.binary_blind _ _ _

namespace Twins

variable {names : Renaming} {same : First → Second → Prop} {sameNext : Next → NextToo → Prop}

theorem pure {made : First} {madeToo : Second} (alike : same made madeToo) :
    Twins names same (pure made) (pure madeToo) :=
  fun _ _ renamed => .ok alike renamed rfl

/-- Two failures are alike whatever they say, since messages may tell names. -/
theorem fail (cause causeToo : Cause) :
    Twins names same (fail cause : Lower First) (fail causeToo : Lower Second) :=
  fun _ _ renamed => .error renamed rfl

theorem failWith (diagnostic diagnosticToo : Diagnostic) :
    Twins names same (failWith diagnostic : Lower First)
      (failWith diagnosticToo : Lower Second) :=
  .fail _ _

variable {step : Lower First} {twin : Lower Second} {next : First → Lower Next}

/-- The general rule for a sequence: the results of the first steps are related, and the second
steps are twins for all results that are. -/
theorem bindRelated {nextToo : Second → Lower NextToo} (first : Twins names same step twin)
    (second : ∀ made madeToo, same made madeToo →
      Twins names sameNext (next made) (nextToo madeToo)) :
    Twins names sameNext (step >>= next) (twin >>= nextToo) := by
  intro before other renamed
  have early := first renamed
  simp only [Bind.bind, EStateM.bind]
  generalize step before = ran at early ⊢
  generalize twin other = ranToo at early ⊢
  cases early with
  | ok alike renamed balanced => exact balanced ▸ second _ _ alike renamed
  | error renamed balanced => exact .error renamed balanced

/-- Most results are the same on both sides, because operands and numbers have no names in them. -/
theorem bind {twin : Lower First} {nextToo : First → Lower NextToo}
    (first : Twins names Eq step twin)
    (second : ∀ made, Twins names sameNext (next made) (nextToo made)) :
    Twins names sameNext (step >>= next) (twin >>= nextToo) :=
  first.bindRelated fun made _ equal => equal ▸ second made

/-- A step that depends on a condition that is the same on both sides. -/
theorem ite {condition conditionToo : Prop} [Decidable condition] [Decidable conditionToo]
    {other : Lower First} {otherToo : Lower Second} (agree : condition ↔ conditionToo)
    (yes : condition → Twins names same step twin)
    (no : ¬condition → Twins names same other otherToo) :
    Twins names same (if condition then step else other)
      (if conditionToo then twin else otherToo) := by
  by_cases holds : condition
  · rw [if_pos holds, if_pos (agree.mp holds)]
    exact yes holds
  · rw [if_neg holds, if_neg fun holdsToo => holds (agree.mpr holdsToo)]
    exact no holds

theorem map {twin : Lower First} (change : First → Next) (inner : Twins names Eq step twin) :
    Twins names Eq (change <$> step) (change <$> twin) :=
  inner.bind fun _ => .pure rfl

/-- What is read is not the same workspace, but one that differs in names only. -/
theorem get : Twins names (Workspace.Renamed names) get get :=
  fun _ _ renamed => .ok renamed renamed rfl

/-- A step of building that does not depend on names leaves the scopes alone. -/
theorem build {step twin : Build First} (inner : step.Twins twin) :
    Twins names Eq (build step) (build twin) :=
  fun _ _ renamed =>
    .ok (inner renamed.builder).1 { renamed with builder := (inner renamed.builder).2 } rfl

/-- The stages may differ, as the stage of a routine or of a parameter tells its name. The failures
that they go into are alike all the same. -/
theorem within (stage stageToo : Stage) (inner : Twins names same step twin) :
    Twins names same (within stage step) (within stageToo twin) := by
  intro before other renamed
  have inner := inner renamed
  simp only [Lowering.within]
  generalize step before = ran at inner ⊢
  generalize twin other = ranToo at inner ⊢
  cases inner with
  | ok alike renamed balanced => exact .ok alike renamed balanced
  | error renamed balanced => exact .error renamed balanced

theorem located (position : Int) (inner : Twins names same step twin) :
    Twins names same (located position step) (located position twin) := by
  intro before other renamed
  have inner := inner renamed
  simp only [Lowering.located]
  generalize step before = ran at inner ⊢
  generalize twin other = ranToo at inner ⊢
  cases inner with
  | ok alike renamed balanced => exact .ok alike renamed balanced
  | @error failure failureToo _ _ renamed balanced =>
    -- Whether the position is taken depends on the trail, and either way both have failed.
    obtain ⟨trail, cause⟩ := failure
    obtain ⟨trailToo, causeToo⟩ := failureToo
    cases trail <;> cases trailToo <;> exact .error renamed balanced

/-- Both tables gain a scope and lose it again. The scope that is lost is the right one, since the
steps inside are balanced. -/
theorem inScope (inner : Twins names same step twin) :
    Twins names same (inScope step) (inScope twin) := by
  intro before other renamed
  have entered : Workspace.Renamed names { before with table := before.table.enter }
      { other with table := other.table.enter } :=
    { renamed with table := by rw [renamed.table]; rfl }
  have closed {after afterToo : Workspace} (renamed : after.Renamed names afterToo) :
      Workspace.Renamed names { after with table := after.table.exit }
        { afterToo with table := afterToo.table.exit } :=
    { renamed with table := by rw [renamed.table, Table.exit_rename] }
  have exited {after : Workspace} (balanced : after.table.depth = before.table.enter.depth) :
      after.table.exit.depth = before.table.depth := by
    rw [Table.exit, Table.depth, List.length_tail]
    exact Nat.sub_eq_of_eq_add balanced
  have inner := inner entered
  simp only [Lowering.inScope]
  generalize step { before with table := before.table.enter } = ran at inner ⊢
  generalize twin { other with table := other.table.enter } = ranToo at inner ⊢
  cases inner with
  | ok alike renamed balanced => exact .ok alike (closed renamed) (exited balanced)
  | error renamed balanced => exact .error (closed renamed) (exited balanced)

/-- Both go back to the same place: insertion points have no names. -/
theorem aside (inner : Twins names same step twin) :
    Twins names same (aside step) (aside twin) := by
  intro before other renamed
  have cursor := congrArg IR.Builder.cursor renamed.builder
  have back {after afterToo : Workspace} (renamedToo : after.Renamed names afterToo) :
      (after.backTo before).Renamed names (afterToo.backTo other) := by
    have unit := congrArg IR.Builder.unit renamedToo.builder
    refine { renamedToo with builder := ?_, context := renamed.context }
    exact congrArg₂ IR.Builder.mk unit cursor
  have inner := inner renamed
  simp only [Lowering.aside]
  generalize step before = ran at inner ⊢
  generalize twin other = ranToo at inner ⊢
  cases inner with
  | ok alike renamed balanced => exact .ok alike (back renamed) balanced
  | error renamed balanced => exact .error (back renamed) balanced

theorem enterRoutine (routine : Routine) :
    Twins names Eq (enterRoutine routine) (enterRoutine routine) :=
  fun _ _ renamed => .ok rfl { renamed with context := rfl } rfl

theorem currentRoutine : Twins names Eq currentRoutine currentRoutine :=
  .bindRelated .get fun _ _ renamed => .pure renamed.context.symm

/-! ### Names in scope -/

/-- A renamed table has the renamed symbol under the new name. Different names stay different, so it
has no other one there. -/
theorem find? (name : Bytes) :
    Twins names (fun found foundToo => foundToo = found.map (Symbol.rename names)) (find? name)
      (find? (names name)) :=
  .bindRelated .get fun _ _ renamed => .pure (by rw [renamed.table, Table.find?_rename])

/-- A declaration fails on both sides or on neither, for a name is taken exactly if its renaming is.
-/
theorem declare {declaration twin : Table → Except Fault Table}
    (alike : Table.DeclaresAlike names declaration twin) :
    Twins names Eq (declare declaration) (declare twin) := by
  intro before other renamed
  rcases alike before.table with
    ⟨made, declared, declaredToo, depth⟩ | ⟨_, _, declared, declaredToo⟩
  · rw [(declare_eq_ok declaration before () _).mpr ⟨made, declared, rfl⟩,
      (declare_eq_ok twin other () _).mpr ⟨_, renamed.table ▸ declaredToo, rfl⟩]
    exact .ok rfl { renamed with table := rfl } depth
  · rw [← renamed.table] at declaredToo
    simp only [Lowering.declare, Bind.bind, EStateM.bind, MonadState.get, getThe, MonadStateOf.get,
      EStateM.get, declared, declaredToo]
    exact .error renamed rfl

/-- The symbol of a name is changed in both tables, in a way that keeps to the renaming. -/
theorem updateSymbol (name : Bytes) {change changeToo : Symbol → Symbol}
    (alike : ∀ symbol, changeToo (symbol.rename names) = (change symbol).rename names) :
    Twins names Eq (updateSymbol name change) (updateSymbol (names name) changeToo) := by
  intro before other renamed
  have table : other.table.update (names name) changeToo =
      (before.table.update name change).rename names := by
    rw [renamed.table, Table.update_rename _ _ _ alike]
  exact .ok rfl { renamed with table } (Table.depth_update _ _ _)

/-- Types are named by keywords, which no renaming touches. -/
theorem resolve (type : Bytes) : Twins names Eq (resolve type) (resolve type) := by
  unfold Lowering.resolve
  cases Kind.ofName? type with
  | some kind => exact .pure rfl
  | none => exact .failWith _ _

/-! ### Storage -/

/-- A variable without storage gets it on both sides, under its own name in each. The slot is a
number, and is the same one. -/
theorem allocate (name : Bytes) {reserve reserveToo : Reserve}
    (alike : ∀ type, (reserve name type).Twins (reserveToo (names name) type)) :
    Twins names Eq (allocate reserve name) (allocate reserveToo (names name)) := by
  refine .bindRelated (.find? name) ?_
  rintro found _ rfl
  cases found with
  | none => exact .failWith _ _
  | some symbol =>
    obtain ⟨_, shape, kind, slot, owner, code⟩ := symbol
    refine .ite Iff.rfl (fun _ => .fail _ _) fun _ => ?_
    cases slot with
    | some slot => exact .pure rfl
    | none =>
      exact .bind (.build (alike _)) fun slot =>
        .bind (.updateSymbol name fun _ => rfl) fun _ => .pure rfl

/-- The address of a variable, or of an element of it, is made from its slot and its bounds. -/
theorem lookup (name : Bytes) (index : Option Operand) {reserve reserveToo : Reserve}
    (alike : ∀ type, (reserve name type).Twins (reserveToo (names name) type)) :
    Twins names Eq (lookup reserve name index) (lookup reserveToo (names name) index) := by
  refine .bind (.allocate name alike) fun slot => ?_
  cases index with
  | none => exact .pure rfl
  | some index =>
    refine .bindRelated (.find? name) ?_
    rintro found _ rfl
    cases found with
    | none => exact .failWith _ _
    | some symbol =>
      obtain ⟨_, shape, kind, _, owner, code⟩ := symbol
      cases shape with
      | array first last => exact .build (elementOf_blind slot first index).twins
      | scalar => exact .failWith _ _
      | routine params => exact .failWith _ _

/-- In the outermost scope of the main routine a variable belongs to the module, and elsewhere to
the function. The depth decides which, and it is the same on both sides. -/
theorem reserve_twins (routine : Routine) (depth : Nat) (name : Bytes) (type : Ty) :
    (routine.reserve depth name type).Twins (routine.reserve depth (names name) type) := by
  unfold Routine.reserve
  split
  · exact Build.globalVariable_twins (names.alike name) type
  · exact Build.alloca_twins name (names name) type

/-- The name of a function is asked for to be told in a message, so nothing is said about it. -/
theorem functionName (function : Nat) :
    Twins names (fun _ _ => True) (Routine.functionName function) (Routine.functionName function) :=
  .bindRelated .get fun _ _ _ => .pure trivial

/-- The use of a name finds symbols that differ in the name only. It is refused on both sides or on
neither, as the owner of a variable is a number. -/
theorem storage (routine : Routine) (name : Bytes) (index : Option Operand) :
    Twins names (fun found foundToo => foundToo = (found.1.rename names, found.2))
      (routine.storage name index) (routine.storage (names name) index) := by
  refine .bindRelated (.find? name) ?_
  rintro found _ rfl
  cases found with
  | none => exact .failWith _ _
  | some symbol =>
    obtain ⟨_, shape, kind, slot, owner, code⟩ := symbol
    refine .ite Iff.rfl (fun _ => .failWith _ _) fun _ => ?_
    cases owner with
    | none =>
      refine .bindRelated .get fun _ _ renamed => ?_
      simp only [renamed.table, Table.depth_rename]
      exact .bind (.lookup name index (reserve_twins routine _ name)) fun address => .pure rfl
    | some owner =>
      refine .ite Iff.rfl (fun _ => ?_) fun _ => ?_
      · exact .bindRelated (.functionName _) fun _ _ _ =>
          .bindRelated (.functionName _) fun _ _ _ => .fail _ _
      · refine .bindRelated .get fun _ _ renamed => ?_
        simp only [renamed.table, Table.depth_rename]
        exact .bind (.lookup name index (reserve_twins routine _ name)) fun address => .pure rfl

theorem scalarStorage (routine : Routine) (name misuse : Bytes) :
    Twins names (fun found foundToo => foundToo = (found.1.rename names, found.2))
      (routine.scalarStorage name misuse) (routine.scalarStorage (names name) misuse) := by
  refine .bindRelated (.storage routine name none) ?_
  rintro ⟨symbol, address⟩ _ rfl
  exact .ite Iff.rfl (fun _ => .failWith _ _) fun _ => .pure rfl

theorem claim (routine : Routine) (name : Bytes) :
    Twins names Eq (routine.claim name) (routine.claim (names name)) := by
  refine .bindRelated .get fun _ _ renamed => ?_
  simp only [renamed.table, Table.depth_rename]
  refine .bind (.allocate name (reserve_twins routine _ name)) fun slot => ?_
  refine .ite Iff.rfl (fun _ => ?_) fun _ => .pure rfl
  exact .bind (.updateSymbol name fun _ => rfl) fun _ => .pure rfl

/-- A variable is declared and gets its storage at once, in the same place on both sides. -/
theorem declareVariable (routine : Routine) (name type : Bytes)
    {declaration twin : Kind → Table → Except Fault Table}
    (alike : ∀ kind, Table.DeclaresAlike names (declaration kind) (twin kind)) :
    Twins names Eq (routine.declareVariable name type declaration)
      (routine.declareVariable (names name) type twin) := by
  refine .ite (by rw [Renaming.isReserved_apply]) (fun _ => .failWith _ _) fun _ => ?_
  refine .bind (.resolve type) fun kind => .bind (.declare (alike kind)) fun _ =>
    .bind (.within _ _ (.claim routine name)) fun slot =>
      .ite Iff.rfl (fun _ => ?_) fun _ => .pure rfl
  cases Operand.zero? slot.type with
  | none => exact .pure rfl
  | some zero => exact .build (Build.store_blind _ _).twins

/-- Parameters are declared one by one, and each one is stored where its argument has the same
number. The induction is over both lists together. -/
theorem declareParams (routine : Routine) (position : Nat) (params : List Param)
    (kinds : List Kind) :
    Twins names Eq (routine.declareParams position params kinds)
      (routine.declareParams position (params.map (Param.rename names)) kinds) := by
  induction params generalizing position kinds with
  | nil => exact .pure rfl
  | cons param params rest =>
    cases kinds with
    | nil => exact .pure rfl
    | cons kind kinds =>
      refine .bind (.within _ _ (.bind (.declare (Table.declareScalar_alike names param.name kind))
        fun _ => .claim routine param.name)) fun slot => .bind (.build ?_) fun _ => rest _ _
      exact (Build.Blind.bind (Build.argument_blind _) fun _ => Build.store_blind _ _).twins

/-! ### Conversions -/

end Twins

theorem read_blind (address : Operand) : Build.Blind (read address) := by
  unfold read
  cases address with
  | slot place =>
    dsimp only
    split
    · exact .pure _
    · exact Build.load_blind _
  | _ => exact Build.load_blind _

theorem resize_blind (operand : Operand) (target : IntType) :
    Build.Blind (resize operand target) := by
  unfold resize
  split
  · split
    · exact .pure _
    · split
      · exact .pure _
      · split
        · exact Build.convert_blind _ _ _
        · exact Build.convert_blind _ _ _
  · exact .pure _

theorem promote_blind (operand : Operand) : Build.Blind (promote operand) := by
  unfold promote
  split
  · split
    · exact .pure _
    · split
      · exact .pure _
      · exact Build.convert_blind _ _ _
  · exact .pure _

theorem terminated_eq {names : Renaming} {workspace other : Workspace}
    (renamed : workspace.Renamed names other) :
    other.builder.terminated = workspace.builder.terminated := by
  rw [← other.builder.anonymous_terminated, ← renamed.builder,
    workspace.builder.anonymous_terminated]

/-- Which blocks of a function are open can be seen without names. -/
theorem openBlocks_eq {names : Renaming} {workspace other : Workspace}
    (renamed : workspace.Renamed names other) (function : Nat) :
    (workspace.builder.function? function).map IR.Function.openBlocks =
      (other.builder.function? function).map IR.Function.openBlocks := by
  have blind (builder : IR.Builder) :
      (builder.anonymous.function? function).map IR.Function.openBlocks =
        (builder.function? function).map IR.Function.openBlocks := by
    rw [builder.anonymous_function?, Option.map_map]
    exact congrArg (fun view => Option.map view _) (funext IR.Function.openBlocks_anonymous)
  rw [← blind, renamed.builder, blind]

namespace Twins

variable {names : Renaming}

/-- The names are there for the message alone, so they need not be related at all. -/
theorem fit (name nameToo : Bytes) (target : Ty) (value : Operand) :
    Twins names Eq (fit name target value) (fit nameToo target value) := by
  refine .ite Iff.rfl (fun _ => .failWith _ _) fun _ => ?_
  cases target with
  | int type =>
    exact .ite Iff.rfl (fun _ => .build (resize_blind value type).twins) fun _ => .pure rfl
  | _ => exact .pure rfl

/-- Operands are brought to a common type by their types alone. -/
theorem unify (operator : Bytes) (left right : Operand) :
    Twins names Eq (unify operator left right) (unify operator left right) := by
  refine .ite Iff.rfl (fun _ => .failWith _ _) fun _ => ?_
  split
  · refine .ite Iff.rfl (fun _ => .bind (.build (resize_blind _ _).twins) fun _ => .pure rfl)
      fun _ => ?_
    exact .ite Iff.rfl (fun _ => .bind (.build (resize_blind _ _).twins) fun _ => .pure rfl)
      fun _ => .pure rfl
  · exact .pure rfl

theorem truth (value : Operand) : Twins names Eq (truth value) (truth value) := by
  unfold Lowering.truth
  split
  · exact .ite Iff.rfl (fun _ => .pure rfl) fun _ => .build (Build.compare_blind _ _ _).twins
  · exact .build (Build.compare_blind _ _ _).twins
  · exact .build (Build.compare_blind _ _ _).twins
  · exact .failWith _ _

theorem negate (value : Operand) : Twins names Eq (negate value) (negate value) :=
  .bind (.truth value) fun _ => .build (Build.binary_blind _ _ _).twins

theorem expectCategory (place : Bytes) (category : Category) (value : Operand) :
    Twins names Eq (expectCategory place category value) (expectCategory place category value) :=
  .ite Iff.rfl (fun _ => .pure rfl) fun _ => .failWith _ _

theorem expectType (name nameToo : Bytes) (kind : Kind) (value : Operand) :
    Twins names Eq (expectType name kind value) (expectType nameToo kind value) :=
  .ite Iff.rfl (fun _ => .pure rfl) fun _ => .failWith _ _

/-! ### Expressions -/

variable {index twin condition left right twinToo conditionToo : Lower Operand}
  {bodyToo : Lower Unit} {nodes : List Node} {routine : Routine}

theorem lowerIndex (inner : Twins names Eq index twin) :
    Twins names Eq (lowerIndex index) (lowerIndex twin) :=
  .within _ _ (.bind inner fun _ => .bind (.expectCategory _ _ _) fun _ =>
    .build (resize_blind _ _).twins)

theorem lowerCondition (inner : Twins names Eq condition twin) :
    Twins names Eq (lowerCondition condition) (lowerCondition twin) :=
  .bind (.within _ _ inner) fun _ => .bind (.expectCategory _ _ _) fun _ => .pure rfl

/-- The symbols that are found differ in the name, but the address is the same operand. -/
theorem lowerIdentifier (routine : Routine) (name : Bytes) :
    Twins names Eq (lowerIdentifier routine name) (lowerIdentifier routine (names name)) := by
  refine .bindRelated (.scalarStorage routine name _) ?_
  rintro ⟨symbol, address⟩ _ rfl
  exact .build (read_blind _).twins

/-- The index comes first on both sides, then the name is used. -/
theorem lowerElement (routine : Routine) (name : Bytes) (inner : Twins names Eq index twin) :
    Twins names Eq (lowerElement routine name index) (lowerElement routine (names name) twin) := by
  refine .bind inner.lowerIndex fun index => .bindRelated (.storage routine name (some index)) ?_
  rintro ⟨symbol, address⟩ _ rfl
  exact .build (Build.load_blind _).twins

theorem lowerPair (first : Twins names Eq left twin) (second : Twins names Eq right twinToo) :
    Twins names Eq (lowerPair left right) (lowerPair twin twinToo) :=
  .bind (.within _ _ first) fun _ => .bind (.within _ _ second) fun _ => .pure rfl

theorem lowerBinary (operator : Bytes) (first : Twins names Eq left twin)
    (second : Twins names Eq right twinToo) :
    Twins names Eq (lowerBinary operator left right) (lowerBinary operator twin twinToo) := by
  refine .bind (.lowerPair first second) fun (left, right) =>
    .bind (.unify _ left right) fun (left, right, category) => ?_
  dsimp only
  split
  · exact .build (Build.binary_blind _ _ _).twins
  · exact .failWith _ _

/-- What the operator stands behind is a variable before the renaming exactly if it is one behind
it. -/
theorem lowerPostfix (routine : Routine) (operator : Bytes) (target : Node) :
    Twins names Eq (lowerPostfix routine operator target)
      (lowerPostfix routine operator (target.rename names)) := by
  cases target with
  | identifier position name =>
    refine .bindRelated (.scalarStorage routine name _) ?_
    rintro ⟨symbol, address⟩ _ rfl
    refine .bind (.build (read_blind _).twins) fun old => ?_
    dsimp only
    split
    · exact .bind (.build (Build.Blind.bind (Build.binary_blind _ _ _) fun _ =>
        Build.store_blind _ _).twins) fun _ => .pure rfl
    · exact .failWith _ _
  | _ => exact .failWith _ _

theorem lowerUnary (operator : Bytes) {operand : Lower Operand}
    (inner : Twins names Eq operand twin) :
    Twins names Eq (lowerUnary operator operand) (lowerUnary operator twin) := by
  refine .bind inner fun value => .ite Iff.rfl (fun _ => .pure rfl) fun _ =>
    .ite Iff.rfl (fun _ => ?_) fun _ => .ite Iff.rfl (fun _ => ?_) fun _ =>
      .ite Iff.rfl (fun _ => .negate _) fun _ => .failWith _ _
  · split
    · exact .build (Build.binary_blind _ _ _).twins
    · exact .pure rfl
  · exact .build (Build.binary_blind _ _ _).twins

theorem lowerComparison (operator : Bytes) (first : Twins names Eq left twin)
    (second : Twins names Eq right twinToo) :
    Twins names Eq (lowerComparison operator left right)
      (lowerComparison operator twin twinToo) := by
  refine .bind (.lowerPair first second) fun (left, right) =>
    .bind (.unify _ left right) fun (left, right, category) => ?_
  dsimp only
  split
  · exact .build (Build.compare_blind _ _ _).twins
  · exact .failWith _ _

theorem lowerLogical (operator : Bytes) (first : Twins names Eq left twin)
    (second : Twins names Eq right twinToo) :
    Twins names Eq (lowerLogical operator left right) (lowerLogical operator twin twinToo) := by
  refine .ite Iff.rfl (fun _ => .bind second fun _ => .negate _) fun _ => ?_
  refine .bind (.lowerPair first second) fun (left, right) => ?_
  dsimp only
  split
  · exact .bind (.truth _) fun _ => .bind (.truth _) fun _ =>
      .build (Build.binary_blind _ _ _).twins
  · exact .failWith _ _

/-! ### Statements -/

/-- The kind of a symbol survives the renaming, so the value is fitted to the same type. -/
theorem lowerAssignment (routine : Routine) (name : Bytes) {value : Lower Operand}
    (inner : Twins names Eq value twin) :
    Twins names Eq (lowerAssignment routine name value)
      (lowerAssignment routine (names name) twin) := by
  refine .bindRelated (.scalarStorage routine name _) ?_
  rintro ⟨symbol, address⟩ _ rfl
  exact .bind inner fun _ => .bind (.fit _ _ _ _) fun _ => .build (Build.store_blind _ _).twins

theorem lowerElementAssignment (routine : Routine) (name : Bytes) {value : Lower Operand}
    (first : Twins names Eq index twin) (second : Twins names Eq value twinToo) :
    Twins names Eq (lowerElementAssignment routine name index value)
      (lowerElementAssignment routine (names name) twin twinToo) := by
  refine .bind first.lowerIndex fun index => .bindRelated (.storage routine name (some index)) ?_
  rintro ⟨symbol, address⟩ _ rfl
  exact .bind second fun _ => .bind (.fit _ _ _ _) fun _ => .build (Build.store_blind _ _).twins

/-- Whether a block has its end already is the same on both sides, for no end of a block tells a
name. -/
theorem branchTo (block : Nat) : Twins names Eq (branchTo block) (branchTo block) := by
  refine .bindRelated .get fun _ _ renamed => .ite ?_
    (fun _ => .build (Build.finish_blind _).twins) fun _ => .pure rfl
  rw [terminated_eq renamed]

theorem newBlock (stem : Bytes) :
    Twins names Eq (Lowering.build (Build.newBlock stem)) (Lowering.build (Build.newBlock stem)) :=
  .build (Build.newBlock_blind stem).twins

theorem moveTo (block : Nat) :
    Twins names Eq (Lowering.build (Build.moveTo block)) (Lowering.build (Build.moveTo block)) :=
  .build (Build.moveTo_blind block).twins

theorem finish (terminator : IR.Terminator) :
    Twins names Eq (Lowering.build (Build.finish terminator))
      (Lowering.build (Build.finish terminator)) :=
  .build (Build.finish_blind terminator).twins

/-- Blocks get the same numbers on both sides, since as many have been added before. Each branch has
a scope of its own. -/
theorem lowerConditional {consequent alternative consequentToo alternativeToo : Lower Unit}
    (test : Twins names Eq condition conditionToo) (yes : Twins names Eq consequent consequentToo)
    (no : Twins names Eq alternative alternativeToo) :
    Twins names Eq (lowerConditional condition consequent alternative)
      (lowerConditional conditionToo consequentToo alternativeToo) :=
  .bind test.lowerCondition fun _ => .bind (.newBlock _) fun _ => .bind (.newBlock _) fun _ =>
    .bind (.newBlock _) fun _ => .bind (.finish _) fun _ => .bind (.moveTo _) fun _ =>
    .bind (.within _ _ yes.inScope) fun _ => .bind (.branchTo _) fun _ =>
    .bind (.moveTo _) fun _ => .bind (.within _ _ no.inScope) fun _ =>
    .bind (.branchTo _) fun _ => .moveTo _

theorem lowerWhile {body : Lower Unit} (test : Twins names Eq condition conditionToo)
    (inner : Twins names Eq body bodyToo) :
    Twins names Eq (lowerWhile condition body) (lowerWhile conditionToo bodyToo) :=
  .bind (.newBlock _) fun _ => .bind (.newBlock _) fun _ => .bind (.newBlock _) fun _ =>
    .bind (.finish _) fun _ => .bind (.moveTo _) fun _ => .bind test.lowerCondition fun _ =>
    .bind (.finish _) fun _ => .bind (.moveTo _) fun _ =>
    .bind (.within _ _ inner.inScope) fun _ => .bind (.branchTo _) fun _ => .moveTo _

theorem lowerRepeat {body : Lower Unit} (inner : Twins names Eq body bodyToo)
    (test : Twins names Eq condition conditionToo) :
    Twins names Eq (lowerRepeat body condition) (lowerRepeat bodyToo conditionToo) :=
  .bind (.newBlock _) fun _ => .bind (.newBlock _) fun _ => .bind (.newBlock _) fun _ =>
    .inScope (.bind (.finish _) fun _ => .bind (.moveTo _) fun _ =>
      .bind (.within _ _ inner) fun _ => .bind (.branchTo _) fun _ => .bind (.moveTo _) fun _ =>
      .bind test.lowerCondition fun _ => .bind (.finish _) fun _ => .moveTo _)

/-- Start, test, body and step share one scope, so a variable of the start is known in all of them,
under its own name on each side. -/
theorem lowerFor {start step body startToo stepToo : Lower Unit}
    (first : Twins names Eq start startToo) (test : Twins names Eq condition conditionToo)
    (next : Twins names Eq step stepToo) (inner : Twins names Eq body bodyToo) :
    Twins names Eq (lowerFor start condition step body)
      (lowerFor startToo conditionToo stepToo bodyToo) :=
  .inScope (.bind (.within _ _ first) fun _ => .bind (.newBlock _) fun _ =>
    .bind (.newBlock _) fun _ => .bind (.newBlock _) fun _ => .bind (.finish _) fun _ =>
    .bind (.moveTo _) fun _ => .bind test.lowerCondition fun _ => .bind (.finish _) fun _ =>
    .bind (.moveTo _) fun _ => .bind (.within _ _ inner) fun _ =>
    .bind (.within _ _ next) fun _ => .bind (.branchTo _) fun _ => .moveTo _)

/-! ### Routines -/

/-- A renamed parameter keeps its type. -/
theorem resolveParams (params : List Param) :
    Twins names Eq (resolveParams params) (resolveParams (params.map (Param.rename names))) := by
  induction params with
  | nil => exact .pure rfl
  | cons param params rest =>
    exact .bind (.within _ _ (.resolve _)) fun _ => .bind rest fun _ => .pure rfl

theorem resolveResult (result : Bytes) :
    Twins names Eq (resolveResult result) (resolveResult result) :=
  .ite Iff.rfl (fun _ => .pure rfl) fun _ => .within _ _ (.resolve _)

/-- A missing return is found on both sides or on neither. Only the message tells the name. -/
theorem finishRoutine (routine : Routine) (name nameToo : Bytes) :
    Twins names Eq (finishRoutine routine name) (finishRoutine routine nameToo) := by
  refine .bindRelated .get fun before other renamed => ?_
  have opens : ((before.builder.function? routine.function).map IR.Function.openBlocks) =
      (other.builder.function? routine.function).map IR.Function.openBlocks :=
    openBlocks_eq renamed _
  exact .ite (by rw [terminated_eq renamed]) (fun _ => .pure rfl) fun _ =>
    .ite Iff.rfl (fun _ => .finish _) fun _ =>
      .ite (by rw [opens]) (fun _ => .failWith _ _) fun _ => .finish _

/-- A routine is declared, gets its function, and its parameters and body are lowered in it. Its
number is the next one on both sides, and it is not reserved on one side alone. -/
theorem lowerRoutine (name : Bytes) (params : List Param) (result : Bytes)
    {body bodyToo : Routine → Lower Unit}
    (inner : ∀ routine, Twins names Eq (body routine) (bodyToo routine)) :
    Twins names Eq (lowerRoutine name params result body)
      (lowerRoutine (names name) (params.map (Param.rename names)) result bodyToo) := by
  refine .ite (by rw [Renaming.isReserved_apply]) (fun _ => .failWith _ _) fun _ => ?_
  refine .bind (.resolveParams _) fun kinds => .bind (.resolveResult _) fun kind =>
    .bind (.declare (Table.declareRoutine_alike names name kinds kind)) fun _ =>
    .aside (.bind (.build (Build.defineFunction_twins (names.alike name) (by simp) _))
      fun function => .bind (.updateSymbol name fun _ => rfl) fun _ =>
        .bind (.enterRoutine _) fun _ => .inScope (.bind .currentRoutine fun _ => ?_))
  exact .bind (.declareParams _ _ _ _) fun _ => .bind (.within _ _ (inner _)) fun _ =>
    .finishRoutine _ _ _

/-- A routine is found under both names or under neither, with the same number and the same kinds of
parameters. -/
theorem callable (name : Bytes) (count : Nat) :
    Twins names Eq (callable name count) (callable (names name) count) := by
  refine .bindRelated (.find? name) ?_
  rintro found _ rfl
  cases found with
  | none => exact .failWith _ _
  | some symbol =>
    obtain ⟨_, shape, kind, slot, owner, code⟩ := symbol
    cases shape with
    | scalar => exact .failWith _ _
    | array first last => exact .failWith _ _
    | routine params =>
      cases code with
      | none => exact .failWith _ _
      | some code => exact .ite Iff.rfl (fun _ => .failWith _ _) fun _ => .pure rfl

theorem lowerReturn (routine : Routine) {value twin : Option (Lower Operand)}
    (inner : Option.Rel (Twins names Eq) value twin) :
    Twins names Eq (lowerReturn routine value) (lowerReturn routine twin) := by
  cases inner with
  | some inner =>
    exact .ite Iff.rfl (fun _ => .failWith _ _) fun _ => .bind (.within _ _ inner) fun _ =>
      .bind (.expectType _ _ _ _) fun _ => .finish _
  | none =>
    exact .ite Iff.rfl (fun _ => .finish _) fun _ => .ite Iff.rfl (fun _ => .finish _) fun _ =>
      .failWith _ _

/-! ### Output and input -/

/-- The numbers that are kept for external functions are the same in both workspaces, and the names
by which they are declared are reserved. -/
theorem external (service : Service) : Twins names Eq (external service) (external service) := by
  refine .bindRelated .get fun workspace other renamed => ?_
  rw [renamed.externals]
  cases workspace.externals.number? service with
  | some function => exact .pure rfl
  | none =>
    have reserved := isReserved_of_served service.served
    refine .bind (.build (Build.declareFunction_twins reserved _)) fun function => .bind ?_ fun _ =>
      .pure rfl
    intro before other renamed
    have externals : other.externals.keep service function =
        before.externals.keep service function := by rw [renamed.externals]
    exact .ok rfl { renamed with externals } rfl

theorem callFormatted (service : Service) (formatName format : Bytes) (args : List Operand) :
    Twins names Eq (callFormatted service formatName format args)
      (callFormatted service formatName format args) :=
  .bind (.build (Build.string_blind _ _).twins) fun _ => .bind (.external service) fun _ =>
    .bind (.build (Build.call_blind _ _).twins) fun _ => .pure rfl

theorem lowerPrinted (position : Nat) (value : Operand) :
    Twins names Eq (lowerPrinted position value) (lowerPrinted position value) := by
  unfold Lowering.lowerPrinted
  split
  · exact .bind (.build (promote_blind _).twins) fun _ => .pure rfl
  · exact .failWith _ _

theorem lowerOutput (printed : List (Bytes × Operand)) :
    Twins names Eq (lowerOutput printed) (lowerOutput printed) :=
  .callFormatted _ _ _ _

/-- The format depends on the kind of the variable. Its name is told in the message only. -/
theorem lowerInput (symbol : Symbol) (address : Operand) :
    Twins names Eq (lowerInput symbol address) (lowerInput (symbol.rename names) address) := by
  unfold Lowering.lowerInput
  rw [show (symbol.rename names).kind = symbol.kind from rfl]
  split
  · exact .callFormatted _ _ _ _
  · exact .failWith _ _

/-! ### Nodes -/

/-- A child is missing exactly if the renamed child is, and both have the same position. -/
theorem operand (child : Node) {lowered twin : Lower (Option Operand)}
    (inner : Twins names Eq lowered twin) :
    Twins names Eq (operand child lowered) (operand (child.rename names) twin) := by
  unfold Lowering.operand
  rw [Node.isMissing_rename, Node.position_rename]
  refine .ite Iff.rfl (fun _ => .fail _ _) fun _ => .bind (.located _ inner) fun value => ?_
  cases value with
  | some value => exact .pure rfl
  | none => exact .fail _ _

theorem statement {step twin : Lower Unit} (inner : Twins names Eq step twin) :
    Twins names Eq (statement step) (statement twin) :=
  .bind inner fun _ => .pure rfl

theorem discarding (node : Node) {lowered twin : Lower (Option Operand)}
    (inner : Twins names Eq lowered twin) :
    Twins names Eq (discarding node lowered) (discarding (node.rename names) twin) := by
  unfold Lowering.discarding
  rw [Node.position_rename]
  exact .bind (.located _ inner) fun _ => .pure rfl

/-- The nodes of a list are lowered in the same order, each one beside its renaming. -/
theorem lowerNodes
    (each : ∀ node ∈ nodes,
      Twins names Eq (lowerNode node routine) (lowerNode (node.rename names) routine)) :
    Twins names Eq (lowerNodes nodes routine)
      (lowerNodes (Node.renameAll names nodes) routine) := by
  induction nodes with
  | nil => exact .pure rfl
  | cons node nodes rest =>
    rw [Node.renameAll, Lowering.lowerNodes, Lowering.lowerNodes]
    exact .bind (.discarding _ (each node (List.mem_cons_self ..))) fun _ =>
      rest fun node member => each node (List.mem_cons_of_mem _ member)

theorem lowerArguments
    (each : ∀ node ∈ nodes,
      Twins names Eq (lowerNode node routine) (lowerNode (node.rename names) routine))
    (name : Bytes) (position : Nat) (kinds : List Kind) :
    Twins names Eq (lowerArguments name position nodes kinds routine)
      (lowerArguments (names name) position (Node.renameAll names nodes) kinds routine) := by
  induction nodes generalizing position with
  | nil => exact .pure rfl
  | cons node nodes rest =>
    rw [Node.renameAll, Lowering.lowerArguments, Lowering.lowerArguments]
    exact .bind (.within _ _ (.operand _ (each node (List.mem_cons_self ..)))) fun _ =>
      .bind (.expectType _ _ _ _) fun _ =>
        .bind (rest (fun node member => each node (List.mem_cons_of_mem _ member)) _) fun _ =>
          .pure rfl

theorem lowerPrintedList
    (each : ∀ node ∈ nodes,
      Twins names Eq (lowerNode node routine) (lowerNode (node.rename names) routine))
    (position : Nat) :
    Twins names Eq (lowerPrintedList position nodes routine)
      (lowerPrintedList position (Node.renameAll names nodes) routine) := by
  induction nodes generalizing position with
  | nil => exact .pure rfl
  | cons node nodes rest =>
    rw [Node.renameAll, Lowering.lowerPrintedList, Lowering.lowerPrintedList]
    exact .bind (.within _ _ (.operand _ (each node (List.mem_cons_self ..)))) fun _ =>
      .bind (.lowerPrinted _ _) fun _ =>
        .bind (rest (fun node member => each node (List.mem_cons_of_mem _ member)) _) fun _ =>
          .pure rfl

end Twins

/-- A tree and the renamed tree are lowered side by side. -/
theorem lowerNode_twins (names : Renaming) (node : Node) (routine : Routine) :
    Twins names Eq (lowerNode node routine) (lowerNode (node.rename names) routine) := by
  induction node using Node.inductionOn generalizing routine with
  | step node children =>
    have operands : ∀ child ∈ node.children, Twins names Eq
        (operand child (lowerNode child routine))
        (operand (child.rename names) (lowerNode (child.rename names) routine)) :=
      fun child member => .operand _ (children child member routine)
    cases node with
    | missing =>
      rw [Node.rename, lowerNode]
      exact .fail _ _
    | integer | real | char | boolean =>
      rw [Node.rename, lowerNode]
      exact .pure rfl
    | string | date =>
      rw [Node.rename, lowerNode]
      exact .map _ (.build (Build.string_blind _ _).twins)
    | identifier position name =>
      rw [Node.rename, lowerNode, lowerNode]
      exact .map _ (.lowerIdentifier _ _)
    | declaration position name type =>
      rw [Node.rename, lowerNode, lowerNode]
      exact .statement (.declareVariable _ _ _ (Table.declareScalar_alike names name))
    | arrayDeclaration position name type first last =>
      rw [Node.rename, lowerNode, lowerNode]
      exact .statement (.declareVariable _ _ _ fun kind =>
        Table.declareArray_alike names name kind first last)
    | assignment position name value =>
      rw [Node.rename, lowerNode, lowerNode]
      exact .statement (.lowerAssignment _ _ (operands value (by simp)))
    | arrayAssignment position name index value =>
      have valueTwins := operands value (by simp)
      rw [Node.rename, lowerNode, lowerNode]
      exact .statement (.ite (by rw [Node.isMissing_rename])
        (fun _ => .lowerAssignment _ _ valueTwins)
        fun _ => .lowerElementAssignment _ _ (operands index (by simp)) valueTwins)
    | arrayAccess position name index =>
      rw [Node.rename, lowerNode, lowerNode]
      exact .map _ (.lowerElement _ _ (operands index (by simp)))
    | binary position operator left right =>
      rw [Node.rename, lowerNode, lowerNode]
      exact .ite (by rw [Node.isMissing_rename]) (fun _ => .map _ (.lowerPostfix _ _ _))
        fun _ => .map _ (.lowerBinary _ (operands left (by simp)) (operands right (by simp)))
    | unary position operator child =>
      rw [Node.rename, lowerNode, lowerNode]
      exact .map _ (.lowerUnary _ (operands child (by simp)))
    | comparison position operator left right =>
      rw [Node.rename, lowerNode, lowerNode]
      exact .map _ (.lowerComparison _ (operands left (by simp)) (operands right (by simp)))
    | logical position operator left right =>
      rw [Node.rename, lowerNode, lowerNode]
      exact .map _ (.lowerLogical _ (operands left (by simp)) (operands right (by simp)))
    | conditional position condition consequent alternative =>
      rw [Node.rename, lowerNode, lowerNode]
      exact .statement (.lowerConditional (operands condition (by simp))
        (.lowerNodes fun node member => children node (by simp [member]) _)
        (.lowerNodes fun node member => children node (by simp [member]) _))
    | forLoop position start condition step body =>
      rw [Node.rename, lowerNode, lowerNode]
      exact .statement (.lowerFor (.discarding _ (children start (by simp) _))
        (operands condition (by simp))
        (.discarding _ (children step (by simp) _))
        (.lowerNodes fun node member => children node (by simp [member]) _))
    | whileLoop position condition body =>
      rw [Node.rename, lowerNode, lowerNode]
      exact .statement (.lowerWhile (operands condition (by simp))
        (.lowerNodes fun node member => children node (by simp [member]) _))
    | repeatLoop position body condition =>
      rw [Node.rename, lowerNode, lowerNode]
      exact .statement (.lowerRepeat
        (.lowerNodes fun node member => children node (by simp [member]) _)
        (operands condition (by simp)))
    | procedure position name params body =>
      rw [Node.rename, lowerNode, lowerNode]
      exact .statement (.lowerRoutine _ _ _ fun inner =>
        .lowerNodes fun node member => children node member inner)
    | function position name params result body =>
      rw [Node.rename, lowerNode, lowerNode]
      exact .statement (.lowerRoutine _ _ _ fun inner =>
        .lowerNodes fun node member => children node member inner)
    | call position name args =>
      rw [Node.rename, lowerNode, lowerNode, Node.length_renameAll]
      exact .bind (.callable _ _) fun _ =>
        .bind (.lowerArguments (fun node member => children node member routine) _ _ _) fun _ =>
          .build (Build.call_blind _ _).twins
    | «return» position value =>
      have valueTwins := operands value (by simp)
      rw [Node.rename, lowerNode, lowerNode, Node.isMissing_rename]
      refine .statement (.lowerReturn _ ?_)
      split
      · exact .none
      · exact .some valueTwins
    | output position args =>
      rw [Node.rename, lowerNode, lowerNode]
      exact .statement (.bind
        (.lowerPrintedList (fun node member => children node member routine) _) fun _ =>
          .lowerOutput _)
    | input position target =>
      cases target with
      | identifier position name =>
        rw [Node.rename, Node.rename, lowerNode, lowerNode]
        refine .statement (.bindRelated (.scalarStorage _ name _) ?_)
        rintro ⟨symbol, address⟩ _ rfl
        exact .lowerInput _ _
      | arrayAccess position name index =>
        rw [Node.rename, Node.rename, lowerNode, lowerNode]
        refine .statement (.bind (Twins.lowerIndex (operands index (by simp)))
          fun index => .bindRelated (.storage _ name _) ?_)
        rintro ⟨symbol, address⟩ _ rfl
        exact .lowerInput _ _
      | _ => exact .failWith _ _
    | block position statements =>
      rw [Node.rename, lowerNode, lowerNode]
      exact .statement (.lowerNodes fun node member => children node member routine)

/-- The main function has a reserved name, which no renaming changes. -/
theorem lowerProgram_twins (names : Renaming) (program : Program) :
    Twins names Eq (lowerProgram program) (lowerProgram (program.rename names)) := by
  refine .bind (.build (Build.defineFunction_twins (.inl rfl) rfl _)) fun function =>
    .bind (.enterRoutine _) fun _ => .inScope (.bind .currentRoutine fun _ =>
      .bind (.lowerNodes fun node _ => lowerNode_twins names node _) fun _ =>
        .bindRelated .get fun _ _ renamed => .ite ?_ (fun _ => .finish _) fun _ => .pure rfl)
  rw [terminated_eq renamed]

/-! ### Programs -/

theorem renamed_start (names : Renaming) (name : Bytes) :
    Workspace.Renamed names (.fresh name) (.fresh name) :=
  ⟨rfl, rfl, rfl, rfl⟩

/-- Before anything is lowered the analysis decides, and it finds both programs good or neither. -/
theorem checkProgram_rename (names : Renaming) (program : Program) :
    (Analysis.checkProgram (program.rename names) {}).1 = (Analysis.checkProgram program {}).1 :=
  (Analysis.checkProgram_twins names program rfl).1.symm

/-- A program and the renamed program compile to modules that differ in names only, or both
fail. -/
theorem compile_renamed (names : Renaming) (name : Bytes) (program : Program) :
    (∃ unit other, compile name program = .ok unit ∧
      compile name (program.rename names) = .ok other ∧ unit.anonymous = other.anonymous) ∨
    (∀ unit, compile name program ≠ .ok unit) ∧
      ∀ unit, compile name (program.rename names) ≠ .ok unit := by
  have lowered := lowerProgram_twins names program (renamed_start names name)
  have good := checkProgram_rename names program
  cases isGood : (Analysis.checkProgram program {}).1 with
  | false =>
    refine .inr ⟨fun unit compiled => ?_, fun unit compiled => ?_⟩
    · rw [(compile_eq_ok.mp compiled).1] at isGood
      cases isGood
    · rw [← good, (compile_eq_ok.mp compiled).1] at isGood
      cases isGood
  | true =>
    have isGoodToo := good.trans isGood
    cases ran : lowerProgram program (.fresh name) with
    | ok made workspace =>
      cases ranToo : lowerProgram (program.rename names) (.fresh name) with
      | ok madeToo other =>
        rw [ran, ranToo] at lowered
        cases lowered with
        | ok _ renamed _ =>
          exact .inl ⟨_, _, compile_eq_ok.mpr ⟨isGood, _, ran, rfl⟩,
            compile_eq_ok.mpr ⟨isGoodToo, _, ranToo, rfl⟩, congrArg IR.Builder.unit renamed.builder⟩
      | error failure other =>
        rw [ran, ranToo] at lowered
        cases lowered
    | error failure workspace =>
      cases ranToo : lowerProgram (program.rename names) (.fresh name) with
      | ok madeToo other =>
        rw [ran, ranToo] at lowered
        cases lowered
      | error failureToo other =>
        refine .inr ⟨fun unit compiled => ?_, fun unit compiled => ?_⟩
        · obtain ⟨_, _, ranOk, _⟩ := compile_eq_ok.mp compiled
          rw [ran] at ranOk
          cases ranOk
        · obtain ⟨_, _, ranOk, _⟩ := compile_eq_ok.mp compiled
          rw [ranToo] at ranOk
          cases ranOk

/-- Names are hygienic: a program and the renamed program compile both or not at all, to modules
that differ in names only, and on every input and under all limits their runs are alike. -/
theorem compile_hygienic (names : Renaming) (name : Bytes) (program : Program) :
    ((∃ other, compile name (program.rename names) = .ok other) ↔
        ∃ unit, compile name program = .ok unit) ∧
      ∀ unit other, compile name program = .ok unit →
        compile name (program.rename names) = .ok other →
          unit.anonymous = other.anonymous ∧
            ∀ input, Machine.Machine.new? unit input = Machine.Machine.new? other input ∧
              ∀ (machine : Machine.Machine) (limits : Machine.Limits) (fuel : Nat),
                ((Machine.startMain unit machine).advance unit limits fuel).Alike
                  ((Machine.startMain other machine).advance other limits fuel) := by
  rcases compile_renamed names name program with ⟨unit, other, compiled, compiledToo, same⟩ | none
  · refine ⟨⟨fun _ => ⟨unit, compiled⟩, fun _ => ⟨other, compiledToo⟩⟩, ?_⟩
    intro unit' other' compiled' compiledToo'
    cases compiled.symm.trans compiled'
    cases compiledToo.symm.trans compiledToo'
    exact ⟨same, Machine.runs_alike same⟩
  · refine ⟨⟨?_, ?_⟩, fun unit _ compiled => absurd compiled (none.1 unit)⟩
    · rintro ⟨other, compiled⟩
      exact absurd compiled (none.2 other)
    · rintro ⟨unit, compiled⟩
      exact absurd compiled (none.1 unit)

/-- A function inside another of the same name, with a parameter of that name too, and a variable
whose name looks like one that is made up for a function. -/
def nestedNames : Program :=
  [.function 1 "f" [⟨"x", "INTEGER"⟩] "INTEGER"
      [.function 2 "f" [⟨"f", "INTEGER"⟩] "INTEGER" [.return 3 (.identifier 3 "f")],
      .return 4 (.call 4 "f" [.identifier 4 "x"])],
    .declaration 5 "f.1" "INTEGER",
    .assignment 6 "f.1" (.call 6 "f" [.integer 6 7]),
    .output 7 [.identifier 7 "f.1"]]

/-- The renaming that exchanges a name with one that looks made up for it. -/
def exchanged : Renaming where
  apply := Equiv.swap ("f" : Bytes) "f.1"
  injective := (Equiv.swap _ _).injective
  fixes := by
    intro name reserved
    refine Equiv.swap_apply_of_ne_of_ne ?_ ?_
    · rintro rfl
      cases reserved
    · rintro rfl
      cases reserved

theorem compile_hygienic_nestedNames :
    ∃ unit other, compile "names" nestedNames = .ok unit ∧
      compile "names" (nestedNames.rename exchanged) = .ok other ∧
      unit.anonymous = other.anonymous ∧
        ∀ input, Machine.Machine.new? unit input = Machine.Machine.new? other input ∧
          ∀ (machine : Machine.Machine) (limits : Machine.Limits) (fuel : Nat),
            ((Machine.startMain unit machine).advance unit limits fuel).Alike
              ((Machine.startMain other machine).advance other limits fuel) := by
  have compiles : (compile "names" nestedNames).isOk = true := by decide +kernel
  have hygienic := compile_hygienic exchanged "names" nestedNames
  cases compiled : compile "names" nestedNames with
  | error failure =>
    rw [compiled] at compiles
    cases compiles
  | ok unit =>
    obtain ⟨other, compiledToo⟩ := hygienic.1.mpr ⟨unit, compiled⟩
    exact ⟨unit, other, rfl, compiledToo, hygienic.2 unit other compiled compiledToo⟩

end Pascaline.Lowering
