/-
How lowering fails. A part of a node may fail with a bare diagnostic, which has no position yet;
whoever asks for the node gives it the position of the node, and from then on stages pass the
failure on. A manner of failing says which diagnostics are accepted at both points.

Whether there are diagnostics about names depends on the names in scope. So what is known of the
table is followed, too: a step leads from one condition on the table to another, or it fails in a
way that is accepted.
-/

import Pascaline.Proofs.Steps

namespace Pascaline

/-- The kinds of diagnostics about types, declarations and the meaning of names. -/
def Diagnostic.Kind.isNaming : Diagnostic.Kind → Bool
  | .unknownType | .undeclaredIdentifier | .duplicateDeclaration | .invalidArrayBounds
  | .unknownFunction => true
  | _ => false

/-- A symbol that can be called, which is a routine with its function. -/
def Symbol.isCallable (symbol : Symbol) : Bool := symbol.isRoutine && symbol.code.isSome

namespace Lowering

open IR (Build Operand Slot)

/-- The diagnostics of a cause. -/
def Cause.diagnostics : Cause → List Diagnostic
  | .faults list => list.filterMap Fault.diagnostic?
  | .fault single => single.diagnostic?.toList
  | _ => []

/-! ### Manners of failing -/

/-- Which diagnostics a part of a node may tell, and which ones may come out of a node, with the
stages that have passed them on. A diagnostic that may be told is accepted as soon as it is placed.
An index of the wrong category is passed on at once. -/
structure Manner where
  tells : Diagnostic → Prop
  accepts : List Stage → Diagnostic → Prop
  isPlace : Int → Prop
  told : ∀ {diagnostic : Diagnostic}, diagnostic.position = 0 →
    diagnostic.kind.isNaming = false → tells diagnostic
  passed : ∀ {trail : List Stage} {diagnostic : Diagnostic} (stage : Stage),
    accepts trail diagnostic → accepts (stage :: trail) diagnostic
  placed : ∀ {position : Int} {diagnostic : Diagnostic}, isPlace position →
    tells diagnostic ∨ accepts [] diagnostic → accepts [] (diagnostic.locatedIfUnplaced position)
  index : ∀ found, accepts [.index] (.mismatch "index" Category.integral.text found)

/-- All diagnostics of a failure are accepted. -/
def Manner.Settled (manner : Manner) (failure : LoweringFailure) : Prop :=
  ∀ diagnostic ∈ failure.cause.diagnostics, manner.accepts failure.trail diagnostic

/-- All diagnostics of a failure are accepted, or it is bare and tells what it may. -/
def Manner.Open (manner : Manner) (failure : LoweringFailure) : Prop :=
  manner.Settled failure ∨ ∃ fault : Fault, failure = .bare (.fault fault) ∧
    ∀ diagnostic, fault.diagnostic? = some diagnostic → manner.tells diagnostic

/-- A bare failure is placed. -/
theorem Manner.Open.located {manner : Manner} {position : Int} (here : manner.isPlace position)
    {cause : Cause} (failing : manner.Open ⟨[], cause⟩) :
    manner.Settled ⟨[], cause.locatedIfUnplaced position⟩ := by
  cases cause with
  | fault fault =>
    cases fault with
    | noScope name => exact fun _ member => absurd member List.not_mem_nil
    | diagnostic report =>
      intro diagnostic member
      cases List.mem_singleton.mp member
      refine manner.placed here ?_
      rcases failing with settled | ⟨fault, same, tells⟩
      · exact .inr (settled report (List.mem_singleton_self report))
      · cases same
        exact .inl (tells report rfl)
  | _ =>
    rcases failing with settled | ⟨fault, same, _⟩
    · exact settled
    · cases same

/-! ### Steps that keep to a manner -/

section Steps

variable {Result Next : Type}

/-- A step that has succeeded with a table as expected, or has failed in an accepted way. -/
inductive Led (accepted : LoweringFailure → Prop) (expected : Table → Prop) :
    EStateM.Result LoweringFailure Workspace Result → Prop
  | ok {result : Result} {after : Workspace} (isExpected : expected after.table) :
      Led accepted expected (.ok result after)
  | error {failure : LoweringFailure} {after : Workspace} (isAccepted : accepted failure) :
      Led accepted expected (.error failure after)

/-- A step leads from one condition on the table to another, or fails in an accepted way. -/
def Leads (accepted : LoweringFailure → Prop) (start stop : Table → Prop) (step : Lower Result) :
    Prop :=
  ∀ ⦃before : Workspace⦄, start before.table → Led accepted stop (step before)

/-- Going back to another function changes nothing about the names. -/
theorem Led.aside {accepted : LoweringFailure → Prop} {stop : Table → Prop}
    {ran : EStateM.Result LoweringFailure Workspace Result} (led : Led accepted stop ran)
    (before : Workspace) : Led accepted stop (aside (fun _ => ran) before) := by
  cases led with
  | ok isStop => exact .ok isStop
  | error isAccepted => exact .error isAccepted

/-- No condition on a table. -/
def Always (_ : Table) : Prop := True

/-- A name can be used under a condition on the table, which does not depend on storage. If the name
is unknown there, that may be told. -/
structure Knows (manner : Manner) (start : Table → Prop) (name : Bytes) : Prop where
  steady : ∀ (table : Table) (name : Bytes) (change : Symbol → Symbol),
    (∀ symbol, (change symbol).name = symbol.name) →
    (∀ symbol, (change symbol).isCallable = symbol.isCallable) →
    start table → start (table.update name change)
  found : ∀ table : Table, start table → table.find? name = none →
    manner.tells (.named .undeclaredIdentifier name)

namespace Leads

variable {manner : Manner} {accepted acceptedToo : LoweringFailure → Prop}
  {start middle stop inside done : Table → Prop}

theorem pure (result : Result) : Leads accepted start start (pure result : Lower Result) :=
  fun _ => .ok

variable {step : Lower Result} {next : Result → Lower Next} {name operator : Bytes}
  {diagnostic : Diagnostic} {lowered : Lower (Option Operand)}
  {index condition left right value : Lower Operand} {body : Lower Unit}

/-- The rule for a sequence: the second step starts from what the first one has made of the table,
whatever its result is. -/
theorem bind (first : Leads accepted start middle step)
    (second : ∀ result, Leads accepted middle stop (next result)) :
    Leads accepted start stop (step >>= next) := by
  intro before isStart
  have early := first isStart
  simp only [Bind.bind, EStateM.bind]
  generalize step before = ran at early ⊢
  cases early with
  | ok isMiddle => exact second _ isMiddle
  | error isAccepted => exact .error isAccepted

theorem map (change : Result → Next) (inner : Leads accepted start stop step) :
    Leads accepted start stop (change <$> step) :=
  inner.bind fun _ => .pure _

theorem ite {condition : Prop} [Decidable condition] {other : Lower Result}
    (yes : condition → Leads accepted start stop step)
    (no : ¬condition → Leads accepted start stop other) :
    Leads accepted start stop (if condition then step else other) := by
  split
  · exact yes ‹_›
  · exact no ‹_›

/-- A step that always has the same result and changes nothing. -/
theorem bind_of_ok {result : Result} (ok : ∀ before, step before = .ok result before)
    (rest : Leads accepted start stop (next result)) :
    Leads accepted start stop (step >>= next) := by
  intro before isStart
  simp only [Bind.bind, EStateM.bind, ok before]
  exact rest isStart

theorem get : Leads accepted start start (get : Lower Workspace) := fun _ => .ok

theorem build (step : Build Result) : Leads accepted start start (build step) :=
  fun _ isStart => .ok isStart

/-- A change to something else than the names. -/
theorem modify {change : Workspace → Workspace}
    (same : ∀ workspace, (change workspace).table = workspace.table) :
    Leads accepted start start (modify change : Lower PUnit) :=
  fun before isStart => .ok ((same before).symm ▸ isStart)

theorem external (service : Service) : Leads accepted start start (external service) := by
  refine .bind .get fun workspace => ?_
  cases workspace.externals.number? service with
  | some function => exact .pure _
  | none =>
    exact .bind (.build _) fun _ => .bind (.modify fun _ => rfl) fun _ => .pure _

/-- What follows a lookup may use that the name has been looked for in a table that meets the
condition. -/
theorem findBind {next : Option Symbol → Lower Next}
    (rest : ∀ table : Table, start table → Leads accepted start stop (next (table.find? name))) :
    Leads accepted start stop (find? name >>= next) :=
  fun before isStart => rest before.table isStart isStart

/-- A condition that can be relied on for a name does not depend on storage, so it survives when a
symbol gets its slot or its function. -/
theorem updateSymbol {known : Bytes} (knows : Knows manner start known) (name : Bytes)
    {change : Symbol → Symbol} (sameName : ∀ symbol, (change symbol).name = symbol.name)
    (sameRole : ∀ symbol, (change symbol).isCallable = symbol.isCallable) :
    Leads accepted start start (updateSymbol name change) :=
  fun _ isStart => .ok (knows.steady _ name change sameName sameRole isStart)

/-- A failure that is accepted in one way may be accepted in a wider way. -/
theorem imp (inner : Leads accepted start stop step)
    (implies : ∀ failure, accepted failure → acceptedToo failure) :
    Leads acceptedToo start stop step := by
  intro before isStart
  have inner := inner isStart
  generalize step before = ran at inner ⊢
  cases inner with
  | ok isStop => exact .ok isStop
  | error isAccepted => exact .error (implies _ isAccepted)

theorem opened (inner : Leads manner.Settled start stop step) : Leads manner.Open start stop step :=
  inner.imp fun _ => .inl

/-- A failure without diagnostics says nothing that could be wrong. -/
theorem quiet {cause : Cause} (quiet : cause.diagnostics = []) :
    Leads manner.Settled start stop (fail cause : Lower Result) := by
  refine fun before _ => .error fun diagnostic member => ?_
  rw [show (Failure.bare cause : LoweringFailure).cause = cause from rfl, quiet] at member
  cases member

/-- A bare diagnostic is accepted if the part of the node may tell it. -/
theorem tell (tells : manner.tells diagnostic) :
    Leads manner.Open start stop (Lowering.failWith diagnostic : Lower Result) := by
  refine fun before _ => .error (.inr ⟨_, rfl, fun other same => ?_⟩)
  cases same
  exact tells

/-- A diagnostic that has nothing to do with names. -/
theorem failWith (unplaced : diagnostic.position = 0) (other : diagnostic.kind.isNaming = false) :
    Leads manner.Open start stop (failWith diagnostic : Lower Result) :=
  .tell (manner.told unplaced other)

/-- The general rule for a stage, which is put before the trail of the failure. -/
theorem passOn {stage : Stage} (inner : Leads accepted start stop step)
    (passes : ∀ failure, accepted failure → acceptedToo (failure.within stage)) :
    Leads acceptedToo start stop (within stage step) := by
  intro before isStart
  have inner := inner isStart
  simp only [Lowering.within]
  generalize step before = ran at inner ⊢
  cases inner with
  | ok isStop => exact .ok isStop
  | error isAccepted => exact .error (passes _ isAccepted)

/-- A settled failure stays settled when it is passed on, because a manner accepts every longer
trail too. -/
theorem within (stage : Stage) (inner : Leads manner.Settled start stop step) :
    Leads manner.Settled start stop (within stage step) :=
  inner.passOn fun _ settled diagnostic member => manner.passed stage (settled diagnostic member)

/-- Here the position of the node is given: a bare failure is placed and so is settled, any other
one has its position already. -/
theorem located {position : Int} (here : manner.isPlace position)
    (inner : Leads manner.Open start stop step) :
    Leads manner.Settled start stop (located position step) := by
  intro before isStart
  have inner := inner isStart
  simp only [Lowering.located]
  generalize step before = ran at inner ⊢
  cases inner with
  | ok isStop => exact .ok isStop
  | @error failure _ failing =>
    obtain ⟨trail, cause⟩ := failure
    cases trail with
    | nil => exact .error (failing.located here)
    | cons stage trail =>
      rcases failing with settled | ⟨fault, same, _⟩
      · exact .error settled
      · cases same

/-- What holds inside of a scope has to follow from what holds before it, and what holds behind it
from what holds at its end. -/
theorem inScope (inner : Leads accepted inside done step)
    (enters : ∀ table, start table → inside table.enter)
    (exits : ∀ table, done table → stop table.exit) : Leads accepted start stop (inScope step) := by
  intro before isStart
  have inner : Led accepted done (step { before with table := before.table.enter }) :=
    inner (enters before.table isStart)
  simp only [Lowering.inScope]
  generalize step { before with table := before.table.enter } = ran at inner ⊢
  cases inner with
  | ok isDone => exact .ok (exits _ isDone)
  | error isAccepted => exact .error isAccepted

/-- Going to another function and back changes nothing about the names. -/
theorem aside (inner : Leads accepted start stop step) : Leads accepted start stop (aside step) :=
  fun before isStart => (inner isStart).aside before

theorem enterRoutine (routine : Routine) : Leads accepted start start (enterRoutine routine) :=
  .modify fun _ => rfl

theorem currentRoutine : Leads accepted start start currentRoutine :=
  .bind .get fun _ => .pure _

/-! ### Storage -/

section Names

variable {name : Bytes} (knows : Knows manner start name)

include knows

/-- Storage is reserved for a variable that has none. If the name is not known, that is told, and
the condition says that it may be. -/
theorem allocate (reserve : Reserve) : Leads manner.Open start start (allocate reserve name) := by
  refine .findBind fun table isStart => ?_
  cases found : table.find? name with
  | none => exact .tell (knows.found table isStart found)
  | some symbol =>
    refine .ite (fun _ => .opened (.quiet rfl)) fun _ => ?_
    cases symbol.slot with
    | some slot => exact .pure _
    | none =>
      exact .bind (.build _) fun slot =>
        .bind (.updateSymbol knows _ (fun _ => rfl) fun _ => rfl) fun _ => .pure _

/-- Behind the storage of a variable, the bounds of an array are asked for. What is no array fails
with a diagnostic that is not about names. -/
theorem lookup (reserve : Reserve) (index : Option Operand) :
    Leads manner.Open start start (lookup reserve name index) := by
  refine .bind (.allocate knows reserve) fun slot => ?_
  cases index with
  | none => exact .pure _
  | some index =>
    refine .findBind fun table _ => ?_
    split
    · exact .build _
    · exact .failWith rfl rfl

/-- The use of a name fails because it is not known, or because it stands for something that cannot
be used like this. The first is told only if the condition on the table allows it. -/
theorem storage (routine : Routine) (index : Option Operand) :
    Leads manner.Open start start (routine.storage name index) := by
  refine .findBind fun table isStart => ?_
  cases found : table.find? name with
  | none => exact .tell (knows.found table isStart found)
  | some symbol =>
    refine .ite (fun _ => .failWith rfl rfl) fun _ => ?_
    cases symbol.owner with
    | none => exact .bind .get fun _ => .bind (.lookup knows _ index) fun _ => .pure _
    | some owner =>
      refine .ite (fun _ => ?_) fun _ => ?_
      · exact .bind (.bind .get fun _ => .pure _) fun _ =>
          .bind (.bind .get fun _ => .pure _) fun _ => .opened (.quiet rfl)
      · exact .bind .get fun _ => .bind (.lookup knows _ index) fun _ => .pure _

theorem scalarStorage (routine : Routine) (misuse : Bytes) :
    Leads manner.Open start start (routine.scalarStorage name misuse) :=
  .bind (.storage knows routine none) fun _ => .ite (fun _ => .failWith rfl rfl) fun _ => .pure _

end Names

/-! ### Conversions -/

theorem fit (name : Bytes) (target : Ty) (value : Operand) :
    Leads manner.Open start start (fit name target value) := by
  refine .ite (fun _ => .failWith rfl rfl) fun _ => ?_
  split
  · exact .ite (fun _ => .build _) fun _ => .pure _
  · exact .pure _

theorem unify (operator : Bytes) (left right : Operand) :
    Leads manner.Open start start (unify operator left right) := by
  refine .ite (fun _ => .failWith rfl rfl) fun _ => ?_
  split
  · exact .ite (fun _ => .bind (.build _) fun _ => .pure _) fun _ =>
      .ite (fun _ => .bind (.build _) fun _ => .pure _) fun _ => .pure _
  · exact .pure _

theorem truth (value : Operand) : Leads manner.Open start start (truth value) := by
  unfold Lowering.truth
  split
  · exact .ite (fun _ => .pure _) fun _ => .build _
  · exact .build _
  · exact .build _
  · exact .failWith rfl rfl

theorem negate (value : Operand) : Leads manner.Open start start (negate value) :=
  .bind (.truth value) fun _ => .build _

theorem expectCategory (place : Bytes) (category : Category) (value : Operand) :
    Leads manner.Open start start (expectCategory place category value) :=
  .ite (fun _ => .pure _) fun _ => .failWith rfl rfl

theorem expectType (name : Bytes) (kind : Kind) (value : Operand) :
    Leads manner.Open start start (expectType name kind value) :=
  .ite (fun _ => .pure _) fun _ => .failWith rfl rfl

/-! ### Expressions -/

/-- Whoever asks for a child gives it the position of the child. That settles its failure, so an
operator never has to place what its operands tell. -/
theorem operand {child : Node} (here : child.isMissing = false → manner.isPlace child.position)
    (inner : child.isMissing = false → Leads manner.Open start stop lowered) :
    Leads manner.Settled start stop (operand child lowered) := by
  refine .ite (fun _ => .quiet rfl) fun there => ?_
  have there := Bool.eq_false_iff.mpr there
  refine .bind (.located (here there) (inner there)) fun value => ?_
  cases value with
  | some value => exact .pure _
  | none => exact .quiet rfl

/-- The one stage that passes on a diagnostic of its own. -/
theorem lowerIndex (inner : Leads manner.Settled start stop index) :
    Leads manner.Settled start stop (lowerIndex index) := by
  let accepted (failure : LoweringFailure) : Prop := manner.Settled failure ∨
    ∃ found, failure = .bare (.ofDiagnostic (.mismatch "index" Category.integral.text found))
  have passes (failure : LoweringFailure) (isAccepted : accepted failure) :
      manner.Settled (failure.within .index) := by
    intro diagnostic member
    rcases isAccepted with settled | ⟨found, rfl⟩
    · exact manner.passed _ (settled diagnostic member)
    · cases List.mem_singleton.mp member
      exact manner.index found
  have indexed : Leads accepted start stop index := inner.imp fun _ => .inl
  have expected (value : Operand) :
      Leads accepted stop stop (Lowering.expectCategory "index" .integral value) :=
    .ite (fun _ => .pure _) fun _ _ _ => .error (.inr ⟨value.type.category.text, rfl⟩)
  exact .passOn (.bind indexed fun value => .bind (expected value) fun _ => .build _) passes

/-- The condition of the wrong type is told by the statement itself, so the failure is open again.
-/
theorem lowerCondition (inner : Leads manner.Settled start stop condition) :
    Leads manner.Open start stop (lowerCondition condition) :=
  .bind (inner.within _).opened fun _ => .bind (.expectCategory _ _ _) fun _ => .pure _

theorem lowerIdentifier (routine : Routine) (knows : Knows manner start name) :
    Leads manner.Open start start (lowerIdentifier routine name) :=
  .bind (.scalarStorage knows routine _) fun _ => .build _

/-- The name is used behind the index, so it has to be known in the table that the index leaves. -/
theorem lowerElement (routine : Routine) (inner : Leads manner.Settled start stop index)
    (knows : Knows manner stop name) :
    Leads manner.Open start stop (lowerElement routine name index) :=
  .bind inner.lowerIndex.opened fun _ => .bind (.storage knows routine _) fun _ => .build _

/-- The right operand starts from the table that the left one leaves. -/
theorem lowerPair (first : Leads manner.Settled start middle left)
    (second : Leads manner.Settled middle stop right) :
    Leads manner.Open start stop (lowerPair left right) :=
  .bind (first.within _).opened fun _ => .bind (second.within _).opened fun _ => .pure _

theorem lowerBinary (operator : Bytes) (first : Leads manner.Settled start middle left)
    (second : Leads manner.Settled middle stop right) :
    Leads manner.Open start stop (lowerBinary operator left right) := by
  refine .bind (.lowerPair first second) fun _ => .bind (.unify _ _ _) fun _ => ?_
  dsimp only
  split
  · exact .build _
  · exact .failWith rfl rfl

/-- Only a variable can be changed by an operator behind it. For any other target nothing has to be
known. -/
theorem lowerPostfix (routine : Routine) (operator : Bytes) {target : Node}
    (knows : ∀ position name, target = .identifier position name → Knows manner start name) :
    Leads manner.Open start start (lowerPostfix routine operator target) := by
  cases target with
  | identifier position name =>
    refine .bind (.scalarStorage (knows position name rfl) routine _) fun _ =>
      .bind (.build _) fun old => ?_
    dsimp only
    split
    · exact .bind (.build _) fun _ => .pure _
    · exact .failWith rfl rfl
  | _ => exact .failWith rfl rfl

theorem lowerUnary (operator : Bytes) {operand : Lower Operand}
    (inner : Leads manner.Settled start stop operand) :
    Leads manner.Open start stop (lowerUnary operator operand) := by
  refine .bind inner.opened fun _ => .ite (fun _ => .pure _) fun _ => .ite (fun _ => ?_) fun _ =>
    .ite (fun _ => .build _) fun _ => .ite (fun _ => .negate _) fun _ => .failWith rfl rfl
  split
  · exact .build _
  · exact .pure _

theorem lowerComparison (operator : Bytes) (first : Leads manner.Settled start middle left)
    (second : Leads manner.Settled middle stop right) :
    Leads manner.Open start stop (lowerComparison operator left right) := by
  refine .bind (.lowerPair first second) fun _ => .bind (.unify _ _ _) fun _ => ?_
  dsimp only
  split
  · exact .build _
  · exact .failWith rfl rfl

/-- A negation never looks at its left operand, so nothing is asked of it. -/
theorem lowerNegation (isNot : Operator.isNot operator = true) (left : Lower Operand)
    (inner : Leads manner.Settled start stop right) :
    Leads manner.Open start stop (lowerLogical operator left right) := by
  unfold lowerLogical
  rw [if_pos isNot]
  exact .bind inner.opened fun _ => .negate _

theorem lowerLogical (isNot : ¬Operator.isNot operator = true)
    (first : Leads manner.Settled start middle left)
    (second : Leads manner.Settled middle stop right) :
    Leads manner.Open start stop (lowerLogical operator left right) := by
  unfold Lowering.lowerLogical
  rw [if_neg isNot]
  refine .bind (.lowerPair first second) fun _ => ?_
  dsimp only
  split
  · exact .bind (.truth _) fun _ => .bind (.truth _) fun _ => .build _
  · exact .failWith rfl rfl

/-! ### Statements -/

/-- The name is looked up before the value is lowered, and so in the table at the start. -/
theorem lowerAssignment (routine : Routine) (knows : Knows manner start name)
    (inner : Leads manner.Settled start stop value) :
    Leads manner.Open start stop (lowerAssignment routine name value) :=
  .bind (.scalarStorage knows routine _) fun _ => .bind inner.opened fun _ =>
    .bind (.fit _ _ _) fun _ => .build _

/-- Here the index comes first, then the name, and the value last. -/
theorem lowerElementAssignment (routine : Routine) (first : Leads manner.Settled start middle index)
    (knows : Knows manner middle name) (second : Leads manner.Settled middle stop value) :
    Leads manner.Open start stop (lowerElementAssignment routine name index value) :=
  .bind first.lowerIndex.opened fun _ => .bind (.storage knows routine _) fun _ =>
    .bind second.opened fun _ => .bind (.fit _ _ _) fun _ => .build _

theorem branchTo (block : Nat) : Leads accepted start start (branchTo block) :=
  .bind .get fun _ => .ite (fun _ => .build _) fun _ => .pure _

/-- The branches are in scopes of their own, which leave nothing behind. -/
theorem lowerConditional {consequent alternative : Lower Unit}
    (test : Leads manner.Settled start stop condition)
    (yes : Leads manner.Settled stop stop (Lowering.inScope consequent))
    (no : Leads manner.Settled stop stop (Lowering.inScope alternative)) :
    Leads manner.Open start stop (lowerConditional condition consequent alternative) :=
  .bind test.lowerCondition fun _ => .bind (.build _) fun _ => .bind (.build _) fun _ =>
    .bind (.build _) fun _ => .bind (.build _) fun _ => .bind (.build _) fun _ =>
    .bind (yes.within _).opened fun _ => .bind (.branchTo _) fun _ => .bind (.build _) fun _ =>
    .bind (no.within _).opened fun _ => .bind (.branchTo _) fun _ => .build _

/-- The body has a scope of its own, so that a second turn would start from the same names. -/
theorem lowerWhile (test : Leads manner.Settled start stop condition)
    (turn : Leads manner.Settled stop stop (Lowering.inScope body)) :
    Leads manner.Open start stop (lowerWhile condition body) :=
  .bind (.build _) fun _ => .bind (.build _) fun _ => .bind (.build _) fun _ =>
    .bind (.build _) fun _ => .bind (.build _) fun _ => .bind test.lowerCondition fun _ =>
    .bind (.build _) fun _ => .bind (.build _) fun _ => .bind (turn.within _).opened fun _ =>
    .bind (.branchTo _) fun _ => .build _

/-- The body and the test share a scope: a variable of the body may be used in the test. -/
theorem lowerRepeat (turn : Leads manner.Settled inside middle body)
    (test : Leads manner.Settled middle done condition)
    (enters : ∀ table, start table → inside table.enter)
    (exits : ∀ table, done table → stop table.exit) :
    Leads manner.Open start stop (lowerRepeat body condition) :=
  .bind (.build _) fun _ => .bind (.build _) fun _ => .bind (.build _) fun _ =>
    .inScope (.bind (.build _) fun _ => .bind (.build _) fun _ =>
      .bind (turn.within _).opened fun _ => .bind (.branchTo _) fun _ => .bind (.build _) fun _ =>
      .bind test.lowerCondition fun _ => .bind (.build _) fun _ => .build _) enters exits

/-- The start, the test, the body and the step share a scope, one behind the other in this order, as
they are lowered. -/
theorem lowerFor {first step : Lower Unit} {started tested : Table → Prop}
    (starts : Leads manner.Settled inside started first)
    (test : Leads manner.Settled started tested condition)
    (turn : Leads manner.Settled tested middle body) (steps : Leads manner.Settled middle done step)
    (enters : ∀ table, start table → inside table.enter)
    (exits : ∀ table, done table → stop table.exit) :
    Leads manner.Open start stop (lowerFor first condition step body) :=
  .inScope (.bind (starts.within _).opened fun _ => .bind (.build _) fun _ =>
    .bind (.build _) fun _ => .bind (.build _) fun _ => .bind (.build _) fun _ =>
    .bind (.build _) fun _ => .bind test.lowerCondition fun _ => .bind (.build _) fun _ =>
    .bind (.build _) fun _ => .bind (turn.within _).opened fun _ =>
    .bind (steps.within _).opened fun _ => .bind (.branchTo _) fun _ => .build _) enters exits

theorem finishRoutine (routine : Routine) (name : Bytes) :
    Leads manner.Open start start (finishRoutine routine name) :=
  .bind .get fun _ => .ite (fun _ => .pure _) fun _ => .ite (fun _ => .build _) fun _ =>
    .ite (fun _ => .failWith rfl rfl) fun _ => .build _

/-- Without a value nothing is lowered, so the table stays as it is. -/
theorem lowerReturn (routine : Routine) {value : Option (Lower Operand)}
    (given : ∀ step, value = some step → Leads manner.Settled start stop step)
    (missing : value = none → start = stop) :
    Leads manner.Open start stop (lowerReturn routine value) := by
  cases value with
  | some step =>
    exact .ite (fun _ => .failWith rfl rfl) fun _ =>
      .bind ((given step rfl).within _).opened fun _ => .bind (.expectType _ _ _) fun _ => .build _
  | none =>
    rw [missing rfl]
    exact .ite (fun _ => .build _) fun _ => .ite (fun _ => .build _) fun _ => .failWith rfl rfl

theorem lowerPrinted (position : Nat) (value : Operand) :
    Leads manner.Open start start (lowerPrinted position value) := by
  unfold Lowering.lowerPrinted
  split
  · exact .bind (.build _) fun _ => .pure _
  · exact .failWith rfl rfl

theorem callFormatted (service : Service) (formatName format : Bytes) (args : List Operand) :
    Leads accepted start start (callFormatted service formatName format args) :=
  .bind (.build _) fun _ => .bind (.external service) fun _ => .bind (.build _) fun _ => .pure _

theorem lowerInput (symbol : Symbol) (address : Operand) :
    Leads manner.Open start start (lowerInput symbol address) := by
  unfold Lowering.lowerInput
  split
  · exact .callFormatted _ _ _ _
  · exact .failWith rfl rfl

theorem statement {step : Lower Unit} (inner : Leads accepted start stop step) :
    Leads accepted start stop (statement step) :=
  .bind inner fun _ => .pure _

/-- A statement is given its position like an operand, and its value is thrown away. -/
theorem discarding {node : Node} (here : manner.isPlace node.position)
    (inner : Leads manner.Open start stop lowered) :
    Leads manner.Settled start stop (discarding node lowered) :=
  .bind (.located here inner) fun _ => .pure _

end Leads

end Steps

end Lowering

end Pascaline
