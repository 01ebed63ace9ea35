/-
Lowered expressions are well-typed. Every node with a value, and every statement without branches,
is lowered to straight-line code that is typed and guarded, and the value has the type of a kind.
-/

import Pascaline.Proofs.Typing

namespace Pascaline.Lowering

open IR (Build Operand Slot Site)

variable {routine : Routine} {p : Point routine} {x y : Operand} {type : Ty} {name operator : Bytes}
  {operation : IR.BinaryOp} {given index left right value : Lower Operand} {symbol : Symbol}

/-- A step that yields a value, wherever the routine is being lowered. -/
def Provides (routine : Routine) (step : Lower Operand) : Prop :=
  ∀ p : Point routine, p.Runs step Point.Value

/-! ### Operators -/

theorem arithmetic_takes (found : Operator.arithmetic? type.category operator = some operation) :
    operation.Takes type := by
  cases category : type.category <;> simp only [Operator.arithmetic?, category] at found
  case integral =>
    obtain ⟨arith, _, rfl⟩ := Option.map_eq_some_iff.mp found
    exact category
  case floating =>
    obtain ⟨arith, _, rfl⟩ := Option.map_eq_some_iff.mp found
    exact category
  all_goals cases found

theorem comparison_takes {predicate : IR.Predicate}
    (found : Operator.comparison? type.category operator = some predicate) :
    predicate.Takes type := by
  unfold Operator.comparison? at found
  split at found <;> cases found <;> rename_i category relation
  · rename_i order
    cases order <;> simp [IR.Predicate.Takes, category]
  · exact category
  · exact .inr (.inl category)
  · exact .inr (.inl category)

theorem connective_takes (found : Operator.connective? operator = some operation) :
    operation.Takes .i1 := by
  unfold Operator.connective? at found
  split at found
  · cases found
    rfl
  · split at found <;> cases found
    rfl

/-- The number one is a value of the type of the operand that it is made for. -/
theorem one_valued (scalar : x.type.IsScalar) (found : one? x = some y) :
    p.Valued x.type y := by
  unfold one? at found
  rcases scalar.cases with type | type | type | type | type <;> rw [type] at found scalar ⊢ <;>
    cases found
  · exact ⟨Point.value_int scalar _, rfl⟩
  · exact ⟨Point.value_float _, rfl⟩
  · exact ⟨Point.value_int scalar _, rfl⟩
  · exact ⟨Point.value_int scalar _, rfl⟩

/-! ### Storage -/

/-- Storage that the routine can reach is there, and reserved if it is on the stack. -/
theorem placed_address {slot : Slot} (hasSlot : symbol.slot = some slot)
    (placed : slot.Placed p.unit symbol.owner)
    (reach : symbol.owner = none ∨ symbol.owner = some routine.function)
    (found : p.workspace.table.find? name = some symbol) : p.Address slot.type (.slot slot) := by
  obtain ⟨scope, member, here, _⟩ := Table.find?_mem found
  unfold IR.Slot.Placed at placed
  split at placed <;> rename_i storage
  · refine ⟨⟨?_, by simp⟩, by simp [Operand.type, IR.Slot.valueType, storage], .global storage⟩
    simpa [Operand.Resolves, IR.Slot.Resolves, storage] using placed.2
  · obtain ⟨id, function, owned, foundThere, type⟩ := placed
    obtain rfl : id = routine.function := by simpa [owned] using reach
    rw [p.holds.function] at foundThere
    cases foundThere
    refine ⟨⟨?_, by simp⟩, by simp [Operand.type, IR.Slot.valueType, storage],
      .stack storage ⟨scope, member, symbol, here, owned, by rw [hasSlot]; rfl⟩⟩
    simpa [Operand.Resolves, IR.Slot.Resolves, storage] using type
  · exact placed.elim

namespace Point.Runs

/-- The use of a variable. -/
theorem storage (index : Option Operand) (isIndex : ∀ x ∈ index, p.Valued .i32 x) :
    p.Runs (routine.storage name index) fun q (made : Symbol × Operand) => made.1.kind ≠ .none ∧
      q.Address (if index.isSome then made.1.kind.native else made.1.nativeType) made.2 := by
  rintro ⟨symbol, address⟩ after lowered
  obtain ⟨found, isVariable, reach, _⟩ := storage_cases lowered
  obtain ⟨isKind, slot, hasSlot, type, placed⟩ := (p.table.find? found).storage isVariable
  have array := type ▸ placed_address hasSlot placed reach found
  rcases storage_of_slot hasSlot lowered with ⟨rfl, rfl, rfl⟩ |
    ⟨x, first, last, rfl, shape, rfl, rfl⟩
  · exact ⟨p, rfl, .refl p, isKind, array⟩
  · rw [Symbol.nativeType, shape] at array
    obtain ⟨q, isAfter, along, element⟩ := elementOf array (isIndex x rfl) _ _
      ((build_eq_ok ..).mpr ⟨rfl, rfl⟩)
    exact ⟨q, isAfter, along, isKind, element⟩

/-- The use of a variable that is not an array. -/
theorem scalarStorage {misuse : Bytes} :
    p.Runs (routine.scalarStorage name misuse) fun q (made : Symbol × Operand) =>
      made.1.kind ≠ .none ∧ q.Address made.1.kind.native made.2 := by
  rintro ⟨symbol, address⟩ after lowered
  obtain ⟨lowered, noArray⟩ := scalarStorage_cases lowered
  obtain ⟨q, isAfter, along, isKind, isAddress⟩ := storage none (by simp) _ _ lowered
  obtain ⟨_, isVariable, _⟩ := storage_cases lowered
  refine ⟨q, isAfter, along, isKind, ?_⟩
  have scalar : symbol.nativeType = symbol.kind.native := by
    unfold Symbol.isRoutine Symbol.role at isVariable
    unfold Symbol.isArray Symbol.role at noArray
    unfold Symbol.nativeType
    cases shape : symbol.shape <;> simp_all [Shape.role]
  exact scalar ▸ isAddress

theorem lowerIndex (yields : Provides routine given) : p.Runs (lowerIndex given) (Valued .i32) := by
  refine .within (.bind (yields p) fun q x _ value => ?_)
  refine .bind .expectCategory ?_
  rintro _ _ _ ⟨rfl, integral⟩
  rcases value.value.scalar.eq_of_integral integral with type | type <;>
    exact resize value type .i32

theorem lowerCondition (yields : Provides routine given) :
    p.Runs (lowerCondition given) (Valued .i1) := by
  refine .bind (.within (yields p)) fun q x _ value => ?_
  refine .bind .expectCategory ?_
  rintro _ _ _ ⟨rfl, logical⟩
  exact .pure ⟨value, value.value.scalar.eq_of_logical logical⟩

/-- The address of an element, whose index comes first. -/
theorem element (yields : Provides routine index) {Next : Type}
    {next : Symbol × Operand → Lower Next}
    {good : Point routine → Next → Prop}
    (goesOn : ∀ (q : Point routine) (made : Symbol × Operand), made.1.kind ≠ .none →
      q.Address made.1.kind.native made.2 → q.Runs (next made) good) :
    p.Runs (do
      let index ← Lowering.lowerIndex index
      next (← routine.storage name (some index))) good :=
  .bind (lowerIndex yields) fun _ x _ isIndex =>
    .bind (storage (some x) (by simpa using isIndex)) fun q made _ found =>
      goesOn q made found.1 found.2

end Point.Runs

/-! ### Expressions -/

namespace Provides

theorem lowerIdentifier : Provides routine (lowerIdentifier routine name) := fun _ =>
  .bind .scalarStorage fun _ _ _ found =>
    (Point.Runs.read found.2 ⟨_, found.1, rfl⟩).value

theorem lowerElement (yields : Provides routine index) :
    Provides routine (lowerElement routine name index) := fun _ =>
  .element yields fun _ _ isKind address =>
    (Point.Runs.load address ⟨_, isKind, rfl⟩).value

theorem lowerPair (leftYields : Provides routine left) (rightYields : Provides routine right)
    (p : Point routine) : p.Runs (lowerPair left right) fun q (made : Operand × Operand) =>
      q.Value made.1 ∧ q.Value made.2 :=
  .bind (.within (leftYields p)) fun q _ _ leftValue =>
    .bind (.within (rightYields q)) fun _ _ along rightValue =>
      .pure ⟨along.value leftValue, rightValue⟩

/-- Both operands of an operator, brought to one type. -/
theorem unified {Next : Type} {next : Operand × Operand × Category → Lower Next}
    {good : Point routine → Next → Prop} (leftYields : Provides routine left)
    (rightYields : Provides routine right) (p : Point routine)
    (goesOn : ∀ (q : Point routine) (l r : Operand), q.Value l → q.Value r → l.type = r.type →
      q.Runs (next (l, r, l.type.category)) good) :
    p.Runs (do
      let (left, right) ← Lowering.lowerPair left right
      next (← unify operator left right)) good := by
  refine .bind (leftYields.lowerPair rightYields p) ?_
  rintro q ⟨l, r⟩ _ ⟨leftValue, rightValue⟩
  refine .bind (Point.Runs.unify leftValue rightValue) ?_
  rintro q ⟨l, r, category⟩ _ ⟨leftValue, rightValue, same, isCategory⟩
  obtain rfl : l.type.category = category := isCategory
  exact goesOn q l r leftValue rightValue same

theorem lowerBinary (leftYields : Provides routine left) (rightYields : Provides routine right) :
    Provides routine (lowerBinary operator left right) := by
  refine fun p => leftYields.unified rightYields p fun q l r leftValue rightValue same => ?_
  dsimp only
  split
  · exact (Point.Runs.binary leftValue rightValue same (arithmetic_takes (by assumption))).value
  · exact .failWith

theorem lowerComparison (leftYields : Provides routine left)
    (rightYields : Provides routine right) :
    Provides routine (lowerComparison operator left right) := by
  refine fun p => leftYields.unified rightYields p fun q l r leftValue rightValue same => ?_
  dsimp only
  split
  · exact (Point.Runs.compare leftValue rightValue same (comparison_takes (by assumption))).value
  · exact .failWith

theorem lowerLogical (leftYields : Provides routine left) (rightYields : Provides routine right) :
    Provides routine (lowerLogical operator left right) := by
  intro p
  unfold Lowering.lowerLogical
  split
  · exact .bind (rightYields p) fun _ _ _ value =>
      (Point.Runs.negate value).value
  · refine .bind (leftYields.lowerPair rightYields p) ?_
    rintro q ⟨l, r⟩ _ ⟨leftValue, rightValue⟩
    dsimp only
    split
    · refine .bind (Point.Runs.truth leftValue) ?_
      rintro q l along ⟨leftTruth, leftType⟩
      refine .bind (Point.Runs.truth (along.value rightValue)) ?_
      rintro q r along ⟨rightTruth, rightType⟩
      refine (Point.Runs.binary (along.value leftTruth) rightTruth (leftType.trans rightType.symm)
        ?_).value
      rw [leftType]
      exact connective_takes (by assumption)
    · exact .failWith

theorem lowerUnary (yields : Provides routine given) :
    Provides routine (lowerUnary operator given) := by
  intro p
  refine .bind (yields p) fun q x _ value => ?_
  have scalar := value.value.scalar
  dsimp only
  split
  · exact .pure value
  · split
    · rename_i isMinus
      split
      · rename_i type isType
        rw [isType] at scalar
        refine (Point.Runs.binary (Point.value_int scalar 0) value isType.symm ?_).value
        have integral := isMinus.2
        rwa [isType] at integral
      · exact .pure value
    · split
      · rename_i isMinus
        have isDouble := scalar.eq_of_floating isMinus.2
        refine (Point.Runs.binary (Point.value_float .zero) value isDouble.symm ?_).value
        exact Eq.refl Category.floating
      · split
        · exact (Point.Runs.negate value).value
        · exact .failWith

theorem lowerPostfix {target : Node} : Provides routine (lowerPostfix routine operator target) := by
  intro p
  unfold Lowering.lowerPostfix
  split
  · refine .bind .scalarStorage ?_
    rintro q ⟨symbol, address⟩ _ ⟨isKind, isAddress⟩
    refine .bind (Point.Runs.read isAddress ⟨_, isKind, rfl⟩) ?_
    rintro r old along ⟨value, type⟩
    dsimp only
    split
    · rename_i operation one found isOne _
      have scalar := value.value.scalar
      obtain ⟨oneValue, oneType⟩ := one_valued (p := r) scalar isOne
      rw [build_bind, bind_assoc]
      refine .bind (Point.Runs.binary value oneValue oneType.symm (arithmetic_takes found)) ?_
      rintro s sum alongSum ⟨sumValue, sumType⟩
      have stays := alongSum.address (along.address isAddress)
      rw [← type, ← sumType] at stays
      exact .bind (Point.Runs.store stays sumValue.offers (.inl sumValue.value))
        fun _ _ alongStore _ =>
        .pure (alongStore.value (alongSum.value value))
    · exact .failWith
  · exact .failWith

end Provides

/-! ### Statements -/

namespace Point.Runs

/-- A value is fitted to a variable and stored there. -/
theorem assign {address : Operand} (yields : Provides routine value) (isKind : symbol.kind ≠ .none)
    (isAddress : p.Address symbol.kind.native address) :
    p.Runs (do
      let fitted ← Lowering.fit name symbol.kind.native (← value)
      build (Build.store address fitted)) fun _ _ => True := by
  refine .bind (yields p) fun q x along isValue => ?_
  refine .bind (fit isValue ⟨_, isKind, rfl⟩) ?_
  rintro r fitted alongToo ⟨fits, type⟩
  exact store (type ▸ alongToo.address (along.address isAddress)) fits.offers (.inl fits.value)

theorem lowerAssignment (yields : Provides routine value) :
    p.Runs (lowerAssignment routine name value) fun _ _ => True :=
  .bind .scalarStorage fun _ _ _ found => assign yields found.1 found.2

theorem lowerElementAssignment (indexYields : Provides routine index)
    (yields : Provides routine value) :
    p.Runs (lowerElementAssignment routine name index value) fun _ _ => True :=
  element indexYields fun _ _ isKind address => assign yields isKind address

/-- A module that gains members. -/
theorem withUnit {Result : Type} {step : Build Result} {good : Point routine → Result → Prop}
    (cursor : (step p.workspace.builder).2.cursor = p.workspace.builder.cursor)
    (fair : (step p.workspace.builder).2.unit.Fair)
    (grows : p.workspace.builder.Extends (step p.workspace.builder).2)
    (kept : IR.Kept p.unit.functions (step p.workspace.builder).2.unit.functions)
    (served : ∀ (place : Nat) (function : IR.Function), p.unit.functions.size ≤ place →
      (step p.workspace.builder).2.unit.functions[place]? = some function →
        function.Settled (step p.workspace.builder).2.unit)
    (isGood : ∀ q : Point routine, q.workspace.builder = (step p.workspace.builder).2 →
      q.site = p.site → good q (step p.workspace.builder).1) :
    p.Runs (build step) good := by
  intro made after lowered
  obtain ⟨rfl, rfl⟩ := (build_eq_ok ..).mp lowered
  generalize (step p.workspace.builder).2 = builder at cursor fair grows kept served isGood ⊢
  obtain ⟨unit, point⟩ := builder
  obtain rfl : point = _ := cursor
  exact ⟨p.withUnit unit fair grows kept, rfl, ⟨⟨grows, served⟩, .refl, rfl, fun _ _ => .refl⟩,
    isGood _ rfl rfl⟩

theorem string {bytes : Bytes} : p.Runs (build (Build.string name bytes)) fun q x =>
    q.Valued .bytes x ∧ ∃ id, x = .data id ∧
      q.unit.data[id]? = some { name := name, bytes := bytes } := by
  refine withUnit rfl ⟨p.fair.functions, p.fair.globals, p.fair.distinct⟩
    (Build.extends_withUnit _ _ (.push _ _) (.refl _) (.refl _)) (.refl _)
    (fun place function beyond found => ?_) fun q isBuilder isSite => ?_
  · have inside := (Array.getElem?_eq_some_iff.mp found).1
    exact absurd inside (Nat.not_lt.mpr beyond)
  · have found : q.unit.data[p.unit.data.size]? = some { name := name, bytes := bytes } := by
      rw [Point.unit, isBuilder]
      exact Array.getElem?_push_size
    have isValue : q.Value (.data p.unit.data.size) :=
      value_constant (Array.getElem?_eq_some_iff.mp found).1 (by simp) (.data _)
    exact ⟨⟨isValue, rfl⟩, _, rfl, found⟩

theorem declareFunction (served : name ∈ servedNames) :
    p.Runs (build (Build.declareFunction name formattedSignature)) fun q id =>
      (∃ function, q.unit.functions[id]? = some function ∧ function.name = name ∧
        function.external = true ∧ function.signature = formattedSignature) ∧
      q.unit.data = p.unit.data := by
  obtain ⟨fair, function, found, isServed⟩ := p.fair.declareFunction served
  cases known : p.unit.findFunction? name with
  | some id =>
    rw [Build.declareFunction_of_some known] at found
    intro made after lowered
    obtain ⟨rfl, rfl⟩ := (build_eq_ok ..).mp lowered
    rw [Build.declareFunction_of_some known]
    exact ⟨p, rfl, .refl p, ⟨function, found, isServed⟩, rfl⟩
  | none =>
    have isNew := Build.declareFunction_of_none known formattedSignature
    refine withUnit ?_ fair ?_ ?_ (fun place other beyond foundThere => ?_)
      fun q isBuilder _ => ⟨⟨function, ?_, isServed⟩, ?_⟩
    · rw [isNew]
    · rw [isNew]
      exact Build.extends_withUnit _ _ (.refl _) (.refl _) (.push _ _)
    · rw [isNew]
      exact .push _ _
    · rw [isNew, IR.Module.withServed] at foundThere
      simp only [Array.getElem?_push] at foundThere
      split at foundThere
      · cases foundThere
        exact ⟨List.nodup_nil, .nil, .inl rfl⟩
      · exact absurd (Array.getElem?_eq_some_iff.mp foundThere).1 (Nat.not_lt.mpr beyond)
    · rwa [Point.unit, isBuilder]
    · rw [Point.unit, isBuilder, isNew]
      rfl

/-- An external function is there once it has been asked for, now or earlier. -/
theorem external (service : Service) : p.Runs (external service) fun q id =>
    (∃ function, q.unit.functions[id]? = some function ∧ function.name = service.name ∧
      function.external = true ∧ function.signature = formattedSignature) ∧
    q.unit.data = p.unit.data := by
  intro made after lowered
  have coherent := (external_declared lowered p.coherent).1
  rcases external_cases lowered with ⟨known, rfl⟩ | ⟨isNumber, rfl⟩
  · exact ⟨p, rfl, .refl p, (p.coherent known).found p.fair, rfl⟩
  · obtain ⟨q, isAfter, along, found, data⟩ :=
      declareFunction (p := p) service.served made _ ((build_eq_ok ..).mpr ⟨isNumber, rfl⟩)
    have same : { q.workspace with externals := p.workspace.externals.keep service made } =
        { p.workspace with
          builder := (Build.declareFunction service.name formattedSignature p.workspace.builder).2
          externals := p.workspace.externals.keep service made } := by
      rw [isAfter]
    exact ⟨q.keeping _ (by rw [same]; exact coherent), same,
      ⟨⟨along.builder, along.settled⟩, along.straight, along.table, along.code⟩, found, data⟩

/-- A call of a function that is there. -/
theorem call {callee : Nat} {args : List Operand} {function : IR.Function}
    (found : p.unit.functions[callee]? = some function)
    (scalar : function.signature.hasResult = true → function.signature.result.IsScalar)
    (accepts : function.signature.Accepts (args.map Operand.type))
    (offers : ∀ arg ∈ args, p.site.Offers p.unit arg)
    (guarded : ∀ out, (IR.Instr.call out callee args).Guarded p.unit p.site.function
      (· ∈ p.slots)) :
    p.Runs (build (Build.call callee args)) fun q made => ∀ x ∈ made, q.Value x := by
  have admits (out : Option IR.Register)
      (type : out.map IR.Register.type = function.signature.result?) :
      p.site.Admits p.unit p.slots (.call out callee args) :=
    ⟨⟨function, found, accepts, type⟩, offers, guarded out⟩
  cases result : function.signature.hasResult with
  | true =>
    intro made after lowered
    obtain ⟨rfl, rfl⟩ := (build_eq_ok ..).mp lowered
    rw [Build.call_eq_of_result p.holds found result]
    have runs : p.Runs (build (do
        let out ← Build.freshRegister function.signature.result
        Build.emit (.call (some out) callee args)
        return .reg out)) (Valued _) :=
      defineValue (scalar result) rfl rfl (admits _ (by rw [Signature.result?, result]; rfl))
    obtain ⟨q, isAfter, along, value⟩ := runs _ _ ((build_eq_ok ..).mpr ⟨rfl, rfl⟩)
    rw [Build.define_eq p.holds] at isAfter value
    exact ⟨q, isAfter, along, by simpa using value.1⟩
  | false =>
    intro made after lowered
    obtain ⟨rfl, rfl⟩ := (build_eq_ok ..).mp lowered
    rw [Build.call_eq_of_noResult p.holds fun other foundToo => by
      rw [found] at foundToo
      cases foundToo
      exact result]
    obtain ⟨q, isAfter, along, _⟩ := emit (p := p) rfl
      (admits none (by rw [Signature.result?, result]; rfl)) _ _ ((build_eq_ok ..).mpr ⟨rfl, rfl⟩)
    rw [Build.emit_eq p.holds] at isAfter
    exact ⟨q, isAfter, along, by simp⟩

/-- A call by a format that suits the arguments. -/
theorem callFormatted {service : Service} {formatName format : Bytes} {args : List Operand}
    (offers : ∀ arg ∈ args, p.site.Offers p.unit arg)
    (formatted : ∀ (q : Point routine) (id : Nat) (datum : IR.Datum), p.Along q →
      q.unit.data[id]? = some datum → datum.bytes = format →
      IR.Formatted q.unit q.site.function (· ∈ q.slots) service.name (.data id :: args)) :
    p.Runs (callFormatted service formatName format args) fun _ _ => True := by
  refine .bind string ?_
  rintro q _ along ⟨⟨text, type⟩, id, rfl, datum⟩
  refine .bind (external service) ?_
  rintro r callee alongToo ⟨⟨function, found, named, isExternal, signature⟩, data⟩
  have whole := along.trans alongToo
  refine .bind (call found (fun _ => signature ▸ .i32) ?_ ?_ fun out => ?_)
    fun _ _ _ _ => .pure trivial
  · rw [signature]
    exact ⟨args.map Operand.type, rfl⟩
  · intro arg member
    rcases List.mem_cons.mp member with rfl | isArg
    · exact (alongToo.value text).offers
    · exact (offers arg isArg).straight whole.straight whole.builder.unit
  · rw [← data] at datum
    refine ⟨function, found, fun _ => named ▸ formatted r id _ whole datum rfl, fun defined => ?_⟩
    · rw [isExternal] at defined
      cases defined

theorem lowerInput {address : Operand} (isKind : symbol.kind ≠ .none)
    (isAddress : p.Address symbol.kind.native address) :
    p.Runs (lowerInput symbol address) fun _ _ => True := by
  unfold Lowering.lowerInput
  split
  · rename_i format isFormat
    refine callFormatted (by simpa using isAddress.offers)
      fun q id datum along found bytes => ?_
    exact .scan found (bytes ▸ isFormat) ⟨_, isKind, rfl⟩ isAddress.points
      (along.address isAddress).address
  · exact .failWith

/-- The arguments of a call have the types of the parameters. -/
theorem lowerArguments {nodes : List Node} {position : Nat} {kinds : List Kind}
    (yields : ∀ node ∈ nodes, Provides routine (operand node (lowerNode node routine)))
    (count : position + nodes.length = kinds.length) :
    p.Runs (lowerArguments name position nodes kinds routine) fun q values =>
      values.map Operand.type = (kinds.drop position).map Kind.native ∧
        ∀ value ∈ values, q.Value value := by
  induction nodes generalizing position p with
  | nil =>
    rw [Lowering.lowerArguments]
    have none : kinds.drop position = [] := List.drop_eq_nil_of_le (Nat.le_of_eq count.symm)
    exact .pure ⟨by rw [none]; rfl, by simp⟩
  | cons node nodes rest =>
    rw [Lowering.lowerArguments]
    refine .bind (.within (yields node (List.mem_cons_self ..) p)) fun q x _ value => ?_
    refine .bind (.expectType value.value.scalar) ?_
    rintro _ _ _ ⟨rfl, type⟩
    refine .bind (rest (fun node member => yields node (List.mem_cons_of_mem _ member))
      (by simp at count; omega)) ?_
    rintro r values along ⟨types, isValue⟩
    refine .pure ⟨?_, ?_⟩
    · have inside : position < kinds.length := by simp at count; omega
      rw [List.map_cons, types, type, List.drop_eq_getElem_cons inside,
        List.getElem?_eq_getElem inside]
      rfl
    · intro other member
      rcases List.mem_cons.mp member with rfl | isOther
      · exact along.value value
      · exact isValue other isOther

theorem lowerPrinted {position : Nat} (isValue : p.Value x) :
    p.Runs (lowerPrinted position x) fun q (made : Bytes × Operand) =>
      q.Value made.2 ∧ made.2.PrintsBy made.1 := by
  unfold Lowering.lowerPrinted
  split
  · rename_i format found
    refine .bind (promote isValue) ?_
    rintro q y _ ⟨value, number⟩
    refine .pure ⟨value, ?_⟩
    rcases isValue.value.scalar.cases with type | type | type | type | type <;>
      rw [type] at found number <;> cases found
    · exact .inl rfl
    · exact .inr (.inl rfl)
    · exact .inl rfl
    · exact .inr (.inr (.inr ⟨rfl, number _ rfl⟩))
    · exact .inr (.inr (.inl rfl))
  · exact .failWith

theorem lowerPrintedList {nodes : List Node} {position : Nat}
    (yields : ∀ node ∈ nodes, Provides routine (operand node (lowerNode node routine))) :
    p.Runs (lowerPrintedList position nodes routine) fun q printed =>
      ∀ pair ∈ printed, q.Value pair.2 ∧ pair.2.PrintsBy pair.1 := by
  induction nodes generalizing position p with
  | nil =>
    rw [Lowering.lowerPrintedList]
    exact .pure (by simp)
  | cons node nodes rest =>
    rw [Lowering.lowerPrintedList]
    refine .bind (.within (yields node (List.mem_cons_self ..) p)) fun q x _ value => ?_
    refine .bind (lowerPrinted value) ?_
    rintro q pair _ ⟨isValue, prints⟩
    refine .bind (rest fun node member => yields node (List.mem_cons_of_mem _ member))
      fun r pairs along others => .pure fun other member => ?_
    rcases List.mem_cons.mp member with rfl | isOther
    · exact ⟨along.value isValue, prints⟩
    · exact others other isOther

theorem lowerOutput {printed : List (Bytes × Operand)}
    (values : ∀ pair ∈ printed, p.Value pair.2 ∧ pair.2.PrintsBy pair.1) :
    p.Runs (lowerOutput printed) fun _ _ => True := by
  refine callFormatted (fun arg member => ?_) fun q id datum along found bytes =>
    .print found bytes (fun pair member => (values pair member).2)
      fun pair member => (along.value (values pair member).1).value
  obtain ⟨pair, isPair, rfl⟩ := List.mem_map.mp member
  exact (values pair isPair).1.offers

end Point.Runs

/-! ### Nodes -/

/-- A value that can be used, if there is one. -/
def Point.ValueIfAny (p : Point routine) (made : Option Operand) : Prop := ∀ x ∈ made, p.Value x

theorem Provides.some (yields : Provides routine given) (p : Point routine) :
    p.Runs (some <$> given) Point.ValueIfAny :=
  (yields p).map fun _ _ value => by simpa [Point.ValueIfAny] using value

theorem Provides.operand {child : Node}
    (runs : child.isPlain = true → ∀ p : Point routine,
      p.Runs (lowerNode child routine) Point.ValueIfAny) :
    Provides routine (operand child (lowerNode child routine)) := by
  intro p made after lowered
  obtain ⟨_, lowered⟩ := (operand_eq_ok ..).mp lowered
  obtain ⟨q, isAfter, along, value⟩ := runs (isPlain_of_value lowered) p _ _ lowered
  exact ⟨q, isAfter, along, value made rfl⟩

/-- A routine that is in scope is called. -/
theorem Point.Runs.lowerCall {position : Int} {args : List Node}
    (yields : ∀ node ∈ args, Provides routine (Lowering.operand node (lowerNode node routine))) :
    p.Runs (lowerNode (.call position name args) routine) Point.ValueIfAny := by
  have finds : p.Runs (callable name args.length) fun q made => q = p ∧
      args.length = made.2.length ∧ ∃ function kind, p.unit.functions[made.1]? = some function ∧
        function.external = false ∧
        function.signature = { params := made.2.map Kind.native, result := Kind.native kind } := by
    rintro ⟨callee, kinds⟩ after lowered
    simp only [callable, bind_eq_ok, find?_eq_ok] at lowered
    obtain ⟨found, _, ⟨isFound, rfl⟩, lowered⟩ := lowered
    split at lowered
    · rename_i here params code
      split at lowered
      · simp at lowered
      · simp only [pure_eq_ok, Prod.mk.injEq] at lowered
        obtain ⟨⟨rfl, rfl⟩, rfl⟩ := lowered
        obtain ⟨_, code, function, hasCode, isFunction, defined, signature⟩ :=
          (p.table.find? isFound).code rfl
        cases hasCode
        exact ⟨p, rfl, .refl p, rfl, by simp_all, function, _, isFunction, defined, signature⟩
    · simp at lowered
  rw [lowerNode]
  refine .bind finds ?_
  rintro _ ⟨callee, kinds⟩ _ ⟨rfl, count, function, kind, found, defined, signature⟩
  refine .bind (lowerArguments yields (by simpa using count)) ?_
  rintro r values along ⟨types, isValue⟩
  obtain ⟨grown, foundThere, grows⟩ := along.builder.unit.functions _ _ found
  have isSignature := grows.signature.trans signature
  rw [List.drop_zero] at types
  refine call foundThere (fun hasResult => ?_) ?_ (fun arg member => (isValue arg member).offers)
    fun out => ⟨grown, foundThere, fun isExternal => ?_, fun _ => ⟨?_, fun arg member =>
      (isValue arg member).value⟩⟩
  · rw [isSignature] at hasResult ⊢
    refine ⟨kind, fun isNone => ?_, rfl⟩
    rw [isNone] at hasResult
    cases hasResult
  · rw [isSignature]
    exact types
  · rw [grows.external, defined] at isExternal
    cases isExternal
  · rw [isSignature]
    exact types

/-- A plain node is lowered to typed code, and its value, if it has one, can be used. -/
theorem lowerNode_runs (node : Node) (plain : node.isPlain = true) (p : Point routine) :
    p.Runs (lowerNode node routine) Point.ValueIfAny := by
  induction node using Node.inductionOn generalizing p with
  | step node children =>
    have operands (child : Node) (member : child ∈ node.children) :
        Provides routine (operand child (lowerNode child routine)) :=
      .operand fun isPlain p => children child member isPlain p
    have quiet (q : Point routine) : q.ValueIfAny none := by simp [Point.ValueIfAny]
    have constant {x : Operand} (value : p.Value x) :
        p.Runs (pure (some x)) Point.ValueIfAny := .pure (by simpa [Point.ValueIfAny] using value)
    have text (name bytes : Bytes) :
        p.Runs (some <$> build (Build.string name bytes)) Point.ValueIfAny :=
      Point.Runs.string.map fun _ _ made => by simpa [Point.ValueIfAny] using made.1.1
    cases node with
    | missing => exact .fail
    | integer => exact constant (Point.value_int .i32 _)
    | char => exact constant (Point.value_int .i8 _)
    | boolean => exact constant (Point.value_int .i1 _)
    | real => exact constant (Point.value_float _)
    | string | date => exact text _ _
    | identifier => exact Provides.some .lowerIdentifier p
    | assignment position name value =>
      exact .statement (.lowerAssignment (operands value (by simp))) quiet
    | arrayAssignment position name index value =>
      rw [lowerNode]
      split
      · exact .statement (.lowerAssignment (operands value (by simp))) quiet
      · exact .statement (.lowerElementAssignment (operands index (by simp))
          (operands value (by simp))) quiet
    | arrayAccess position name index =>
      exact (Provides.lowerElement (operands index (by simp))).some p
    | binary position operator left right =>
      rw [lowerNode]
      split
      · exact Provides.some .lowerPostfix p
      · exact (Provides.lowerBinary (operands left (by simp)) (operands right (by simp))).some p
    | unary position operator child =>
      exact (Provides.lowerUnary (operands child (by simp))).some p
    | comparison position operator left right =>
      exact (Provides.lowerComparison (operands left (by simp)) (operands right (by simp))).some p
    | logical position operator left right =>
      exact (Provides.lowerLogical (operands left (by simp)) (operands right (by simp))).some p
    | call position name args => exact .lowerCall fun node member => operands node member
    | output position args =>
      exact .statement (.bind (.lowerPrintedList fun node member => operands node member)
        fun _ _ _ values => .lowerOutput values) quiet
    | input position target =>
      cases target with
      | identifier =>
        exact .statement (.bind .scalarStorage fun _ _ _ found =>
          .lowerInput found.1 found.2) quiet
      | arrayAccess position name index =>
        exact .statement (.element (operands index (by simp)) fun _ _ isKind address =>
          .lowerInput isKind address) quiet
      | _ => exact .failWith
    | _ => cases plain

theorem operand_provides (child : Node) (routine : Routine) :
    Provides routine (operand child (lowerNode child routine)) :=
  .operand (lowerNode_runs child)

end Pascaline.Lowering
