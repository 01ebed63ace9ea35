/-
This file tells what names mean from the history of a symbol table.

The history of a table is the list of what happened to it: scopes were opened and closed, symbols
were declared, and declarations got storage. Looking back from the end, and leaving out all that
happened in scopes which have been closed again, the first declaration of a name is the one that the
name means. The table keeps no history but a stack of scopes; it finds the same symbols, whatever
operations are done on it and whether or not they fail.

Looking back, a scope that has been opened and closed again is no obstacle. So each name means after
it what it meant before, and only its storage may be new.
-/

import Pascaline.Proofs.Steps

namespace Pascaline

open IR (Build Operand Slot)
open Lowering (Lower Reserve Workspace)

/-! ### Histories -/

/-- Something that happened to a table. Storage goes to the declaration at a place of the history,
counted from its start; it is forced if the declaration need not have been without. -/
inductive Event where
  | opened
  | closed
  | declared (symbol : Symbol)
  | stored (place : Nat) (slot : Slot) (forced : Bool)
  deriving DecidableEq

/-- What happened, the latest first. -/
abbrev History := List Event

namespace History

/-- The number of scopes that are open. -/
def depth : History → Nat
  | [] => 0
  | .opened :: rest => depth rest + 1
  | .closed :: rest => depth rest - 1
  | .declared _ :: rest | .stored .. :: rest => depth rest

/-- The latest declaration of a name in the innermost open scope that declares it, and its place.
Looking back, as many scopes as have been closed are left out, with all that is inside of them. -/
def meaning? (name : Bytes) : Nat → History → Option (Nat × Symbol)
  | _, [] => none
  | closed, .closed :: rest => meaning? name (closed + 1) rest
  | closed, .opened :: rest => meaning? name (closed - 1) rest
  | 0, .declared symbol :: rest =>
    if symbol.name = name then some (rest.length, symbol) else meaning? name 0 rest
  | closed + 1, .declared _ :: rest => meaning? name (closed + 1) rest
  | closed, .stored .. :: rest => meaning? name closed rest

/-- Whether the innermost open scope declares a name. -/
def isHere (name : Bytes) : Nat → History → Bool
  | _, [] => false
  | closed, .closed :: rest => isHere name (closed + 1) rest
  | 0, .opened :: _ => false
  | closed + 1, .opened :: rest => isHere name closed rest
  | 0, .declared symbol :: rest => symbol.name = name || isHere name 0 rest
  | closed + 1, .declared _ :: rest => isHere name (closed + 1) rest
  | closed, .stored .. :: rest => isHere name closed rest

/-- The latest storage of the declaration at a place. -/
def storage? (place : Nat) : History → Option Slot
  | [] => none
  | .stored other slot _ :: rest => if other = place then some slot else storage? place rest
  | .opened :: rest | .closed :: rest | .declared _ :: rest => storage? place rest

/-- The symbol of a declaration, with its storage. -/
def symbolOf (history : History) (declaration : Nat × Symbol) : Symbol :=
  ((history.storage? declaration.1).map declaration.2.bind).getD declaration.2

/-- The symbol that a name means. -/
def find? (history : History) (name : Bytes) : Option Symbol :=
  (history.meaning? name 0).map history.symbolOf

/-! ### Operations -/

/-- A declaration, which is in vain if no scope is open or the scope has the name already. -/
def declare (history : History) (symbol : Symbol) : History :=
  if history.depth = 0 ∨ history.isHere symbol.name 0 then history else .declared symbol :: history

/-- Storage for a variable or an array that has none. -/
def reserve (history : History) (slots : Bytes → Ty → Slot) (name : Bytes) : History :=
  match history.meaning? name 0 with
  | none => history
  | some (place, symbol) =>
    if symbol.isRoutine ∨ (history.symbolOf (place, symbol)).slot.isSome then history
    else .stored place (slots name symbol.nativeType) false :: history

/-- Storage for whatever a name means. -/
def bind (history : History) (name : Bytes) (slot : Slot) : History :=
  match history.meaning? name 0 with
  | none => history
  | some (place, _) => .stored place slot true :: history

end History

/-- The operations on a symbol table. -/
inductive Operation where
  | enter
  | exit
  | declareScalar (name : Bytes) (kind : Kind)
  | declareArray (name : Bytes) (kind : Kind) (first last : Int64)
  | declareRoutine (name : Bytes) (params : List Kind) (result : Kind)
  | allocate (name : Bytes)
  | lookup (name : Bytes) (index : Option Operand)
  | bind (name : Bytes) (slot : Slot)

namespace Operation

/-- The symbol that an operation tries to declare. -/
def declaration? : Operation → Option Symbol
  | .declareScalar name kind => some { name, shape := .scalar, kind }
  | .declareArray name kind first last => some { name, shape := .array first last, kind }
  | .declareRoutine name params result => some { name, shape := .routine params, kind := result }
  | _ => none

/-- Does an operation on a table, with storage reserved as given. -/
def perform (reserve : Reserve) : Operation → Lower Unit
  | .enter => modify fun workspace => { workspace with table := workspace.table.enter }
  | .exit => modify fun workspace => { workspace with table := workspace.table.exit }
  | .declareScalar name kind => Lowering.declare fun table => table.declareScalar name kind
  | .declareArray name kind first last =>
    Lowering.declare fun table => table.declareArray name kind first last
  | .declareRoutine name params result =>
    Lowering.declare fun table => table.declareRoutine name params result
  | .allocate name => do let _ ← Lowering.allocate reserve name
  | .lookup name index => do let _ ← Lowering.lookup reserve name index
  | .bind name slot => Lowering.updateSymbol name fun symbol => symbol.bind slot

/-- The workspace that is left by a step, also by one that fails. -/
def remains {Result : Type} :
    EStateM.Result Lowering.LoweringFailure Workspace Result → Workspace
  | .ok _ workspace | .error _ workspace => workspace

/-- The workspace behind an operation. -/
def after (reserve : Reserve) (operation : Operation) (workspace : Workspace) : Workspace :=
  remains (operation.perform reserve workspace)

/-- The history behind an operation, told from the history before and from the slot that would be
handed out. -/
def note (slots : Bytes → Ty → Slot) (history : History) : Operation → History
  | .enter => .opened :: history
  | .exit => if history.depth = 0 then history else .closed :: history
  | .declareScalar name kind => history.declare { name, shape := .scalar, kind }
  | .declareArray name kind first last =>
    if last < first then history else history.declare { name, shape := .array first last, kind }
  | .declareRoutine name params result =>
    history.declare { name, shape := .routine params, kind := result }
  | .allocate name | .lookup name _ => history.reserve slots name
  | .bind name slot => history.bind name slot

/-- Operations one after the other. -/
def run (reserve : Reserve) : List Operation → Workspace → Workspace
  | [], workspace => workspace
  | operation :: rest, workspace => run reserve rest (operation.after reserve workspace)

/-- The history behind operations one after the other. -/
def chronicle (reserve : Reserve) : List Operation → Workspace → History → History
  | [], _, history => history
  | operation :: rest, workspace, history =>
    chronicle reserve rest (operation.after reserve workspace)
      (operation.note (fun name type => (reserve name type workspace.builder).1) history)

end Operation

/-- A history that ends with given scopes. -/
def History.ofScopes : List Scope → History
  | [] => []
  | scope :: outer => scope.map .declared ++ .opened :: ofScopes outer

/-! ### Scopes of a history -/

namespace History

/-- The declarations of the open scopes, the innermost first, with their places. -/
def scopes : History → List (List (Nat × Symbol))
  | [] => []
  | .opened :: rest => [] :: scopes rest
  | .closed :: rest => (scopes rest).tail
  | .declared symbol :: rest => (scopes rest).modifyHead ((rest.length, symbol) :: ·)
  | .stored .. :: rest => scopes rest

/-- The latest declaration of a name in a scope. -/
def latest? (name : Bytes) (entries : List (Nat × Symbol)) : Option (Nat × Symbol) :=
  entries.find? fun entry => entry.2.name = name

/-- Scopes are closed, and symbols declared, only where a scope is open, and storage goes to earlier
declarations. -/
def Orderly : History → Prop
  | [] => True
  | .opened :: rest => Orderly rest
  | .closed :: rest | .declared _ :: rest => 0 < depth rest ∧ Orderly rest
  | .stored place .. :: rest => place < rest.length ∧ Orderly rest

variable {history : History} {name : Bytes}

theorem latest?_cons (entry : Nat × Symbol) (entries : List (Nat × Symbol)) :
    latest? name (entry :: entries) =
      if entry.2.name = name then some entry else latest? name entries := by
  unfold latest?
  by_cases same : entry.2.name = name
  · rw [if_pos same, List.find?_cons_of_pos (by simpa using same)]
  · rw [if_neg same, List.find?_cons_of_neg (by simpa using same)]

theorem Orderly.depth_eq (orderly : history.Orderly) : history.depth = history.scopes.length := by
  induction history with
  | nil => rfl
  | cons event rest earlier =>
    cases event with
    | opened => exact congrArg Nat.succ (earlier orderly)
    | closed => rw [depth, earlier orderly.2, scopes, List.length_tail]
    | declared symbol => rw [depth, earlier orderly.2, scopes, List.length_modifyHead]
    | stored => exact earlier orderly.2

/-- Where a symbol was declared, a scope is open. -/
theorem Orderly.scopes_cons {symbol : Symbol} (orderly : Orderly (.declared symbol :: history)) :
    ∃ entries outer, history.scopes = entries :: outer := by
  have isOpen : 0 < history.scopes.length := orderly.2.depth_eq ▸ orderly.1
  exact List.exists_cons_of_length_pos isOpen

theorem Orderly.meaning?_eq (orderly : history.Orderly) (closed : Nat) :
    history.meaning? name closed = (history.scopes.drop closed).findSome? (latest? name) := by
  induction history generalizing closed with
  | nil =>
    rw [meaning?, scopes, List.drop_nil]
    rfl
  | cons event rest earlier =>
    cases event with
    | opened =>
      rw [meaning?, earlier orderly, scopes]
      cases closed <;> rfl
    | closed => rw [meaning?, earlier orderly.2, scopes, List.drop_tail]
    | declared symbol =>
      obtain ⟨entries, outer, isOpen⟩ := orderly.scopes_cons
      have before := earlier orderly.2 closed
      rw [isOpen] at before
      rw [scopes, isOpen, List.modifyHead_cons]
      cases closed with
      | zero =>
        rw [meaning?, before, List.drop_zero, List.drop_zero, List.findSome?_cons,
          List.findSome?_cons, latest?_cons]
        by_cases same : symbol.name = name
        · rw [if_pos same, if_pos same]
        · rw [if_neg same, if_neg same]
      | succ closed => exact before
    | stored => exact earlier orderly.2 closed

theorem Orderly.isHere_eq (orderly : history.Orderly) (closed : Nat) :
    history.isHere name closed =
      (history.scopes.drop closed).head?.any fun entries => (latest? name entries).isSome := by
  induction history generalizing closed with
  | nil =>
    rw [isHere, scopes, List.drop_nil]
    rfl
  | cons event rest earlier =>
    cases event with
    | opened =>
      cases closed with
      | zero => rfl
      | succ closed => exact earlier orderly closed
    | closed => rw [isHere, earlier orderly.2, scopes, List.drop_tail]
    | declared symbol =>
      obtain ⟨entries, outer, isOpen⟩ := orderly.scopes_cons
      have before := earlier orderly.2 closed
      rw [isOpen] at before
      rw [scopes, isOpen, List.modifyHead_cons]
      cases closed with
      | zero =>
        show (decide (symbol.name = name) || isHere name 0 rest) =
          (latest? name ((rest.length, symbol) :: entries)).isSome
        rw [before, latest?_cons]
        by_cases same : symbol.name = name
        · rw [if_pos same, decide_eq_true same]
          rfl
        · rw [if_neg same, decide_eq_false same]
          rfl
      | succ closed => exact before
    | stored => exact earlier orderly.2 closed

/-- Declarations are found in the order of their places. -/
theorem Orderly.places (orderly : history.Orderly) :
    (history.scopes.flatten.map Prod.fst).Pairwise (· > ·) ∧
      ∀ entry ∈ history.scopes.flatten, entry.1 < history.length := by
  induction history with
  | nil => exact ⟨.nil, fun entry member => (by cases member)⟩
  | cons event rest earlier =>
    have longer {entry : Nat × Symbol} (inside : entry.1 < rest.length) :
        entry.1 < (event :: rest).length := Nat.lt_succ_of_lt inside
    cases event with
    | opened =>
      obtain ⟨ordered, inside⟩ := earlier orderly
      exact ⟨ordered, fun entry member => longer (inside entry member)⟩
    | closed =>
      obtain ⟨ordered, inside⟩ := earlier orderly.2
      have fewer : (scopes rest).tail.flatten.Sublist (scopes rest).flatten :=
        (List.tail_sublist _).flatten
      exact ⟨ordered.sublist (fewer.map _), fun entry member =>
        longer (inside entry (fewer.subset member))⟩
    | declared symbol =>
      obtain ⟨ordered, inside⟩ := earlier orderly.2
      obtain ⟨entries, outer, isOpen⟩ := orderly.scopes_cons
      have more : (scopes (.declared symbol :: rest)).flatten =
          (rest.length, symbol) :: (scopes rest).flatten := by
        rw [scopes, isOpen]
        rfl
      rw [more]
      refine ⟨List.pairwise_cons.mpr ⟨fun place member => ?_, ordered⟩, fun entry member => ?_⟩
      · obtain ⟨entry, isEntry, rfl⟩ := List.mem_map.mp member
        exact inside entry isEntry
      · rcases List.mem_cons.mp member with rfl | old
        · exact Nat.lt_succ_self _
        · exact longer (inside entry old)
    | stored =>
      obtain ⟨ordered, inside⟩ := earlier orderly.2
      exact ⟨ordered, fun entry member => longer (inside entry member)⟩

/-- Nothing has been stored for a declaration that is still to come. -/
theorem Orderly.storage?_none (orderly : history.Orderly) {place : Nat}
    (later : history.length ≤ place) : history.storage? place = none := by
  induction history with
  | nil => rfl
  | cons event rest earlier =>
    have restLater : rest.length ≤ place := Nat.le_of_succ_le later
    cases event with
    | opened => exact earlier orderly restLater
    | closed | declared => exact earlier orderly.2 restLater
    | stored other slot forced =>
      rw [storage?, if_neg (fun same => by have := orderly.1; omega), earlier orderly.2 restLater]

end History

/-! ### Tables with a history -/

/-- A scope shows the latest declarations of a scope of the history. -/
def History.Shows (history : History) (scope : Scope) (entries : List (Nat × Symbol)) : Prop :=
  ∀ name, scope.find? name = (History.latest? name entries).map history.symbolOf

/-- A table has a history. -/
structure Table.HasHistory (table : Table) (history : History) : Prop where
  orderly : history.Orderly
  shows : List.Forall₂ history.Shows table.scopes history.scopes

namespace Table.HasHistory

variable {table : Table} {history : History} {name : Bytes}

theorem depth (has : table.HasHistory history) : history.depth = table.depth := by
  rw [has.orderly.depth_eq, Table.depth, has.shows.length_eq]

theorem findSome?_shown {scopes : List Scope} {entries : List (List (Nat × Symbol))}
    (shows : List.Forall₂ history.Shows scopes entries) (name : Bytes) :
    scopes.findSome? (fun scope => scope.find? name) =
      (entries.findSome? (History.latest? name)).map history.symbolOf := by
  induction shows with
  | nil => rfl
  | cons shown _ outer =>
    rw [List.findSome?_cons, List.findSome?_cons, shown name]
    cases History.latest? name _ with
    | none => exact outer
    | some entry => rfl

theorem find?_eq (has : table.HasHistory history) (name : Bytes) :
    table.find? name = history.find? name := by
  rw [Table.find?, findSome?_shown has.shows, History.find?, has.orderly.meaning?_eq,
    List.drop_zero]

theorem declaredHere_eq (has : table.HasHistory history) (name : Bytes) :
    table.declaredHere name = history.isHere name 0 := by
  obtain ⟨scopes⟩ := table
  rw [has.orderly.isHere_eq, List.drop_zero]
  have shows := has.shows
  cases scopes with
  | nil =>
    rw [List.forall₂_nil_left_iff.mp shows]
    rfl
  | cons scope outer =>
    obtain ⟨entries, others, shown, _, isFirst⟩ := List.forall₂_cons_left_iff.mp shows
    rw [isFirst]
    show (scope.find? name).isSome = (History.latest? name entries).isSome
    rw [shown name, Option.isSome_map]

end Table.HasHistory

/-! ### Storage -/

theorem Scope.find?_cons (symbol : Symbol) (scope : Scope) (name : Bytes) :
    Scope.find? (symbol :: scope) name =
      if symbol.name = name then some symbol else scope.find? name := by
  simp only [Scope.find?, List.find?_cons]
  by_cases same : symbol.name = name <;> simp [same]

theorem Scope.find?_update {scope : Scope} {change : Symbol → Symbol}
    (named : ∀ symbol, (change symbol).name = symbol.name) (name other : Bytes) :
    (scope.update name change).find? other =
      if other = name then (scope.find? name).map change else scope.find? other := by
  induction scope with
  | nil => simp [Scope.update, Scope.find?]
  | cons symbol scope rest =>
    have updated : Scope.update (symbol :: scope) name change =
        (if symbol.name = name then change symbol else symbol) ::
          Scope.update scope name change := rfl
    rw [updated, Scope.find?_cons, Scope.find?_cons, Scope.find?_cons, rest]
    by_cases here : symbol.name = name
    · by_cases same : other = name
      · subst same
        simp [here, named]
      · simp [here, named, same, Ne.symm same]
    · by_cases same : other = name
      · simp [here, same]
      · simp [here, same]

namespace History

variable {history : History} {name : Bytes} {place : Nat} {slot : Slot} {forced : Bool}

theorem symbolOf_stored (declaration : Nat × Symbol) :
    symbolOf (.stored place slot forced :: history) declaration =
      if place = declaration.1 then declaration.2.bind slot
      else history.symbolOf declaration := by
  unfold symbolOf
  rw [storage?]
  split <;> rfl

/-- New storage replaces the old one. -/
theorem bind_symbolOf (declaration : Nat × Symbol) :
    (history.symbolOf declaration).bind slot = declaration.2.bind slot := by
  unfold symbolOf
  cases history.storage? declaration.1 <;> rfl

variable {entry : Nat × Symbol} {entries : List (List (Nat × Symbol))} {scope : Scope}
  {symbol : Symbol}

theorem mem_of_latest? {entries : List (Nat × Symbol)} (found : latest? name entries = some entry) :
    entry ∈ entries ∧ entry.2.name = name := by
  refine ⟨List.mem_of_find?_eq_some found, ?_⟩
  simpa using List.find?_some found

theorem mem_of_findSome? (found : entries.findSome? (latest? name) = some entry) :
    entry ∈ entries.flatten ∧ entry.2.name = name := by
  obtain ⟨inner, member, isEntry⟩ := List.exists_of_findSome?_eq_some found
  obtain ⟨here, named⟩ := mem_of_latest? isEntry
  exact ⟨List.mem_flatten.mpr ⟨inner, member, here⟩, named⟩

theorem Shows.other {entries : List (Nat × Symbol)} (shown : history.Shows scope entries)
    (elsewhere : ∀ entry ∈ entries, place ≠ entry.1) :
    History.Shows (.stored place slot forced :: history) scope entries := by
  intro wanted
  rw [shown wanted]
  cases found : latest? wanted entries with
  | none => rfl
  | some entry =>
    rw [Option.map_some, Option.map_some, symbolOf_stored,
      if_neg (elsewhere entry (mem_of_latest? found).1)]

theorem Shows.here {entries : List (Nat × Symbol)} (shown : history.Shows scope entries)
    (different : (entries.map Prod.fst).Nodup)
    (found : latest? name entries = some (place, symbol)) :
    History.Shows (.stored place slot forced :: history)
      (scope.update name fun symbol => symbol.bind slot) entries := by
  intro wanted
  have named (symbol : Symbol) : (symbol.bind slot).name = symbol.name := rfl
  rw [Scope.find?_update named]
  split
  · rename_i same
    rw [same, shown name, found]
    simp only [Option.map_some, bind_symbolOf, symbolOf_stored, if_true]
  · rename_i other
    rw [shown wanted]
    cases wantedFound : latest? wanted entries with
    | none => rfl
    | some entry =>
      obtain ⟨member, named⟩ := mem_of_latest? wantedFound
      obtain ⟨memberToo, namedToo⟩ := mem_of_latest? found
      have elsewhere : place ≠ entry.1 := by
        intro same
        have equal := List.inj_on_of_nodup_map different memberToo member same
        exact other (by rw [← named, ← equal, namedToo])
      rw [Option.map_some, Option.map_some, symbolOf_stored, if_neg elsewhere]

theorem shows_other {scopes : List Scope} (shows : List.Forall₂ history.Shows scopes entries)
    (elsewhere : ∀ entry ∈ entries.flatten, place ≠ entry.1) :
    List.Forall₂ (History.Shows (.stored place slot forced :: history)) scopes entries := by
  induction shows with
  | nil => exact .nil
  | cons shown _ rest =>
    rw [List.flatten_cons] at elsewhere
    exact .cons (shown.other fun entry member => elsewhere entry (List.mem_append_left _ member))
      (rest fun entry member => elsewhere entry (List.mem_append_right _ member))

/-- The declaration that a name means gets storage, on both sides. -/
theorem shows_store {scopes : List Scope} (shows : List.Forall₂ history.Shows scopes entries)
    (different : (entries.flatten.map Prod.fst).Nodup)
    (found : entries.findSome? (latest? name) = some (place, symbol)) :
    List.Forall₂ (History.Shows (.stored place slot forced :: history))
      (Table.update.updateFirst name (fun symbol => symbol.bind slot) scopes) entries := by
  induction shows with
  | nil => cases found
  | @cons scope inner outer others shown shows rest =>
    rw [List.flatten_cons, List.map_append, List.nodup_append] at different
    obtain ⟨differentHere, differentThere, apart⟩ := different
    rw [List.findSome?_cons] at found
    rw [Table.update.updateFirst, shown name, Option.isSome_map]
    cases isHere : latest? name inner with
    | none =>
      rw [isHere] at found
      have member := (mem_of_findSome? found).1
      refine .cons (shown.other fun entry here same => ?_) (rest differentThere found)
      exact apart _ (List.mem_map_of_mem here) _ (List.mem_map_of_mem member) same.symm
    | some entry =>
      rw [isHere] at found
      cases found
      have member := (mem_of_latest? isHere).1
      refine .cons (shown.here differentHere isHere) (shows_other shows fun entry there => ?_)
      exact apart _ (List.mem_map_of_mem member) _ (List.mem_map_of_mem there)

end History

/-! ### Operations on both sides -/

theorem Table.update_of_none {table : Table} {name : Bytes} (unknown : table.find? name = none)
    (change : Symbol → Symbol) : table.update name change = table := by
  obtain ⟨scopes⟩ := table
  refine congrArg Table.mk ?_
  induction scopes with
  | nil => rfl
  | cons scope outer rest =>
    have unknown : List.findSome? (fun scope : Scope => scope.find? name) (scope :: outer) = none :=
      unknown
    rw [List.findSome?_cons] at unknown
    cases here : scope.find? name with
    | none =>
      rw [here] at unknown
      rw [update.updateFirst, here, rest unknown]
      rfl
    | some symbol =>
      rw [here] at unknown
      cases unknown

namespace Table.HasHistory

variable {table : Table} {history : History} {name : Bytes} {place : Nat} {symbol : Symbol}
  {slot : Slot} {forced : Bool}

theorem enter (has : table.HasHistory history) : table.enter.HasHistory (.opened :: history) :=
  ⟨has.orderly, .cons (fun _ => rfl) has.shows⟩

theorem exit (has : table.HasHistory history) :
    table.exit.HasHistory (if history.depth = 0 then history else .closed :: history) := by
  rw [has.depth]
  split
  · rename_i isEmpty
    have nothing : table.scopes = [] := List.length_eq_zero_iff.mp isEmpty
    have same : table.exit = table := by
      rw [Table.exit, nothing, List.tail_nil, ← nothing]
    rw [same]
    exact has
  · rename_i isOpen
    refine ⟨⟨has.depth ▸ Nat.pos_of_ne_zero isOpen, has.orderly⟩, ?_⟩
    have tails {scopes : List Scope} {entries : List (List (Nat × Symbol))}
        (shows : List.Forall₂ history.Shows scopes entries) :
        List.Forall₂ history.Shows scopes.tail entries.tail := by
      cases shows with
      | nil => exact .nil
      | cons _ others => exact others
    exact tails has.shows

/-- A declaration is refused on both sides, or made on both. -/
theorem declare (has : table.HasHistory history) (symbol : Symbol) :
    (∃ fault, table.declare symbol = .error fault ∧ history.declare symbol = history) ∨
      ∃ later, table.declare symbol = .ok later ∧ later.HasHistory (history.declare symbol) := by
  rw [History.declare, has.depth, ← has.declaredHere_eq]
  obtain ⟨scopes⟩ := table
  cases scopes with
  | nil => exact .inl ⟨_, rfl, if_pos (.inl rfl)⟩
  | cons scope outer =>
    by_cases here : (scope.find? symbol.name).isSome = true
    · exact .inl ⟨_, if_pos here, if_pos (.inr here)⟩
    · refine .inr ⟨_, if_neg here, ?_⟩
      have isNew : ¬((⟨scope :: outer⟩ : Table).depth = 0 ∨
          (⟨scope :: outer⟩ : Table).declaredHere symbol.name = true) := by
        rintro (isEmpty | isHere)
        · cases isEmpty
        · exact here isHere
      rw [if_neg isNew]
      refine ⟨⟨has.depth ▸ Nat.succ_pos _, has.orderly⟩, ?_⟩
      obtain ⟨entries, others, shown, shows, isFirst⟩ := List.forall₂_cons_left_iff.mp has.shows
      have unstored : History.symbolOf (.declared symbol :: history) (history.length, symbol) =
          symbol := by
        show ((history.storage? history.length).map symbol.bind).getD symbol = symbol
        rw [has.orderly.storage?_none (Nat.le_refl _)]
        rfl
      rw [History.scopes, isFirst, List.modifyHead_cons]
      refine .cons (fun name => ?_) shows
      rw [Scope.find?_cons, History.latest?_cons]
      split
      · rw [Option.map_some, unstored]
      · exact shown name

/-- The declaration that a name means gets storage. -/
theorem store (has : table.HasHistory history)
    (meant : history.meaning? name 0 = some (place, symbol)) :
    (table.update name fun symbol => symbol.bind slot).HasHistory
      (.stored place slot forced :: history) := by
  rw [has.orderly.meaning?_eq, List.drop_zero] at meant
  obtain ⟨ordered, inside⟩ := has.orderly.places
  exact ⟨⟨inside _ (History.mem_of_findSome? meant).1, has.orderly⟩,
    History.shows_store has.shows (ordered.imp fun greater => Nat.ne_of_gt greater) meant⟩

theorem bind (has : table.HasHistory history) :
    (table.update name fun symbol => symbol.bind slot).HasHistory (history.bind name slot) := by
  unfold History.bind
  split
  · rename_i unknown
    have unfound : table.find? name = none := by
      rw [has.find?_eq, History.find?, unknown]
      rfl
    rw [Table.update_of_none unfound]
    exact has
  · rename_i meant
    exact has.store meant

end Table.HasHistory

namespace Operation

variable {reserve : Reserve} {workspace : Workspace} {history : History} {name : Bytes}

/-- What allocation comes to. -/
theorem allocate_eq (reserve : Reserve) (name : Bytes) (workspace : Workspace) :
    Lowering.allocate reserve name workspace = (workspace.table.find? name).elim
      (.error (.bare (.ofDiagnostic (.named .undeclaredIdentifier name))) workspace)
      fun symbol =>
        if symbol.isRoutine then .error (.bare (.noStorage name)) workspace
        else symbol.slot.elim
          (.ok (reserve name symbol.nativeType workspace.builder).1
            { workspace with
              table := workspace.table.update name fun found =>
                found.bind (reserve name symbol.nativeType workspace.builder).1
              builder := (reserve name symbol.nativeType workspace.builder).2 })
          fun slot => .ok slot workspace := by
  cases found : workspace.table.find? name with
  | none =>
    simp only [Lowering.allocate, Lowering.find?, Bind.bind, EStateM.bind, get, getThe,
      MonadStateOf.get, EStateM.get, Pure.pure, EStateM.pure, found]
    rfl
  | some symbol =>
    simp only [Lowering.allocate, Lowering.find?, Bind.bind, EStateM.bind, get, getThe,
      MonadStateOf.get, EStateM.get, Pure.pure, EStateM.pure, found, Option.elim_some]
    split
    · rfl
    · cases symbol.slot <;> rfl

/-- Behind the allocation, a lookup does nothing to the names. -/
theorem lookup_table (reserve : Reserve) (name : Bytes) (index : Option Operand)
    (workspace : Workspace) :
    (remains (Lowering.lookup reserve name index workspace)).table =
      (remains (Lowering.allocate reserve name workspace)).table := by
  show (remains (EStateM.bind (Lowering.allocate reserve name) _ workspace)).table = _
  rw [EStateM.bind]
  cases Lowering.allocate reserve name workspace with
  | error => rfl
  | ok slot later =>
    cases index with
    | none => rfl
    | some index =>
      simp only [Lowering.find?, Bind.bind, EStateM.bind, get, getThe, MonadStateOf.get,
        EStateM.get, Pure.pure, EStateM.pure]
      cases (later.table.find? name).map Symbol.shape with
      | none => rfl
      | some shape => cases shape <;> rfl

theorem reserved (has : workspace.table.HasHistory history) :
    (remains (Lowering.allocate reserve name workspace)).table.HasHistory
      (history.reserve (fun name type => (reserve name type workspace.builder).1) name) := by
  have found := has.find?_eq name
  rw [History.find?] at found
  rw [allocate_eq, found, History.reserve]
  cases meant : history.meaning? name 0 with
  | none => exact has
  | some declaration =>
    obtain ⟨place, symbol⟩ := declaration
    have shape : (history.symbolOf (place, symbol)).isRoutine = symbol.isRoutine ∧
        (history.symbolOf (place, symbol)).nativeType = symbol.nativeType := by
      unfold History.symbolOf
      cases history.storage? place <;> exact ⟨rfl, rfl⟩
    simp only [Option.map_some, Option.elim_some]
    rw [shape.1, shape.2]
    cases isRoutine : symbol.isRoutine with
    | true => exact has
    | false =>
      cases stored : (history.symbolOf (place, symbol)).slot with
      | some slot => exact has
      | none => exact has.store meant

/-- An operation is noted in the history of the table. -/
theorem noted (has : workspace.table.HasHistory history) (operation : Operation) :
    (operation.after reserve workspace).table.HasHistory
      (operation.note (fun name type => (reserve name type workspace.builder).1) history) := by
  have declares (symbol : Symbol) : (remains (Lowering.declare (fun table => table.declare symbol)
      workspace)).table.HasHistory (history.declare symbol) := by
    rcases has.declare symbol with ⟨fault, refused, same⟩ | ⟨later, declared, has⟩
    · rw [Lowering.declare_of_error refused, same]
      exact has
    · rw [(Lowering.declare_eq_ok _ _ () _).mpr ⟨later, declared, rfl⟩]
      exact has
  cases operation with
  | enter => exact has.enter
  | exit => exact has.exit
  | declareScalar name kind => exact declares _
  | declareArray name kind first last =>
    by_cases inverted : last < first
    · rw [after, perform, note, if_pos inverted, Lowering.declare_of_error (if_pos inverted)]
      exact has
    · have same : (fun table : Table => table.declareArray name kind first last) =
          fun table => table.declare { name, shape := .array first last, kind } :=
        funext fun _ => if_neg inverted
      rw [after, perform, note, if_neg inverted, same]
      exact declares _
  | declareRoutine name params result => exact declares _
  | allocate name =>
    have same : (remains (perform reserve (.allocate name) workspace)).table =
        (remains (Lowering.allocate reserve name workspace)).table := by
      show (remains (EStateM.bind (Lowering.allocate reserve name) _ workspace)).table = _
      rw [EStateM.bind]
      cases Lowering.allocate reserve name workspace <;> rfl
    rw [after, same]
    exact reserved has
  | lookup name index =>
    have same : (remains (perform reserve (.lookup name index) workspace)).table =
        (remains (Lowering.lookup reserve name index workspace)).table := by
      show (remains (EStateM.bind (Lowering.lookup reserve name index) _ workspace)).table = _
      rw [EStateM.bind]
      cases Lowering.lookup reserve name index workspace <;> rfl
    rw [after, same, lookup_table]
    exact reserved has
  | bind name slot => exact has.bind

/-- The history of a table is kept along. -/
theorem run_noted (has : workspace.table.HasHistory history) (operations : List Operation) :
    (run reserve operations workspace).table.HasHistory
      (chronicle reserve operations workspace history) := by
  induction operations generalizing workspace history with
  | nil => exact has
  | cons operation operations rest => exact rest (noted has operation)

end Operation

/-! ### Tables without a known history -/

namespace History

theorem symbolOf_unstored {history : History} (unstored : ∀ place, history.storage? place = none)
    (declaration : Nat × Symbol) : history.symbolOf declaration = declaration.2 := by
  rw [symbolOf, unstored]
  rfl

/-- One more scope on top of a history in which nothing has been stored. -/
theorem ofScope {rest : History} (orderly : rest.Orderly)
    (unstored : ∀ place, rest.storage? place = none) (scope : Scope) :
    Orderly (scope.map .declared ++ .opened :: rest) ∧
      0 < depth (scope.map .declared ++ .opened :: rest) ∧
      (∀ place, storage? place (scope.map .declared ++ .opened :: rest) = none) ∧
      ∃ entries, scopes (scope.map .declared ++ .opened :: rest) = entries :: rest.scopes ∧
        ∀ name, scope.find? name = (latest? name entries).map Prod.snd := by
  induction scope with
  | nil => exact ⟨orderly, Nat.succ_pos _, unstored, [], rfl, fun _ => rfl⟩
  | cons symbol scope earlier =>
    obtain ⟨orderly, isOpen, unstored, entries, isFirst, shown⟩ := earlier
    refine ⟨⟨isOpen, orderly⟩, isOpen, unstored,
      ((scope.map Event.declared ++ .opened :: rest).length, symbol) :: entries, ?_,
      fun name => ?_⟩
    · show (scopes (scope.map .declared ++ .opened :: rest)).modifyHead _ = _
      rw [isFirst]
      rfl
    · rw [Scope.find?_cons, latest?_cons, shown name]
      split <;> rfl

theorem ofScopes_has (scopes : List Scope) :
    Table.HasHistory ⟨scopes⟩ (ofScopes scopes) ∧
      ∀ place, (ofScopes scopes).storage? place = none := by
  induction scopes with
  | nil => exact ⟨⟨trivial, .nil⟩, fun _ => rfl⟩
  | cons scope outer earlier =>
    obtain ⟨has, outerUnstored⟩ := earlier
    obtain ⟨orderly, _, unstored, entries, isFirst, shown⟩ :=
      ofScope has.orderly outerUnstored scope
    have same : (ofScopes (scope :: outer)).symbolOf = (ofScopes outer).symbolOf := by
      funext declaration
      rw [symbolOf_unstored outerUnstored]
      exact symbolOf_unstored unstored declaration
    refine ⟨⟨orderly, ?_⟩, unstored⟩
    change (ofScopes (scope :: outer)).scopes = entries :: (ofScopes outer).scopes at isFirst
    rw [isFirst]
    refine .cons (fun name => ?_) ?_
    · rw [shown name]
      exact congrArg (Option.map · _) (funext fun declaration =>
        (symbolOf_unstored unstored declaration).symm)
    · unfold Shows
      rw [same]
      exact has.shows

end History

/-! ### What an operation adds -/

namespace History

variable {history later : History} {name : Bytes} {place : Nat} {symbol : Symbol}
  {slots : Bytes → Ty → Slot} {operation : Operation}

/-- A symbol was declared at a place of a history. -/
def DeclaredAt (history : History) (place : Nat) (symbol : Symbol) : Prop :=
  ∃ earlier : History, .declared symbol :: earlier <:+ history ∧ earlier.length = place

theorem DeclaredAt.mono (declared : history.DeclaredAt place symbol) (more : history <:+ later) :
    later.DeclaredAt place symbol := by
  obtain ⟨earlier, isEnd, length⟩ := declared
  exact ⟨earlier, isEnd.trans more, length⟩

theorem DeclaredAt.unique {other : Symbol} (declared : history.DeclaredAt place symbol)
    (declaredToo : history.DeclaredAt place other) : symbol = other := by
  obtain ⟨earlier, isEnd, length⟩ := declared
  obtain ⟨earlierToo, isEndToo, lengthToo⟩ := declaredToo
  have same : (.declared symbol :: earlier : History).length =
      (.declared other :: earlierToo : History).length := by
    rw [List.length_cons, List.length_cons, length, lengthToo]
  have equal := (List.suffix_of_suffix_length_le isEnd isEndToo same.le).eq_of_length same
  cases equal
  rfl

theorem declaredAt_of_meaning? {closed : Nat}
    (meant : history.meaning? name closed = some (place, symbol)) :
    history.DeclaredAt place symbol := by
  induction history generalizing closed with
  | nil => cases meant
  | cons event rest earlier =>
    have behind : rest <:+ event :: rest := List.suffix_cons ..
    cases event with
    | opened | closed | stored => exact (earlier meant).mono behind
    | declared other =>
      cases closed with
      | zero =>
        rw [meaning?] at meant
        split at meant
        · cases meant
          exact ⟨rest, List.suffix_refl _, rfl⟩
        · exact (earlier meant).mono behind
      | succ closed => exact (earlier meant).mono behind

/-- What an operation may add to a history. Only storage that is forced goes to a declaration which
has storage already. -/
inductive Noted (history : History) : Operation → History → Prop
  | nothing (operation : Operation) (stays : operation ≠ .enter) : Noted history operation history
  | opened : Noted history .enter (.opened :: history)
  | closed : Noted history .exit (.closed :: history)
  | declared {operation : Operation} (symbol : Symbol) (stays : operation ≠ .exit) :
      Noted history operation (.declared symbol :: history)
  | stored {operation : Operation} {place : Nat} {symbol : Symbol} (slot : Slot) (forced : Bool)
      (stays : operation ≠ .exit) (there : history.DeclaredAt place symbol)
      (needs : forced = false → (history.symbolOf (place, symbol)).slot = none) :
      Noted history operation (.stored place slot forced :: history)

theorem noted_note (slots : Bytes → Ty → Slot) (history : History) (operation : Operation) :
    history.Noted operation (operation.note slots history) := by
  have declares (symbol : Symbol) (opens : operation ≠ .enter) (closes : operation ≠ .exit) :
      history.Noted operation (history.declare symbol) := by
    unfold History.declare
    split
    · exact .nothing _ opens
    · exact .declared symbol closes
  have reserves (wanted : Bytes) (opens : operation ≠ .enter) (closes : operation ≠ .exit) :
      history.Noted operation (history.reserve slots wanted) := by
    unfold History.reserve
    split
    · exact .nothing _ opens
    · rename_i place symbol meant
      split
      · exact .nothing _ opens
      · rename_i needs
        refine .stored _ _ closes (declaredAt_of_meaning? meant) fun _ => ?_
        exact Option.not_isSome_iff_eq_none.mp fun isStored => needs (.inr isStored)
  cases operation with
  | enter => exact .opened
  | exit =>
    rw [Operation.note]
    split
    · exact .nothing _ Operation.noConfusion
    · exact .closed
  | declareScalar name kind => exact declares _ Operation.noConfusion Operation.noConfusion
  | declareArray name kind first last =>
    rw [Operation.note]
    split
    · exact .nothing _ Operation.noConfusion
    · exact declares _ Operation.noConfusion Operation.noConfusion
  | declareRoutine name params result =>
    exact declares _ Operation.noConfusion Operation.noConfusion
  | allocate name => exact reserves name Operation.noConfusion Operation.noConfusion
  | lookup name index => exact reserves name Operation.noConfusion Operation.noConfusion
  | bind name slot =>
    rw [Operation.note, History.bind]
    split
    · exact .nothing _ Operation.noConfusion
    · rename_i meant
      exact .stored _ _ Operation.noConfusion (declaredAt_of_meaning? meant) Bool.noConfusion

/-- An operation does not unmake history. -/
theorem Noted.suffix (noted : history.Noted operation later) : history <:+ later := by
  cases noted with
  | nothing => exact List.suffix_refl _
  | opened | closed | declared | stored => exact List.suffix_cons ..

/-- An operation that neither opens nor closes a scope cannot be seen from outside of the scope. -/
theorem Noted.outside (noted : history.Noted operation later) (opens : operation ≠ .enter)
    (closes : operation ≠ .exit) :
    later.depth = history.depth ∧
      ∀ closed, later.meaning? name (closed + 1) = history.meaning? name (closed + 1) := by
  cases noted with
  | opened => exact (opens rfl).elim
  | closed => exact (closes rfl).elim
  | nothing | declared | stored => exact ⟨rfl, fun _ => rfl⟩

/-- A declaration that has storage keeps it, unless it is bound to other storage. -/
theorem Noted.symbolOf (noted : history.Noted operation later)
    (declared : history.DeclaredAt place symbol)
    (isStored : (history.symbolOf (place, symbol)).slot.isSome = true)
    (unbound : ∀ slot, .stored place slot true ∉ later) :
    later.symbolOf (place, symbol) = history.symbolOf (place, symbol) := by
  cases noted with
  | nothing | opened | closed | declared => rfl
  | @stored _ other owner slot forced _ there needs =>
    rw [symbolOf_stored]
    refine if_neg fun same => ?_
    obtain rfl : other = place := same
    obtain rfl := there.unique declared
    cases forced with
    | true => exact unbound slot (List.mem_cons_self ..)
    | false =>
      rw [needs rfl] at isStored
      cases isStored

/-- The symbols of a declaration differ in their storage only. -/
theorem symbolOf_eq (history later : History) (declaration : Nat × Symbol) :
    later.symbolOf declaration =
      { history.symbolOf declaration with slot := (later.symbolOf declaration).slot } := by
  unfold symbolOf
  cases later.storage? declaration.1 <;> cases history.storage? declaration.1 <;> rfl

end History

namespace Operation

variable {reserve : Reserve} {workspace : Workspace} {history : History} {name : Bytes}
  {operations : List Operation}

theorem suffix_chronicle (operations : List Operation) (workspace : Workspace)
    (history : History) : history <:+ chronicle reserve operations workspace history := by
  induction operations generalizing workspace history with
  | nil => exact List.suffix_refl _
  | cons operation operations rest =>
    exact (History.noted_note _ history operation).suffix.trans (rest _ _)

/-- Storage stays along all operations that do not bind its declaration. -/
theorem symbolOf_chronicle {place : Nat} {symbol : Symbol}
    (declared : history.DeclaredAt place symbol)
    (isStored : (history.symbolOf (place, symbol)).slot.isSome = true)
    (unbound : ∀ slot, .stored place slot true ∉ chronicle reserve operations workspace history) :
    (chronicle reserve operations workspace history).symbolOf (place, symbol) =
      history.symbolOf (place, symbol) := by
  induction operations generalizing workspace history with
  | nil => rfl
  | cons operation operations rest =>
    have noted := History.noted_note
      (fun name type => (reserve name type workspace.builder).1) history operation
    have same := noted.symbolOf declared isStored fun slot member =>
      unbound slot ((suffix_chronicle operations _ _).subset member)
    refine (rest (declared.mono noted.suffix) ?_ unbound).trans same
    rw [same]
    exact isStored

theorem chronicle_append (first second : List Operation) (workspace : Workspace)
    (history : History) :
    chronicle reserve (first ++ second) workspace history =
      chronicle reserve second (run reserve first workspace)
        (chronicle reserve first workspace history) := by
  induction first generalizing workspace history with
  | nil => rfl
  | cons operation first rest => exact rest _ _

/-! ### Scopes that are opened and closed -/

/-- Operations that close the scopes which they open, and no other ones. -/
inductive Balanced : List Operation → Prop
  | nil : Balanced []
  | cons {operation : Operation} {rest : List Operation} (opens : operation ≠ .enter)
      (closes : operation ≠ .exit) (balanced : Balanced rest) : Balanced (operation :: rest)
  | nested {inner rest : List Operation} (first : Balanced inner) (second : Balanced rest) :
      Balanced (.enter :: (inner ++ .exit :: rest))

/-- The history of a scope that is opened and closed again. -/
theorem chronicle_nested {inner : List Operation}
    (depth : (chronicle reserve inner (Operation.enter.after reserve workspace)
      (.opened :: history)).depth = history.depth + 1) (rest : List Operation) :
    chronicle reserve (.enter :: (inner ++ .exit :: rest)) workspace history =
      chronicle reserve rest (Operation.exit.after reserve
        (run reserve inner (Operation.enter.after reserve workspace)))
        (.closed :: chronicle reserve inner (Operation.enter.after reserve workspace)
          (.opened :: history)) := by
  rw [chronicle, chronicle_append, chronicle, note, note, if_neg (by omega)]

/-- Balanced operations in an open scope cannot be seen from outside of it. -/
theorem Balanced.outside (balanced : Balanced operations) (isOpen : 0 < history.depth) :
    (chronicle reserve operations workspace history).depth = history.depth ∧
      ∀ closed, (chronicle reserve operations workspace history).meaning? name (closed + 1) =
        history.meaning? name (closed + 1) := by
  induction balanced generalizing workspace history with
  | nil => exact ⟨rfl, fun _ => rfl⟩
  | @cons operation rest opens closes _ later =>
    obtain ⟨depth, meaning⟩ := @History.Noted.outside _ _ name _ (History.noted_note
      (fun name type => (reserve name type workspace.builder).1) history operation) opens closes
    obtain ⟨laterDepth, laterMeaning⟩ := @later (operation.after reserve workspace) _
      (depth ▸ isOpen)
    exact ⟨laterDepth.trans depth, fun closed => (laterMeaning closed).trans (meaning closed)⟩
  | @nested inner rest _ _ early late =>
    obtain ⟨depth, meaning⟩ := @early (Operation.enter.after reserve workspace)
      (.opened :: history) (Nat.succ_pos _)
    have closedDepth : History.depth (.closed :: chronicle reserve inner
        (Operation.enter.after reserve workspace) (.opened :: history)) = history.depth := by
      rw [History.depth, depth]
      rfl
    rw [chronicle_nested depth]
    obtain ⟨laterDepth, laterMeaning⟩ := @late (Operation.exit.after reserve
      (run reserve inner (Operation.enter.after reserve workspace))) _ (closedDepth ▸ isOpen)
    exact ⟨laterDepth.trans closedDepth, fun closed =>
      (laterMeaning closed).trans (meaning (closed + 1))⟩

/-- A whole scope, opened and closed again, leaves the meaning of every name. -/
theorem Balanced.meaning? {inner : List Operation} (balanced : Balanced inner) :
    (chronicle reserve (.enter :: (inner ++ [.exit])) workspace history).meaning? name 0 =
      history.meaning? name 0 := by
  obtain ⟨depth, meaning⟩ := @outside reserve (Operation.enter.after reserve workspace)
    (.opened :: history) name _ balanced (Nat.succ_pos _)
  rw [chronicle_nested depth]
  exact meaning 0

/-- One of the operations binds what a name means at the start to other storage. -/
def Rebinds (reserve : Reserve) (operations : List Operation) (workspace : Workspace)
    (name : Bytes) : Prop :=
  ∃ place symbol slot,
    (History.ofScopes workspace.table.scopes).meaning? name 0 = some (place, symbol) ∧
      .stored place slot true ∈
        chronicle reserve operations workspace (.ofScopes workspace.table.scopes)

/-- Behind a whole scope, a name means what it meant before, and storage is new only if there was
none or the symbol has been bound to it. -/
theorem Balanced.find? {inner : List Operation} (balanced : Balanced inner) (workspace : Workspace)
    (name : Bytes) :
    (workspace.table.find? name = none →
      (run reserve (.enter :: (inner ++ [.exit])) workspace).table.find? name = none) ∧
    ∀ symbol, workspace.table.find? name = some symbol → ∃ slot,
      (run reserve (.enter :: (inner ++ [.exit])) workspace).table.find? name =
          some { symbol with slot } ∧
        (symbol.slot.isSome = true →
          ¬Rebinds reserve (.enter :: (inner ++ [.exit])) workspace name → slot = symbol.slot) := by
  have has := (History.ofScopes_has workspace.table.scopes).1
  have noted := @run_noted reserve workspace _ has (.enter :: (inner ++ [.exit]))
  have before : workspace.table.find? name =
    (History.ofScopes workspace.table.scopes).find? name := has.find?_eq name
  rw [noted.find?_eq, before, History.find?, History.find?, balanced.meaning?]
  cases meant : (History.ofScopes workspace.table.scopes).meaning? name 0 with
  | none => exact ⟨fun _ => rfl, fun symbol found => by cases found⟩
  | some declaration =>
    obtain ⟨place, declared⟩ := declaration
    refine ⟨fun unknown => (by cases unknown), fun symbol found => ?_⟩
    cases found
    refine ⟨_, congrArg some (History.symbolOf_eq _ _ _), fun isStored unbound => ?_⟩
    rw [symbolOf_chronicle (History.declaredAt_of_meaning? meant) isStored]
    exact fun slot member => unbound ⟨place, declared, slot, meant, member⟩

/-! ### Declarations that are refused -/

theorem declare_refused_iff (table : Table) (symbol : Symbol) :
    (∃ fault, table.declare symbol = .error fault) ↔
      table.scopes = [] ∨ table.declaredHere symbol.name = true := by
  obtain ⟨scopes⟩ := table
  cases scopes with
  | nil => exact ⟨fun _ => .inl rfl, fun _ => ⟨_, rfl⟩⟩
  | cons scope outer =>
    by_cases here : (scope.find? symbol.name).isSome = true
    · exact ⟨fun _ => .inr here, fun _ => ⟨_, if_pos here⟩⟩
    · have declared : Table.declare ⟨scope :: outer⟩ symbol = .ok ⟨(symbol :: scope) :: outer⟩ :=
        if_neg here
      refine ⟨fun refused => ?_, fun wrong => ?_⟩
      · obtain ⟨_, refused⟩ := refused
        rw [declared] at refused
        cases refused
      · rcases wrong with isEmpty | isHere
        · cases isEmpty
        · exact (here isHere).elim

/-- A step that declares fails just if the declaration is refused, and then changes nothing. -/
theorem declare_fails_iff (declaration : Table → Except Fault Table) (workspace : Workspace) :
    ((∃ failure later, Lowering.declare declaration workspace = .error failure later) ↔
      ∃ fault, declaration workspace.table = .error fault) ∧
    ∀ failure later, Lowering.declare declaration workspace = .error failure later →
      later = workspace := by
  cases declared : declaration workspace.table with
  | ok later =>
    rw [(Lowering.declare_eq_ok _ _ () _).mpr ⟨later, declared, rfl⟩]
    simp
  | error fault =>
    rw [Lowering.declare_of_error declared]
    simp [eq_comm]

/-- A declaration is refused if there is no scope, if the scope has the name already, or if the ends
of an array are in the wrong order; and then nothing changes. -/
theorem declaration_refused {operation : Operation} {symbol : Symbol}
    (isDeclaration : operation.declaration? = some symbol) (workspace : Workspace) :
    ((∃ failure later, operation.perform reserve workspace = .error failure later) ↔
      workspace.table.scopes = [] ∨ workspace.table.declaredHere symbol.name = true ∨
        symbol.last < symbol.first) ∧
    ∀ failure later, operation.perform reserve workspace = .error failure later →
      later = workspace := by
  have plain (ordered : ¬symbol.last < symbol.first) :
      (∃ fault, workspace.table.declare symbol = .error fault) ↔
        workspace.table.scopes = [] ∨ workspace.table.declaredHere symbol.name = true ∨
          symbol.last < symbol.first := by
    rw [declare_refused_iff, ← or_assoc]
    exact (or_iff_left ordered).symm
  cases operation with
  | declareScalar name kind =>
    cases isDeclaration
    obtain ⟨fails, same⟩ := declare_fails_iff (fun table => table.declareScalar name kind) workspace
    exact ⟨fails.trans (plain Int64.lt_irrefl), same⟩
  | declareArray name kind first last =>
    cases isDeclaration
    obtain ⟨fails, same⟩ :=
      declare_fails_iff (fun table => table.declareArray name kind first last) workspace
    refine ⟨fails.trans ?_, same⟩
    by_cases inverted : last < first
    · exact ⟨fun _ => .inr (.inr inverted), fun _ => ⟨_, if_pos inverted⟩⟩
    · refine .trans ?_ (plain inverted)
      rw [Table.declareArray, if_neg inverted]
  | declareRoutine name params result =>
    cases isDeclaration
    obtain ⟨fails, same⟩ :=
      declare_fails_iff (fun table => table.declareRoutine name params result) workspace
    exact ⟨fails.trans (plain Int64.lt_irrefl), same⟩
  | _ => cases isDeclaration

/-! ### Lexical scoping -/

/-- Scoping is lexical. Whatever operations are done on a table, and whether they succeed or fail, a
name means its latest declaration in the innermost open scope that has one, as the history tells. A
declaration that is refused changes nothing. A scope that is opened and closed again, with others
inside of it, leaves what every name means; only a symbol that had no storage may have got some, and
one that the operations bind to other storage has that. -/
theorem scoping_lexical (reserve : Reserve) :
    (∀ (operations : List Operation) (workspace : Workspace) (name : Bytes),
      (run reserve operations workspace).table.find? name =
        (chronicle reserve operations workspace
          (.ofScopes workspace.table.scopes)).find? name) ∧
    (∀ (operation : Operation) (symbol : Symbol), operation.declaration? = some symbol →
      ∀ workspace,
        ((∃ failure later, operation.perform reserve workspace = .error failure later) ↔
          workspace.table.scopes = [] ∨ workspace.table.declaredHere symbol.name = true ∨
            symbol.last < symbol.first) ∧
        ∀ failure later, operation.perform reserve workspace = .error failure later →
          later = workspace) ∧
    ∀ (inner : List Operation), Balanced inner → ∀ (workspace : Workspace) (name : Bytes),
      (workspace.table.find? name = none →
        (run reserve (.enter :: (inner ++ [.exit])) workspace).table.find? name = none) ∧
      ∀ symbol, workspace.table.find? name = some symbol → ∃ slot,
        (run reserve (.enter :: (inner ++ [.exit])) workspace).table.find? name =
            some { symbol with slot } ∧
          (symbol.slot.isSome = true →
            ¬Rebinds reserve (.enter :: (inner ++ [.exit])) workspace name →
              slot = symbol.slot) := by
  refine ⟨fun operations workspace name => ?_, fun _ _ => declaration_refused,
    fun _ => Balanced.find?⟩
  have has := (History.ofScopes_has workspace.table.scopes).1
  exact (@run_noted reserve workspace _ has operations).find?_eq name

/-- A variable with storage, in the outermost scope. -/
def storedOutside : Workspace :=
  run Build.alloca [.enter, .declareScalar "x" .integer, .allocate "x"]
    { table := .empty, builder := .new "t" }

/-- Operations with an array that hides the variable and is bound to other storage. -/
def shadowing : List Operation :=
  [.declareArray "x" .real 1 4, .lookup "x" none, .enter, .bind "x" ⟨7, .global, .i32⟩, .exit,
    .declareScalar "x" .char]

/-- The variable that was hidden is there again, with its storage. -/
theorem scoping_lexical_shadowing :
    Balanced shadowing ∧
    ¬Rebinds Build.alloca (.enter :: (shadowing ++ [.exit])) storedOutside "x" ∧
    ∃ symbol, storedOutside.table.find? "x" = some symbol ∧ symbol.slot.isSome = true ∧
      (run Build.alloca (.enter :: (shadowing ++ [.exit])) storedOutside).table.find? "x" =
        some symbol := by
  have balanced : Balanced shadowing :=
    .cons Operation.noConfusion Operation.noConfusion
      (.cons Operation.noConfusion Operation.noConfusion
        (.nested (.cons Operation.noConfusion Operation.noConfusion .nil)
          (.cons Operation.noConfusion Operation.noConfusion .nil)))
  have unbound : ¬Rebinds Build.alloca (.enter :: (shadowing ++ [.exit])) storedOutside "x" := by
    have told : ∃ first second array outside, chronicle Build.alloca
        (.enter :: (shadowing ++ [.exit])) storedOutside (.ofScopes storedOutside.table.scopes) =
          [.closed, .closed, .stored 3 first true, .opened, .stored 3 second false,
            .declared array, .opened, .declared outside, .opened] := ⟨_, _, _, _, rfl⟩
    rintro ⟨place, symbol, slot, meant, member⟩
    obtain ⟨first, second, array, outside, isTold⟩ := told
    cases meant
    rw [isTold] at member
    simp [Table.empty, History.ofScopes] at member
  refine ⟨balanced, unbound, _, rfl, rfl, ?_⟩
  obtain ⟨slot, found, same⟩ :=
    ((scoping_lexical Build.alloca).2.2 shadowing balanced storedOutside "x").2 _ rfl
  rw [found, same rfl unbound]

/-- A variable outside of a scope gets other storage if it is bound to it inside. -/
theorem bind_reaches_outside :
    Balanced [.bind "x" ⟨7, .global, .i32⟩] ∧
    ∃ symbol slot, storedOutside.table.find? "x" = some symbol ∧ symbol.slot = some slot ∧
      slot ≠ ⟨7, .global, .i32⟩ ∧
      (run Build.alloca [.enter, .bind "x" ⟨7, .global, .i32⟩, .exit]
        storedOutside).table.find? "x" = some { symbol with slot := some ⟨7, .global, .i32⟩ } := by
  refine ⟨.cons Operation.noConfusion Operation.noConfusion .nil, _, _, rfl, rfl, by decide, rfl⟩

end Operation

end Pascaline
