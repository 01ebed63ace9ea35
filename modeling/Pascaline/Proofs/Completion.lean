/-
When a body can complete. Whether control can come to the end of a list of nodes is read off the
tree; lowering agrees with it, so that a function lacks a return exactly if its body can complete.

What is left of a function without that fault is complete: every block has its terminator, all
branches stay inside, and no path leads from the entry to a block that ends as unreachable.
-/

import Pascaline.Proofs.Confinement

namespace Pascaline

open IR (Build Operand Slot Site)

/-- A function in which control stays where it is meant to be. -/
structure IR.Function.Complete (function : IR.Function) : Prop where
  entry : 0 < function.blocks.size
  ended : ∀ (place : Nat) (block : IR.Block), function.blocks[place]? = some block →
    block.terminated = true
  closed : function.Closed
  avoids : ∀ (place : Nat) (block : IR.Block), function.Reaches 0 place →
    function.blocks[place]? = some block → block.terminator ≠ some .unreachable

/-! ### Functions from their start -/

namespace IR.Site

variable {name : Bytes} {signature : Signature} {params : List Bytes} {later : Site}
  {through : Bool} {unit? : Option Module} {slots : Set Nat} {chart : Nat → Fact → Prop}

theorem entry_found {place : Nat} {block : Block}
    (found : (entry name signature params).function.blocks[place]? = some block) :
    place = 0 ∧ block.code = #[] ∧ block.terminator = none := by
  have found : (Function.addBlock { name, signature, params } "entry").blocks[place]? =
      some block := found
  rw [addBlock_found] at found
  split at found
  · rename_i first
    cases found
    exact ⟨first, rfl, rfl⟩
  · simp at found

theorem entry_open : (entry name signature params).terminated = false := by
  rw [terminated, Block.terminated, (entry_found (current_found _)).2.2]
  rfl

theorem entry_not_waiting (place : Nat) : ¬ (entry name signature params).Waiting place := by
  rintro ⟨other, block, found, _⟩
  exact other (entry_found found).1

/-- Nothing is known at the start of a function, except that control comes there. -/
theorem entry_charted : (entry name signature params).function.Charted unit? fun _ _ => False := by
  refine ⟨fun unit member place index block instr found there => ?_,
    fun place block terminator found ended => ?_⟩
  · rw [(entry_found found).2.1] at there
    cases there
  · rw [(entry_found found).2.2] at ended
    cases ended

namespace Writes

/-- The chart of a function that has been written from its start. -/
theorem charted_entry (writes : Writes unit? (entry name signature params) ∅ later slots through) :
    ∃ chart, later.function.Charted unit? chart ∧ (∀ fact, ¬ chart 0 fact) ∧
      ∀ fact, fact.In slots (through = false) → later.Knows chart fact := by
  obtain ⟨chart, agree, charted, knows⟩ := writes.charted False entry_charted
    fun fact isIn => by cases fact <;> cases isIn
  refine ⟨chart, charted, fun fact isKnown => ?_, fun fact isIn => knows fact (isIn.mono
    (fun _ => id) .inr)⟩
  rw [agree 0 (entry name signature params).inside] at isKnown
  exact isKnown

theorem entry_inside (writes : Writes unit? (entry name signature params) ∅ later slots through) :
    0 < later.function.blocks.size :=
  Nat.lt_of_lt_of_le (entry name signature params).inside writes.confined.grows.size_le

/-- If the last block is open, it is listed as open exactly if control comes through. -/
theorem openBlocks_eq_nil
    (writes : Writes unit? (entry name signature params) ∅ later slots through)
    (going : later.terminated = false) : later.function.openBlocks = [] ↔ through = false := by
  obtain ⟨chart, charted, alive, knows⟩ := writes.charted_entry
  rw [Function.openBlocks_eq_nil charted.closed writes.entry_inside]
  constructor
  · intro ended
    by_contra notFalse
    obtain ⟨_, path⟩ := writes.reaches (Bool.not_eq_false through ▸ notFalse) entry_open
    have closed := ended later.block later.current path later.current_found
    rw [terminated, closed] at going
    cases going
  · intro noThrough place block reached found
    by_cases same : place = later.block
    · rw [same] at reached
      exact (charted.not_dead (alive .dead) reached ((knows .dead noThrough).behind going)).elim
    · cases ended : block.terminated with
      | true => rfl
      | false =>
        exact (entry_not_waiting place (writes.waiting ⟨same, block, found, ended⟩)).elim

/-- A function that has been written to its end has a chart. -/
theorem charted_end (writes : Writes unit? (entry name signature params) ∅ later slots through)
    {terminator : Terminator} (leaves : terminator.targets = [])
    (closes : ∀ unit ∈ unit?, later.Closes unit terminator)
    (unreachable : terminator = .unreachable → through = false) :
    ∃ chart, (later.endWith terminator).function.Charted unit? chart ∧ ∀ fact, ¬ chart 0 fact := by
  obtain ⟨chart, charted, alive, knows⟩ := writes.charted_entry
  refine ⟨chart, Ends.endWith ⟨closes, fun target listed => ?_, fun isUnreachable =>
    knows .dead (unreachable isUnreachable)⟩ charted, alive⟩
  rw [leaves] at listed
  cases listed

/-- A function is complete once its last block has ended. -/
theorem complete (writes : Writes unit? (entry name signature params) ∅ later slots through)
    {terminator : Terminator} (charted : (later.endWith terminator).function.Charted unit? chart)
    (alive : ∀ fact, ¬ chart 0 fact) : (later.endWith terminator).function.Complete := by
  have size := (Confined.endWith later terminator).grows.size_le
  refine ⟨Nat.lt_of_lt_of_le writes.entry_inside size, fun place block found => ?_, charted.closed,
    fun place block reached found ended => ?_⟩
  · cases ended : block.terminated with
    | true => rfl
    | false =>
      exact (entry_not_waiting place (writes.waiting (waiting_endWith found ended))).elim
  · exact charted.not_dead (alive .dead) reached
      ((charted.ending place block _ found ended).dead rfl)

end Writes

end IR.Site

namespace Lowering

variable {routine : Routine} {name : Bytes} {params : List Param} {kinds : List Kind} {kind : Kind}
  {builder : IR.Builder} {through : Bool} {start declared bodied finished : Workspace}
  {atParams atBody : Site}

/-! ### Routines -/

theorem Routine.ending_targets (routine : Routine) : routine.ending.targets = [] := by
  unfold Routine.ending
  split <;> rfl

/-- The end of a function comes without a fault exactly if control does not come there. -/
theorem finishRoutine_not_completes {made : Unit}
    (written : BodyWritten routine start (routineEntry name params kinds kind builder) declared
      atParams through bodied atBody) (hasResult : routine.result ≠ .none)
    (finish : finishRoutine routine name bodied = .ok made finished) : through = false := by
  have writes := written.whole.writes
  have holds := written.body.holds
  rcases finishRoutine_cases finish with ⟨ended, _⟩ | ⟨_, procedure, _⟩ | ⟨going, _, noOpen, _⟩
  · rw [holds.terminated] at ended
    by_contra notFalse
    obtain ⟨going, _⟩ := writes.reaches (Bool.not_eq_false through ▸ notFalse) Site.entry_open
    rw [ended] at going
    cases going
  · exact (hasResult procedure).elim
  · rw [holds.terminated] at going
    rw [IR.Builder.function?, holds.function] at noOpen
    exact (writes.openBlocks_eq_nil going).mp noOpen

theorem ending_unreachable {made : Unit}
    (written : BodyWritten routine start (routineEntry name params kinds kind builder) declared
      atParams through bodied atBody)
    (finish : finishRoutine routine name bodied = .ok made finished)
    (isUnreachable : routine.ending = .unreachable) : through = false := by
  refine finishRoutine_not_completes written (fun procedure => ?_) finish
  rw [Routine.ending, if_pos procedure] at isUnreachable
  cases isUnreachable

/-- A routine that has been lowered has a complete function. -/
theorem BodyWritten.complete {made : Unit}
    (written : BodyWritten routine start (routineEntry name params kinds kind builder) declared
      atParams through bodied atBody)
    (finish : finishRoutine routine name bodied = .ok made finished) :
    (atBody.endWith routine.ending).function.Complete := by
  obtain ⟨chart, charted, alive⟩ := written.whole.writes.charted_end routine.ending_targets nofun
    (ending_unreachable written finish)
  exact written.whole.writes.complete charted alive

end Lowering

end Pascaline
