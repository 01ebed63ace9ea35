/-
Control flow of a function: which blocks can be reached from its entry, and which of these lack
a terminator.
-/

import Pascaline.IR.Basic
import Pascaline.IR.BlockSet

namespace Pascaline.IR.Function

/-- The blocks that control may go to from a block. -/
def successors (function : Function) (id : Nat) : List Nat :=
  match function.blocks[id]? with
  | some block => block.successors
  | none => []

/-- Follows the edges from the pending blocks through the blocks not seen so far, and adds what
it reaches. -/
def explore (function : Function) (pending unseen : List Nat) (reached : BlockSet) : BlockSet :=
  match pending with
  | [] => reached
  | id :: pending =>
    if id ∈ unseen then
      explore function (function.successors id ++ pending) (unseen.erase id) (reached.insert id)
    else explore function pending unseen reached
termination_by (unseen.length, pending.length)
decreasing_by
  · apply Prod.Lex.left
    rw [List.length_erase_of_mem (by assumption)]
    exact Nat.sub_lt (List.length_pos_of_mem (by assumption)) Nat.one_pos
  · exact Prod.Lex.right _ (Nat.lt_succ_self _)

/-- The blocks that can be reached from the entry, which is the first block. -/
def reachable (function : Function) : BlockSet :=
  function.explore [0] (List.range function.blocks.size) .empty

/-- The indices of the reachable blocks without a terminator, in ascending order. -/
def openBlocks (function : Function) : List Nat :=
  function.reachable.toList.filter fun id =>
    (function.blocks[id]?).any fun block => !block.terminated

end Pascaline.IR.Function
