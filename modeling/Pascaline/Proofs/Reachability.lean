/-
Reachable blocks. Following edges from the entry finds exactly the blocks to which a path of
branches leads, so a function has an open block in its list if and only if control can come to a
block without a terminator.
-/

import Mathlib
import Pascaline.IR.Flow

namespace Pascaline.IR

namespace BlockSet

@[simp]
theorem contains_empty (id : Nat) : empty.contains id = false := by
  simp [empty, contains]

@[simp]
theorem contains_insert (set : BlockSet) (id other : Nat) :
    (set.insert id).contains other = true ↔ other = id ∨ set.contains other = true := by
  simp only [insert, contains, Nat.testBit_or, Nat.testBit_shiftLeft,
    Nat.testBit_one_eq_true_iff_self_eq_zero, Bool.or_eq_true, Bool.and_eq_true, decide_eq_true_eq]
  constructor
  · rintro (old | ⟨above, zero⟩)
    · exact .inr old
    · exact .inl (by omega)
  · rintro (rfl | old)
    · exact .inr ⟨Nat.le_refl _, Nat.sub_self _⟩
    · exact .inl old

theorem mem_toList (set : BlockSet) (id : Nat) : id ∈ set.toList ↔ set.contains id = true := by
  unfold toList
  split
  · rename_i empty
    simp [contains, empty]
  · rename_i nonempty
    simp only [List.mem_filter, List.mem_range, and_iff_right_iff_imp]
    intro member
    have large := Nat.ge_two_pow_of_testBit member
    exact Nat.lt_succ_of_le ((Nat.le_log2 nonempty).mpr large)

end BlockSet

namespace Function

/-- A path of branches leads from one block to another. -/
def Reaches (function : Function) : Nat → Nat → Prop :=
  Relation.ReflTransGen fun block target => target ∈ function.successors block

/-- All branches lead to blocks that exist. -/
def Closed (function : Function) : Prop :=
  ∀ block target, target ∈ function.successors block → target < function.blocks.size

theorem mem_successors {function : Function} {place target : Nat} :
    target ∈ function.successors place ↔ ∃ block terminator,
      function.blocks[place]? = some block ∧ block.terminator = some terminator ∧
        target ∈ terminator.targets := by
  unfold successors
  cases found : function.blocks[place]? with
  | none => simp
  | some block =>
    unfold Block.successors
    cases ended : block.terminator with
    | none => simp [ended]
    | some terminator => simp [ended]

/-- What is found was there, or a path leads to it. -/
theorem explore_sound (function : Function) (pending unseen : List Nat) (reached : BlockSet)
    {id : Nat} (member : (function.explore pending unseen reached).contains id = true) :
    reached.contains id = true ∨ ∃ start ∈ pending, function.Reaches start id := by
  fun_induction explore function pending unseen reached with
  | case1 unseen reached => exact .inl member
  | case2 unseen reached block pending isUnseen step =>
    rcases step member with old | ⟨start, listed, path⟩
    · rcases (BlockSet.contains_insert _ _ _).mp old with rfl | older
      · exact .inr ⟨id, List.mem_cons_self .., .refl⟩
      · exact .inl older
    · rcases List.mem_append.mp listed with next | waiting
      · exact .inr ⟨block, List.mem_cons_self .., .head next path⟩
      · exact .inr ⟨start, List.mem_cons_of_mem _ waiting, path⟩
  | case3 unseen reached block pending isSeen step =>
    rcases step member with old | ⟨start, listed, path⟩
    · exact .inl old
    · exact .inr ⟨start, List.mem_cons_of_mem _ listed, path⟩

/-- Of the blocks that were unseen, those that are found hold all pending ones and are closed
under branches. -/
theorem explore_complete (function : Function) (pending unseen : List Nat) (reached : BlockSet)
    (distinct : unseen.Nodup) (apart : ∀ id ∈ unseen, reached.contains id = false) :
    (∀ id, reached.contains id = true →
        (function.explore pending unseen reached).contains id = true) ∧
      (∀ id ∈ pending, id ∈ unseen →
        (function.explore pending unseen reached).contains id = true) ∧
      ∀ id ∈ unseen, (function.explore pending unseen reached).contains id = true →
        ∀ target ∈ function.successors id, target ∈ unseen →
          (function.explore pending unseen reached).contains target = true := by
  fun_induction explore function pending unseen reached with
  | case1 unseen reached =>
    refine ⟨fun _ old => old, fun _ listed => (List.not_mem_nil listed).elim,
      fun id isUnseen found => ?_⟩
    rw [apart id isUnseen] at found
    cases found
  | case2 unseen reached block pending isUnseen step =>
    have apartLater : ∀ id ∈ unseen.erase block, (reached.insert block).contains id = false := by
      intro id stillUnseen
      obtain ⟨other, member⟩ := (List.Nodup.mem_erase_iff distinct).mp stillUnseen
      rw [Bool.eq_false_iff]
      intro found
      rcases (BlockSet.contains_insert _ _ _).mp found with same | old
      · exact other same
      · rw [apart id member] at old
        cases old
    obtain ⟨kept, foundPending, closed⟩ := step (distinct.erase block) apartLater
    have foundBlock := kept block ((BlockSet.contains_insert _ _ _).mpr (.inl rfl))
    refine ⟨fun id old => kept id ((BlockSet.contains_insert _ _ _).mpr (.inr old)), ?_, ?_⟩
    · intro id listed wasUnseen
      by_cases same : id = block
      · rw [same]
        exact foundBlock
      · have waiting : id ∈ pending := by
          rcases List.mem_cons.mp listed with equal | waiting
          · exact absurd equal same
          · exact waiting
        exact foundPending id (List.mem_append_right _ waiting)
          ((List.mem_erase_of_ne same).mpr wasUnseen)
    · intro id wasUnseen found target next targetUnseen
      by_cases sameTarget : target = block
      · rw [sameTarget]
        exact foundBlock
      · have stillUnseen := (List.mem_erase_of_ne sameTarget).mpr targetUnseen
        by_cases same : id = block
        · subst same
          exact foundPending target (List.mem_append_left _ next) stillUnseen
        · exact closed id ((List.mem_erase_of_ne same).mpr wasUnseen) found target next stillUnseen
  | case3 unseen reached block pending isSeen step =>
    obtain ⟨kept, foundPending, closed⟩ := step distinct apart
    refine ⟨kept, fun id listed wasUnseen => ?_, closed⟩
    rcases List.mem_cons.mp listed with same | waiting
    · rw [same] at wasUnseen
      exact absurd wasUnseen isSeen
    · exact foundPending id waiting wasUnseen

/-- The blocks found from the entry are those that a path leads to. -/
theorem reachable_contains {function : Function} (closed : function.Closed)
    (entry : 0 < function.blocks.size) (id : Nat) :
    function.reachable.contains id = true ↔ function.Reaches 0 id := by
  constructor
  · intro found
    rcases function.explore_sound _ _ _ found with old | ⟨start, listed, path⟩
    · rw [BlockSet.contains_empty] at old
      cases old
    · rw [List.mem_singleton] at listed
      rw [← listed]
      exact path
  · intro path
    obtain ⟨_, foundPending, closedUnder⟩ := function.explore_complete [0]
      (List.range function.blocks.size) .empty List.nodup_range
      fun id _ => BlockSet.contains_empty id
    suffices found : function.reachable.contains id = true ∧ id < function.blocks.size from found.1
    induction path with
    | refl => exact ⟨foundPending 0 (List.mem_cons_self ..) (List.mem_range.mpr entry), entry⟩
    | tail _ next found =>
      have inside := closed _ _ next
      exact ⟨closedUnder _ (List.mem_range.mpr found.2) found.1 _ next (List.mem_range.mpr inside),
        inside⟩

/-- No open block is listed if and only if every block that can be reached has its terminator. -/
theorem openBlocks_eq_nil {function : Function} (closed : function.Closed)
    (entry : 0 < function.blocks.size) :
    function.openBlocks = [] ↔ ∀ (id : Nat) (block : Block), function.Reaches 0 id →
      function.blocks[id]? = some block → block.terminated = true := by
  simp only [openBlocks, List.filter_eq_nil_iff, BlockSet.mem_toList,
    reachable_contains closed entry]
  constructor
  · intro none id block path found
    have ended := none id path
    rw [found] at ended
    simpa using ended
  · intro ended id path
    cases found : function.blocks[id]? with
    | none => simp
    | some block => simp [ended id block path found]

end Function

end Pascaline.IR
