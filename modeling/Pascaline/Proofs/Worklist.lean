/-
Searching with a queue. Blocks that wait for their turn stand in a queue, which may hold a block
many times and gives its blocks out in an order of its own. Whatever that order is, every turn
brings the search closer to its end, and at the end exactly those blocks have been seen to which a
path of branches leads from the entry.
-/

import Pascaline.Proofs.Reachability

namespace Pascaline.IR

namespace BlockSet

theorem ext {left right : BlockSet} (same : ∀ id, left.contains id = right.contains id) :
    left = right := by
  obtain ⟨leftBits⟩ := left
  obtain ⟨rightBits⟩ := right
  exact congrArg BlockSet.mk (Nat.eq_of_testBit_eq same)

theorem toList_ascending (set : BlockSet) : set.toList.Pairwise (· < ·) := by
  unfold toList
  split
  · exact .nil
  · exact List.pairwise_lt_range.filter _

end BlockSet

/-- How far a search has come: the blocks in the queue, and those that have been seen. -/
structure Search where
  queue : Multiset Nat
  seen : BlockSet

namespace Function

/-- The search before its first turn: the entry, if there is one, waits in the queue. -/
def searchStart (function : Function) : Search :=
  ⟨if function.blocks.size = 0 then 0 else {0}, .empty⟩

/-- A turn of a search, with any block that the queue holds. A block that has been seen is dropped.
Any other is seen now, and its successors go to the queue unless they have been seen. -/
inductive Turn (function : Function) : Search → Search → Prop
  | drop {queue : Multiset Nat} {seen : BlockSet} {id : Nat} (old : seen.contains id = true) :
      Turn function ⟨id ::ₘ queue, seen⟩ ⟨queue, seen⟩
  | visit {queue : Multiset Nat} {seen : BlockSet} {id : Nat} (new : seen.contains id = false) :
      Turn function ⟨id ::ₘ queue, seen⟩
        ⟨queue + ((function.successors id).filter fun target =>
          !(seen.insert id).contains target), seen.insert id⟩

variable {function : Function} {search later : Search}

/-! ### Every search ends -/

/-- The blocks of a function that have not been seen. -/
def unseen (function : Function) (search : Search) : Finset Nat :=
  (Finset.range function.blocks.size).filter fun id => search.seen.contains id = false

/-- What may still have to be taken from the queue: what is there, and the successors of all blocks
that have not been seen. -/
def remaining (function : Function) (search : Search) : Nat :=
  search.queue.card + ∑ id ∈ function.unseen search, (function.successors id).length

theorem successors_of_outside {id : Nat} (outside : function.blocks.size ≤ id) :
    function.successors id = [] := by
  unfold successors
  rw [Array.getElem?_eq_none outside]

theorem successors_length (function : Function) (id : Nat) :
    (function.successors id).length ≤ 2 := by
  unfold successors
  split
  · rename_i block _
    unfold Block.successors
    split
    · rename_i terminator _
      cases terminator <;> simp [Terminator.targets]
    · exact Nat.zero_le 2
  · exact Nat.zero_le 2

/-- A block that is seen now takes its successors from what remains. -/
theorem sum_insert_seen (function : Function) {seen : BlockSet} {id : Nat}
    (new : seen.contains id = false) (queue after : Multiset Nat) :
    ∑ other ∈ function.unseen ⟨after, seen.insert id⟩, (function.successors other).length +
        (function.successors id).length =
      ∑ other ∈ function.unseen ⟨queue, seen⟩, (function.successors other).length := by
  have fewer : function.unseen ⟨after, seen.insert id⟩ =
      (function.unseen ⟨queue, seen⟩).erase id := by
    ext other
    simp only [unseen, Finset.mem_filter, Finset.mem_erase, ← Bool.not_eq_true,
      BlockSet.contains_insert]
    tauto
  rw [fewer]
  by_cases inside : id < function.blocks.size
  · exact Finset.sum_erase_add _ _ (by simp [unseen, inside, new])
  · rw [Finset.erase_eq_of_notMem (by simp [unseen, inside]),
      successors_of_outside (Nat.le_of_not_lt inside)]
    rfl

/-- Every turn leaves less to be done. -/
theorem Turn.remaining_lt (turn : function.Turn search later) :
    function.remaining later < function.remaining search := by
  cases turn with
  | drop old =>
    show _ + _ < _ + _
    rw [Multiset.card_cons]
    exact Nat.add_lt_add_right (Nat.lt_succ_self _) _
  | @visit queue seen id new =>
    have taken := function.sum_insert_seen new (id ::ₘ queue)
      (queue + ((function.successors id).filter fun target => !(seen.insert id).contains target))
    have added := List.length_filter_le (fun target => !(seen.insert id).contains target)
      (function.successors id)
    simp only [remaining, Multiset.card_add, Multiset.coe_card, Multiset.card_cons]
    omega

/-- A search goes on as long as its queue is not empty. -/
theorem exists_turn (function : Function) (waiting : search.queue ≠ 0) :
    ∃ later, function.Turn search later := by
  obtain ⟨queue, seen⟩ := search
  obtain ⟨id, member⟩ := Multiset.exists_mem_of_ne_zero waiting
  obtain ⟨rest, rfl⟩ := Multiset.exists_cons_of_mem member
  cases known : seen.contains id with
  | true => exact ⟨_, .drop known⟩
  | false => exact ⟨_, .visit known⟩

theorem remaining_searchStart (function : Function) :
    function.remaining function.searchStart ≤ 2 * function.blocks.size + 1 := by
  have edges : ∑ id ∈ function.unseen function.searchStart, (function.successors id).length ≤
      function.blocks.size * 2 := by
    calc _ ≤ (function.unseen function.searchStart).card * 2 :=
          Finset.sum_le_card_nsmul _ _ _ fun id _ => function.successors_length id
      _ ≤ function.blocks.size * 2 := by
          have := Finset.card_filter_le (Finset.range function.blocks.size)
            fun id => function.searchStart.seen.contains id = false
          rw [Finset.card_range] at this
          exact Nat.mul_le_mul_right 2 this
  have first : function.searchStart.queue.card ≤ 1 := by
    unfold searchStart
    split <;> simp
  unfold remaining
  omega

/-! ### What a search sees -/

/-- What holds at every turn: all that is seen or waits can be reached, and what can be reached from
a seen block in one step is seen or waits. -/
structure Searches (function : Function) (search : Search) : Prop where
  seen : ∀ id, search.seen.contains id = true →
    id < function.blocks.size ∧ function.Reaches 0 id
  waiting : ∀ id ∈ search.queue, id < function.blocks.size ∧ function.Reaches 0 id
  entry : 0 < function.blocks.size → search.seen.contains 0 = true ∨ 0 ∈ search.queue
  closed : ∀ id target, search.seen.contains id = true → target ∈ function.successors id →
    search.seen.contains target = true ∨ target ∈ search.queue

theorem searches_searchStart (function : Function) : function.Searches function.searchStart := by
  refine ⟨fun id found => ?_, fun id member => ?_, fun inside => ?_, fun id target found => ?_⟩
  · rw [searchStart, BlockSet.contains_empty] at found
    cases found
  · unfold searchStart at member
    split at member
    · exact absurd member (Multiset.notMem_zero id)
    · rename_i inside
      rw [Multiset.mem_singleton.mp member]
      exact ⟨Nat.pos_of_ne_zero inside, .refl⟩
  · rw [searchStart, if_neg (Nat.ne_of_gt inside)]
    exact .inr (Multiset.mem_singleton_self 0)
  · rw [searchStart, BlockSet.contains_empty] at found
    cases found

theorem Searches.turn (closed : function.Closed) (searches : function.Searches search)
    (turn : function.Turn search later) : function.Searches later := by
  cases turn with
  | @drop queue seen id old =>
    -- The dropped block is among those that have been seen.
    have settled {other : Nat} (either : seen.contains other = true ∨ other ∈ id ::ₘ queue) :
        seen.contains other = true ∨ other ∈ queue := by
      rcases either with found | member
      · exact .inl found
      · rcases Multiset.mem_cons.mp member with rfl | waits
        · exact .inl old
        · exact .inr waits
    exact ⟨searches.seen,
      fun other member => searches.waiting other (Multiset.mem_cons_of_mem member),
      fun inside => settled (searches.entry inside),
      fun other target found next => settled (searches.closed other target found next)⟩
  | @visit queue seen id new =>
    have here := searches.waiting id (Multiset.mem_cons_self id queue)
    have settled {other : Nat} (either : seen.contains other = true ∨ other ∈ id ::ₘ queue)
        (added : Multiset Nat) :
        (seen.insert id).contains other = true ∨ other ∈ queue + added := by
      rw [BlockSet.contains_insert, Multiset.mem_add]
      rcases either with found | member
      · exact .inl (.inr found)
      · rcases Multiset.mem_cons.mp member with same | waits
        · exact .inl (.inl same)
        · exact .inr (.inl waits)
    refine ⟨fun other found => ?_, fun other member => ?_,
      fun inside => settled (searches.entry inside) _, fun other target found next => ?_⟩
    · rcases (BlockSet.contains_insert ..).mp found with rfl | old
      · exact here
      · exact searches.seen other old
    · rcases Multiset.mem_add.mp member with waits | added
      · exact searches.waiting other (Multiset.mem_cons_of_mem waits)
      · have next := List.mem_of_mem_filter (Multiset.mem_coe.mp added)
        exact ⟨closed id other next, here.2.tail next⟩
    · rcases (BlockSet.contains_insert ..).mp found with rfl | old
      · cases known : (seen.insert other).contains target with
        | true => exact .inl rfl
        | false =>
          refine .inr (Multiset.mem_add.mpr (.inr (Multiset.mem_coe.mpr ?_)))
          exact List.mem_filter.mpr ⟨next, by rw [known]; rfl⟩
      · exact settled (searches.closed other target old next) _

/-- When nothing waits any more, all that can be reached has been seen. -/
theorem Searches.seen_iff (searches : function.Searches search) (done : search.queue = 0)
    (id : Nat) :
    search.seen.contains id = true ↔ id < function.blocks.size ∧ function.Reaches 0 id := by
  have settled {other : Nat} (either : search.seen.contains other = true ∨ other ∈ search.queue) :
      search.seen.contains other = true :=
    either.resolve_right (by rw [done]; exact Multiset.notMem_zero other)
  refine ⟨searches.seen id, ?_⟩
  rintro ⟨inside, path⟩
  have entry := settled (searches.entry (Nat.lt_of_le_of_lt (Nat.zero_le id) inside))
  clear inside
  induction path with
  | refl => exact entry
  | tail _ next found => exact settled (searches.closed _ _ found next)

/-! ### The blocks found -/

theorem reachable_contains_iff (closed : function.Closed) (id : Nat) :
    function.reachable.contains id = true ↔ id < function.blocks.size ∧ function.Reaches 0 id := by
  by_cases empty : function.blocks.size = 0
  · have nothing : function.reachable = .empty := by
      rw [reachable, empty, List.range_zero, explore, if_neg List.not_mem_nil, explore]
    rw [nothing, BlockSet.contains_empty, empty]
    simp
  · have entry := Nat.pos_of_ne_zero empty
    rw [reachable_contains closed entry]
    refine ⟨fun path => ⟨?_, path⟩, And.right⟩
    cases path with
    | refl => exact entry
    | tail _ next => exact closed _ _ next

theorem mem_openBlocks (closed : function.Closed) (id : Nat) :
    id ∈ function.openBlocks ↔ ∃ block, function.blocks[id]? = some block ∧
      block.terminator = none ∧ function.Reaches 0 id := by
  rw [openBlocks, List.mem_filter, BlockSet.mem_toList, reachable_contains_iff closed]
  constructor
  · rintro ⟨⟨inside, path⟩, ended⟩
    rw [Array.getElem?_eq_getElem inside] at ended ⊢
    exact ⟨_, rfl, by simpa [Block.terminated] using ended, path⟩
  · rintro ⟨block, found, ended, path⟩
    refine ⟨⟨(Array.getElem?_eq_some_iff.mp found).1, path⟩, ?_⟩
    simp [found, Block.terminated, ended]

theorem turns_remaining {chain : List Search} (turns : (search :: chain).IsChain function.Turn) :
    chain.length ≤ function.remaining search := by
  induction chain generalizing search with
  | nil => exact Nat.zero_le _
  | cons next chain rest =>
    obtain ⟨turn, turns⟩ := List.isChain_cons_cons.mp turns
    have fewer := turn.remaining_lt
    have := rest turns
    rw [List.length_cons]
    omega

theorem turns_searches (closed : function.Closed) {chain : List Search}
    (searches : function.Searches search) (turns : (search :: chain).IsChain function.Turn) :
    function.Searches (chain.getLastD search) := by
  induction chain generalizing search with
  | nil => exact searches
  | cons next chain rest =>
    obtain ⟨turn, turns⟩ := List.isChain_cons_cons.mp turns
    rw [List.getLastD_cons]
    exact rest (searches.turn closed turn) turns

/-- Reachability is exact. The blocks found are those to which a path leads from the entry; a search
with a queue of any order takes at most two turns for each block and one for the entry, goes on as
long as something waits, and then has found the same. The open blocks are those of them without a
terminator, in ascending order and each of them once. -/
theorem reachable_exact (closed : function.Closed) :
    (∀ id, function.reachable.contains id = true ↔
      id < function.blocks.size ∧ function.Reaches 0 id) ∧
    (∀ chain, (function.searchStart :: chain).IsChain function.Turn →
      chain.length ≤ 2 * function.blocks.size + 1 ∧
      ((∃ next, function.Turn (chain.getLastD function.searchStart) next) ∨
        (chain.getLastD function.searchStart).queue = 0 ∧
        (chain.getLastD function.searchStart).seen = function.reachable)) ∧
    function.openBlocks.Pairwise (· < ·) ∧
    ∀ id, id ∈ function.openBlocks ↔ ∃ block, function.blocks[id]? = some block ∧
      block.terminator = none ∧ function.Reaches 0 id := by
  refine ⟨reachable_contains_iff closed, fun chain turns => ⟨?_, ?_⟩,
    function.reachable.toList_ascending.filter _, mem_openBlocks closed⟩
  · exact (turns_remaining turns).trans function.remaining_searchStart
  · by_cases done : (chain.getLastD function.searchStart).queue = 0
    · have searches := turns_searches closed function.searches_searchStart turns
      refine .inr ⟨done, BlockSet.ext fun id => ?_⟩
      rw [Bool.eq_iff_iff, searches.seen_iff done, reachable_contains_iff closed]
    · exact .inl (function.exists_turn done)

/-- A block that goes on to another one whatever its condition says, which goes back or to itself,
and two open blocks to which nothing branches. -/
def backAndForth : Function where
  name := "turns"
  signature := { params := [], result := .void }
  blocks := #[{ stem := "entry", terminator := some (.branchIf (.ofBool true) 1 1) },
    { stem := "loop", terminator := some (.branchIf (.ofBool false) 0 1) },
    { stem := "dead" }, { stem := "end" }]

theorem reachable_exact_backAndForth : backAndForth.Closed ∧
    backAndForth.reachable.contains 1 = true ∧ backAndForth.reachable.contains 2 = false ∧
    backAndForth.openBlocks = [] := by
  have targets : ∀ block < 4, ∀ target ∈ backAndForth.successors block, target ≤ 1 := by decide
  have back : ∀ block target, target ∈ backAndForth.successors block → target ≤ 1 := by
    intro block target next
    by_cases inside : block < 4
    · exact targets block inside target next
    · rw [successors_of_outside (Nat.le_of_not_lt inside)] at next
      exact absurd next List.not_mem_nil
  have closed : backAndForth.Closed := fun block target next =>
    Nat.lt_of_le_of_lt (back block target next) (by decide)
  have near {id : Nat} (path : backAndForth.Reaches 0 id) : id ≤ 1 := by
    cases path with
    | refl => exact Nat.zero_le 1
    | tail _ next => exact back _ _ next
  obtain ⟨exactly, _, _, listed⟩ := reachable_exact closed
  refine ⟨closed, (exactly 1).mpr ⟨by decide, .single (by decide)⟩, ?_, ?_⟩
  · rw [Bool.eq_false_iff]
    exact fun found => absurd (near ((exactly 2).mp found).2) (by decide)
  · refine List.eq_nil_iff_forall_not_mem.mpr fun id member => ?_
    obtain ⟨block, found, isOpen, path⟩ := (listed id).mp member
    have ended : ∀ id ≤ 1, (backAndForth.blocks[id]?).all (·.terminator.isSome) = true := by decide
    have := ended id (near path)
    rw [found] at this
    simp [isOpen] at this

end Function

end Pascaline.IR
