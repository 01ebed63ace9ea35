/-
Sets of block indices in words. Written one behind the other, the words of a bitmap are the bits of
one number, and every operation on bitmaps does to this number what the operation on sets does. A
bitmap therefore answers as a finite set: it contains what was added, its size is the number of its
members, and a visitor sees them in ascending order up to the first time that it says no.
-/

import Pascaline.IR.Bitmap
import Pascaline.Proofs.Worklist

namespace Pascaline.IR

/-! ### Words -/

/-- The bits of a word from the lowest on. -/
theorem bitIndices_clearLowest {word : BitVec 64} (nonzero : word ≠ 0) :
    word.toNat.bitIndices = word.ctz.toNat :: (clearLowest word).toNat.bitIndices := by
  have member (bit : Nat) : bit ∈ (clearLowest word).toNat.bitIndices ↔
      word.getLsbD bit = true ∧ bit ≠ word.ctz.toNat := by
    simp [BitVec.testBit_toNat, getLsbD_clearLowest]
  refine Nat.bitIndices_sorted.eq_of_mem_iff (List.Pairwise.sortedLT (List.pairwise_cons.mpr
    ⟨fun bit listed => ?_, Nat.bitIndices_sorted.pairwise⟩)) fun bit => ?_
  · obtain ⟨isSet, other⟩ := (member bit).mp listed
    refine Nat.lt_of_le_of_ne (Nat.le_of_not_lt fun lower => ?_) other.symm
    rw [BitVec.getLsbD_false_of_lt_ctz lower] at isSet
    cases isSet
  · have lowest := BitVec.getLsbD_true_ctz_of_ne_zero nonzero
    rw [List.mem_cons, member, Nat.mem_bitIndices, BitVec.testBit_toNat]
    by_cases same : bit = word.ctz.toNat <;> simp [same, lowest]

theorem length_bitIndices (word : BitVec 64) : word.toNat.bitIndices.length = word.cpop.toNat := by
  have counted (width : Nat) :
      word.cpopNatRec width 0 = ((List.range width).filter word.getLsbD).length := by
    induction width with
    | zero => rfl
    | succ width before =>
      rw [BitVec.cpopNatRec_succ, BitVec.cpopNatRec_eq, before, List.range_succ, List.filter_append]
      cases isSet : word.getLsbD width <;> simp [isSet]
  have listed : word.toNat.bitIndices = (List.range 64).filter word.getLsbD := by
    refine Nat.bitIndices_sorted.eq_of_mem_iff (List.pairwise_lt_range.filter _).sortedLT
      fun bit => ?_
    simp only [Nat.mem_bitIndices, BitVec.testBit_toNat, List.mem_filter, List.mem_range]
    exact ⟨fun isSet => ⟨BitVec.lt_of_getLsbD isSet, isSet⟩, And.right⟩
  rw [listed, BitVec.toNat_cpop, counted]

/-! ### The bits of a bitmap as one number -/

theorem BlockSet.toList_eq_bitIndices (set : BlockSet) : set.toList = set.bits.bitIndices :=
  set.toList_ascending.sortedLT.eq_of_mem_iff Nat.bitIndices_sorted fun id => by
    rw [mem_toList, Nat.mem_bitIndices, contains]

namespace Bitmap

/-- The words one behind the other. -/
def bits : List (BitVec 64) → Nat
  | [] => 0
  | word :: rest => 2 ^ 64 * bits rest + word.toNat

/-- The set with the bits of a bitmap. -/
def toSet (map : Bitmap) : BlockSet := ⟨bits map.words⟩

/-- Bit `id` is bit `id % 64` of word `id / 64`, and zero behind the last word. -/
theorem testBit_bits (words : List (BitVec 64)) (id : Nat) :
    (bits words).testBit id = ((words[id / 64]?).getD 0).getLsbD (id % 64) := by
  induction words generalizing id with
  | nil => simp [bits]
  | cons word rest others =>
    rw [bits, Nat.testBit_two_pow_mul_add _ word.isLt]
    split
    · rename_i first
      rw [Nat.div_eq_of_lt first, Nat.mod_eq_of_lt first]
      simp [BitVec.testBit_toNat]
    · rename_i later
      obtain ⟨id, rfl⟩ := Nat.exists_eq_add_of_le (Nat.le_of_not_lt later)
      simp [others, Nat.add_comm 64]

/-- The members of the first word come first, then those of the rest, one word further. -/
theorem bitIndices_bits (word : BitVec 64) (rest : List (BitVec 64)) :
    (bits (word :: rest)).bitIndices =
      word.toNat.bitIndices ++ (bits rest).bitIndices.map (· + 64) := by
  have small {bit : Nat} (isSet : word.toNat.testBit bit = true) : bit < 64 :=
    BitVec.lt_of_getLsbD (word.testBit_toNat ▸ isSet)
  refine Nat.bitIndices_sorted.eq_of_mem_iff (List.Pairwise.sortedLT (List.pairwise_append.mpr
    ⟨Nat.bitIndices_sorted.pairwise, ?_, ?_⟩)) fun id => ?_
  · exact List.pairwise_map.mpr
      (Nat.bitIndices_sorted.pairwise.imp fun less => Nat.add_lt_add_right less 64)
  · intro bit isSet _ later
    obtain ⟨id, _, rfl⟩ := List.mem_map.mp later
    exact Nat.lt_add_left id (small (Nat.mem_bitIndices.mp isSet))
  · rw [Nat.mem_bitIndices, bits, Nat.testBit_two_pow_mul_add _ word.isLt]
    simp only [List.mem_append, List.mem_map, Nat.mem_bitIndices]
    split
    · grind
    · grind

/-! ### Every operation is one on sets -/

theorem contains_toSet (map : Bitmap) (id : Nat) : map.toSet.contains id = map.contains id := by
  have inWord : id % 64 < 64 := Nat.mod_lt id (by decide)
  have nonzero : BitVec.twoPow 64 (id % 64) ≠ 0#64 := fun zero => by
    simpa [inWord] using congrArg (·.getLsbD (id % 64)) zero
  rw [BlockSet.contains, toSet, testBit_bits, contains]
  cases map.words[id / 64]? with
  | none => simp
  | some word =>
    rw [Option.any_some, BitVec.and_twoPow, Option.getD_some]
    cases word.getLsbD (id % 64) <;> simp [nonzero]

theorem toSet_withRoom (count : Nat) : (withRoom count).toSet = .empty := by
  refine BlockSet.ext fun id => ?_
  rw [BlockSet.contains_empty, BlockSet.contains, toSet, testBit_bits, withRoom,
    List.getElem?_replicate]
  split <;> simp

theorem toSet_insert (map : Bitmap) (id : Nat) : (map.insert id).toSet = map.toSet.insert id := by
  refine BlockSet.ext fun other => ?_
  have inWord : id % 64 < 64 := Nat.mod_lt id (by decide)
  have place : other = id ↔ id / 64 = other / 64 ∧ id % 64 = other % 64 := by omega
  -- New words are zero, as a word is that is not there.
  have padded : ((map.words.rightpad (id / 64 + 1) 0)[other / 64]?).getD 0 =
      (map.words[other / 64]?).getD 0 := by
    rw [List.rightpad, List.getElem?_append]
    grind
  rw [Bool.eq_iff_iff, BlockSet.contains_insert, place]
  simp only [BlockSet.contains, toSet, testBit_bits, insert, List.getElem?_modify, ← padded]
  by_cases same : id / 64 = other / 64
  · have inside : other / 64 < (map.words.rightpad (id / 64 + 1) 0).length := by
      rw [List.rightpad, List.length_append, List.length_replicate]
      omega
    rw [List.getElem?_eq_getElem inside]
    simp only [same, if_true, Option.map_eq_map, Option.map_some, Option.getD_some,
      BitVec.getLsbD_or, BitVec.getLsbD_twoPow]
    simp [inWord, or_comm]
  · simp [same]

theorem foldl_count (words : List (BitVec 64)) (count : Nat) :
    words.foldl (fun count word => count + word.cpop.toNat) count =
      count + (bits words).bitIndices.length := by
  induction words generalizing count with
  | nil => simp [bits]
  | cons word rest others =>
    rw [List.foldl_cons, others, bitIndices_bits, List.length_append, List.length_map,
      length_bitIndices, Nat.add_assoc]

theorem size_toSet (map : Bitmap) : map.toSet.size = map.size := by
  rw [BlockSet.size, BlockSet.toList_eq_bitIndices, toSet, size, foldl_count, Nat.zero_add]

variable {State : Type} (visitor : State → Nat → State × Bool)

-- The induction follows the loop: it ends, goes on with the next word, goes on with the rest of the
-- same word, or is stopped.
/-- The index counts the words that are done, so the members of the next word are numbered from
there. -/
theorem visitFrom_eq_visit (index : Nat) (word : BitVec 64) (rest : List (BitVec 64))
    (state : State) :
    visitFrom visitor index word rest state = BlockSet.visit visitor state
      ((bits (word :: rest)).bitIndices.map (index * 64 + ·)) := by
  fun_induction visitFrom visitor index word rest state with
  | case1 => simp [bits, BlockSet.visit]
  | case2 index state next rest others =>
    have behind (id : Nat) : (index + 1) * 64 + id = index * 64 + (id + 64) := by omega
    simp [others, bitIndices_bits 0#64, behind, Function.comp_def]
  | case3 index word rest state nonzero later visited others =>
    rw [others, bitIndices_bits, bitIndices_bits, bitIndices_clearLowest nonzero]
    simp [BlockSet.visit, visited]
  | case4 index word rest state nonzero later visited =>
    rw [bitIndices_bits, bitIndices_clearLowest nonzero]
    simp [BlockSet.visit, visited]

theorem foldUntil_toSet (map : Bitmap) (state : State) :
    map.toSet.foldUntil visitor state = map.foldUntil visitor state := by
  rw [BlockSet.foldUntil, BlockSet.toList_eq_bitIndices, toSet, foldUntil]
  cases map.words with
  | nil => simp [bits, BlockSet.visit]
  | cons word rest => simp [visitFrom_eq_visit]

end Bitmap

/-! ### Finite sets -/

namespace BlockSet

variable {State : Type}

/-- The state of a visitor that has been called for some numbers, whatever it said. -/
def stateAfter (visitor : State → Nat → State × Bool) (state : State) (called : List Nat) : State :=
  called.foldl (fun state id => (visitor state id).1) state

/-- A visitor is called up to the first time that it says no: it says yes to all numbers but the
last, and no to the last one if others are left. -/
structure StopsAtNo (visitor : State → Nat → State × Bool) (state : State)
    (called left : List Nat) : Prop where
  goesOn : ∀ front id back, called = front ++ id :: back → back ≠ [] →
    (visitor (stateAfter visitor state front) id).2 = true
  stops : left ≠ [] → ∃ front last, called = front ++ [last] ∧
    (visitor (stateAfter visitor state front) last).2 = false

/-- The calls that are made are the members up to the first that answers no. -/
theorem visit_stopsAtNo (visitor : State → Nat → State × Bool) (state : State) (ids : List Nat) :
    ∃ called left, ids = called ++ left ∧ StopsAtNo visitor state called left ∧
      visit visitor state ids = stateAfter visitor state called := by
  induction ids generalizing state with
  | nil => exact ⟨[], [], rfl, ⟨by simp, by simp⟩, rfl⟩
  | cons id rest others =>
    cases answer : visitor state id with | mk next goOn => cases goOn with
    | false =>
      refine ⟨[id], rest, rfl, ⟨fun front other back split more => ?_, fun _ => ?_⟩, ?_⟩
      · cases front <;> simp_all
      · exact ⟨[], id, rfl, by simp [stateAfter, answer]⟩
      · simp [visit, answer, stateAfter]
    | true =>
      obtain ⟨called, left, split, stops, ends⟩ := others next
      have after (front : List Nat) :
          stateAfter visitor state (id :: front) = stateAfter visitor next front := by
        simp [stateAfter, answer]
      refine ⟨id :: called, left, by rw [split]; rfl, ⟨?_, fun more => ?_⟩, ?_⟩
      · intro front other back same more
        cases front with
        | nil =>
          obtain ⟨rfl, _⟩ := List.cons.inj same
          simp [stateAfter, answer]
        | cons first front =>
          obtain ⟨rfl, tail⟩ := List.cons.inj same
          rw [after]
          exact stops.goesOn front other back tail more
      · obtain ⟨front, last, rfl, no⟩ := stops.stops more
        exact ⟨id :: front, last, rfl, by rwa [after]⟩
      · rw [after, ← ends]
        simp [visit, answer]

theorem contains_foldl_insert (ids : List Nat) (set : BlockSet) (id : Nat) :
    (ids.foldl insert set).contains id = true ↔ id ∈ ids ∨ set.contains id = true := by
  induction ids generalizing set with
  | nil => simp
  | cons first rest others =>
    rw [List.foldl_cons, others, contains_insert, List.mem_cons]
    tauto

end BlockSet

/-- A bitmap is a finite set of naturals. However much room it starts with and whatever is added to
it, also beyond that room, it contains what was added, its size is the number of different members,
and a visitor is called for them in strictly ascending order up to the first time that it says no.
The set that is one number gives the same answers. -/
theorem bitmap_finiteSet (count : Nat) (ids : List Nat) :
    let map := ids.foldl Bitmap.insert (.withRoom count)
    let set := ids.foldl BlockSet.insert .empty
    (∀ id, map.contains id = true ↔ id ∈ ids) ∧ map.size = ids.toFinset.card ∧
    (∃ members : List Nat, members.Pairwise (· < ·) ∧ (∀ id, id ∈ members ↔ id ∈ ids) ∧
      ∀ (State : Type) (visitor : State → Nat → State × Bool) (state : State),
        ∃ called left, members = called ++ left ∧ BlockSet.StopsAtNo visitor state called left ∧
          map.foldUntil visitor state = BlockSet.stateAfter visitor state called) ∧
    (∀ id, set.contains id = map.contains id) ∧ set.size = map.size ∧
    ∀ (State : Type) (visitor : State → Nat → State × Bool) (state : State),
      set.foldUntil visitor state = map.foldUntil visitor state := by
  intro map set
  have same : set = map.toSet := by
    rw [show set = ids.foldl BlockSet.insert (Bitmap.withRoom count).toSet by
      rw [Bitmap.toSet_withRoom]]
    exact List.foldl_hom Bitmap.toSet fun map id => (map.toSet_insert id).symm
  have member (id : Nat) : set.contains id = true ↔ id ∈ ids := by
    simp [set, BlockSet.contains_foldl_insert]
  have listed (id : Nat) : id ∈ set.toList ↔ id ∈ ids := by rw [BlockSet.mem_toList, member]
  have counted : set.size = ids.toFinset.card := by
    rw [BlockSet.size, ← List.toFinset_card_of_nodup set.toList_ascending.nodup]
    exact congrArg Finset.card (by ext id; simp [listed])
  refine ⟨fun id => ?_, ?_, ⟨set.toList, set.toList_ascending, listed, fun State visitor state =>
    ?_⟩, fun id => ?_, ?_, fun State visitor state => ?_⟩
  · rw [← map.contains_toSet, ← same, member]
  · rw [← map.size_toSet, ← same, counted]
  · rw [← map.foldUntil_toSet, ← same]
    exact BlockSet.visit_stopsAtNo visitor state set.toList
  · rw [same, map.contains_toSet]
  · rw [same, map.size_toSet]
  · rw [same, map.foldUntil_toSet]

end Pascaline.IR
