/-
Sets of block indices, packed in words of 64 bits.
-/

import Pascaline.IR.BlockSet

namespace Pascaline.IR

/-- A word with its lowest bit cleared. -/
def clearLowest (word : BitVec 64) : BitVec 64 := word &&& ~~~.twoPow 64 word.ctz.toNat

theorem getLsbD_clearLowest (word : BitVec 64) (bit : Nat) :
    (clearLowest word).getLsbD bit = (word.getLsbD bit && bit != word.ctz.toNat) := by
  rw [clearLowest, BitVec.getLsbD_and, BitVec.getLsbD_not, BitVec.getLsbD_twoPow]
  cases isSet : word.getLsbD bit with
  | false => rfl
  | true =>
    have inside := BitVec.lt_of_getLsbD isSet
    by_cases same : bit = word.ctz.toNat
    · simp [← same, inside]
    · simp [same, Ne.symm same, inside]

theorem clearLowest_lt {word : BitVec 64} (nonzero : word ≠ 0) :
    (clearLowest word).toNat < word.toNat := by
  refine Nat.lt_of_le_of_ne ?_ fun same => ?_
  · rw [clearLowest, BitVec.toNat_and]
    exact Nat.and_le_left
  · have cleared := getLsbD_clearLowest word word.ctz.toNat
    rw [BitVec.eq_of_toNat_eq same, BitVec.getLsbD_true_ctz_of_ne_zero nonzero] at cleared
    simp at cleared

/-- A finite set of naturals in words; `id` is a member if bit `id % 64` of word `id / 64` is
set. -/
structure Bitmap where
  words : List (BitVec 64)

namespace Bitmap

/-- No members, and room for the numbers below `count`. There is always one word. -/
def withRoom (count : Nat) : Bitmap := ⟨.replicate (max 1 ((count + 63) / 64)) 0⟩

/-- Adds a member, and as many words as it needs. -/
def insert (map : Bitmap) (id : Nat) : Bitmap :=
  ⟨(map.words.rightpad (id / 64 + 1) 0).modify (id / 64) (· ||| .twoPow 64 (id % 64))⟩

def contains (map : Bitmap) (id : Nat) : Bool :=
  (map.words[id / 64]?).any fun word => word &&& .twoPow 64 (id % 64) != 0

/-- Counts the bits that are set, word by word. -/
def size (map : Bitmap) : Nat :=
  map.words.foldl (fun count word => count + word.cpop.toNat) 0

/-- Visits what is left of the word at an index, and then the words behind it. The lowest bit of
the word is cleared and visited, until the word is zero or the visitor says no. -/
def visitFrom {State : Type} (visitor : State → Nat → State × Bool) (index : Nat)
    (word : BitVec 64) (rest : List (BitVec 64)) (state : State) : State :=
  if word = 0 then
    match rest with
    | [] => state
    | next :: rest => visitFrom visitor (index + 1) next rest state
  else
    match visitor state (index * 64 + word.ctz.toNat) with
    | (state, true) => visitFrom visitor index (clearLowest word) rest state
    | (state, false) => state
termination_by (rest.length, word.toNat)
decreasing_by
  · exact Prod.Lex.left _ _ (Nat.lt_succ_self _)
  · exact Prod.Lex.right _ (clearLowest_lt (by assumption))

/-- Visits the members in ascending order until the visitor says no. -/
def foldUntil {State : Type} (map : Bitmap) (visitor : State → Nat → State × Bool)
    (state : State) : State :=
  match map.words with
  | [] => state
  | word :: rest => visitFrom visitor 0 word rest state

end Bitmap

end Pascaline.IR
