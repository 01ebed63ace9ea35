/-
Sets of block indices, as the bits of one natural number.
-/

namespace Pascaline.IR

/-- A finite set of naturals; bit `id` is set for each member `id`. -/
structure BlockSet where
  bits : Nat
  deriving DecidableEq

namespace BlockSet

def empty : BlockSet := ⟨0⟩

def insert (set : BlockSet) (id : Nat) : BlockSet := ⟨set.bits ||| 1 <<< id⟩

def contains (set : BlockSet) (id : Nat) : Bool := set.bits.testBit id

/-- The members in ascending order. -/
def toList (set : BlockSet) : List Nat :=
  if set.bits = 0 then [] else (List.range (set.bits.log2 + 1)).filter set.contains

def size (set : BlockSet) : Nat := set.toList.length

/-- Visits the members in ascending order. The visitor sees a state, changes it, and tells
whether to go on; nothing is visited after it says no. -/
def visit {State : Type} (visitor : State → Nat → State × Bool) (state : State) :
    List Nat → State
  | [] => state
  | id :: rest =>
    match visitor state id with
    | (state, true) => visit visitor state rest
    | (state, false) => state

/-- Visits the members of the set until the visitor says no. -/
def foldUntil {State : Type} (set : BlockSet) (visitor : State → Nat → State × Bool)
    (state : State) : State :=
  visit visitor state set.toList

end BlockSet

end Pascaline.IR
