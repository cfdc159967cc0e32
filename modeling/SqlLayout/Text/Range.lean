/-!
# Tables of code points

Character properties are lists of closed ranges of code points in increasing order, so a search may
stop at the first range that starts above the character.
-/

namespace SqlLayout.Text

/-- Membership of a code point in a list of closed ranges in increasing order. -/
def inRanges : List (Nat × Nat) → Nat → Bool
  | [], _ => false
  | (first, last) :: later, point =>
      if point < first then false
      else if point ≤ last then true
      else inRanges later point

/-- The entry of a code point in a list in increasing order of its keys. -/
def lookupSorted {α : Type} : List (Nat × α) → Nat → Option α
  | [], _ => none
  | (key, value) :: later, point =>
      if point < key then none
      else if point = key then some value
      else lookupSorted later point

end SqlLayout.Text
