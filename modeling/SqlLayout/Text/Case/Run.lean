import SqlLayout.Text.Range

/-!
# Case mappings as runs

A mapping of characters to characters is a list of runs `(first, last, step, target)` in increasing
order. The run covers `first`, `first + step`, and so on up to `last`, and moves `first` to `target`
and the others by the same distance.
-/

namespace SqlLayout.Text

/-- The image of a character under a mapping given by runs; a character outside every run stays. -/
def mapByRuns : List (Nat × Nat × Nat × Nat) → Char → Char
  | [], c => c
  | (first, last, step, target) :: later, c =>
      if c.toNat < first then c
      else if c.toNat ≤ last ∧ (c.toNat - first) % step = 0 then
        Char.ofNat (target + (c.toNat - first))
      else mapByRuns later c

end SqlLayout.Text
