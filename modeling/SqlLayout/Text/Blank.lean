import SqlLayout.Text.Range

/-!
# Blanks

The characters with the White_Space property of the Unicode character database. A run of them is one
token of a script.
-/

namespace SqlLayout.Text

/-- White_Space, in increasing order. -/
def blankRanges : List (Nat × Nat) := [
  (0x9, 0xD), (0x20, 0x20), (0x85, 0x85), (0xA0, 0xA0), (0x1680, 0x1680), (0x2000, 0x200A),
  (0x2028, 0x2029), (0x202F, 0x202F), (0x205F, 0x205F), (0x3000, 0x3000)]

/-- A blank: a space, a tab, a line break, or another character with the White_Space property. -/
def isBlank (c : Char) : Bool :=
  inRanges blankRanges c.toNat

end SqlLayout.Text
