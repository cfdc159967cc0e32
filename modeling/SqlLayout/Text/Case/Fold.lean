import SqlLayout.Text.Case.Lower

/-!
# Case folding

The simple case folding of the Unicode character database, version 16. Two characters are the same
up to case when they fold to one character: a letter folds to its lower case, and variants of a
letter in lower case fold to one of them.
-/

namespace SqlLayout.Text

/-- Letters that have a lower case since version 17 and do not fold in version 16. -/
def unfoldedRanges : List (Nat × Nat) :=
  [(0xA7CE, 0xA7CE), (0xA7D2, 0xA7D2), (0xA7D4, 0xA7D4), (0x16EA0, 0x16EB8)]

/-- Runs of characters without another lower case that fold to another character. -/
def variantRuns : List (Nat × Nat × Nat × Nat) := [
  (0xB5, 0xB5, 1, 0x3BC), (0x17F, 0x17F, 1, 0x73), (0x345, 0x345, 1, 0x3B9),
  (0x3C2, 0x3C2, 1, 0x3C3), (0x3D0, 0x3D0, 1, 0x3B2), (0x3D1, 0x3D1, 1, 0x3B8),
  (0x3D5, 0x3D5, 1, 0x3C6), (0x3D6, 0x3D6, 1, 0x3C0), (0x3F0, 0x3F0, 1, 0x3BA),
  (0x3F1, 0x3F1, 1, 0x3C1), (0x3F5, 0x3F5, 1, 0x3B5), (0x13F8, 0x13FD, 1, 0x13F0),
  (0x1C80, 0x1C80, 1, 0x432), (0x1C81, 0x1C81, 1, 0x434), (0x1C82, 0x1C82, 1, 0x43E),
  (0x1C83, 0x1C84, 1, 0x441), (0x1C85, 0x1C85, 1, 0x442), (0x1C86, 0x1C86, 1, 0x44A),
  (0x1C87, 0x1C87, 1, 0x463), (0x1C88, 0x1C88, 1, 0xA64B), (0x1E9B, 0x1E9B, 1, 0x1E61),
  (0x1FBE, 0x1FBE, 1, 0x3B9), (0x1FD3, 0x1FD3, 1, 0x390), (0x1FE3, 0x1FE3, 1, 0x3B0),
  (0xAB70, 0xABBF, 1, 0x13A0), (0xFB05, 0xFB05, 1, 0xFB06)]

/-- The simple case folding of a character. -/
def foldChar (c : Char) : Char :=
  if inRanges unfoldedRanges c.toNat then c else mapByRuns variantRuns (mapByRuns lowerRuns c)

/-- The same character up to case: `S`, `s` and `ſ` are the same. -/
def sameUpToCase (left right : Char) : Bool :=
  foldChar left == foldChar right

end SqlLayout.Text
