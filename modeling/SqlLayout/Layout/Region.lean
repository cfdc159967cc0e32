import SqlLayout.Text.Case

/-!
# Regions of kept text

A comment can open a region whose text is kept as it is, up to a comment that closes the region.
-/

namespace SqlLayout

def occursIn (part : List Char) : List Char → Bool
  | [] => part.isEmpty
  | c :: rest => part.isPrefixOf (c :: rest) || occursIn part rest

/-- The kinds of regions whose text is kept. -/
inductive Region where
  | noFormat
  | minify
deriving DecidableEq, Repr, Inhabited

namespace Region

def openingMarker : Region → String
  | noFormat => "[NOFORMAT]"
  | minify => "[MINIFY]"

def closingMarker : Region → String
  | noFormat => "[/NOFORMAT]"
  | minify => "[/MINIFY]"

/-- Whether a comment holds a marker, in any case. -/
def hasMarker (marker comment : String) : Bool :=
  occursIn marker.toList (Text.upper comment).toList

def openedBy? (comment : String) : Option Region :=
  [noFormat, minify].find? fun region => hasMarker region.openingMarker comment

def isClosedBy (region : Region) (comment : String) : Bool :=
  hasMarker region.closingMarker comment

end Region

end SqlLayout
