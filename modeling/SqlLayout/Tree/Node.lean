import SqlLayout.Tree.Kind

/-!
# Nodes

A node has a kind, a captured text, up to three attributes, and its place in the tree: the number of
its parent and the numbers of its children.
-/

namespace SqlLayout

/-- A node's number. Nodes are numbered in the order of creation, the root being `0`. -/
abbrev NodeId := Nat

inductive Attribute where
  /-- On the root: some part of the script needed error recovery. -/
  | errorFound
  /-- On the container where recovery happened. -/
  | hasError
  /-- The normalized text of a keyword of several words. -/
  | simpleText
deriving DecidableEq, Repr, Inhabited

namespace Attribute

def all : List Attribute := [errorFound, hasError, simpleText]

def name : Attribute → String
  | errorFound => "error_found"
  | hasError => "has_error"
  | simpleText => "simple_text"

def ofName? (name : String) : Option Attribute :=
  all.find? fun key => key.name == name

end Attribute

structure Attributes where
  errorFound : Option String := none
  hasError : Option String := none
  simpleText : Option String := none
deriving DecidableEq, Repr, Inhabited

namespace Attributes

def get? (attributes : Attributes) : Attribute → Option String
  | .errorFound => attributes.errorFound
  | .hasError => attributes.hasError
  | .simpleText => attributes.simpleText

def set (attributes : Attributes) (key : Attribute) (value : String) : Attributes :=
  match key with
  | .errorFound => { attributes with errorFound := some value }
  | .hasError => { attributes with hasError := some value }
  | .simpleText => { attributes with simpleText := some value }

def toList (attributes : Attributes) : List (Attribute × String) :=
  Attribute.all.filterMap fun key => (attributes.get? key).map fun value => (key, value)

@[simp]
theorem get?_set (attributes : Attributes) (key other : Attribute) (value : String) :
    (attributes.set key value).get? other =
      if other = key then some value else attributes.get? other := by
  cases key <;> cases other <;> rfl

end Attributes

/-- One structural unit of a tree. -/
structure Node where
  kind : NodeKind
  /-- The captured text; empty for containers. -/
  text : String
  attributes : Attributes := {}
  /-- The containing node; `none` for the root and for detached nodes. -/
  parent : Option NodeId := none
  /-- The contained nodes in source order. -/
  children : List NodeId := []
deriving DecidableEq, Repr, Inhabited

end SqlLayout
