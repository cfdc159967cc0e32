import SqlLayout.Json
import SqlLayout.Tree.Outline

/-!
# Dumps of trees

A dump is an outline as JSON: the name of the kind, the text, the attributes that are set, and the
dumps of the children.
-/

namespace SqlLayout

namespace Outline

mutual

def toJson : Outline → Json
  | node _ kind text attributes children =>
      .object [
        ("name", .string kind.name),
        ("text", .string text),
        ("attributes",
          .object (attributes.toList.map fun (key, value) => (key.name, .string value))),
        ("children", .array (listToJson children))]

def listToJson : List Outline → List Json
  | [] => []
  | first :: rest => toJson first :: listToJson rest

end

end Outline

namespace Tree

/-- The compact dump of a subtree. -/
def view (tree : Tree) (id : NodeId) : String :=
  (tree.outline id).toJson.compact

/-- The indented dump of the whole document, ended by a line feed. -/
def dump (tree : Tree) : String :=
  (tree.outline root).toJson.indented 0 ++ "\n"

end Tree

end SqlLayout
