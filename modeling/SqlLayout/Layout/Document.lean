import SqlLayout.Layout.Plan

/-!
# Laying out documents

A document is laid out by following the plan of every node, from the root on. A region of kept text
that is still open at the end reaches to the end.
-/

namespace SqlLayout

namespace Outline

mutual

/-- Lays out a node that stands at a place. -/
def layOut (style : Style) (tree : Tree) (place : Place) (writer : Writer) :
    Outline → Except LayoutError Writer
  | node id kind text attributes children =>
      let within := kind :: place.ancestors
      let steps := LayoutStep.plan style place (node id kind text attributes children)
      steps.foldlM
        (fun writer step =>
          match step with
          | .act action => .ok (action.apply style tree writer)
          | .children => layOutList style tree within (fun _ => true) writer children
          | .childrenOf kind => layOutList style tree within (· == kind) writer children
          | .comments => layOutList style tree within NodeKind.isComment writer children
          | .firstKeyword => layOutKeyword style tree within writer children
          | .enclosed =>
              (layOutList style tree within (fun _ => true) writer.inner children).map
                fun inner => writer.enclose inner style
          | .fail error => .error error)
        writer

/-- Lays out the selected ones of sibling nodes below the given ancestors. -/
def layOutList (style : Style) (tree : Tree) (ancestors : List NodeKind) (selects : NodeKind → Bool)
    (writer : Writer) : List Outline → Except LayoutError Writer
  | [] => .ok writer
  | first :: rest =>
      if selects first.kind then
        match layOut style tree { ancestors, next := rest.head? } writer first with
        | .error error => .error error
        | .ok writer => layOutList style tree ancestors selects writer rest
      else layOutList style tree ancestors selects writer rest

def layOutKeyword (style : Style) (tree : Tree) (ancestors : List NodeKind) (writer : Writer) :
    List Outline → Except LayoutError Writer
  | [] => .error (.missingKeyword (ancestors.headD .root))
  | first :: rest =>
      if first.kind = .otherKeyword then
        layOut style tree { ancestors, next := rest.head? } writer first
      else layOutKeyword style tree ancestors writer rest

end

end Outline

namespace Tree

/-- The text of a document in a style, after a warning if the document needed error recovery. -/
def format (tree : Tree) (style : Style) (warning : String) : Except LayoutError String := do
  let start : Writer :=
    if tree.hasError && !warning.isEmpty then (Writer.write {} style warning).endLine else {}
  let writer := (← (tree.outline root).layOut style tree {} start).settle style
  match writer.region with
  | none => return writer.output style
  | some (_, opening) => return (writer.keep (tree.renderBetween opening none)).output style

end Tree

end SqlLayout
