import SqlLayout.Format
import SqlLayout.Proofs.Conservation
import SqlLayout.Proofs.Layout.Document
import SqlLayout.Proofs.Tree.Rendering

/-!
# Formatting scripts

Every script is formatted, whatever it holds, and no bound on the way is ever used up. Formatting
only inserts layout: apart from a warning in front, the result consists of the pieces of the
script's tree in document order, with white space around them.
-/

namespace SqlLayout

/-- The line in front of a document that needed error recovery. -/
def Tree.warningText (tree : Tree) (warning : String) : String :=
  if tree.hasError && !warning.isEmpty then warning ++ "\n" else ""

namespace Writer

theorem Adds.output {first last : Writer} {pieces : List String} (adds : first.Adds pieces last)
    (free : first.region = none) (style : Style) :
    ∃ text, last.output style = first.output style ++ text ∧ style.Spaced pieces text := by
  obtain ⟨_, marks, written, rfl, unkept⟩ := adds.written free
  have unkeptReversed : ∀ mark ∈ marks.reverse, mark.isKept = false := by simpa using unkept
  refine ⟨_, ?_, Style.spaced_of_marks unkeptReversed⟩
  rw [Writer.output, Writer.output, written, List.reverse_append, List.map_append,
    String.join_append]

end Writer

namespace Tree

def opening (tree : Tree) (style : Style) (warning : String) : Writer :=
  if tree.hasError && !warning.isEmpty then (Writer.write {} style warning).endLine else {}

theorem region_opening (tree : Tree) (style : Style) (warning : String) :
    (tree.opening style warning).region = none := by
  unfold opening
  split <;> rfl

theorem output_opening (tree : Tree) (style : Style) (warning : String) :
    (tree.opening style warning).output style = tree.warningText warning := by
  unfold opening warningText
  split
  · simp [Writer.write, Writer.endLine, Writer.mark, Writer.output, Mark.text, String.join]
  · rfl

/-- The text of a document that is laid out: the breaks that are due are written, and a region of
kept text that is still open reaches to the end. -/
def ending (tree : Tree) (style : Style) (writer : Writer) : String :=
  match (writer.settle style).region with
  | none => (writer.settle style).output style
  | some (_, start) => ((writer.settle style).keep (tree.renderBetween start none)).output style

theorem format_eq (tree : Tree) (style : Style) (warning : String) :
    tree.format style warning =
      ((tree.outline root).layOut style tree {} (tree.opening style warning)).map
        (tree.ending style) := by
  change Except.bind _ _ = Except.map _ _
  rw [← opening]
  cases (tree.outline root).layOut style tree {} (tree.opening style warning) with
  | error error => rfl
  | ok writer =>
    simp only [Except.bind, Except.map, ending]
    cases (writer.settle style).region <;> rfl

variable {tree : Tree} {draft : Draft}

/-- A document that keeps to its rules can be laid out in every style. -/
theorem Shows.format_ok (shown : tree.Shows draft) (sound : draft.Sound) (style : Style)
    (warning : String) : ∃ text, tree.format style warning = .ok text := by
  obtain ⟨after, isOk, _⟩ := Outline.lays_layOut style tree sound.outline_regular {}
    (tree.opening style warning)
  rw [format_eq, shown.outline_eq, isOk]
  exact ⟨_, rfl⟩

/-- Without a region of kept text a document is laid out as its pieces and white space. -/
theorem Shows.format_pieces (shown : tree.Shows draft) (sound : draft.Sound)
    (quiet : draft.outline.Quiet) (style : Style) (warning : String) :
    ∃ text, tree.format style warning = .ok (tree.warningText warning ++ text) ∧
      style.Spaced (draft.outline.pieces style.wording) text := by
  obtain ⟨after, isOk, adds⟩ := Outline.lays_layOut style tree sound.outline_regular {}
    (tree.opening style warning)
  have free := tree.region_opening style warning
  have settled := (adds quiet).before (Writer.puts_settle after style)
  obtain ⟨text, written, spaced⟩ := settled.output free style
  refine ⟨text, ?_, spaced⟩
  rw [format_eq, shown.outline_eq, isOk, Except.map, ending, (settled.written free).1, written,
    output_opening]

end Tree

/-! ### Scripts -/

/-- No comment asks for a region of kept text. -/
def TokenList.Quiet (list : TokenList) : Prop :=
  ∀ token ∈ list.tokens, token.kind.isComment = true → Region.openedBy? token.value = none

instance (list : TokenList) : Decidable list.Quiet :=
  inferInstanceAs (Decidable (∀ token ∈ list.tokens, _ → _))

theorem Built.quiet {list : TokenList} {draft : Draft} (built : Built list.tokens draft)
    (faithful : ∀ token ∈ list.tokens, token.Faithful) (quiet : list.Quiet) :
    draft.outline.Quiet := by
  obtain ⟨_, trace⟩ := built.trace_outline faithful
  intro kind text written isComment
  have among : (kind, text) ∈ draft.outline.symbols.filterMap Symbol.trivia? :=
    List.mem_filterMap.mpr ⟨_, written, rfl⟩
  rw [trace.trivia.mem_iff, ← Token.trivia_symbolsOf] at among
  obtain ⟨token, member, same⟩ := List.mem_map.mp among
  obtain ⟨rfl, rfl⟩ := Prod.mk.injEq .. ▸ same
  rw [TokenKind.isComment_leafKind] at isComment
  exact quiet token (List.mem_of_mem_filter member) isComment

theorem format_eq_ok {style : Style} {script warning text : String} {tree : Tree}
    (isTree : Tree.ofText script = .ok tree) (isText : tree.format style warning = .ok text) :
    format style script warning = .ok { text, parseError := tree.hasError } := by
  rw [format, isTree]
  change Except.bind (Except.mapError _ (tree.format style warning)) _ = _
  rw [isText]
  rfl

/-! ### Bounds

The parser looks for things in a tree at most as often as the tree has nodes. In the tree of a
document this is always enough: a larger bound makes no difference. -/

section Bounds

variable {tree : Tree} {draft : Draft} {bound more : Nat}

theorem Tree.Stores.firstContentWithin_eq {parent : Option NodeId} {outline : Outline}
    (stored : tree.Stores parent outline) (enough : (outline.records parent).length ≤ bound)
    (larger : bound ≤ more) :
    tree.firstContentWithin outline.id more = tree.firstContentWithin outline.id bound := by
  induction outline generalizing parent bound more with
  | node id kind text attributes children ih =>
    rw [Outline.records_node, List.length_cons] at enough
    obtain ⟨bound, rfl⟩ := Nat.exists_eq_add_of_lt enough
    obtain ⟨more, rfl⟩ := Nat.exists_eq_add_of_lt (Nat.lt_of_lt_of_le enough larger)
    change tree.firstContentWithin id _ = tree.firstContentWithin id _
    rw [firstContentWithin, firstContentWithin]
    cases found : (tree.contentChildren id).head? with
    | none => rfl
    | some first =>
      have member : first ∈ tree.children id :=
        List.mem_of_mem_filter (List.mem_of_mem_head? found)
      rw [Tree.children, stored.node_eq] at member
      rcases List.mem_map.mp member with ⟨child, among, rfl⟩
      have fewer := (Outline.records_subset_recordsOfList among (some id)).length_le
      dsimp only
      rw [ih child among (stored.child child among) (fewer.trans (Nat.le_add_right _ bound))
        (by omega)]

/-- The first content below a node is found, however many wrappers are around it. -/
theorem Tree.Shows.firstContentWithin_eq (shown : tree.Shows draft) (id : NodeId)
    (enough : tree.size ≤ bound) :
    tree.firstContentWithin id bound = tree.firstSemanticElement id := by
  by_cases known : id < tree.size
  · rcases Outline.exists_mem_nodes (shown.record_of_lt known) with ⟨part, isPart, rfl⟩
    rcases shown.stores.of_mem_nodes isPart with ⟨above, stored, fewer⟩
    rw [shown.document.complete] at fewer
    exact stored.firstContentWithin_eq fewer enough
  · have none : tree.contentChildren id = [] := by
      rw [contentChildren, children, node_of_le (Nat.le_of_not_lt known)]
      rfl
    have nothing : ∀ bound, tree.firstContentWithin id bound = Option.none := by
      intro bound
      cases bound with
      | zero => rfl
      | succ bound => rw [firstContentWithin, none]; rfl
    rw [firstSemanticElement, nothing, nothing]

theorem Tree.Shows.elseOwnerAbove_eq_of_le (shown : tree.Shows draft)
    (enough : draft.outer.length < bound) (larger : bound ≤ more) :
    Reading.elseOwnerAbove tree draft.id more = Reading.elseOwnerAbove tree draft.id bound := by
  induction bound generalizing draft more with
  | zero => cases enough
  | succ bound ih =>
    obtain ⟨more, rfl⟩ := Nat.exists_eq_add_of_le' (Nat.le_trans (Nat.le_add_left 1 bound) larger)
    have further : ∀ levels, 0 < levels →
        ((tree.ancestor draft.id levels).bind fun outer => Reading.elseOwnerAbove tree outer more) =
          (tree.ancestor draft.id levels).bind fun outer =>
            Reading.elseOwnerAbove tree outer bound := by
      intro levels positive
      cases isAncestor : tree.ancestor draft.id levels with
      | none => rfl
      | some outer =>
        rcases shown.ups_of_ancestor isAncestor with ⟨within, rfl⟩
        have shorter := Draft.length_outer_ups within
        exact ih (shown.ups levels) (by omega) (by omega)
    rw [Reading.elseOwnerAbove, Reading.elseOwnerAbove, further 5 (by decide),
      further 4 (by decide)]

/-- The owner of an `ELSE` is found, however many bodies are around it. -/
theorem Tree.Shows.elseOwnerAbove_eq (shown : tree.Shows draft) (enough : tree.size ≤ bound) :
    Reading.elseOwnerAbove tree draft.id bound = Reading.elseOwnerAbove tree draft.id tree.size :=
  shown.elseOwnerAbove_eq_of_le shown.length_outer_lt enough

theorem Builder.Stands.leaveSingleBodies_eq_of_le {builder : Builder}
    (stands : builder.Stands draft) (enough : draft.outer.length ≤ bound) (larger : bound ≤ more) :
    builder.leaveSingleBodies more = builder.leaveSingleBodies bound := by
  induction bound generalizing builder draft more with
  | zero =>
    cases more with
    | zero => rfl
    | succ more =>
      have outside : builder.isIn [.clause, .statement, .containerSingleStatementBody] = false := by
        have none : draft.outer = [] := List.eq_nil_of_length_eq_zero (by omega)
        rw [stands.isIn_eq (by simp), Draft.path, none]
        simp [List.isPrefixOf]
      simp [leaveSingleBodies, outside]
  | succ bound ih =>
    obtain ⟨more, rfl⟩ := Nat.exists_eq_add_of_le' (Nat.le_trans (Nat.le_add_left 1 bound) larger)
    rw [leaveSingleBodies, leaveSingleBodies]
    cases isBody : builder.tree.ancestor builder.cursor 2 with
    | none => rfl
    | some body =>
      dsimp only
      rw [stands.cursor] at isBody
      rcases stands.shown.ups_of_ancestor isBody with ⟨within, rfl⟩
      generalize (if builder.tree.ancestorIs (draft.ups 2).id 1 .elseClause then 3 else 2) = levels
      cases isTarget : builder.tree.ancestor (draft.ups 2).id levels with
      | none => rfl
      | some target =>
        rcases (stands.shown.ups 2).ups_of_ancestor isTarget with ⟨withinToo, rfl⟩
        rcases Builder.Stands.moveTo ((stands.shown.ups 2).ups levels) with ⟨moved, isMoved, there⟩
        have shorter := Draft.length_outer_ups within
        have shorterToo := Draft.length_outer_ups withinToo
        dsimp only
        rw [isMoved, ok_bind, ok_bind, ih there (by omega) (by omega)]

/-- All finished bodies are left, however many there are. -/
theorem Builder.Stands.leaveSingleBodies_eq {builder : Builder} (stands : builder.Stands draft)
    (enough : builder.tree.size ≤ bound) :
    builder.leaveSingleBodies bound = builder.leaveSingleBodies builder.tree.size :=
  stands.leaveSingleBodies_eq_of_le (Nat.le_of_lt stands.shown.length_outer_lt) enough

/-- All comments that leave a container are found, however deep they are. -/
theorem Tree.Shows.moveOwnLineComments_eq {levels : Nat} (within : levels < draft.outer.length)
    (regular : ∀ child ∈ draft.children, child.Regular) {opened : List (NodeId × NodeKind)}
    {ready : List Outline} {id : NodeId} {kind : NodeKind}
    (shown : tree.Shows ((((draft.ups (levels + 1)).enters opened).addAll ready).enter id kind))
    (enough : tree.size ≤ bound) :
    tree.moveOwnLineComments draft.id id bound =
      tree.moveOwnLineComments draft.id id tree.size := by
  rcases shown.moveOwnLineComments within regular enough with ⟨grown, moved, _, after⟩
  rcases shown.moveOwnLineComments within regular (Nat.le_refl _) with
    ⟨other, movedToo, _, afterToo⟩
  rw [moved, movedToo, after.eq_of_outline afterToo rfl]

end Bounds

/-- Every token list has a tree that can be laid out in every style, and so every script is
formatted. -/
theorem format_total :
    (∀ list, ∃ tree, Tree.ofTokens list = .ok tree ∧
      ∀ style warning, ∃ text, tree.format style warning = .ok text) ∧
    ∀ style script warning, ∃ result, format style script warning = .ok result := by
  have laidOut : ∀ list, ∃ tree, Tree.ofTokens list = .ok tree ∧
      ∀ style warning, ∃ text, tree.format style warning = .ok text := by
    intro list
    obtain ⟨tree, draft, isOk, shown, built⟩ := Tree.ofTokens_shows list
    exact ⟨tree, isOk, shown.format_ok built.sound⟩
  refine ⟨laidOut, fun style script warning => ?_⟩
  obtain ⟨tree, isOk, formats⟩ := laidOut (.ofText script)
  obtain ⟨text, isText⟩ := formats style warning
  exact ⟨_, format_eq_ok isOk isText⟩

/-- A script without regions of kept text is formatted as the pieces of its tree, in document order
and each once, with spaces, line breaks and indentation around them. A warning comes first if
reading needed error recovery. -/
theorem format_spaced (style : Style) (script warning : String)
    (quiet : (TokenList.ofText script).Quiet) :
    ∃ tree text, Tree.ofText script = .ok tree ∧
      format style script warning =
        .ok { text := tree.warningText warning ++ text, parseError := tree.hasError } ∧
      style.Spaced ((tree.outline Tree.root).pieces style.wording) text := by
  obtain ⟨tree, draft, isOk, shown, built⟩ := Tree.ofTokens_shows (.ofText script)
  have outlineQuiet := built.quiet (TokenList.faithful_ofText script) quiet
  obtain ⟨text, isText, spaced⟩ := shown.format_pieces built.sound outlineQuiet style warning
  exact ⟨tree, text, isOk, format_eq_ok isOk isText, shown.outline_eq ▸ spaced⟩

theorem format_spaced_example :
    (TokenList.ofText "select (a) -- first\nfrom /* second */ t").Quiet ∧
      ∃ tree text, Tree.ofText "select (a) -- first\nfrom /* second */ t" = .ok tree ∧
        format {} "select (a) -- first\nfrom /* second */ t" defaultWarning =
          .ok { text := tree.warningText defaultWarning ++ text, parseError := tree.hasError } ∧
        Style.Spaced {} ((tree.outline Tree.root).pieces (Style.wording {})) text :=
  have quiet : (TokenList.ofText "select (a) -- first\nfrom /* second */ t").Quiet := by
    decide +kernel
  ⟨quiet, format_spaced {} _ defaultWarning quiet⟩

end SqlLayout
