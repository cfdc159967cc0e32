import SqlLayout.Proofs.Formatting
import SqlLayout.Proofs.Likeness.Document

/-!
# The amount of white space

A blank counts for nothing but the line break that it may hold. An outline whose blanks are pressed
to that is laid out as the outline itself, unless a region of text is kept. Two scripts that differ
in the amount of white space have the same pressed outline, and so they are formatted alike.
-/

namespace SqlLayout

/-- The text of a node, a blank pressed to the line break that it holds, if it holds one. -/
def NodeKind.pressed : NodeKind → String → String
  | .whiteSpace, text => if containsLineBreak text then "\n" else ""
  | _, text => text

theorem NodeKind.pressed_of_ne {kind : NodeKind} (written : kind ≠ .whiteSpace) (text : String) :
    kind.pressed text = text := by
  cases kind
  case whiteSpace => exact absurd rfl written
  all_goals rfl

theorem NodeKind.containsLineBreak_pressed (kind : NodeKind) (text : String) :
    containsLineBreak (kind.pressed text) = containsLineBreak text := by
  by_cases isBlank : kind = .whiteSpace
  · subst isBlank
    rw [pressed]
    split
    next breaks => rw [breaks]; rfl
    next unbroken => simpa [containsLineBreak] using unbroken
  · rw [pressed_of_ne isBlank]

/-- Texts that only differ in the amount of white space are pressed to the same text. -/
theorem NodeKind.Reads.pressed {likeness : Likeness} {kind : NodeKind} {text other : String}
    (reads : kind.Reads likeness text other) (exact : likeness.exact) :
    kind.pressed text = kind.pressed other := by
  by_cases isBlank : kind = .whiteSpace
  · subst isBlank
    rw [NodeKind.pressed, NodeKind.pressed, reads.breaks (.inl rfl)]
  · rw [reads.exact exact isBlank]

/-! ### Pressed outlines -/

namespace Outline

mutual

def pressed : Outline → Outline
  | node id kind text attributes children =>
      node id kind (kind.pressed text) attributes (pressedOfList children)

def pressedOfList : List Outline → List Outline
  | [] => []
  | first :: rest => pressed first :: pressedOfList rest

end

theorem pressedOfList_eq (outlines : List Outline) :
    pressedOfList outlines = outlines.map pressed := by
  induction outlines with
  | nil => rw [pressedOfList, List.map_nil]
  | cons first rest ih => rw [pressedOfList, ih, List.map_cons]

theorem pressed_node (id : NodeId) (kind : NodeKind) (text : String) (attributes : Attributes)
    (children : List Outline) :
    (node id kind text attributes children).pressed =
      node id kind (kind.pressed text) attributes (children.map pressed) := by
  rw [pressed, pressedOfList_eq]

section Pressed

variable (outline : Outline)

@[simp]
theorem kind_pressed : outline.pressed.kind = outline.kind := by
  cases outline
  rw [pressed_node]
  rfl

theorem text_pressed : outline.pressed.text = outline.kind.pressed outline.text := by
  cases outline
  rw [pressed_node]
  rfl

theorem children_pressed : outline.pressed.children = outline.children.map pressed := by
  cases outline
  rw [pressed_node]
  rfl

theorem hasContent_pressed : outline.pressed.hasContent = outline.hasContent := by
  simp [hasContent, children_pressed, List.any_map, Function.comp_def]

theorem childrenOf_pressed (kind : NodeKind) :
    outline.pressed.childrenOf kind = (outline.childrenOf kind).map pressed := by
  simp [childrenOf, children_pressed, List.filter_map, Function.comp_def]

theorem holdsIf_pressed : outline.pressed.holdsIf = outline.holdsIf := by
  simp [holdsIf, childrenOf_pressed, children_pressed, List.any_map, Function.comp_def]

theorem firstSemanticElement_pressed :
    outline.pressed.firstSemanticElement = outline.firstSemanticElement.map pressed := by
  induction outline with
  | node id kind text attributes children ih =>
    rw [pressed_node, firstSemanticElement, firstSemanticElement]
    induction children with
    | nil => rfl
    | cons first rest later =>
      obtain ⟨here, others⟩ := List.forall_mem_cons.mp ih
      rw [List.map_cons, firstSemanticOfList, firstSemanticOfList, kind_pressed, later others, here]
      split
      · rfl
      · split <;> rfl

theorem starter?_pressed : outline.pressed.starter? = outline.starter? := by
  rw [starter?, starter?, firstSemanticElement_pressed]
  cases outline.firstSemanticElement with
  | none => rfl
  | some first =>
    dsimp only [Option.map_some]
    rw [kind_pressed]
    split
    next isKeyword => rw [text_pressed, NodeKind.pressed_of_ne (by simp [isKeyword])]
    · rfl

end Pressed

end Outline

def Place.pressed (place : Place) : Place :=
  { place with next := place.next.map Outline.pressed }

theorem Place.breaksAfter_pressed (place : Place) :
    place.pressed.breaksAfter = place.breaksAfter := by
  rw [breaksAfter, breaksAfter, pressed, Option.any_map]
  simp [Outline.text_pressed, NodeKind.containsLineBreak_pressed]

/-- The plan of a node only asks of a blank whether it breaks the line. -/
theorem LayoutStep.plan_pressed (style : Style) (place : Place) (outline : Outline) :
    plan style place.pressed outline.pressed = plan style place outline := by
  obtain ⟨id, kind, text, attributes, children⟩ := outline
  have starter := (Outline.node id kind text attributes children).starter?_pressed
  have content := (Outline.node id kind text attributes children).hasContent_pressed
  have holdsIf := (Outline.node id kind text attributes children).holdsIf_pressed
  have breaks := NodeKind.containsLineBreak_pressed kind text
  rw [Outline.pressed_node] at starter content holdsIf ⊢
  -- Only the kinds named below look further than the text of a node that is no blank.
  cases kind
  case statement => simp only [plan, Outline.node_kind, starter]
  case caseInput | booleanExpression | lowerBound | upperBound =>
    simp only [plan, Outline.node_kind, content]
  case containerSingleStatementBody | containerMultiStatementBody | mergeAction =>
    simp only [plan, Outline.node_kind, holdsIf]
    rfl
  case blockComment =>
    simp only [plan, Outline.node_kind, blockComment, place.breaksAfter_pressed]
    rfl
  case whiteSpace => simp only [plan, Outline.node_kind, Outline.text, breaks]
  all_goals rfl

/-! ### Layout -/

/-- The same writer, outside of regions of kept text. -/
structure Writer.Alike (writer other : Writer) : Prop where
  same : writer = other
  free : writer.region = none

/-- An action looks at the tree only to close a region. -/
theorem Action.Quiet.apply_alike {action : Action} (quiet : action.Quiet) (style : Style)
    (tree twin : Tree) {writer other : Writer} (alike : writer.Alike other) :
    (action.apply style tree writer).Alike (action.apply style twin other) := by
  obtain ⟨rfl, free⟩ := alike
  refine ⟨?_, ((adds_apply quiet style tree writer).written free).1⟩
  cases action
  case comment => simp [apply, Writer.comment, Writer.closeRegion?, free]
  all_goals rfl

/-- Behind what was laid out apart, a region is open if it is still open there. -/
theorem Writer.region_enclose (writer inner : Writer) (style : Style) :
    (writer.enclose inner style).region = inner.region := by
  unfold enclose
  split
  · exact (puts_newLine _ style).1
  · rfl

namespace Outline

/-- Two documents, whatever their trees, lay an outline and the pressed one out alike. -/
def LaysAlike (style : Style) (tree twin : Tree) (outline : Outline) : Prop :=
  ∀ (place : Place) (writer other : Writer), writer.Alike other →
    Agree Writer.Alike (outline.layOut style tree place writer)
      (outline.pressed.layOut style twin place.pressed other)

variable {style : Style} {tree twin : Tree} {outlines : List Outline}

theorem layOutList_pressed (each : ∀ outline ∈ outlines, outline.LaysAlike style tree twin)
    (ancestors : List NodeKind) (selects : NodeKind → Bool) {writer other : Writer}
    (alike : writer.Alike other) :
    Agree Writer.Alike (layOutList style tree ancestors selects writer outlines)
      (layOutList style twin ancestors selects other (outlines.map pressed)) := by
  induction outlines generalizing writer other with
  | nil =>
    rw [List.map_nil, layOutList, layOutList]
    exact .ok alike
  | cons first rest ih =>
    obtain ⟨here, later⟩ := List.forall_mem_cons.mp each
    have laid := here { ancestors, next := rest.head? } writer other alike
    rw [Place.pressed, ← List.head?_map] at laid
    rw [List.map_cons, layOutList, layOutList, kind_pressed]
    refine .ite rfl ?_ (ih later alike)
    rcases laid.inversion with ⟨error, failed, failedTwin⟩ | ⟨next, after, laid, laidTwin, alike⟩
    · rw [failed, failedTwin]
      exact .error error
    · rw [laid, laidTwin]
      exact ih later alike

theorem layOutKeyword_pressed (each : ∀ outline ∈ outlines, outline.LaysAlike style tree twin)
    (ancestors : List NodeKind) {writer other : Writer} (alike : writer.Alike other) :
    Agree Writer.Alike (layOutKeyword style tree ancestors writer outlines)
      (layOutKeyword style twin ancestors other (outlines.map pressed)) := by
  induction outlines with
  | nil =>
    rw [List.map_nil, layOutKeyword, layOutKeyword]
    exact .error _
  | cons first rest ih =>
    obtain ⟨here, later⟩ := List.forall_mem_cons.mp each
    have laid := here { ancestors, next := rest.head? } writer other alike
    rw [Place.pressed, ← List.head?_map] at laid
    rw [List.map_cons, layOutKeyword, layOutKeyword, kind_pressed]
    split
    · exact laid
    · exact ih later

/-- Without regions of kept text, an outline is laid out as the pressed one, whatever the trees
are. -/
theorem Quiet.laysAlike {outline : Outline} (quiet : outline.Quiet) (style : Style)
    (tree twin : Tree) : outline.LaysAlike style tree twin := by
  induction outline with
  | node id kind text attributes children ih =>
    intro place writer other alike
    have each : ∀ child ∈ children, child.LaysAlike style tree twin :=
      fun child member => ih child member (quiet.child child member)
    have isPlan := LayoutStep.plan_pressed style place (.node id kind text attributes children)
    rw [pressed_node] at isPlan ⊢
    rw [layOut, layOut, isPlan]
    -- The plans are the same, so the steps are taken side by side; only what they are taken in
    -- differs.
    refine .foldlM (fun step member writer other alike => ?_) alike
    have quietStep := LayoutStep.plan_quiet style place quiet.own step member
    cases step with
    | act action => exact .ok (Action.Quiet.apply_alike quietStep style tree twin alike)
    | children => exact layOutList_pressed each _ _ alike
    | childrenOf part => exact layOutList_pressed each _ _ alike
    | comments => exact layOutList_pressed each _ _ alike
    | firstKeyword => exact layOutKeyword_pressed each _ alike
    | enclosed =>
      obtain ⟨rfl, free⟩ := alike
      have inner : writer.inner.Alike writer.inner := ⟨rfl, free⟩
      refine (layOutList_pressed each _ _ inner).map ?_
      rintro inside _ ⟨rfl, closed⟩
      exact ⟨rfl, (writer.region_enclose inside style).trans closed⟩
    | fail error => exact .error error

end Outline

namespace Tree

/-- Alike trees with the same blanks but for their amount have the same pressed outline. -/
theorem Alike.outline_pressed {likeness : Likeness} {tree twin : Tree}
    (alike : tree.Alike likeness twin) (exact : likeness.exact) (unbroken : likeness.unbroken) :
    (tree.outline Tree.root).pressed = (twin.outline Tree.root).pressed := by
  have own (id : NodeId) : (twin.kind id).pressed (tree.text id) =
      (twin.kind id).pressed (twin.text id) := by
    rw [← alike.kind]
    exact (alike.reads id).pressed exact
  have within (bound : Nat) (id : NodeId) :
      (tree.outlineWithin bound id).pressed = (twin.outlineWithin bound id).pressed := by
    induction bound generalizing id with
    | zero =>
      simp only [outlineWithin, Outline.pressed_node, own, alike.kind, alike.attributes unbroken]
    | succ bound ih =>
      simp only [outlineWithin, Outline.pressed_node, own, alike.kind, alike.attributes unbroken,
        alike.children, List.map_map, Function.comp_def, ih]
  rw [outline, outline, alike.size]
  exact within twin.size Tree.root

/-- Without regions of kept text, the text of a document depends on its pressed outline only, and on
whether it needed error recovery. -/
theorem format_eq_pressed {tree : Tree} (quiet : (tree.outline root).Quiet) (style : Style)
    (warning : String) :
    tree.format style warning =
      ((tree.outline root).pressed.layOut style .empty {} (tree.opening style warning)).map
        fun writer => (writer.settle style).output style := by
  have start : (tree.opening style warning).Alike (tree.opening style warning) :=
    ⟨rfl, tree.region_opening style warning⟩
  have laid : Agree Writer.Alike _
      ((tree.outline root).pressed.layOut style .empty {} (tree.opening style warning)) :=
    quiet.laysAlike style tree .empty {} _ _ start
  rw [format_eq]
  rcases laid.inversion with ⟨error, here, there⟩ | ⟨after, _, here, there, rfl, free⟩
  · rw [here, there]
    rfl
  · rw [here, there, Except.map, Except.map, ending, (Writer.puts_settle after style).1, free]

end Tree

/-! ### Scripts -/

/-- Two tokens that are the same but for the amount of white space. -/
structure Token.Respaced (token other : Token) : Prop where
  kind : token.kind = other.kind
  value : token.kind ≠ .whiteSpace → token.value = other.value
  breaks : token.kind = .whiteSpace → containsLineBreak token.value = containsLineBreak other.value

instance (token other : Token) : Decidable (token.Respaced other) :=
  decidable_of_iff
    (token.kind = other.kind ∧ (token.kind ≠ .whiteSpace → token.value = other.value) ∧
      (token.kind = .whiteSpace → containsLineBreak token.value = containsLineBreak other.value))
    ⟨fun all => ⟨all.1, all.2.1, all.2.2⟩, fun same => ⟨same.kind, same.value, same.breaks⟩⟩

/-- Two token lists that are the same but for the amount of white space. -/
structure TokenList.Respaced (list other : TokenList) : Prop where
  tokens : List.Forall₂ Token.Respaced list.tokens other.tokens
  unfinished : list.unfinished = other.unfinished

instance (list other : TokenList) : Decidable (list.Respaced other) :=
  decidable_of_iff
    (List.Forall₂ Token.Respaced list.tokens other.tokens ∧ list.unfinished = other.unfinished)
    ⟨fun both => ⟨both.1, both.2⟩, fun same => ⟨same.tokens, same.unfinished⟩⟩

namespace TokenList.Respaced

variable {list other : TokenList} (respaced : list.Respaced other)
include respaced

theorem quiet (quiet : list.Quiet) : other.Quiet := by
  intro token member isComment
  obtain ⟨index, found⟩ := List.mem_iff_getElem?.mp member
  rcases getElem?_of_forall₂ respaced.tokens index with
    ⟨_, missing⟩ | ⟨twin, _, isTwin, isToken, same⟩
  · rw [found] at missing
    cases missing
  · obtain rfl := Option.some.inj (found.symm.trans isToken)
    rw [← same.kind] at isComment
    have written : twin.kind ≠ .whiteSpace := by
      intro isBlank
      rw [isBlank] at isComment
      cases isComment
    rw [← same.value written]
    exact quiet twin (List.mem_of_getElem? isTwin) isComment

/-- Where no blank lies inside a word, the grammar does not tell the lists apart. -/
theorem alike (spaceless : ∀ token ∈ list.tokens, token.kind = .word → ' ' ∉ token.value.toList) :
    List.Forall₂ (Token.Alike { exact := True, unbroken := True }) list.tokens other.tokens := by
  refine ((List.forall₂_and_left _ _).mpr ⟨spaceless, respaced.tokens⟩).imp ?_
  rintro token twin ⟨spaceless, same⟩
  have value (written : token.kind ≠ .whiteSpace) := same.value written
  refine ⟨same.kind, fun isWord => ?_, fun isEither => ?_, fun _ => value, fun _ isWord => ?_⟩
  · rw [value (by simp [isWord])]
  · rcases isEither with isBlank | isBlock
    · exact same.breaks isBlank
    · rw [value (by simp [isBlock])]
  · exact Text.notMem_upper (by decide) (spaceless isWord)

end TokenList.Respaced

theorem Tree.quiet_outline {script : String} {tree : Tree} (isTree : Tree.ofText script = .ok tree)
    (quiet : (TokenList.ofText script).Quiet) : (tree.outline Tree.root).Quiet := by
  obtain ⟨_, draft, isOk, shown, built⟩ := Tree.ofTokens_shows (.ofText script)
  obtain rfl := Except.ok.inj (isTree.symm.trans isOk)
  rw [shown.outline_eq]
  exact built.quiet (TokenList.faithful_ofText script) quiet

/-- The amount of white space never influences the result: two scripts without regions of kept text
whose tokens are the same, up to blanks that agree in holding a line break, are formatted alike in
every style. -/
theorem format_respaced {script other : String}
    (respaced : (TokenList.ofText script).Respaced (.ofText other))
    (quiet : (TokenList.ofText script).Quiet) (style : Style) (warning : String) :
    ∃ result, format style script warning = .ok result ∧
      format style other warning = .ok result := by
  have spaceless : ∀ token ∈ (TokenList.ofText script).tokens, token.kind = .word →
      ' ' ∉ token.value.toList := by
    intro token member isWord inside
    have solid := TokenList.not_isBlank_ofText script token member (by rw [isWord]; rfl) ' ' inside
    exact absurd solid (by decide)
  obtain ⟨tree, twin, isTree, isTwin, alike⟩ :=
    Tree.ofTokens_alike (respaced.alike spaceless) respaced.unfinished
  have sameError : tree.hasError = twin.hasError := by
    rw [Tree.hasError, Tree.hasError, Tree.attributeOf, Tree.attributeOf, alike.attributes trivial]
  have sameOutline := alike.outline_pressed trivial trivial
  have sameText : tree.format style warning = twin.format style warning := by
    rw [Tree.format_eq_pressed (Tree.quiet_outline isTree quiet), sameOutline,
      Tree.opening, sameError, ← Tree.opening,
      ← Tree.format_eq_pressed (Tree.quiet_outline isTwin (respaced.quiet quiet))]
  -- What is left is that there is a result at all.
  obtain ⟨_, draft, isOk, shown, built⟩ := Tree.ofTokens_shows (.ofText script)
  obtain rfl := Except.ok.inj (isTree.symm.trans isOk)
  obtain ⟨text, isText⟩ := shown.format_ok built.sound style warning
  refine ⟨_, format_eq_ok isTree isText, ?_⟩
  rw [sameError]
  exact format_eq_ok isTwin (sameText ▸ isText)

theorem format_respaced_example :
    ((TokenList.ofText "SELECT a -- b\n,(c /* d */\n)FROM t").Respaced
        (.ofText "SELECT\t a  -- b\n,(c /* d */ \r\n\n )FROM  t") ∧
      (TokenList.ofText "SELECT a -- b\n,(c /* d */\n)FROM t").Quiet) ∧
      ∃ result,
        format { maxWidth := 20 } "SELECT a -- b\n,(c /* d */\n)FROM t" defaultWarning =
          .ok result ∧
        format { maxWidth := 20 } "SELECT\t a  -- b\n,(c /* d */ \r\n\n )FROM  t" defaultWarning =
          .ok result :=
  have respaced : (TokenList.ofText "SELECT a -- b\n,(c /* d */\n)FROM t").Respaced
      (.ofText "SELECT\t a  -- b\n,(c /* d */ \r\n\n )FROM  t") := by decide +kernel
  have quiet : (TokenList.ofText "SELECT a -- b\n,(c /* d */\n)FROM t").Quiet := by decide +kernel
  ⟨⟨respaced, quiet⟩, format_respaced respaced quiet { maxWidth := 20 } defaultWarning⟩

end SqlLayout
