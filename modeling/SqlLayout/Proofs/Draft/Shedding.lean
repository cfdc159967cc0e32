import SqlLayout.Proofs.Draft.Symbols

/-!
# Comments that leave a container

A comment on a line of its own at the end of a container belongs to what follows the container.
`shed` splits an outline into what stays and the blanks and comments that leave it, from the first
such comment on, at every level of the last contents.
-/

namespace SqlLayout

namespace Outline

variable {outlines rest : List Outline} {outline first : Outline}

def breaksLine (outline : Outline) : Bool :=
  outline.kind == .whiteSpace && containsLineBreak outline.text

/-- Splits blanks and comments before the first comment that starts its line; `broken` tells whether
a line break comes right before them. -/
def splitOwnLine (broken : Bool) : List Outline → List Outline × List Outline
  | [] => ([], [])
  | first :: rest =>
      if broken && first.kind.isComment then ([], first :: rest)
      else
        let split := splitOwnLine first.breaksLine rest
        (first :: split.1, split.2)

/-- Whether comments may hide at the end of a node, given what follows it: a container, and not
right before a comment. -/
def mayHide (outline : Outline) (behind : List Outline) : Bool :=
  !outline.kind.isTrivia && outline.text == "" && !behind.head?.any (·.kind.isComment)

def anyContent (outlines : List Outline) : Bool :=
  outlines.any fun outline => !outline.kind.isTrivia

mutual

def shed : Outline → Outline × List Outline
  | node id kind text attributes children =>
      let split := shedList children
      (node id kind text attributes split.1, split.2)

def shedList : List Outline → List Outline × List Outline
  | [] => ([], [])
  | first :: rest =>
      if anyContent rest then
        let split := shedList rest
        (first :: split.1, split.2)
      else
        let split := splitOwnLine first.breaksLine rest
        if first.mayHide rest then
          let inner := shed first
          (inner.1 :: split.1, inner.2 ++ split.2)
        else (first :: split.1, split.2)

end

theorem shed_node (id : NodeId) (kind : NodeKind) (text : String) (attributes : Attributes)
    (children : List Outline) :
    (node id kind text attributes children).shed =
      (node id kind text attributes (shedList children).1, (shedList children).2) := by
  rw [shed]

theorem shedList_nil : shedList [] = ([], []) := by
  rw [shedList]

theorem shedList_cons (first : Outline) (rest : List Outline) :
    shedList (first :: rest) =
      if anyContent rest then (first :: (shedList rest).1, (shedList rest).2)
      else if first.mayHide rest then
        ((shed first).1 :: (splitOwnLine first.breaksLine rest).1,
          (shed first).2 ++ (splitOwnLine first.breaksLine rest).2)
      else (first :: (splitOwnLine first.breaksLine rest).1,
        (splitOwnLine first.breaksLine rest).2) := by
  rw [shedList]

theorem shed_eq (outline : Outline) :
    outline.shed = (node outline.id outline.kind outline.text outline.attributes
      (shedList outline.children).1, (shedList outline.children).2) := by
  cases outline
  exact shed_node ..

/-- An induction that follows the last contents down: siblings are passed as long as content
follows, and then either nothing hides in the last of them or its children are next. -/
@[elab_as_elim]
theorem induction_on_tail {motive : List Outline → Prop} (nil : motive [])
    (pass : ∀ first rest, anyContent rest = true → motive rest → motive (first :: rest))
    (stop : ∀ first rest, anyContent rest = false → first.mayHide rest = false →
      motive (first :: rest))
    (inner : ∀ first rest, anyContent rest = false → first.mayHide rest = true →
      motive first.children → motive (first :: rest)) (outlines : List Outline) :
    motive outlines := by
  have siblings : ∀ outlines : List Outline, (∀ outline ∈ outlines, motive outline.children) →
      motive outlines := by
    intro outlines below
    induction outlines with
    | nil => exact nil
    | cons first rest ih =>
      cases content : anyContent rest with
      | true =>
        exact pass first rest content (ih fun outline member => below outline (.tail _ member))
      | false =>
        cases hides : first.mayHide rest with
        | false => exact stop first rest content hides
        | true => exact inner first rest content hides (below first (.head _))
  have below : ∀ outline : Outline, motive outline.children := by
    intro outline
    induction outline with
    | node id kind text attributes children ih => exact siblings children ih
  exact siblings outlines fun outline _ => below outline

theorem splitOwnLine_append (broken : Bool) (outlines : List Outline) :
    (splitOwnLine broken outlines).1 ++ (splitOwnLine broken outlines).2 = outlines := by
  induction outlines generalizing broken with
  | nil => rfl
  | cons first rest ih =>
    rw [splitOwnLine]
    split
    · rfl
    · simp [ih]

/-- Whether a line break comes right before the end. -/
def endsBroken (broken : Bool) (outlines : List Outline) : Bool :=
  (outlines.getLast?.map breaksLine).getD broken

theorem splitOwnLine_concat (broken : Bool) (outlines : List Outline) (last : Outline) :
    splitOwnLine broken (outlines ++ [last]) =
      if (splitOwnLine broken outlines).2 = [] then
        if endsBroken broken outlines && last.kind.isComment then (outlines, [last])
        else (outlines ++ [last], [])
      else ((splitOwnLine broken outlines).1, (splitOwnLine broken outlines).2 ++ [last]) := by
  induction outlines generalizing broken with
  | nil =>
    simp only [List.nil_append, splitOwnLine, endsBroken, List.getLast?_nil, Option.map_none,
      Option.getD_none, if_true]
    rfl
  | cons first rest ih =>
    have ending : endsBroken broken (first :: rest) = endsBroken first.breaksLine rest := by
      rw [endsBroken, List.getLast?_cons, endsBroken]
      cases rest.getLast? <;> rfl
    rw [List.cons_append, splitOwnLine, ending, ih, splitOwnLine]
    split
    · simp
    · dsimp only
      split
      · split <;> rfl
      · rfl

theorem isTrivia_of_mem (none : anyContent outlines = false) (member : outline ∈ outlines) :
    outline.kind.isTrivia = true := by
  simpa [anyContent] using List.any_eq_false.mp none outline member

theorem anyContent_eq_false (trivia : ∀ outline ∈ outlines, outline.kind.isTrivia = true) :
    anyContent outlines = false := by
  simpa [anyContent] using trivia

/-! ### The three ways to go on -/

theorem shedList_pass (content : anyContent rest = true) :
    shedList (first :: rest) = (first :: (shedList rest).1, (shedList rest).2) := by
  rw [shedList_cons, if_pos content]

theorem shedList_stop (content : anyContent rest = false) (hides : first.mayHide rest = false) :
    shedList (first :: rest) = (first :: (splitOwnLine first.breaksLine rest).1,
      (splitOwnLine first.breaksLine rest).2) := by
  rw [shedList_cons, if_neg (by simp [content]), if_neg (by simp [hides])]

theorem shedList_inner (content : anyContent rest = false) (hides : first.mayHide rest = true) :
    shedList (first :: rest) =
      (.node first.id first.kind first.text first.attributes (shedList first.children).1 ::
          (splitOwnLine first.breaksLine rest).1,
        (shedList first.children).2 ++ (splitOwnLine first.breaksLine rest).2) := by
  rw [shedList_cons, if_neg (by simp [content]), if_pos hides, shed_eq]

theorem mem_of_mem_split {broken : Bool}
    (member : outline ∈ (splitOwnLine broken outlines).1 ∨
      outline ∈ (splitOwnLine broken outlines).2) : outline ∈ outlines := by
  rw [← splitOwnLine_append broken outlines]
  exact List.mem_append.mpr member

theorem isTrivia_of_mem_shedList :
    ∀ outline ∈ (shedList outlines).2, outline.kind.isTrivia = true := by
  induction outlines using induction_on_tail with
  | nil => simp [shedList_nil]
  | pass first rest content ih => simpa [shedList_pass content] using ih
  | stop first rest content hides =>
    rw [shedList_stop content hides]
    exact fun outline member => isTrivia_of_mem content (mem_of_mem_split (.inr member))
  | inner first rest content hides ih =>
    rw [shedList_inner content hides]
    intro outline member
    rcases List.mem_append.mp member with below | beside
    · exact ih outline below
    · exact isTrivia_of_mem content (mem_of_mem_split (.inr beside))

/-- What stays is the front of the container, as far as kinds and texts go, and what is missing from
it are blanks and comments. -/
theorem exists_parts_shedList (outlines : List Outline) :
    ∃ moved : List Outline, (∀ outline ∈ moved, outline.kind.isTrivia = true) ∧
      (shedList outlines).1.map Outline.part ++ moved.map Outline.part =
        outlines.map Outline.part := by
  induction outlines using induction_on_tail with
  | nil => exact ⟨[], by simp [shedList_nil]⟩
  | pass first rest content ih =>
    obtain ⟨moved, trivia, parts⟩ := ih
    exact ⟨moved, trivia, by simpa [shedList_pass content] using parts⟩
  | stop first rest content hides =>
    refine ⟨(splitOwnLine first.breaksLine rest).2, fun outline member =>
      isTrivia_of_mem content (mem_of_mem_split (.inr member)), ?_⟩
    rw [shedList_stop content hides, ← List.map_append, List.cons_append, splitOwnLine_append]
  | inner first rest content hides ih =>
    refine ⟨(splitOwnLine first.breaksLine rest).2, fun outline member =>
      isTrivia_of_mem content (mem_of_mem_split (.inr member)), ?_⟩
    rw [shedList_inner content hides, List.map_cons, List.cons_append, ← List.map_append,
      splitOwnLine_append]
    rfl

theorem exists_kinds_shedList (outlines : List Outline) :
    ∃ moved : List Outline, (∀ outline ∈ moved, outline.kind.isTrivia = true) ∧
      (shedList outlines).1.map Outline.kind ++ moved.map Outline.kind =
        outlines.map Outline.kind := by
  rcases exists_parts_shedList outlines with ⟨moved, trivia, parts⟩
  refine ⟨moved, trivia, ?_⟩
  have kinds := congrArg (List.map Prod.fst) parts
  rw [List.map_append, List.map_map, List.map_map, List.map_map] at kinds
  exact kinds

theorem shedList_eq_self (none : (shedList outlines).2 = []) :
    (shedList outlines).1 = outlines := by
  induction outlines using induction_on_tail with
  | nil => rw [shedList_nil]
  | pass first rest content ih =>
    rw [shedList_pass content] at none ⊢
    rw [ih none]
  | stop first rest content hides =>
    rw [shedList_stop content hides] at none ⊢
    have whole := splitOwnLine_append first.breaksLine rest
    rw [none, List.append_nil] at whole
    rw [whole]
  | inner first rest content hides ih =>
    rw [shedList_inner content hides] at none ⊢
    obtain ⟨below, beside⟩ := List.append_eq_nil_iff.mp none
    have whole := splitOwnLine_append first.breaksLine rest
    rw [beside, List.append_nil] at whole
    rw [whole, ih below]
    cases first
    rfl

theorem anyContent_append (front back : List Outline) :
    anyContent (front ++ back) = (anyContent front || anyContent back) := by
  simp [anyContent]

theorem anyContent_shedList (outlines : List Outline) :
    anyContent (shedList outlines).1 = anyContent outlines := by
  obtain ⟨moved, trivia, kinds⟩ := exists_kinds_shedList outlines
  have onKinds : ∀ some : List Outline,
      anyContent some = (some.map Outline.kind).any fun kind => !kind.isTrivia := by
    simp [anyContent, Function.comp_def]
  rw [onKinds outlines, ← kinds, ← List.map_append, ← onKinds, anyContent_append,
    anyContent_eq_false trivia, Bool.or_false]

theorem splitOwnLine_kept (broken : Bool) (outlines : List Outline) :
    splitOwnLine broken (splitOwnLine broken outlines).1 =
      ((splitOwnLine broken outlines).1, []) := by
  induction outlines generalizing broken with
  | nil => rfl
  | cons first rest ih =>
    rw [splitOwnLine]
    split
    · rfl
    next stays => simp [splitOwnLine, stays, ih]

/-- Whether comments may hide in a node depends on what stays behind it. -/
theorem mayHide_kept (first : Outline) (rest : List Outline) :
    first.mayHide (splitOwnLine first.breaksLine rest).1 = first.mayHide rest := by
  cases rest with
  | nil => rfl
  | cons next others =>
    rw [splitOwnLine]
    split
    next starts =>
      -- A comment that leaves comes right after a blank, in which nothing hides.
      have blank : first.kind.isTrivia = true := by
        simp only [breaksLine, Bool.and_eq_true, beq_iff_eq] at starts
        simp [NodeKind.isTrivia, starts.1.1]
      simp [mayHide, blank]
    next => simp [mayHide]

theorem mayHide_congr {other : Outline} (kind : other.kind = first.kind)
    (text : other.text = first.text) (rest : List Outline) :
    other.mayHide rest = first.mayHide rest := by
  simp [mayHide, kind, text]

theorem shedList_kept (outlines : List Outline) : (shedList (shedList outlines).1).2 = [] := by
  induction outlines using induction_on_tail with
  | nil => simp [shedList_nil]
  | pass first rest content ih =>
    rw [shedList_pass content]
    have stays : anyContent (shedList rest).1 = true := (anyContent_shedList rest).trans content
    rw [shedList_pass stays, ih]
  | stop first rest content hides =>
    rw [shedList_stop content hides]
    have stays : anyContent (splitOwnLine first.breaksLine rest).1 = false :=
      anyContent_eq_false fun outline member =>
        isTrivia_of_mem content (mem_of_mem_split (.inl member))
    rw [shedList_stop stays ((mayHide_kept first rest).trans hides), splitOwnLine_kept]
  | inner first rest content hides ih =>
    rw [shedList_inner content hides]
    have stays : anyContent (splitOwnLine first.breaksLine rest).1 = false :=
      anyContent_eq_false fun outline member =>
        isTrivia_of_mem content (mem_of_mem_split (.inl member))
    have hidden : mayHide (.node first.id first.kind first.text first.attributes
        (shedList first.children).1) (splitOwnLine first.breaksLine rest).1 = true :=
      ((mayHide_congr rfl rfl _).trans (mayHide_kept first rest)).trans hides
    have breaks : breaksLine (.node first.id first.kind first.text first.attributes
        (shedList first.children).1) = first.breaksLine := rfl
    rw [shedList_inner stays hidden, breaks, splitOwnLine_kept]
    exact List.append_eq_nil_iff.mpr ⟨ih, rfl⟩

theorem shedList_before (content : first.kind.isTrivia = false) (before behind : List Outline) :
    shedList (before ++ first :: behind) =
      (before ++ (shedList (first :: behind)).1, (shedList (first :: behind)).2) := by
  induction before with
  | nil => rfl
  | cons head rest ih =>
    have more : anyContent (rest ++ first :: behind) = true := by simp [anyContent, content]
    rw [List.cons_append, shedList_pass more, ih]
    rfl

/-- What is open behind nothing sheds what it holds. -/
theorem shedList_append (isOpen : outline.mayHide [] = true) (before : List Outline) :
    shedList (before ++ [outline]) = (before ++ [outline.shed.1], outline.shed.2) := by
  have content : outline.kind.isTrivia = false := by
    simp only [mayHide, Bool.and_eq_true, Bool.not_eq_true'] at isOpen
    exact isOpen.1.1
  rw [shedList_before content, shedList_inner rfl isOpen, shed_eq]
  simp [splitOwnLine]

/-- Outlines end in blanks and comments, behind the last content or behind a first blank or
comment. -/
theorem exists_tail (nonempty : outlines ≠ []) :
    ∃ before first behind, outlines = before ++ first :: behind ∧ anyContent behind = false ∧
      (before = [] ∨ first.kind.isTrivia = false) := by
  induction outlines with
  | nil => exact absurd rfl nonempty
  | cons head rest ih =>
    cases content : anyContent rest with
    | false => exact ⟨[], head, rest, rfl, content, .inl rfl⟩
    | true =>
      obtain ⟨before, first, behind, rfl, trivia, last⟩ :=
        ih (by rintro rfl; simp [anyContent] at content)
      refine ⟨head :: before, first, behind, rfl, trivia, .inr ?_⟩
      rcases last with rfl | isContent
      · have here := anyContent_append [first] behind
        rw [trivia, Bool.or_false] at here
        simpa [anyContent] using here.symm.trans content
      · exact isContent

/-! ### Regularity -/

theorem Fits.shedList {kind : NodeKind} {attributes : Attributes} {children : List Outline}
    (fits : Fits kind attributes children) : Fits kind attributes (shedList children).1 where
  childless isLeaf := by rw [fits.childless isLeaf, shedList_nil]
  worded isCompound := by
    rcases fits.worded isCompound with ⟨simple, isText, phrased⟩
    refine ⟨simple, isText, fun spaceless => ?_⟩
    rcases exists_parts_shedList children with ⟨moved, trivia, parts⟩
    have silent : ∀ part ∈ moved.map Outline.part, part.1.isTrivia = true :=
      List.forall_mem_map.mpr trivia
    rw [← parts] at phrased
    exact (phrased (spaceless.append silent)).left silent
  keyed isOperator := by
    obtain ⟨keyword, rfl, isKeyword⟩ := fits.keyed isOperator
    cases hides : keyword.mayHide [] with
    | false => exact ⟨keyword, by simp [shedList_stop rfl hides, splitOwnLine], isKeyword⟩
    | true =>
      rw [shedList_inner rfl hides]
      exact ⟨_, rfl, isKeyword⟩
  arranged := by
    obtain ⟨moved, _, kinds⟩ := exists_kinds_shedList children
    have whole := fits.arranged
    rw [← kinds] at whole
    exact whole.left
  flat isCompound := by
    obtain ⟨moved, _, kinds⟩ := exists_kinds_shedList children
    have whole : ∀ kind ∈ children.map Outline.kind, kind.isLeaf = true :=
      List.forall_mem_map.mpr (fits.flat isCompound)
    rw [← kinds] at whole
    exact List.forall_mem_map.mp (List.forall_mem_append.mp whole).1

theorem regular_of_mem_shedList (regular : ∀ outline ∈ outlines, outline.Regular) :
    (∀ outline ∈ (shedList outlines).1, outline.Regular) ∧
      ∀ outline ∈ (shedList outlines).2, outline.Regular := by
  induction outlines using induction_on_tail with
  | nil => simp [shedList_nil]
  | pass first rest content ih =>
    rw [shedList_pass content]
    obtain ⟨kept, moved⟩ := ih fun outline member => regular outline (.tail _ member)
    exact ⟨List.forall_mem_cons.mpr ⟨regular first (.head _), kept⟩, moved⟩
  | stop first rest content hides =>
    rw [shedList_stop content hides]
    refine ⟨List.forall_mem_cons.mpr ⟨regular first (.head _), ?_⟩, ?_⟩
    · exact fun outline member => regular outline (.tail _ (mem_of_mem_split (.inl member)))
    · exact fun outline member => regular outline (.tail _ (mem_of_mem_split (.inr member)))
  | inner first rest content hides ih =>
    rw [shedList_inner content hides]
    obtain ⟨bare, fits, below⟩ := regular first (.head _)
    obtain ⟨kept, moved⟩ := ih below
    refine ⟨List.forall_mem_cons.mpr ⟨.node bare fits.shedList kept, ?_⟩, ?_⟩
    · exact fun outline member => regular outline (.tail _ (mem_of_mem_split (.inl member)))
    · intro outline member
      rcases List.mem_append.mp member with inside | beside
      · exact moved outline inside
      · exact regular outline (.tail _ (mem_of_mem_split (.inr beside)))

/-! ### Symbols -/

/-- Leaving changes the order of the symbols at most. -/
theorem shedList_perm (outlines : List Outline) :
    (symbolsOfList (shedList outlines).1 ++ symbolsOfList (shedList outlines).2).Perm
      (symbolsOfList outlines) := by
  induction outlines using induction_on_tail with
  | nil => simp [shedList_nil]
  | pass first rest content ih =>
    rw [shedList_pass content, symbolsOfList_cons, symbolsOfList_cons, List.append_assoc]
    exact ih.append_left _
  | stop first rest content hides =>
    rw [shedList_stop content hides, ← symbolsOfList_append, List.cons_append, splitOwnLine_append]
  | inner first rest content hides ih =>
    rw [shedList_inner content hides]
    conv_rhs => rw [← splitOwnLine_append first.breaksLine rest]
    generalize splitOwnLine first.breaksLine rest = split
    obtain ⟨id, kind, text, attributes, children⟩ := first
    simp only [symbolsOfList_cons, symbolsOfList_append, symbols_node] at ih ⊢
    simp only [Outline.kind, Outline.text, Outline.children] at ih ⊢
    grind

theorem Regular.childless (regular : outline.Regular) (trivia : outline.kind.isTrivia = true) :
    outline.children = [] := by
  have isLeaf : ∀ kind : NodeKind, kind.isTrivia = true → kind.isLeaf = true := by
    intro kind
    cases kind <;> decide
  obtain ⟨_, fits, _⟩ := regular
  exact fits.childless (isLeaf _ trivia)

theorem symbols_of_isTrivia (regular : outline.Regular) (trivia : outline.kind.isTrivia = true) :
    outline.symbols = [.trivia outline.kind outline.text] := by
  have childless := regular.childless trivia
  obtain ⟨id, kind, text, attributes, children⟩ := outline
  obtain rfl : children = [] := childless
  change kind.isTrivia = true at trivia
  have plain : kind.isParens = false := by
    revert trivia
    cases kind <;> decide
  rw [symbols_node, NodeKind.symbols, if_pos trivia, NodeKind.ending, if_neg (by simp [plain])]
  rfl

theorem symbolsOfList_of_isTrivia (regular : ∀ outline ∈ outlines, outline.Regular)
    (trivia : ∀ outline ∈ outlines, outline.kind.isTrivia = true) :
    symbolsOfList outlines = outlines.map fun outline => .trivia outline.kind outline.text := by
  induction outlines with
  | nil => simp
  | cons first rest ih =>
    obtain ⟨firstRegular, restRegular⟩ := List.forall_mem_cons.mp regular
    obtain ⟨firstTrivia, restTrivia⟩ := List.forall_mem_cons.mp trivia
    rw [symbolsOfList_cons, symbols_of_isTrivia firstRegular firstTrivia, ih restRegular restTrivia]
    rfl

section Selection

variable {selects : Symbol → Bool} (silent : ∀ kind text, selects (.trivia kind text) = false)
include silent

theorem filter_of_isTrivia (regular : ∀ outline ∈ outlines, outline.Regular)
    (trivia : ∀ outline ∈ outlines, outline.kind.isTrivia = true) :
    (symbolsOfList outlines).filter selects = [] := by
  rw [symbolsOfList_of_isTrivia regular trivia]
  simp [silent]

theorem shedList_filter (regular : ∀ outline ∈ outlines, outline.Regular) :
    (symbolsOfList (shedList outlines).1).filter selects =
      (symbolsOfList outlines).filter selects := by
  have splits : ∀ (first : Outline) (rest : List Outline), anyContent rest = false →
      (∀ outline ∈ first :: rest, outline.Regular) →
      (symbolsOfList (splitOwnLine first.breaksLine rest).1).filter selects =
        (symbolsOfList rest).filter selects := by
    intro first rest content regular
    rw [filter_of_isTrivia silent, filter_of_isTrivia silent]
    · exact fun outline member => regular outline (.tail _ member)
    · exact fun outline member => isTrivia_of_mem content member
    · exact fun outline member => regular outline (.tail _ (mem_of_mem_split (.inl member)))
    · exact fun outline member => isTrivia_of_mem content (mem_of_mem_split (.inl member))
  induction outlines using induction_on_tail with
  | nil => rw [shedList_nil]
  | pass first rest content ih =>
    have same := ih fun outline member => regular outline (.tail _ member)
    simp [shedList_pass content, same]
  | stop first rest content hides =>
    simp [shedList_stop content hides, splits first rest content regular]
  | inner first rest content hides ih =>
    rw [shedList_inner content hides, symbolsOfList_cons, symbolsOfList_cons, List.filter_append,
      List.filter_append, splits first rest content regular]
    obtain ⟨id, kind, text, attributes, children⟩ := first
    obtain ⟨_, _, below⟩ := regular _ (.head _)
    have same : (symbolsOfList (shedList children).1).filter selects =
        (symbolsOfList children).filter selects := ih below
    simp only [symbols_node, List.filter_append]
    rw [← same]
    rfl

end Selection

/-! ### Exposed ends -/

mutual

/-- Whether something leaves an outline without leaving a group. -/
def exposed : Outline → Bool
  | node _ kind _ _ children => !kind.isParens && exposedList children

def exposedList : List Outline → Bool
  | [] => false
  | first :: rest =>
      if anyContent rest then exposedList rest
      else (first.mayHide rest && exposed first) ||
        !(splitOwnLine first.breaksLine rest).2.isEmpty

end

theorem exposed_eq (outline : Outline) :
    outline.exposed = (!outline.kind.isParens && exposedList outline.children) := by
  cases outline
  rw [exposed]
  rfl

theorem exposedList_nil : exposedList [] = false := by
  rw [exposedList]

theorem exposedList_cons (first : Outline) (rest : List Outline) :
    exposedList (first :: rest) =
      if anyContent rest then exposedList rest
      else (first.mayHide rest && exposed first) ||
        !(splitOwnLine first.breaksLine rest).2.isEmpty := by
  rw [exposedList]

theorem exposed_of_childless (childless : outline.children = []) : outline.exposed = false := by
  rw [exposed_eq, childless, exposedList_nil, Bool.and_false]

@[simp]
theorem exposed_leaf (id : NodeId) (kind : NodeKind) (text : String) :
    (leaf id kind text).exposed = false :=
  exposed_of_childless rfl

theorem exposed_of_isParens (group : outline.kind.isParens = true) : outline.exposed = false := by
  rw [exposed_eq, group]
  rfl

/-- An end that is neither a blank nor a comment, and is not exposed itself, exposes nothing. -/
theorem exposedList_append {last : Outline} (content : last.kind.isTrivia = false)
    (firm : last.exposed = false) (before : List Outline) :
    exposedList (before ++ [last]) = false := by
  induction before with
  | nil => simp [exposedList_cons, anyContent, firm, splitOwnLine]
  | cons first rest ih =>
    have more : anyContent (rest ++ [last]) = true := by simp [anyContent, content]
    rw [List.cons_append, exposedList_cons, if_pos more, ih]

theorem exposed_of_last {id : NodeId} {kind : NodeKind} {text : String} {attributes : Attributes}
    {before : List Outline} {last : Outline} (content : last.kind.isTrivia = false)
    (firm : last.exposed = false) :
    (node id kind text attributes (before ++ [last])).exposed = false := by
  rw [exposed, exposedList_append content firm, Bool.and_false]

end Outline

namespace Draft

/-- What comes next follows nothing that is exposed, also if it is put before the container in
hand. -/
structure Settled (draft : Draft) : Prop where
  inside : ∀ last ∈ draft.children.getLast?, last.exposed = false
  before : draft.kind = .clause → draft.children = [] →
    ∀ frame ∈ draft.outer.head?, ∀ last ∈ frame.before.getLast?, last.exposed = false

theorem settled_add (draft : Draft) {outline : Outline} (firm : outline.exposed = false) :
    (draft.add outline).Settled where
  inside := by
    intro last isLast
    simp only [add, List.getLast?_append, List.getLast?_singleton, Option.some_or, Option.mem_def,
      Option.some.injEq] at isLast
    exact isLast ▸ firm
  before := by simp [add]

theorem settled_enter {draft : Draft} {id : NodeId} {kind : NodeKind}
    (before : kind = .clause → ∀ last ∈ draft.children.getLast?, last.exposed = false) :
    (draft.enter id kind).Settled where
  inside := by simp [enter]
  before isClause _ := by
    simpa [enter, frame] using before isClause

def shed (draft : Draft) : Draft :=
  { draft with children := (Outline.shedList draft.children).1 }

def shedding (draft : Draft) : List Outline :=
  (Outline.shedList draft.children).2

@[simp]
theorem path_shed (draft : Draft) : draft.shed.path = draft.path :=
  rfl

/-- What leaves a container that nothing follows leaves the one around it too. -/
theorem shed_up {draft : Draft} (sound : draft.Sound) (enclosed : draft.outer ≠ [])
    (notCondition : draft.kind ≠ .booleanExpression) :
    draft.up.shed = draft.shed.up ∧ draft.up.shedding = draft.shedding := by
  obtain ⟨frame, outer, around⟩ := List.exists_cons_of_ne_nil enclosed
  have isOpen : draft.closed.mayHide [] = true := by
    rw [Outline.mayHide, closed_kind, sound.content]
    rfl
  have sheds := Outline.shedList_append isOpen frame.before
  rw [Outline.shed_eq] at sheds
  have around' : draft.shed.outer = frame :: outer := around
  rw [up_eq around, up_eq around', shed, shedding, sound.after_eq_nil around notCondition, sheds]
  exact ⟨rfl, rfl⟩

theorem Sound.shed {draft : Draft} (sound : draft.Sound) : draft.shed.Sound where
  nested := sound.nested
  arranged := (Outline.fits_of_opens sound.nested.opens {} sound.arranged).shedList.arranged
  regular := (Outline.regular_of_mem_shedList sound.regular).1
  around := sound.around

end Draft

end SqlLayout
