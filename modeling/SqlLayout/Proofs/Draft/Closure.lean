import SqlLayout.Proofs.Draft.Balance

/-!
# What stays open

The body of a definition is left only where a batch ends, so a group, a block, a `CASE` or the lower
bound of a `BETWEEN` that holds one never gets its end. In a document without marks nothing else
stays open: as long as a batch is read, everything that is closed in it is complete.
-/

namespace SqlLayout

open Outline

variable {kind : NodeKind}

/-- Whether a container has its end still before it while a child of a kind is open in it. -/
def NodeKind.awaits (container child : NodeKind) : Bool :=
  container.isParens || container.finish? == some .containerClose ||
    (container == .between && child == .lowerBound)

theorem NodeKind.isFree_of_unstaged (unstaged : kind.stages = []) :
    kind ≠ .ddlAsBlock ∧ kind.finish? = none := by
  revert unstaged
  cases kind <;> decide

namespace Outline

variable {outlines : List Outline}

/-- Whether a construct has the part that it is not complete without. -/
def isComplete (outline : Outline) : Bool :=
  outline.kind.finish?.all fun ending => outline.children.any (·.kind == ending)

def defines (outline : Outline) : Bool :=
  outline.nodes.any (·.kind == .ddlAsBlock)

/-- Whether the body of a definition lies where the node has its end still before it. -/
def traps (outline : Outline) : Bool :=
  outline.children.any fun child => outline.kind.awaits child.kind && child.defines

/-- The number of groups that hold the body of a definition. -/
def lost (outline : Outline) : Nat :=
  outline.nodes.countP fun node => node.kind.isParens && node.traps

/-- The number of groups of sibling outlines that hold the body of a definition. -/
def lostOfList (outlines : List Outline) : Nat :=
  (outlines.flatMap nodes).countP fun node => node.kind.isParens && node.traps

/-- Every construct is complete, and no body of a definition is among the nodes. -/
def Finished (outline : Outline) : Prop :=
  ∀ node ∈ outline.nodes, node.kind ≠ .ddlAsBlock ∧ node.isComplete = true

/-- Exactly the constructs that hold the body of a definition before their end are not complete. -/
def Accounted (outline : Outline) : Prop :=
  ∀ node ∈ outline.nodes, node.kind.isParens = false → node.isComplete = !node.traps

variable {outline : Outline}

theorem forall_mem_nodes {property : Outline → Prop} :
    (∀ node ∈ outline.nodes, property node) ↔
      property outline ∧ ∀ child ∈ outline.children, ∀ node ∈ child.nodes, property node := by
  rw [nodes_eq, List.forall_mem_cons, List.forall_mem_flatMap]

theorem defines_eq (outline : Outline) :
    outline.defines = (outline.kind == .ddlAsBlock || outline.children.any defines) := by
  rw [defines, nodes_eq, List.any_cons, List.any_flatMap]
  rfl

theorem lost_eq (outline : Outline) :
    outline.lost =
      (if outline.kind.isParens && outline.traps then 1 else 0) + lostOfList outline.children := by
  rw [lost, nodes_eq, List.countP_cons, Nat.add_comm]
  rfl

theorem lostOfList_append (front back : List Outline) :
    lostOfList (front ++ back) = lostOfList front + lostOfList back := by
  rw [lostOfList, List.flatMap_append, List.countP_append]
  rfl

theorem lostOfList_cons (first : Outline) (rest : List Outline) :
    lostOfList (first :: rest) = first.lost + lostOfList rest := by
  rw [lostOfList, List.flatMap_cons, List.countP_append]
  rfl

theorem lostOfList_eq_zero (none : ∀ outline ∈ outlines, outline.lost = 0) :
    lostOfList outlines = 0 := by
  induction outlines with
  | nil => rfl
  | cons first rest ih =>
    obtain ⟨here, later⟩ := List.forall_mem_cons.mp none
    rw [lostOfList_cons, here, ih later]

theorem isComplete_of_isParens (group : outline.kind.isParens = true) :
    outline.isComplete = true := by
  have none : outline.kind.finish? = none := by
    revert group
    cases outline.kind <;> decide
  rw [isComplete, none, Option.all_none]

/-! ### Finished outlines -/

theorem finished_iff : outline.Finished ↔
    (outline.kind ≠ .ddlAsBlock ∧ outline.isComplete = true) ∧
      ∀ child ∈ outline.children, child.Finished :=
  forall_mem_nodes

theorem accounted_iff : outline.Accounted ↔
    (outline.kind.isParens = false → outline.isComplete = !outline.traps) ∧
      ∀ child ∈ outline.children, child.Accounted :=
  forall_mem_nodes

theorem finished_of_unstaged (unstaged : ∀ node ∈ outline.nodes, node.kind.stages = []) :
    outline.Finished := by
  intro node member
  obtain ⟨other, endless⟩ := NodeKind.isFree_of_unstaged (unstaged node member)
  exact ⟨other, by rw [isComplete, endless, Option.all_none]⟩

theorem finished_leaf (id : NodeId) (text : String) (unstaged : kind.stages = []) :
    (leaf id kind text).Finished :=
  finished_of_unstaged (forall_mem_nodes.mpr ⟨unstaged, by simp [leaf, children]⟩)

theorem finished_tokenLeaf (id : NodeId) (token : Token) :
    (leaf id token.kind.leafKind token.value).Finished :=
  finished_leaf id _ (NodeKind.stages_of_isLeaf (TokenKind.isLeaf_leafKind _))

namespace Finished

theorem defines (finished : outline.Finished) : outline.defines = false := by
  rw [Outline.defines, List.any_eq_false]
  intro node member
  simpa using (finished node member).1

theorem traps (finished : outline.Finished) : outline.traps = false := by
  rw [Outline.traps, List.any_eq_false]
  intro child member
  simp [((finished_iff.mp finished).2 child member).defines]

theorem accounted (finished : outline.Finished) : outline.Accounted := by
  induction outline with
  | node id kind text attributes children ih =>
    refine accounted_iff.mpr ⟨fun _ => ?_, fun child member => ?_⟩
    · rw [finished.traps, (finished_iff.mp finished).1.2, Bool.not_false]
    · exact ih child member ((finished_iff.mp finished).2 child member)

theorem lost (finished : outline.Finished) : outline.lost = 0 := by
  induction outline with
  | node id kind text attributes children ih =>
    rw [lost_eq, finished.traps, Bool.and_false, if_neg Bool.false_ne_true, Nat.zero_add]
    exact lostOfList_eq_zero fun child member =>
      ih child member ((finished_iff.mp finished).2 child member)

end Finished

theorem lostOfList_of_finished (finished : ∀ outline ∈ outlines, outline.Finished) :
    lostOfList outlines = 0 :=
  lostOfList_eq_zero fun outline member => (finished outline member).lost

/-- Comments that leave a container leave it complete. -/
theorem isComplete_shedList {id : NodeId} {text : String} {attributes : Attributes}
    {children : List Outline}
    (complete : (Outline.node id kind text attributes children).isComplete = true) :
    (Outline.node id kind text attributes (shedList children).1).isComplete = true := by
  simp only [isComplete, Option.all_eq_true, List.any_eq_true, beq_iff_eq] at complete ⊢
  intro ending isEnding
  obtain ⟨child, isChild, isKind⟩ := complete ending isEnding
  have content : ∀ kind : NodeKind, ∀ ending ∈ kind.finish?, ending.isTrivia = false := by
    intro kind
    cases kind <;> decide
  obtain ⟨moved, trivia, kinds⟩ := exists_kinds_shedList children
  have known : ending ∈ children.map Outline.kind := isKind ▸ List.mem_map_of_mem isChild
  rw [← kinds] at known
  rcases List.mem_append.mp known with kept | left
  · exact List.mem_map.mp kept
  · obtain ⟨outline, member, rfl⟩ := List.mem_map.mp left
    have silent := content kind _ isEnding
    rw [trivia outline member] at silent
    exact absurd silent (by decide)

theorem finished_of_mem_shedList (finished : ∀ outline ∈ outlines, outline.Finished) :
    (∀ outline ∈ (shedList outlines).1, outline.Finished) ∧
      ∀ outline ∈ (shedList outlines).2, outline.Finished := by
  induction outlines using induction_on_tail with
  | nil => simp [shedList_nil]
  | pass first rest content ih =>
    rw [shedList_pass content]
    obtain ⟨kept, moved⟩ := ih fun outline member => finished outline (.tail _ member)
    exact ⟨List.forall_mem_cons.mpr ⟨finished first (.head _), kept⟩, moved⟩
  | stop first rest content hides =>
    rw [shedList_stop content hides]
    refine ⟨List.forall_mem_cons.mpr ⟨finished first (.head _), ?_⟩, ?_⟩
    · exact fun outline member => finished outline (.tail _ (mem_of_mem_split (.inl member)))
    · exact fun outline member => finished outline (.tail _ (mem_of_mem_split (.inr member)))
  | inner first rest content hides ih =>
    rw [shedList_inner content hides]
    obtain ⟨here, below⟩ := finished_iff.mp (finished first (.head _))
    obtain ⟨kept, moved⟩ := ih below
    refine ⟨List.forall_mem_cons.mpr ⟨finished_iff.mpr ⟨⟨here.1, ?_⟩, kept⟩, ?_⟩, ?_⟩
    · cases first
      exact isComplete_shedList here.2
    · exact fun outline member => finished outline (.tail _ (mem_of_mem_split (.inl member)))
    · intro outline member
      rcases List.mem_append.mp member with inside | beside
      · exact moved outline inside
      · exact finished outline (.tail _ (mem_of_mem_split (.inr beside)))

end Outline

/-! ### Around the body of a definition -/

/-- A construct waits for its last part exactly as long as it comes before it. -/
theorem NodeKind.awaits_of_finish (child : NodeKind) : ∀ container ∈ child.parents,
    container.isParens = false → ∀ ending ∈ container.finish?,
      (child = ending ∧ container.awaits child = false) ∨
        (child ≠ .booleanExpression ∧ container.awaits child = true ∧ container.stages ≠ [] ∧
          container.stages.idxOf child < container.stages.idxOf ending) := by
  cases child <;> decide

theorem NodeKind.awaits_eq_false {container : NodeKind} (plain : container.isParens = false)
    (endless : container.finish? = none) (child : NodeKind) : container.awaits child = false := by
  have other : container ≠ .between := by
    rintro rfl
    exact absurd endless (by decide)
  simp [awaits, plain, endless, other]

theorem Arranged.notMem {container : NodeKind} {kinds : List NodeKind} {last : NodeKind}
    (arranged : Arranged container (kinds ++ [last])) (staged : container.stages ≠ [])
    (later : container.stages.idxOf last < container.stages.idxOf kind) :
    kind ∉ kinds ++ [last] := by
  intro member
  have ordered := List.pairwise_append.mp (List.isChain_iff_pairwise.mp (arranged staged).2)
  rcases List.mem_append.mp member with before | here
  · have before := ordered.2.2 kind before last (by simp)
    omega
  · rw [List.mem_singleton.mp here] at later
    omega

namespace Outline

/-- An outline holds the body of a definition, with a number of groups around it, and is incomplete
only for that. -/
structure Stuck (groups : Nat) (outline : Outline) : Prop where
  accounted : outline.Accounted
  defines : outline.defines = true
  lost : outline.lost = groups

end Outline

namespace Frame

variable {frame : Frame} {inside : Outline}

/-- A container around the body of a definition traps it if it waits for its end there. -/
theorem traps_close (finished : ∀ outline ∈ frame.before ++ frame.after, outline.Finished)
    (defines : inside.defines = true) :
    (frame.close inside).traps = frame.kind.awaits inside.kind := by
  have none : ∀ outlines : List Outline, (∀ outline ∈ outlines, outline.Finished) →
      outlines.any (fun child => frame.kind.awaits child.kind && child.defines) = false := by
    intro outlines finished
    rw [List.any_eq_false]
    intro child member
    simp [(finished child member).defines]
  obtain ⟨before, after⟩ := List.forall_mem_append.mp finished
  change (frame.before ++ inside :: frame.after).any
    (fun child => frame.kind.awaits child.kind && child.defines) = _
  rw [List.any_append, List.any_cons, none _ before, none _ after, defines]
  simp

/-- A construct that is no group is complete around one of its parts unless it waits for its end. -/
theorem isComplete_close (sound : frame.Sound inside.kind)
    (opens : frame.kind ∈ inside.kind.parents) (plain : frame.kind.isParens = false) :
    (frame.close inside).isComplete = !frame.kind.awaits inside.kind := by
  have here : (frame.close inside).isComplete = frame.kind.finish?.all fun ending =>
    (frame.before ++ inside :: frame.after).any (·.kind == ending) := rfl
  rw [here]
  cases finish : frame.kind.finish? with
  | none => rw [NodeKind.awaits_eq_false plain finish, Option.all_none, Bool.not_false]
  | some ending =>
    rw [Option.all_some]
    rcases NodeKind.awaits_of_finish inside.kind frame.kind opens plain ending finish with
      ⟨isEnding, settled⟩ | ⟨notCondition, waits, staged, later⟩
    · rw [settled, Bool.not_false, List.any_eq_true]
      exact ⟨inside, by simp, by simpa using isEnding⟩
    · have last : frame.after = [] := by
        refine List.eq_nil_iff_forall_not_mem.mpr fun outline member => ?_
        exact notCondition (sound.behind outline member).1
      have arranged := sound.arranged
      rw [last, List.map_nil] at arranged
      have missing := arranged.notMem staged later
      rw [waits, Bool.not_true, last, List.any_eq_false]
      intro outline member
      rw [beq_iff_eq]
      rintro rfl
      refine missing ?_
      have known : outline.kind ∈ (frame.before ++ [inside]).map Outline.kind :=
        List.mem_map_of_mem member
      rwa [List.map_append] at known

end Frame

namespace Outline

theorem Stuck.close {groups : Nat} {inside : Outline} (stuck : Stuck groups inside) {frame : Frame}
    (sound : frame.Sound inside.kind) (opens : frame.kind ∈ inside.kind.parents)
    (finished : ∀ outline ∈ frame.before ++ frame.after, outline.Finished) :
    Stuck (groups + if frame.kind.isParens then 1 else 0) (frame.close inside) := by
  have traps := Frame.traps_close finished stuck.defines
  obtain ⟨before, after⟩ := List.forall_mem_append.mp finished
  refine ⟨accounted_iff.mpr ⟨fun plain => ?_, fun child member => ?_⟩, ?_, ?_⟩
  · rw [traps]
    exact Frame.isComplete_close sound opens plain
  · rcases List.mem_append.mp member with isBefore | behind
    · exact (before child isBefore).accounted
    · rcases List.mem_cons.mp behind with rfl | isAfter
      · exact stuck.accounted
      · exact (after child isAfter).accounted
  · rw [defines_eq, Bool.or_eq_true, List.any_eq_true]
    exact .inr ⟨inside, List.mem_append_right _ (.head _), stuck.defines⟩
  · have group : ∀ kind : NodeKind, ∀ child, kind.isParens = true → kind.awaits child = true := by
      intro kind child isParens
      rw [NodeKind.awaits, isParens, Bool.true_or, Bool.true_or]
    have children : (frame.close inside).children = frame.before ++ inside :: frame.after := rfl
    have kind : (frame.close inside).kind = frame.kind := rfl
    rw [lost_eq, traps, children, kind, lostOfList_append, lostOfList_cons,
      lostOfList_of_finished before, lostOfList_of_finished after, stuck.lost]
    cases isParens : frame.kind.isParens with
    | false => simp
    | true =>
      rw [group _ _ isParens]
      simp
      omega

/-! ### Open containers -/

/-- What is closed in the open containers of a document, the innermost first. It is finished, except
in the root, where a number of groups is lost. -/
def Accounts (groups : Nat) : List (List Outline) → Prop
  | [] => False
  | [batches] => (∀ outline ∈ batches, outline.Accounted) ∧ lostOfList batches = groups
  | level :: next :: outer =>
      (∀ outline ∈ level, outline.Finished) ∧ Accounts groups (next :: outer)

namespace Accounts

variable {groups : Nat} {level front middle back : List Outline} {outer : List (List Outline)}

theorem cons (above : Accounts groups outer) (finished : ∀ outline ∈ level, outline.Finished) :
    Accounts groups (level :: outer) := by
  cases outer with
  | nil => exact above.elim
  | cons next outer => exact ⟨finished, above⟩

theorem tail (accounts : Accounts groups (level :: outer)) (enclosed : outer ≠ []) :
    (∀ outline ∈ level, outline.Finished) ∧ Accounts groups outer := by
  cases outer with
  | nil => exact absurd rfl enclosed
  | cons next outer => exact accounts

theorem insert (accounts : Accounts groups ((front ++ back) :: outer))
    (finished : ∀ outline ∈ middle, outline.Finished) :
    Accounts groups ((front ++ middle ++ back) :: outer) := by
  cases outer with
  | nil =>
    obtain ⟨accounted, sum⟩ := accounts
    obtain ⟨before, after⟩ := List.forall_mem_append.mp accounted
    refine ⟨List.forall_mem_append.mpr ⟨List.forall_mem_append.mpr ⟨before, ?_⟩, after⟩, ?_⟩
    · exact fun outline member => (finished outline member).accounted
    · rw [lostOfList_append, lostOfList_append, lostOfList_of_finished finished, Nat.add_zero,
        ← lostOfList_append, sum]
  | cons level outer =>
    obtain ⟨old, above⟩ := accounts
    obtain ⟨before, after⟩ := List.forall_mem_append.mp old
    exact ⟨List.forall_mem_append.mpr ⟨List.forall_mem_append.mpr ⟨before, finished⟩, after⟩, above⟩

theorem append (accounts : Accounts groups (front :: outer))
    (finished : ∀ outline ∈ middle, outline.Finished) :
    Accounts groups ((front ++ middle) :: outer) := by
  rw [← List.append_nil front] at accounts
  simpa using accounts.insert finished

end Accounts

end Outline

def Frame.siblings (frame : Frame) : List Outline :=
  frame.before ++ frame.after

namespace Draft

variable {draft other : Draft} {groups : Nat}

/-- What is closed in the container in hand and in those around it. -/
def levels (draft : Draft) : List (List Outline) :=
  draft.children :: draft.outer.map Frame.siblings

theorem Leavable.isComplete (leavable : draft.Leavable) : draft.closed.isComplete = true := by
  rw [Outline.isComplete, Option.all_eq_true]
  intro ending isEnding
  obtain ⟨last, isLast, isKind⟩ := Option.map_eq_some_iff.mp (leavable.complete ending isEnding)
  rw [List.any_eq_true]
  exact ⟨last, List.mem_of_getLast? isLast, by simpa using isKind⟩

theorem accounts_up (accounts : Accounts groups draft.levels) (enclosed : draft.outer ≠ [])
    (temporary : draft.kind ≠ .ddlAsBlock) (complete : draft.closed.isComplete = true) :
    Accounts groups draft.up.levels := by
  obtain ⟨frame, outer, around⟩ := List.exists_cons_of_ne_nil enclosed
  rw [levels, around, List.map_cons] at accounts
  obtain ⟨children, above⟩ := accounts
  have finished : draft.closed.Finished := finished_iff.mpr ⟨⟨temporary, complete⟩, children⟩
  have grown := above.insert (List.forall_mem_singleton.mpr finished)
  rw [List.append_assoc] at grown
  rw [levels, up_eq around]
  exact grown

theorem accounts_enter (accounts : Accounts groups draft.levels) (id : NodeId) (kind : NodeKind) :
    Accounts groups (draft.enter id kind).levels := by
  have same : (draft.enter id kind).levels = [] :: draft.levels := by
    simp [levels, enter, frame, Frame.siblings]
  exact same ▸ accounts.cons (by simp)

theorem Pass.accounts (pass : draft.Pass other) (accounts : Accounts groups draft.levels) :
    Accounts groups other.levels := by
  cases pass with
  | leave leavable enclosed =>
    exact accounts_up accounts enclosed leavable.temporary leavable.isComplete
  | enter id _ _ _ _ _ => exact accounts_enter accounts id _

theorem Passes.accounts (passes : draft.Passes other) (accounts : Accounts groups draft.levels) :
    Accounts groups other.levels := by
  induction passes with
  | refl => exact accounts
  | tail _ pass ih => exact pass.accounts ih

theorem top_up (enclosed : draft.outer ≠ []) : draft.up.top = draft.top := by
  obtain ⟨frame, outer, around⟩ := List.exists_cons_of_ne_nil enclosed
  rw [top, top, outer_up enclosed, around, List.tail_cons, List.length_cons]
  rfl

theorem accounts_top {inside : Nat} (sound : draft.Sound)
    (above : Accounts groups (draft.outer.map Frame.siblings)) (stuck : Stuck inside draft.closed) :
    Accounts (groups + inside + (draft.outer.map Frame.kind).countP NodeKind.isParens)
      draft.top.levels := by
  obtain ⟨id, kind, attributes, children, outer⟩ := draft
  induction outer generalizing id kind attributes children inside with
  | nil => exact above.elim
  | cons frame outer ih =>
    have nested : frame.kind ∈ kind.parents ∧ Nested (frame.kind :: outer.map Frame.kind) :=
      sound.nested
    rw [← top_up (List.cons_ne_nil _ _), up_eq rfl]
    cases outer with
    | nil =>
      obtain ⟨accounted, sum⟩ := above
      obtain ⟨before, after⟩ := List.forall_mem_append.mp accounted
      have isRoot : frame.kind = .root := nested.2
      refine ⟨List.forall_mem_append.mpr
        ⟨before, List.forall_mem_cons.mpr ⟨stuck.accounted, after⟩⟩, ?_⟩
      rw [Frame.siblings, lostOfList_append] at sum
      change lostOfList (frame.before ++ Draft.closed _ :: frame.after) = _
      rw [lostOfList_append, lostOfList_cons, stuck.lost]
      simp [isRoot, NodeKind.isParens]
      omega
    | cons next outer =>
      obtain ⟨finished, above⟩ := above
      have more := ih _ _ _ _ sound.up above (stuck.close sound.around.1 nested.1 finished)
      have count : inside + ((frame :: next :: outer).map Frame.kind).countP NodeKind.isParens =
          (inside + if frame.kind.isParens then 1 else 0) +
            ((next :: outer).map Frame.kind).countP NodeKind.isParens := by
        rw [List.map_cons, List.countP_cons]
        omega
      rw [Nat.add_assoc, count, ← Nat.add_assoc]
      exact more

theorem accounts_leave {others : List NodeKind} (accounts : Accounts groups draft.levels)
    (path : draft.path = kind :: others) (more : others ≠ []) (free : kind.isFree = true) :
    Accounts groups draft.up.levels ∧ draft.up.path = others ∧ draft.up.top = draft.top := by
  have isKind : draft.kind = kind := (List.cons.inj path).1
  obtain ⟨parent, outer, rfl⟩ := List.exists_cons_of_ne_nil more
  have enclosed := enclosed_of_path path
  have leavable := leavable_of_isFree (isKind ▸ free)
  refine ⟨accounts_up accounts enclosed leavable.temporary leavable.isComplete, ?_, top_up enclosed⟩
  rw [path_up enclosed, path, List.tail_cons]

theorem stuck_body (isBody : draft.kind = .ddlAsBlock)
    (finished : ∀ outline ∈ draft.children, outline.Finished) : Stuck 0 draft.closed := by
  have traps : draft.closed.traps = false := by
    rw [Outline.traps, List.any_eq_false]
    intro child member
    simp [(finished child member).defines]
  refine ⟨accounted_iff.mpr ⟨fun _ => ?_, fun child member => (finished child member).accounted⟩,
    ?_, ?_⟩
  · rw [traps, Outline.isComplete, closed_kind, isBody]
    rfl
  · rw [defines_eq, closed_kind, isBody]
    rfl
  · rw [lost_eq, traps, Bool.and_false, if_neg Bool.false_ne_true, Nat.zero_add]
    exact lostOfList_of_finished finished

theorem accounts_body {others : List NodeKind} (sound : draft.Sound)
    (accounts : Accounts groups draft.levels) (path : draft.path = .ddlAsBlock :: others) :
    Accounts (groups + others.countP NodeKind.isParens) draft.top.levels := by
  have isBody : draft.kind = .ddlAsBlock := (List.cons.inj path).1
  have around : draft.outer.map Frame.kind = others := (List.cons.inj path).2
  have enclosed : draft.outer ≠ [] := sound.enclosed (by rw [isBody]; decide)
  obtain ⟨finished, above⟩ := accounts.tail (by simpa using enclosed)
  exact around ▸ accounts_top sound above (stuck_body isBody finished)

/-- Where a batch ends, the open groups are lost. -/
theorem Rests.accounts (rests : draft.Rests) (sound : draft.Sound)
    (accounts : Accounts groups draft.levels) :
    Accounts (groups + draft.groups) draft.top.levels := by
  rcases rests with path | ⟨others, path⟩
  · obtain ⟨first, inStatement, sameTop⟩ := accounts_leave accounts path (by simp) rfl
    obtain ⟨second, inRoot, isTop⟩ := accounts_leave first inStatement (by simp) rfl
    have atTop : draft.up.up.outer = [] := List.map_eq_nil_iff.mp (List.cons.inj inRoot).2
    have isRoot : draft.up.up.top = draft.up.up := by rw [top, atTop]; rfl
    have none : draft.groups = 0 := by rw [Draft.groups, path]; rfl
    rw [none, Nat.add_zero, ← sameTop, ← isTop, isRoot]
    exact second
  · obtain ⟨first, inStatement, sameTop⟩ := accounts_leave accounts path.symm (by simp) rfl
    obtain ⟨second, inBody, isTop⟩ := accounts_leave first inStatement (by simp) rfl
    obtain ⟨third, inBlock, isSame⟩ := accounts_leave second inBody (by simp) rfl
    have whole := accounts_body sound.up.up.up third inBlock
    rw [isSame, isTop, sameTop] at whole
    have count : draft.groups = others.countP NodeKind.isParens := by rw [Draft.groups, ← path]; rfl
    exact count ▸ whole

end Draft

/-! ### Reading -/

namespace Token

def opens (tokens : List Token) : Nat :=
  tokens.countP (·.kind == .openParens)

def closes (tokens : List Token) : Nat :=
  tokens.countP (·.kind == .closeParens)

/-- No parenthesis closes before it is opened. -/
def OpensFirst (tokens : List Token) : Prop :=
  ∀ front, front <+: tokens → closes front ≤ opens front

theorem opens_append (front back : List Token) : opens (front ++ back) = opens front + opens back :=
  List.countP_append

theorem closes_append (front back : List Token) :
    closes (front ++ back) = closes front + closes back :=
  List.countP_append

variable {tokens more : List Token} {token : Token}

theorem count_of_isPlain (plain : ∀ token ∈ tokens, token.isPlain = true) :
    opens tokens = 0 ∧ closes tokens = 0 := by
  simp only [isPlain, Bool.and_eq_true, bne_iff_ne] at plain
  constructor
  · exact List.countP_eq_zero.mpr fun token member => by simpa using (plain token member).1
  · exact List.countP_eq_zero.mpr fun token member => by simpa using (plain token member).2

theorem isPlain_of_isWord (isWord : token.kind = .word) : token.isPlain = true := by
  rw [isPlain, isWord]
  rfl

theorem OpensFirst.append (opensFirst : OpensFirst tokens)
    (after : ∀ rest, rest <+: more → closes (tokens ++ rest) ≤ opens (tokens ++ rest)) :
    OpensFirst (tokens ++ more) := by
  intro front isFront
  rcases Nat.le_total front.length tokens.length with shorter | longer
  · exact opensFirst front
      (List.prefix_of_prefix_length_le isFront (List.prefix_append _ _) shorter)
  · obtain ⟨rest, rfl⟩ := List.prefix_of_prefix_length_le (List.prefix_append _ _) isFront longer
    exact after rest ((List.prefix_append_right_inj tokens).mp isFront)

theorem OpensFirst.append_plain (opensFirst : OpensFirst tokens)
    (plain : ∀ token ∈ more, token.isPlain = true) : OpensFirst (tokens ++ more) := by
  refine opensFirst.append fun rest isRest => ?_
  have none := count_of_isPlain fun token member => plain token (isRest.subset member)
  rw [closes_append, opens_append, none.1, none.2]
  exact opensFirst tokens (List.prefix_refl _)

theorem OpensFirst.snoc (opensFirst : OpensFirst tokens)
    (after : closes (tokens ++ [token]) ≤ opens (tokens ++ [token])) :
    OpensFirst (tokens ++ [token]) := by
  refine opensFirst.append fun rest isRest => ?_
  rcases rest with _ | ⟨first, rest⟩
  · rw [List.append_nil]
    exact opensFirst tokens (List.prefix_refl _)
  · obtain ⟨rfl, rfl⟩ : first = token ∧ rest = [] := by simpa [List.cons_prefix_cons] using isRest
    exact after

end Token

namespace Draft

variable {draft other : Draft} {tokens more : List Token} {groups : Nat}

/-- Every opening parenthesis that was read is closed, open or lost. -/
structure Tallied (tokens : List Token) (draft : Draft) (groups : Nat) : Prop where
  accounts : Accounts groups draft.levels
  opensFirst : Token.OpensFirst tokens
  total : Token.opens tokens = Token.closes tokens + draft.groups + groups

theorem Tallied.grow (tallied : Tallied tokens draft groups)
    (accounts : Accounts groups other.levels) (same : other.groups = draft.groups)
    (plain : ∀ token ∈ more, token.isPlain = true) : Tallied (tokens ++ more) other groups := by
  have none := Token.count_of_isPlain plain
  refine ⟨accounts, tallied.opensFirst.append_plain plain, ?_⟩
  rw [Token.opens_append, Token.closes_append, none.1, none.2, same]
  exact tallied.total

theorem accounts_slip (accounts : Accounts groups draft.levels) {outline : Outline}
    (finished : outline.Finished) : Accounts groups (draft.slip outline).levels := by
  unfold Draft.slip
  split
  · exact accounts
  next frame outer around =>
    rw [levels, around, List.map_cons] at accounts
    exact ⟨accounts.1, accounts.2.insert (List.forall_mem_singleton.mpr finished)⟩

theorem accounts_follow (accounts : Accounts groups draft.levels) {outline : Outline}
    (finished : outline.Finished) : Accounts groups (draft.follow outline).levels := by
  unfold Draft.follow
  split
  · exact accounts
  next frame outer around =>
    rw [levels, around, List.map_cons] at accounts
    have grown := accounts.2.append (List.forall_mem_singleton.mpr finished)
    rw [Frame.siblings, List.append_assoc] at grown
    exact ⟨accounts.1, grown⟩

theorem levels_mark (draft : Draft) : draft.mark.levels = draft.levels := by
  have siblings : ∀ id key value outer,
      (Frame.setAttributes id key value outer).map Frame.siblings = outer.map Frame.siblings := by
    intro id key value outer
    simp only [Frame.setAttributes, List.map_map, List.map_inj_left, Function.comp_apply]
    intro frame _
    split <;> rfl
  simp [levels, mark, setAttribute, siblings]

theorem accounts_shed (accounts : Accounts groups draft.levels) (enclosed : draft.outer ≠ []) :
    Accounts groups draft.shed.levels ∧ ∀ outline ∈ draft.shedding, outline.Finished := by
  obtain ⟨children, above⟩ := accounts.tail (by simpa using enclosed)
  obtain ⟨kept, moved⟩ := finished_of_mem_shedList children
  exact ⟨above.cons kept, moved⟩

variable {token : Token}

theorem Tallied.openGroup (tallied : Tallied tokens draft groups) (id : NodeId)
    (isOpening : token.kind = .openParens) {kind : NodeKind} (group : kind.isParens = true) :
    Tallied (tokens ++ [token]) (draft.enter id kind) groups := by
  have opens : Token.opens [token] = 1 := by simp [Token.opens, isOpening]
  have closes : Token.closes [token] = 0 := by simp [Token.closes, isOpening]
  have total := tallied.total
  refine ⟨accounts_enter tallied.accounts id kind, tallied.opensFirst.snoc ?_, ?_⟩
  · rw [Token.opens_append, Token.closes_append, opens, closes]
    omega
  · rw [Token.opens_append, Token.closes_append, opens, closes, groups_enter, if_pos group]
    omega

theorem Tallied.closeGroup (tallied : Tallied tokens draft groups) (enclosed : draft.outer ≠ [])
    (isClosing : token.kind = .closeParens) (group : draft.kind.isParens = true) :
    Tallied (tokens ++ [token]) draft.up groups := by
  have opens : Token.opens [token] = 0 := by simp [Token.opens, isClosing]
  have closes : Token.closes [token] = 1 := by simp [Token.closes, isClosing]
  have temporary : draft.kind ≠ .ddlAsBlock := by
    intro isBody
    rw [isBody] at group
    exact absurd group (by decide)
  have one : draft.groups = 1 + draft.up.groups := by
    rw [groups_up enclosed, List.countP_singleton, group, if_pos rfl]
  have total := tallied.total
  refine ⟨accounts_up tallied.accounts enclosed temporary (isComplete_of_isParens group),
    tallied.opensFirst.snoc ?_, ?_⟩
  · rw [Token.opens_append, Token.closes_append, opens, closes]
    omega
  · rw [Token.opens_append, Token.closes_append, opens, closes]
    omega

theorem Tallied.top (tallied : Tallied tokens draft groups) (sound : draft.Sound)
    (rests : draft.Rests) : Tallied tokens draft.top (groups + draft.groups) := by
  have total := tallied.total
  refine ⟨rests.accounts sound tallied.accounts, tallied.opensFirst, ?_⟩
  rw [groups_top sound]
  omega

end Draft

/-- As long as nothing needed recovery, every opening parenthesis is closed, open or lost, and only
what is closed in the root is incomplete. -/
theorem Built.flagged_or_tallied {tokens : List Token} {draft : Draft}
    (built : Built tokens draft) :
    draft.Flagged ∨ ∃ groups, draft.Tallied tokens groups := by
  induction built with
  | start statement clause =>
    have empty : Accounts 0 (Draft.levels { id := Tree.root, kind := .root }) := ⟨by simp, rfl⟩
    have accounts :=
      Draft.accounts_enter (Draft.accounts_enter empty statement .statement) clause .clause
    have none : ∀ front : List Token, front <+: [] → Token.closes front ≤ Token.opens front := by
      intro front isFront
      rw [List.prefix_nil.mp isFront]
      exact Nat.le_refl _
    exact .inr ⟨0, accounts, none, rfl⟩
  | pass built pass ih =>
    rcases ih with flagged | ⟨groups, accounts, opensFirst, total⟩
    · exact .inl (flagged.pass pass)
    · exact .inr ⟨groups, pass.accounts accounts, opensFirst, pass.groups ▸ total⟩
  | add built read _ _ _ ih =>
    rcases ih with flagged | ⟨groups, tallied⟩
    · exact .inl flagged
    · have finished := Outline.finished_of_unstaged (List.forall_mem_singleton.mp read.unstaged)
      have accounts := tallied.accounts.append (List.forall_mem_singleton.mpr finished)
      exact .inr ⟨groups, tallied.grow accounts rfl read.plain⟩
  | @trivia _ token _ built id isTrivia _ _ ih =>
    rcases ih with flagged | ⟨groups, tallied⟩
    · exact .inl flagged
    · have finished := finished_tokenLeaf id token
      have accounts := tallied.accounts.append (List.forall_mem_singleton.mpr finished)
      have plain : ∀ other ∈ [token], other.isPlain = true :=
        List.forall_mem_singleton.mpr (Token.isPlain_of_isTrivia isTrivia)
      exact .inr ⟨groups, tallied.grow accounts rfl plain⟩
  | @slip _ token _ built id isTrivia _ _ _ ih =>
    rcases ih with flagged | ⟨groups, tallied⟩
    · exact .inl (flagged.slip _)
    · have finished := finished_tokenLeaf id token
      have accounts := Draft.accounts_slip tallied.accounts finished
      have plain : ∀ other ∈ [token], other.isPlain = true :=
        List.forall_mem_singleton.mpr (Token.isPlain_of_isTrivia isTrivia)
      exact .inr ⟨groups, tallied.grow accounts (Draft.groups_slip _ _) plain⟩
  | openGroup built id isOpening group _ _ ih =>
    rcases ih with flagged | ⟨groups, tallied⟩
    · exact .inl (flagged.enter id _)
    · exact .inr ⟨groups, tallied.openGroup id isOpening group⟩
  | closeGroup built isClosing group ih =>
    rcases ih with flagged | ⟨groups, tallied⟩
    · exact .inl flagged.up
    · exact .inr
        ⟨groups, tallied.closeGroup (built.sound.enclosed_of_isParens group) isClosing group⟩
  | stray _ id _ flagged _ _ _ => exact .inl flagged
  | mark built ih =>
    rcases ih with flagged | ⟨groups, accounts, opensFirst, total⟩
    · exact .inl flagged.mark
    · refine .inr ⟨groups, by rwa [Draft.levels_mark], opensFirst, ?_⟩
      simpa [Draft.groups, Draft.mark] using total
  | follow built id _ ih =>
    rcases ih with flagged | ⟨groups, accounts, opensFirst, total⟩
    · exact .inl (flagged.follow _)
    · refine .inr
        ⟨groups, Draft.accounts_follow accounts (Outline.finished_leaf id _ rfl), opensFirst, ?_⟩
      rw [Draft.groups_follow]
      exact total
  | @separate _ token _ built id keyword isWord rests ih =>
    rcases ih with flagged | ⟨groups, tallied⟩
    · exact .inl (flagged.ups _)
    · have closed := tallied.top built.sound rests
      have finished : Outline.Finished
          (.node id .batchSeparator "" {} [.leaf keyword .otherKeyword token.value]) :=
        finished_iff.mpr ⟨⟨(by decide : NodeKind.batchSeparator ≠ .ddlAsBlock), rfl⟩,
          List.forall_mem_singleton.mpr (finished_leaf keyword _ rfl)⟩
      have accounts := closed.accounts.append (List.forall_mem_singleton.mpr finished)
      have plain : ∀ other ∈ [token], other.isPlain = true :=
        List.forall_mem_singleton.mpr (Token.isPlain_of_isWord isWord)
      exact .inr ⟨_, closed.grow accounts rfl plain⟩
  | migrate built enclosed passes _ ih =>
    rcases ih with flagged | ⟨groups, accounts, opensFirst, total⟩
    · have stays : Draft.Flagged (Draft.shed _) := flagged
      have moved := stays.passes passes
      exact .inl moved
    · obtain ⟨kept, moved⟩ := Draft.accounts_shed accounts enclosed
      have same := passes.groups
      exact .inr ⟨groups, (passes.accounts kept).append moved, opensFirst, same ▸ total⟩

end SqlLayout
