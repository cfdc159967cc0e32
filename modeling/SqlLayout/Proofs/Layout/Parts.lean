import SqlLayout.Proofs.Layout.Regions
import SqlLayout.Proofs.Tree.Links

/-!
# The parts of a formatted document

Along a walk through a document stretches in which a region is open alternate with stretches in
which none is. A formatted document consists of parts: outside regions leaves, compound keywords and
parentheses, and for each region its text. The leaves in the texts of the regions are those that a
walk enters while a region is open, and the leaves that the other parts stand for are the others, as
long as no region begins or ends between two words of a compound keyword.
-/

namespace SqlLayout

/-- A part of a formatted document. -/
inductive Part where
  /-- A leaf. -/
  | leaf (id : NodeId)
  /-- A compound keyword, which stands for its words. -/
  | keyword (id : NodeId)
  | opening
  | closing
  /-- The text of a region, from the steps of a walk through it. -/
  | kept (events : List WalkEvent)
deriving DecidableEq, Repr

namespace Tree

section Definitions

variable (tree : Tree)

/-- Whether a node is a word of a compound keyword. -/
def isWord (id : NodeId) : Bool :=
  !(tree.kind id).isTrivia && (tree.parent id).any fun parent =>
    tree.kind parent == .compoundKeyword

def partOf : WalkEvent → Option Part
  | .enter id =>
      if tree.kind id = .whiteSpace then none
      else if (tree.kind id).isLeaf then if tree.isWord id then none else some (.leaf id)
      else if tree.kind id = .compoundKeyword then some (.keyword id)
      else if (tree.kind id).isParens then some .opening
      else none
  | .leave id => if (tree.kind id).isParens then some .closing else none

def endsRegion (region : Region) : WalkEvent → Bool
  | .enter id => (tree.kind id).isComment && region.isClosedBy (tree.text id)
  | .leave _ => false

def regionBegun : WalkEvent → Option Region
  | .enter id => if (tree.kind id).isComment then Region.openedBy? (tree.text id) else none
  | .leave _ => none

/-- The region that a step of a walk begins, with no steps through it yet. -/
def stretchBegun (event : WalkEvent) : Option (Region × List WalkEvent) :=
  (tree.regionBegun event).map (·, [])

/-- The parts that follow in the steps of a walk, given the open region and the steps through it so
far. -/
def partsFrom : Option (Region × List WalkEvent) → List WalkEvent → List Part
  | none, [] => []
  | some (_, passed), [] => [.kept passed]
  | none, event :: rest => (tree.partOf event).toList ++ partsFrom (tree.stretchBegun event) rest
  | some (region, passed), event :: rest =>
      if tree.endsRegion region event then
        .kept passed :: ((tree.partOf event).toList ++ partsFrom (tree.stretchBegun event) rest)
      else partsFrom (some (region, passed ++ [event])) rest

def parts : List Part :=
  tree.partsFrom none tree.walk

/-! ### Where a region is open -/

def regionAfter (state : Option Region) : WalkEvent → Option Region
  | .enter id => if (tree.kind id).isComment then Region.after state (tree.text id) else state
  | .leave _ => state

def located : Option Region → List WalkEvent → List (Option Region × WalkEvent)
  | _, [] => []
  | state, event :: rest => (state, event) :: located (tree.regionAfter state event) rest

/-- The steps of the walk through a document, each with the region that is open before it. -/
def locations : List (Option Region × WalkEvent) :=
  tree.located none tree.walk

/-- Whether a step of a walk lies in the open region: there is one, and the step does not end it. -/
def isInside : Option Region × WalkEvent → Bool
  | (none, _) => false
  | (some region, event) => !tree.endsRegion region event

/-- The leaf that a step of a walk enters. -/
def leafAt? : WalkEvent → Option NodeId
  | .enter id => if (tree.kind id).isLeaf then some id else none
  | .leave _ => none

def leafInside? (location : Option Region × WalkEvent) : Option NodeId :=
  if tree.isInside location then tree.leafAt? location.2 else none

/-- The leaf apart from blanks that a step enters outside regions. -/
def leafOutside? (location : Option Region × WalkEvent) : Option NodeId :=
  if tree.isInside location then none
  else (tree.leafAt? location.2).filter fun id => tree.kind id != .whiteSpace

def leavesInside : List NodeId :=
  tree.locations.filterMap tree.leafInside?

def leavesOutside : List NodeId :=
  tree.locations.filterMap tree.leafOutside?

/-- Whether one step enters a compound keyword and the other a word of it. -/
def joins : WalkEvent → WalkEvent → Bool
  | .enter compound, .enter word =>
      tree.kind compound == .compoundKeyword && (tree.contentChildren compound).contains word
  | _, _ => false

/-- No region begins or ends between the words of a compound keyword, so that some are inside and
others outside. -/
def Undivided : Prop :=
  ∀ first ∈ tree.locations, ∀ second ∈ tree.locations, tree.joins first.2 second.2 = true →
    second.1.isSome = first.1.isSome

instance : Decidable tree.Undivided :=
  inferInstanceAs (Decidable (∀ first ∈ tree.locations, ∀ second ∈ tree.locations, _ → _))

end Definitions

end Tree

namespace Part

/-- The leaves in the text of a region. -/
def inside (tree : Tree) : Part → List NodeId
  | kept events => events.filterMap tree.leafAt?
  | _ => []

/-- The leaves that a part outside regions stands for. -/
def outside (tree : Tree) : Part → List NodeId
  | leaf id => [id]
  | keyword id => tree.contentChildren id
  | _ => []

def text (style : Style) (tree : Tree) : Part → String
  | leaf id => tree.written style id
  | keyword id => style.wording.keyword ((tree.attributeOf id .simpleText).getD "")
  | opening => "("
  | closing => ")"
  | kept events => tree.renderEvents events

end Part

namespace Tree

variable {tree : Tree} {id : NodeId}

theorem region_stretchBegun (event : WalkEvent) :
    (tree.stretchBegun event).map Prod.fst = tree.regionBegun event := by
  cases begins : tree.regionBegun event <;> simp [stretchBegun, begins]

theorem passed_stretchBegun (event : WalkEvent) :
    ((tree.stretchBegun event).map Prod.snd).getD [] = [] := by
  cases begins : tree.regionBegun event <;> simp [stretchBegun, begins]

theorem regionAfter_none (event : WalkEvent) :
    tree.regionAfter none event = tree.regionBegun event := by
  cases event <;> rfl

theorem regionAfter_some (region : Region) (event : WalkEvent) :
    tree.regionAfter (some region) event =
      if tree.endsRegion region event then tree.regionBegun event else some region := by
  cases event with
  | enter id =>
    cases isComment : (tree.kind id).isComment <;>
      simp [regionAfter, endsRegion, regionBegun, Region.after, isComment]
  | leave id => rfl

/-! ### The leaves of the parts -/

theorem inside_partOf (event : WalkEvent) :
    (tree.partOf event).toList.flatMap (Part.inside tree) = [] := by
  cases event <;> simp only [partOf] <;> split_ifs <;> rfl

/-- The texts of the regions hold what a walk passes while they are open. -/
theorem inside_partsFrom (state : Option (Region × List WalkEvent)) (rest : List WalkEvent) :
    (tree.partsFrom state rest).flatMap (Part.inside tree) =
      ((state.map Prod.snd).getD []).filterMap tree.leafAt? ++
        (tree.located (state.map Prod.fst) rest).filterMap tree.leafInside? := by
  induction rest generalizing state with
  | nil => rcases state with _ | ⟨region, passed⟩ <;> simp [partsFrom, located, Part.inside]
  | cons event rest ih =>
    rcases state with _ | ⟨region, passed⟩
    · have out : tree.leafInside? (none, event) = none := rfl
      simp [partsFrom, located, inside_partOf, ih, region_stretchBegun, passed_stretchBegun, out,
        regionAfter_none]
    · cases ends : tree.endsRegion region event with
      | true =>
        have out : tree.leafInside? (some region, event) = none := by
          simp [leafInside?, isInside, ends]
        simp [partsFrom, located, inside_partOf, ih, region_stretchBegun, passed_stretchBegun, out,
          regionAfter_some, ends, Part.inside]
      | false =>
        have here : tree.leafInside? (some region, event) = tree.leafAt? event := by
          simp [leafInside?, isInside, ends]
        rw [partsFrom, if_neg (by simp [ends]), ih]
        cases leaf : tree.leafAt? event <;>
          simp [located, regionAfter_some, ends, here, leaf]

theorem inside_parts (tree : Tree) : tree.parts.flatMap (Part.inside tree) = tree.leavesInside := by
  rw [parts, inside_partsFrom]
  rfl

/-- The leaves that a step of a walk stands for, if it is outside regions. -/
def leavesAt (tree : Tree) (location : Option Region × WalkEvent) : List NodeId :=
  if tree.isInside location then [] else (tree.partOf location.2).toList.flatMap (Part.outside tree)

/-- The other parts stand for what a walk passes while no region is open. -/
theorem outside_partsFrom (state : Option (Region × List WalkEvent)) (rest : List WalkEvent) :
    (tree.partsFrom state rest).flatMap (Part.outside tree) =
      (tree.located (state.map Prod.fst) rest).flatMap tree.leavesAt := by
  induction rest generalizing state with
  | nil => rcases state with _ | ⟨region, passed⟩ <;> simp [partsFrom, located, Part.outside]
  | cons event rest ih =>
    rcases state with _ | ⟨region, passed⟩
    · have out : tree.leavesAt (none, event) =
          (tree.partOf event).toList.flatMap (Part.outside tree) := rfl
      simp [partsFrom, located, ih, region_stretchBegun, out, regionAfter_none]
    · cases ends : tree.endsRegion region event with
      | true =>
        have out : tree.leavesAt (some region, event) =
            (tree.partOf event).toList.flatMap (Part.outside tree) := by
          simp [leavesAt, isInside, ends]
        simp [partsFrom, located, ih, region_stretchBegun, out, regionAfter_some,
          ends, Part.outside]
      | false =>
        have none : tree.leavesAt (some region, event) = [] := by simp [leavesAt, isInside, ends]
        simp [partsFrom, located, ih, none, regionAfter_some, ends]

/-! ### Words and their compound keywords -/

theorem leafOutside?_eq_some {state : Option Region} {event : WalkEvent} :
    tree.leafOutside? (state, event) = some id ↔ event = .enter id ∧
      tree.isInside (state, event) = false ∧
      (tree.kind id).isLeaf = true ∧ tree.kind id ≠ .whiteSpace := by
  cases event with
  | leave node => simp [leafOutside?, leafAt?]
  | enter node =>
    cases inside : tree.isInside (state, .enter node) <;>
      cases isLeaf : (tree.kind node).isLeaf <;>
      simp [leafOutside?, leafAt?, inside, isLeaf, Option.filter] <;> grind

/-- A step outside regions stands for the leaf that it enters, or for the words of a compound
keyword. -/
theorem mem_leavesAt {state : Option Region} {event : WalkEvent} :
    id ∈ tree.leavesAt (state, event) ↔ tree.isInside (state, event) = false ∧
      (event = .enter id ∧ (tree.kind id).isLeaf = true ∧ tree.kind id ≠ .whiteSpace ∧
          tree.isWord id = false ∨
        ∃ compound, event = .enter compound ∧ tree.kind compound = .compoundKeyword ∧
          id ∈ tree.contentChildren compound) := by
  cases inside : tree.isInside (state, event) with
  | true => simp [leavesAt, inside]
  | false =>
    cases event with
    | leave node =>
      simp only [leavesAt, inside, partOf]
      split <;> simp [Part.outside]
    | enter node =>
      simp only [leavesAt, inside, partOf]
      split_ifs with isBlank isLeaf isWord isCompound isParens
      all_goals simp [Part.outside]
      all_goals grind [NodeKind.isLeaf]

theorem isInside_of_content (content : (tree.kind id).isComment = false) (state : Option Region) :
    tree.isInside (state, .enter id) = state.isSome := by
  cases state <;> simp [isInside, endsRegion, content]

theorem map_snd_located (state : Option Region) (events : List WalkEvent) :
    (tree.located state events).map Prod.snd = events := by
  induction events generalizing state with
  | nil => rfl
  | cons event rest ih => simp [located, ih]

/-- The node whose step of a walk stands for a leaf: the compound keyword of a word, and else the
leaf. -/
def owner (tree : Tree) (id : NodeId) : NodeId :=
  if tree.isWord id then (tree.parent id).getD id else id

/-- Every node of a regular document holds what its kind allows. -/
theorem Stores.fits_of_mem {parent : Option NodeId} {outline : Outline}
    (stored : tree.Stores parent outline) (regular : outline.Regular) {record : NodeId × Node}
    (member : record ∈ outline.records parent) :
    ∃ children, record.2.children = children.map Outline.id ∧
      Outline.Fits record.2.kind record.2.attributes children ∧
      ∀ child ∈ children, tree.kind child.id = child.kind := by
  induction regular generalizing parent with
  | @node id kind text attributes children _ fits _ ih =>
    rw [Outline.records_node] at member
    rcases List.mem_cons.mp member with rfl | inside
    · refine ⟨children, rfl, fits, fun child among => ?_⟩
      obtain ⟨_, _, _, _, _⟩ := child
      exact congrArg Node.kind (stored.child _ among).node_eq
    · obtain ⟨outline, among, below⟩ := Outline.mem_recordsOfList.mp inside
      exact ih outline among (stored.child outline among) below

namespace Shows

variable {draft : Draft} {compound : NodeId}

theorem exists_location (shown : tree.Shows draft) (known : id < tree.size) :
    ∃ state, (state, .enter id) ∈ tree.locations := by
  have walked := shown.enter_mem_walk known
  rw [← @map_snd_located tree none tree.walk] at walked
  obtain ⟨⟨state, _⟩, located, rfl⟩ := List.mem_map.mp walked
  exact ⟨state, located⟩

theorem children_of_isLeaf (shown : tree.Shows draft) (regular : draft.outline.Regular)
    (isLeaf : (tree.kind id).isLeaf = true) : tree.children id = [] := by
  by_cases known : id < tree.size
  · obtain ⟨children, same, fits, _⟩ := shown.stores.fits_of_mem regular (shown.record_of_lt known)
    rw [Tree.children, same, fits.childless isLeaf]
    rfl
  · rw [Tree.children, node_of_le (Nat.le_of_not_lt known)]
    rfl

theorem isLeaf_of_mem (shown : tree.Shows draft) (regular : draft.outline.Regular)
    {child : NodeId} (isCompound : tree.kind compound = .compoundKeyword)
    (isChild : child ∈ tree.children compound) :
    (tree.kind child).isLeaf = true := by
  have known : compound < tree.size := by
    by_contra unknown
    rw [Tree.kind, node_of_le (Nat.le_of_not_lt unknown)] at isCompound
    cases isCompound
  obtain ⟨children, same, fits, kinds⟩ :=
    shown.stores.fits_of_mem regular (shown.record_of_lt known)
  rw [Tree.children, same] at isChild
  obtain ⟨outline, among, rfl⟩ := List.mem_map.mp isChild
  rw [kinds outline among]
  exact fits.flat isCompound outline among

theorem mem_contentChildren_iff (shown : tree.Shows draft) {word : NodeId} :
    word ∈ tree.contentChildren compound ↔
      tree.parent word = some compound ∧ (tree.kind word).isTrivia = false := by
  rw [contentChildren, List.mem_filter, shown.mem_children_iff, Bool.not_eq_true']

theorem lt_size_of_parent {child above : NodeId} (isParent : tree.parent child = some above) :
    child < tree.size := by
  by_contra unknown
  rw [Tree.parent, node_of_le (Nat.le_of_not_lt unknown)] at isParent
  exact absurd isParent (Option.some_ne_none above).symm

theorem isWord_of_mem (shown : tree.Shows draft) {word : NodeId}
    (isCompound : tree.kind compound = .compoundKeyword)
    (among : word ∈ tree.contentChildren compound) :
    tree.isWord word = true := by
  obtain ⟨isParent, content⟩ := shown.mem_contentChildren_iff.mp among
  simp [isWord, content, isParent, isCompound]

theorem eq_owner (shown : tree.Shows draft) {location : Option Region × WalkEvent}
    (among : id ∈ tree.leavesAt location) : location.2 = .enter (tree.owner id) := by
  rcases (mem_leavesAt.mp among).2 with
    ⟨isEnter, _, _, notWord⟩ | ⟨compound, isEnter, isCompound, inside⟩
  · rw [isEnter, owner, if_neg (by simp [notWord])]
  · rw [isEnter, owner, if_pos (shown.isWord_of_mem isCompound inside),
      (shown.mem_contentChildren_iff.mp inside).1]
    rfl

theorem nodup_leavesAt (shown : tree.Shows draft) (location : Option Region × WalkEvent) :
    (tree.leavesAt location).Nodup := by
  rw [leavesAt]
  split
  · exact .nil
  cases tree.partOf location.2 with
  | none => exact .nil
  | some part =>
    rw [Option.toList_some, List.flatMap_singleton]
    cases part with
    | leaf id => exact List.nodup_singleton id
    | keyword id => exact (shown.nodup_children id).filter _
    | opening | closing | kept => exact .nil

theorem pairwise_locations (shown : tree.Shows draft) :
    tree.locations.Pairwise fun first second => first.2 ≠ second.2 := by
  have distinct : (tree.locations.map Prod.snd).Nodup := by
    rw [locations, map_snd_located]
    exact shown.nodup_walk
  exact List.pairwise_map.mp distinct

theorem nodup_outside (shown : tree.Shows draft) :
    (tree.locations.flatMap tree.leavesAt).Nodup := by
  refine List.nodup_flatMap.mpr ⟨fun location _ => shown.nodup_leavesAt location, ?_⟩
  refine shown.pairwise_locations.imp fun other id here there => other ?_
  exact (shown.eq_owner here).trans (shown.eq_owner there).symm

theorem nodup_leavesOutside (shown : tree.Shows draft) : tree.leavesOutside.Nodup := by
  refine List.pairwise_filterMap.mpr (shown.pairwise_locations.imp ?_)
  rintro ⟨state, event⟩ ⟨other, next⟩ apart id here _ there rfl
  exact apart ((leafOutside?_eq_some.mp here).1.trans (leafOutside?_eq_some.mp there).1.symm)

/-- Outside regions exactly the leaves are written that are there, unless a region begins or ends
between two words of a compound keyword. -/
theorem outside_perm (shown : tree.Shows draft) (regular : draft.outline.Regular)
    (undivided : tree.Undivided) :
    (tree.parts.flatMap (Part.outside tree)).Perm tree.leavesOutside := by
  rw [parts, outside_partsFrom]
  -- A word and its compound keyword are both inside or both outside regions.
  have same : ∀ {first second compound word}, (first, .enter compound) ∈ tree.locations →
      (second, .enter word) ∈ tree.locations → tree.kind compound = .compoundKeyword →
      word ∈ tree.contentChildren compound → second.isSome = first.isSome :=
        fun here there isCompound among =>
    undivided _ here _ there (by simp [joins, isCompound, among])
  have notComment : ∀ {id}, (tree.kind id).isTrivia = false → (tree.kind id).isComment = false := by
    intro id content
    simp only [NodeKind.isTrivia, Bool.or_eq_false_iff] at content
    exact content.2
  have lt_size_of_kind : ∀ {id}, tree.kind id = .compoundKeyword → id < tree.size := by
    intro id isCompound
    by_contra unknown
    rw [Tree.kind, node_of_le (Nat.le_of_not_lt unknown)] at isCompound
    cases isCompound
  refine (List.perm_ext_iff_of_nodup shown.nodup_outside shown.nodup_leavesOutside).mpr fun id => ?_
  rw [List.mem_flatMap, leavesOutside, List.mem_filterMap]
  constructor
  · rintro ⟨⟨state, event⟩, located, among⟩
    obtain ⟨outside, ⟨rfl, isLeaf, notBlank, _⟩ | ⟨compound, rfl, isCompound, among⟩⟩ :=
      mem_leavesAt.mp among
    · exact ⟨_, located, leafOutside?_eq_some.mpr ⟨rfl, outside, isLeaf, notBlank⟩⟩
    · obtain ⟨isParent, content⟩ := shown.mem_contentChildren_iff.mp among
      obtain ⟨other, there⟩ := shown.exists_location (lt_size_of_parent isParent)
      refine ⟨_, there, leafOutside?_eq_some.mpr ⟨rfl, ?_, ?_, ?_⟩⟩
      · rw [isInside_of_content (notComment content), same located there isCompound among]
        rwa [isInside_of_content (by rw [isCompound]; rfl)] at outside
      · exact shown.isLeaf_of_mem regular isCompound (List.mem_of_mem_filter among)
      · exact fun isBlank => by simp [isBlank, NodeKind.isTrivia] at content
  · rintro ⟨⟨state, event⟩, located, isLeaf⟩
    obtain ⟨rfl, outside, isLeaf, notBlank⟩ := leafOutside?_eq_some.mp isLeaf
    cases word : tree.isWord id with
    | false => exact ⟨_, located, mem_leavesAt.mpr ⟨outside, .inl ⟨rfl, isLeaf, notBlank, word⟩⟩⟩
    | true =>
      obtain ⟨content, compound, isParent, isCompound⟩ : (tree.kind id).isTrivia = false ∧
          ∃ compound, tree.parent id = some compound ∧ tree.kind compound = .compoundKeyword := by
        simpa [isWord, Option.any_eq_true] using word
      have among := shown.mem_contentChildren_iff.mpr ⟨isParent, content⟩
      obtain ⟨other, there⟩ := shown.exists_location (lt_size_of_kind isCompound)
      refine ⟨_, there, mem_leavesAt.mpr ⟨?_, .inr ⟨compound, rfl, isCompound, among⟩⟩⟩
      rw [isInside_of_content (by rw [isCompound]; rfl), ← same there located isCompound among]
      rwa [isInside_of_content (notComment content)] at outside

end Shows

end Tree

end SqlLayout
