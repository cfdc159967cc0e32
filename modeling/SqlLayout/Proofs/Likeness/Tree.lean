import SqlLayout.Builder.Comments
import SqlLayout.Keyword.Basic
import SqlLayout.Proofs.Draft.Nesting

/-!
# Documents that differ in their texts

Two trees are alike if they agree in everything but the texts of their nodes, and the texts agree in
what the grammar asks of them: whether a blank or a block comment holds a line break, and how a
keyword or an operator reads in upper case. What the grammar observes of alike trees is the same,
and what it does to them leaves them alike.
-/

namespace SqlLayout

/-- Two computations fail with the same error, or succeed with related results. -/
inductive Agree {ε α β : Type} (related : α → β → Prop) : Except ε α → Except ε β → Prop where
  | error (error : ε) : Agree related (.error error) (.error error)
  | ok {result : α} {other : β} (same : related result other) :
      Agree related (.ok result) (.ok other)

namespace Agree

variable {ε α β γ δ : Type} {related : α → β → Prop} {further : γ → δ → Prop}
  {first : Except ε α} {second : Except ε β}

theorem inversion (agree : Agree related first second) :
    (∃ error, first = .error error ∧ second = .error error) ∨
      ∃ result other, first = .ok result ∧ second = .ok other ∧ related result other := by
  cases agree with
  | error error => exact .inl ⟨error, rfl, rfl⟩
  | ok same => exact .inr ⟨_, _, rfl, rfl, same⟩

theorem imp (agree : Agree related first second) {weaker : α → β → Prop}
    (weaken : ∀ result other, related result other → weaker result other) :
    Agree weaker first second := by
  cases agree with
  | error error => exact .error error
  | ok same => exact .ok (weaken _ _ same)

theorem bind (agree : Agree related first second) {next : α → Except ε γ} {follow : β → Except ε δ}
    (later : ∀ result other, related result other → Agree further (next result) (follow other)) :
    Agree further (first >>= next) (second >>= follow) := by
  cases agree with
  | error error => exact .error error
  | ok same => exact later _ _ same

theorem map (agree : Agree related first second) {onFirst : α → γ} {onSecond : β → δ}
    (later : ∀ result other, related result other → further (onFirst result) (onSecond other)) :
    Agree further (first.map onFirst) (second.map onSecond) := by
  cases agree with
  | error error => exact .error error
  | ok same => exact .ok (later _ _ same)

theorem ite {condition other : Bool} (same : condition = other)
    {yes no : Except ε α} {yes' no' : Except ε β} (whenTrue : Agree related yes yes')
    (whenFalse : Agree related no no') :
    Agree related (if condition then yes else no) (if other then yes' else no') := by
  subst same
  cases condition with
  | false => exact whenFalse
  | true => exact whenTrue

theorem iteBind {condition other : Bool} (same : condition = other)
    {yes no : Except ε α} {yes' no' : Except ε β} {next : α → Except ε γ} {follow : β → Except ε δ}
    (whenTrue : Agree related yes yes') (whenFalse : Agree related no no')
    (later : ∀ result other, related result other → Agree further (next result) (follow other)) :
    Agree further (if condition then yes >>= next else no >>= next)
      (if other then yes' >>= follow else no' >>= follow) :=
  .ite same (whenTrue.bind later) (whenFalse.bind later)

theorem foldlM {run : α → γ → Except ε α} {follow : β → γ → Except ε β} {steps : List γ}
    (each : ∀ step ∈ steps, ∀ state other, related state other →
      Agree related (run state step) (follow other step))
    {state : α} {other : β} (alike : related state other) :
    Agree related (steps.foldlM run state) (steps.foldlM follow other) := by
  induction steps generalizing state other with
  | nil => exact .ok alike
  | cons step steps ih =>
    obtain ⟨here, later⟩ := List.forall_mem_cons.mp each
    rw [List.foldlM_cons, List.foldlM_cons]
    exact (here state other alike).bind fun _ _ alike => ih later alike

end Agree

/-- How closely two documents are compared. -/
structure Likeness where
  /-- Only blanks differ. -/
  exact : Prop
  /-- No blank lies inside a word. -/
  unbroken : Prop

/-- Two texts that the grammar does not tell apart in a node of a kind. Exactly compared, only
blanks differ at all. -/
structure NodeKind.Reads (likeness : Likeness) (kind : NodeKind) (text other : String) : Prop where
  container : kind.isLeaf = false → text = other
  breaks : kind = .whiteSpace ∨ kind = .blockComment →
    containsLineBreak text = containsLineBreak other
  letters : kind = .otherKeyword ∨ kind = .alphaOperator → Text.upper text = Text.upper other
  exact : likeness.exact → kind ≠ .whiteSpace → text = other

theorem NodeKind.Reads.refl (likeness : Likeness) (kind : NodeKind) (text : String) :
    kind.Reads likeness text text :=
  ⟨fun _ => rfl, fun _ => rfl, fun _ => rfl, fun _ _ => rfl⟩

theorem NodeKind.Reads.symm {likeness : Likeness} {kind : NodeKind} {text other : String}
    (reads : kind.Reads likeness text other) : kind.Reads likeness other text :=
  ⟨fun hollow => (reads.container hollow).symm, fun broken => (reads.breaks broken).symm,
    fun isKeyword => (reads.letters isKeyword).symm, fun exact written =>
      (reads.exact exact written).symm⟩

/-- Two answers that name the same keyword, if they name one without a bracket. -/
def SaysAlike (answer other : Option String) : Prop :=
  ∀ word : String, '[' ∉ word.toList → (answer = some word ↔ other = some word)

namespace SaysAlike

theorem refl (answer : Option String) : SaysAlike answer answer :=
  fun _ _ => .rfl

theorem bind {α : Type} (asked : Option α) {answer other : α → Option String}
    (alike : ∀ element, SaysAlike (answer element) (other element)) :
    SaysAlike (asked.bind answer) (asked.bind other) := by
  cases asked with
  | none => exact .refl none
  | some element => exact alike element

theorem any {answer other : Option String} (alike : SaysAlike answer other) {keywords : List String}
    (plain : ∀ word ∈ keywords, '[' ∉ word.toList) :
    answer.any keywords.contains = other.any keywords.contains := by
  have holds (answer : Option String) :
      answer.any keywords.contains = true ↔ ∃ word ∈ keywords, answer = some word := by
    cases answer <;> simp
  rw [Bool.eq_iff_iff, holds, holds]
  exact exists_congr fun word => and_congr_right fun member => alike word (plain word member)

end SaysAlike

/-- Two texts of a keyword of several words that the grammar does not tell apart. Where no blank
lies inside a word they are the same. -/
structure Likeness.Names (likeness : Likeness) (name other : Option String) : Prop where
  equal : likeness.unbroken → name = other
  keyword : SaysAlike name other
  type : name.map Keyword.endsInDataType = other.map Keyword.endsInDataType

theorem Likeness.Names.refl (likeness : Likeness) (name : Option String) :
    likeness.Names name name :=
  ⟨fun _ => rfl, .refl name, rfl⟩

theorem Likeness.Names.symm {likeness : Likeness} {name other : Option String}
    (names : likeness.Names name other) : likeness.Names other name :=
  ⟨fun unbroken => (names.equal unbroken).symm, fun word plain => (names.keyword word plain).symm,
    names.type.symm⟩

/-- The attributes of a node without the text of a keyword. -/
def Attributes.silent (attributes : Attributes) : Attributes :=
  { attributes with simpleText := attributes.simpleText.map fun _ => "" }

def Node.bones (node : Node) : Node :=
  { node with text := "", attributes := node.attributes.silent }

namespace Tree

def bones (tree : Tree) : Tree :=
  { nodes := tree.nodes.map Node.bones }

section Bones

variable (tree : Tree)

theorem node_bones (id : NodeId) : tree.bones.node id = (tree.node id).bones := by
  rw [Tree.node, Tree.node, bones, Array.getD_eq_getD_getElem?, Array.getD_eq_getD_getElem?,
    Array.getElem?_map]
  cases tree.nodes[id]? <;> rfl

theorem size_bones : tree.bones.size = tree.size := by
  simp [bones, size]

theorem kind_bones (id : NodeId) : tree.bones.kind id = tree.kind id := by
  rw [kind, node_bones]
  rfl

theorem parent_bones (id : NodeId) : tree.bones.parent id = tree.parent id := by
  rw [parent, node_bones]
  rfl

theorem children_bones (id : NodeId) : tree.bones.children id = tree.children id := by
  rw [children, node_bones]
  rfl

theorem bones_update_of (id : NodeId) {change mute : Node → Node}
    (silent : ∀ node : Node, (change node).bones = mute node.bones) :
    (tree.update id change).bones = tree.bones.update id mute := by
  refine congrArg Tree.mk (Array.ext_getElem? fun place => ?_)
  simp only [update, bones, Array.getElem?_map, Array.getElem?_modify]
  split
  · simp [Option.map_map, Function.comp_def, silent]
  · rfl

theorem bones_update (id : NodeId) {change : Node → Node}
    (silent : ∀ node : Node, (change node).bones = change node.bones) :
    (tree.update id change).bones = tree.bones.update id change :=
  tree.bones_update_of id silent

theorem bones_setAttribute (id : NodeId) {key : Attribute} (error : key ≠ .simpleText)
    (value : String) :
    (tree.setAttribute id key value).bones = tree.bones.setAttribute id key value := by
  refine tree.bones_update id fun node => ?_
  cases key with
  | simpleText => exact absurd rfl error
  | errorFound => rfl
  | hasError => rfl

theorem bones_setSimpleText (id : NodeId) (value : String) :
    (tree.setAttribute id .simpleText value).bones = tree.bones.setAttribute id .simpleText "" :=
  tree.bones_update_of id fun _ => rfl

theorem bones_create (kind : NodeKind) (text : String) :
    (tree.create kind text).1.bones = (tree.bones.create kind "").1 := by
  simp [create, bones, Node.bones, Attributes.silent]

end Bones

/-! ### Changes of place -/

/-- A node gets another parent, or none, and the children of a container are arranged anew. -/
def relink (tree : Tree) (id : NodeId) (above : Option NodeId) (holder : NodeId)
    (arrange : List NodeId → List NodeId) : Tree :=
  (tree.update id fun node => { node with parent := above }).update holder fun node =>
    { node with children := arrange node.children }

theorem append_eq_relink (tree : Tree) (parent : NodeId) (kind : NodeKind) (text : String) :
    (tree.append parent kind text).1 =
      (tree.create kind text).1.relink tree.size (some parent) parent (· ++ [tree.size]) :=
  rfl

theorem detach_eq_relink (tree : Tree) (id : NodeId) :
    tree.detach id = match tree.parent id with
      | some parent => tree.relink id none parent fun children => children.filter (· != id)
      | none => tree :=
  rfl

theorem insertBefore_eq_relink (tree : Tree) (id sibling : NodeId) :
    tree.insertBefore id sibling = match tree.parent sibling with
      | some parent =>
          if (tree.children parent).contains sibling then
            .ok (tree.relink id (some parent) parent (insertInto id sibling))
          else .error (.detachedSibling (tree.kind sibling))
      | none => .error (.detachedSibling (tree.kind sibling)) :=
  rfl

theorem node_update (tree : Tree) (id place : NodeId) (change : Node → Node) :
    (tree.update id change).node place =
      if id = place ∧ place < tree.size then change (tree.node place) else tree.node place := by
  simp only [Tree.node, Array.getD_eq_getD_getElem?, getElem?_update]
  rcases Nat.lt_or_ge place tree.nodes.size with inside | outside
  · rw [Array.getElem?_eq_getElem inside]
    split <;> simp_all [Tree.size]
  · have unknown : ¬ (id = place ∧ place < tree.size) := fun both => Nat.not_lt_of_ge outside both.2
    rw [Array.getElem?_eq_none outside, if_neg unknown]
    split <;> rfl

section Relink

variable (tree : Tree) (id : NodeId) (above : Option NodeId) (holder : NodeId)
  (arrange : List NodeId → List NodeId)

theorem bones_relink :
    (tree.relink id above holder arrange).bones = tree.bones.relink id above holder arrange := by
  rw [relink, bones_update, bones_update]
  · rfl
  all_goals exact fun _ => rfl

@[simp]
theorem size_relink : (tree.relink id above holder arrange).size = tree.size := by
  simp [relink]

@[simp]
theorem kind_relink (place : NodeId) :
    (tree.relink id above holder arrange).kind place = tree.kind place := by
  simp only [kind, relink, node_update]
  split <;> split <;> rfl

@[simp]
theorem text_relink (place : NodeId) :
    (tree.relink id above holder arrange).text place = tree.text place := by
  simp only [text, relink, node_update]
  split <;> split <;> rfl

@[simp]
theorem attributeOf_relink (place : NodeId) (key : Attribute) :
    (tree.relink id above holder arrange).attributeOf place key = tree.attributeOf place key := by
  simp only [attributeOf, relink, node_update]
  split <;> split <;> rfl

variable {tree id above holder arrange}

theorem parent_relink {place parent : NodeId}
    (isParent : (tree.relink id above holder arrange).parent place = some parent) :
    above = some parent ∨ tree.parent place = some parent := by
  simp only [Tree.parent, relink, node_update] at isParent ⊢
  split at isParent <;> split at isParent <;> simp_all

theorem children_relink {place : NodeId}
    (some : (tree.relink id above holder arrange).children place ≠ []) :
    place = holder ∨ tree.children place ≠ [] := by
  simp only [Tree.children, relink, node_update] at some ⊢
  split at some <;> split at some <;> simp_all

end Relink

/-! ### New nodes and attributes -/

theorem node_create (tree : Tree) (kind : NodeKind) (text : String) (place : NodeId) :
    (tree.create kind text).1.node place =
      if place = tree.size then { kind, text } else tree.node place := by
  simp only [Tree.node, create, Array.getD_eq_getD_getElem?, Array.getElem?_push, Tree.size]
  split <;> rfl

@[simp]
theorem size_create (tree : Tree) (kind : NodeKind) (text : String) :
    (tree.create kind text).1.size = tree.size + 1 := by
  simp [create, Tree.size]

theorem node_setAttribute (tree : Tree) (id : NodeId) (key : Attribute) (value : String)
    (place : NodeId) :
    ∃ attributes, (tree.setAttribute id key value).node place =
      { tree.node place with attributes } := by
  rw [setAttribute, node_update]
  split
  · exact ⟨_, rfl⟩
  · exact ⟨_, rfl⟩

theorem attributeOf_setAttribute (tree : Tree) (id : NodeId) (key : Attribute) (value : String)
    (place : NodeId) (other : Attribute) :
    (tree.setAttribute id key value).attributeOf place other =
      if id = place ∧ place < tree.size ∧
          other = key then some value else tree.attributeOf place other := by
  rw [attributeOf, setAttribute, node_update]
  split <;> simp_all [attributeOf]

/-- The same nodes, perhaps in other places. -/
structure Rearranged (tree moved : Tree) : Prop where
  size : moved.size = tree.size
  kind : ∀ id, moved.kind id = tree.kind id

theorem Rearranged.refl (tree : Tree) : tree.Rearranged tree :=
  ⟨rfl, fun _ => rfl⟩

theorem Rearranged.trans {tree moved final : Tree} (first : tree.Rearranged moved)
    (second : moved.Rearranged final) : tree.Rearranged final :=
  ⟨second.size.trans first.size, fun id => (second.kind id).trans (first.kind id)⟩

theorem rearranged_relink (tree : Tree) (id : NodeId) (above : Option NodeId) (holder : NodeId)
    (arrange : List NodeId → List NodeId) : tree.Rearranged (tree.relink id above holder arrange) :=
  ⟨by simp, by simp⟩

theorem rearranged_detach (tree : Tree) (id : NodeId) : tree.Rearranged (tree.detach id) := by
  rw [detach_eq_relink]
  split
  · exact tree.rearranged_relink ..
  · exact .refl tree

/-- A node that can hold others: it exists and is no leaf. -/
structure Hollow (tree : Tree) (id : NodeId) : Prop where
  known : id < tree.size
  hollow : (tree.kind id).isLeaf = false

namespace Hollow

variable {tree moved : Tree} {id : NodeId}

theorem rearranged (hollow : tree.Hollow id) (rearranged : tree.Rearranged moved) :
    moved.Hollow id :=
  ⟨rearranged.size ▸ hollow.known, (rearranged.kind id).symm ▸ hollow.hollow⟩

theorem relink (hollow : tree.Hollow id) (linked : NodeId) (above : Option NodeId) (holder : NodeId)
    (arrange : List NodeId → List NodeId) : (tree.relink linked above holder arrange).Hollow id :=
  hollow.rearranged (tree.rearranged_relink ..)

theorem setAttribute (hollow : tree.Hollow id) (place : NodeId) (key : Attribute) (value : String) :
    (tree.setAttribute place key value).Hollow id := by
  obtain ⟨attributes, node⟩ := tree.node_setAttribute place key value id
  exact ⟨by simpa using hollow.known, by rw [kind, node]; exact hollow.hollow⟩

theorem create (hollow : tree.Hollow id) (kind : NodeKind) (text : String) :
    (tree.create kind text).1.Hollow id := by
  refine ⟨?_, ?_⟩
  · rw [size_create]
    exact Nat.lt_succ_of_lt hollow.known
  · rw [Tree.kind, node_create, if_neg (Nat.ne_of_lt hollow.known)]
    exact hollow.hollow

theorem append (hollow : tree.Hollow id) (parent : NodeId) (kind : NodeKind) (text : String) :
    (tree.append parent kind text).1.Hollow id := by
  rw [append_eq_relink]
  exact (hollow.create kind text).relink ..

end Hollow

theorem hollow_append (tree : Tree) (parent : NodeId) {kind : NodeKind}
    (hollow : kind.isLeaf = false) (text : String) :
    (tree.append parent kind text).1.Hollow tree.size := by
  have created : (tree.create kind text).1.Hollow tree.size := by
    refine ⟨by simp, ?_⟩
    rw [Tree.kind, node_create, if_pos rfl]
    exact hollow
  rw [append_eq_relink]
  exact created.relink ..

theorem moveOwnLineComments_succ (tree : Tree) (container anchor : NodeId) (bound : Nat) :
    tree.moveOwnLineComments container anchor (bound + 1) =
      (tree.moveBefore anchor (tree.tail container).moving).bind fun moved =>
        (tree.tail container).inner.elim (.ok moved)
          (moved.moveOwnLineComments · ((tree.tail container).moving.headD anchor) bound) := by
  rw [Tree.moveOwnLineComments]
  cases (tree.tail container).inner <;> rfl

/-! ### Alike trees -/

/-- Two trees that differ in texts only, and there in nothing that the grammar asks for. Leaves hold
nothing. -/
structure Alike (likeness : Likeness) (tree other : Tree) : Prop where
  bones : tree.bones = other.bones
  reads : ∀ id, (tree.kind id).Reads likeness (tree.text id) (other.text id)
  names : ∀ id, likeness.Names (tree.attributeOf id .simpleText) (other.attributeOf id .simpleText)
  above : ∀ {id parent : NodeId}, tree.parent id = some parent → tree.Hollow parent
  holder : ∀ {id : NodeId}, tree.children id ≠ [] → tree.Hollow id
  root : tree.Hollow Tree.root

namespace Alike

variable {likeness : Likeness} {tree other : Tree} (alike : tree.Alike likeness other)
include alike

theorem size : tree.size = other.size := by
  rw [← size_bones, alike.bones, size_bones]

theorem kind (id : NodeId) : tree.kind id = other.kind id := by
  rw [← kind_bones, alike.bones, kind_bones]

theorem parent (id : NodeId) : tree.parent id = other.parent id := by
  rw [← parent_bones, alike.bones, parent_bones]

theorem children (id : NodeId) : tree.children id = other.children id := by
  rw [← children_bones, alike.bones, children_bones]

theorem hollow_iff {id : NodeId} : tree.Hollow id ↔ other.Hollow id := by
  constructor
  · exact fun hollow => ⟨alike.size ▸ hollow.known, alike.kind id ▸ hollow.hollow⟩
  · exact fun hollow => ⟨alike.size ▸ hollow.known, (alike.kind id).symm ▸ hollow.hollow⟩

theorem symm : other.Alike likeness tree where
  bones := alike.bones.symm
  reads id := alike.kind id ▸ (alike.reads id).symm
  names id := (alike.names id).symm
  above isParent := alike.hollow_iff.mp (alike.above ((alike.parent _).trans isParent))
  holder some := alike.hollow_iff.mp (alike.holder ((alike.children _).symm ▸ some))
  root := alike.hollow_iff.mp alike.root

/-! #### Changes -/

theorem relink {id : NodeId} {above : Option NodeId} {holder : NodeId}
    {arrange : List NodeId → List NodeId}
    (hollow : tree.Hollow holder) (hosts : ∀ parent, above = some parent → tree.Hollow parent) :
    (tree.relink id above holder arrange).Alike likeness
      (other.relink id above holder arrange) where
  bones := by rw [bones_relink, bones_relink, alike.bones]
  reads place := by simpa using alike.reads place
  names place := by simpa using alike.names place
  above := by
    intro place parent isParent
    rcases parent_relink isParent with isAbove | isParent
    · exact (hosts parent isAbove).relink ..
    · exact (alike.above isParent).relink ..
  holder := by
    intro place some
    rcases children_relink some with rfl | some
    · exact hollow.relink ..
    · exact (alike.holder some).relink ..
  root := alike.root.relink ..

theorem create {kind : NodeKind} {text wording : String}
    (reads : kind.Reads likeness text wording) :
    (tree.create kind text).1.Alike likeness (other.create kind wording).1 where
  bones := by rw [bones_create, bones_create, alike.bones]
  reads place := by
    rw [Tree.kind, Tree.text, Tree.text, node_create, node_create, ← alike.size]
    split
    · exact reads
    · exact alike.reads place
  names place := by
    rw [Tree.attributeOf, Tree.attributeOf, node_create, node_create, ← alike.size]
    split
    · exact .refl ..
    · exact alike.names place
  above := by
    intro place parent isParent
    rw [Tree.parent, node_create] at isParent
    split at isParent
    · cases isParent
    · exact (alike.above isParent).create ..
  holder := by
    intro place some
    rw [Tree.children, node_create] at some
    split at some
    · exact absurd rfl some
    · exact (alike.holder some).create ..
  root := alike.root.create ..

theorem append {parent : NodeId} (hollow : tree.Hollow parent) {kind : NodeKind}
    {text wording : String} (reads : kind.Reads likeness text wording) :
    (tree.append parent kind text).1.Alike likeness (other.append parent kind wording).1 := by
  rw [append_eq_relink, append_eq_relink, ← alike.size]
  have hollow := hollow.create kind text
  exact (alike.create reads).relink hollow (by rintro _ ⟨⟩; exact hollow)

theorem setAttribute {id : NodeId} {key : Attribute} {value wording : String}
    (bones : (tree.setAttribute id key value).bones = (other.setAttribute id key wording).bones)
    (names : key = .simpleText → likeness.Names (some value) (some wording)) :
    (tree.setAttribute id key value).Alike likeness (other.setAttribute id key wording) where
  bones := bones
  reads place := by
    obtain ⟨_, node⟩ := tree.node_setAttribute id key value place
    obtain ⟨_, node'⟩ := other.node_setAttribute id key wording place
    rw [Tree.kind, Tree.text, Tree.text, node, node']
    exact alike.reads place
  names place := by
    rw [attributeOf_setAttribute, attributeOf_setAttribute, ← alike.size]
    split
    next named => exact names named.2.2.symm
    · exact alike.names place
  above := by
    intro place parent isParent
    obtain ⟨_, node⟩ := tree.node_setAttribute id key value place
    rw [Tree.parent, node] at isParent
    exact (alike.above isParent).setAttribute ..
  holder := by
    intro place some
    obtain ⟨_, node⟩ := tree.node_setAttribute id key value place
    rw [Tree.children, node] at some
    exact (alike.holder some).setAttribute ..
  root := alike.root.setAttribute ..

theorem setError (id : NodeId) {key : Attribute} (error : key ≠ .simpleText) (value : String) :
    (tree.setAttribute id key value).Alike likeness (other.setAttribute id key value) := by
  refine alike.setAttribute ?_ fun isName => absurd isName error
  rw [bones_setAttribute _ _ error, bones_setAttribute _ _ error, alike.bones]

theorem setSimpleText (id : NodeId) {value wording : String}
    (names : likeness.Names (some value) (some wording)) :
    (tree.setAttribute id .simpleText value).Alike likeness
      (other.setAttribute id .simpleText wording) := by
  refine alike.setAttribute ?_ fun _ => names
  rw [bones_setSimpleText, bones_setSimpleText, alike.bones]

theorem detach (id : NodeId) : (tree.detach id).Alike likeness (other.detach id) := by
  rw [detach_eq_relink, detach_eq_relink, ← alike.parent]
  split
  next parent isParent => exact alike.relink (alike.above isParent) (by simp)
  · exact alike

theorem insertBefore (id sibling : NodeId) :
    Agree (fun grown twin => grown.Alike likeness twin ∧ tree.Rearranged grown)
      (tree.insertBefore id sibling) (other.insertBefore id sibling) := by
  rw [insertBefore_eq_relink, insertBefore_eq_relink, ← alike.parent]
  split
  next parent isParent =>
    rw [← alike.children, ← alike.kind]
    have hollow := alike.above isParent
    exact .ite
      rfl (.ok ⟨alike.relink hollow (by rintro _ ⟨⟩; exact hollow), tree.rearranged_relink ..⟩)
      (.error _)
  · rw [← alike.kind]
    exact .error _

/-! #### Observations -/

theorem ancestor (id : NodeId) (levels : Nat) :
    tree.ancestor id levels = other.ancestor id levels := by
  induction levels generalizing id with
  | zero => rfl
  | succ levels ih => simp only [Tree.ancestor, alike.parent, ih]

theorem ancestorIs (id : NodeId) (levels : Nat) (kind : NodeKind) :
    tree.ancestorIs id levels kind = other.ancestorIs id levels kind := by
  simp only [Tree.ancestorIs, alike.ancestor, alike.kind]

theorem lineage (id : NodeId) (bound : Nat) : tree.lineage id bound = other.lineage id bound := by
  induction bound generalizing id with
  | zero => rfl
  | succ bound ih => simp only [Tree.lineage, alike.parent, ih]

theorem isAttached (id : NodeId) : tree.isAttached id = other.isAttached id := by
  rw [Tree.isAttached, Tree.isAttached, alike.lineage, alike.size]

theorem pathIs (id : NodeId) (kinds : List NodeKind) :
    tree.pathIs id kinds = other.pathIs id kinds := by
  induction kinds generalizing id with
  | nil => rfl
  | cons kind others ih =>
    cases others with
    | nil => simp only [Tree.pathIs, alike.kind]
    | cons outer others => simp only [Tree.pathIs, alike.kind, alike.parent, ih]

theorem childrenOfKind (id : NodeId) (kind : NodeKind) :
    tree.childrenOfKind id kind = other.childrenOfKind id kind := by
  simp only [Tree.childrenOfKind, alike.children, alike.kind]

theorem contentChildren (id : NodeId) : tree.contentChildren id = other.contentChildren id := by
  simp only [Tree.contentChildren, alike.children, alike.kind]

theorem hasContent (id : NodeId) : tree.hasContent id = other.hasContent id := by
  rw [Tree.hasContent, Tree.hasContent, alike.contentChildren]

theorem isMeaningful (id : NodeId) : tree.isMeaningful id = other.isMeaningful id := by
  have breaks := (alike.reads id).breaks
  rw [Tree.isMeaningful, Tree.isMeaningful, ← alike.kind]
  split
  case h_4 isBlock => exact breaks (.inr isBlock)
  all_goals rfl

theorem hasMeaningfulContent (id : NodeId) :
    tree.hasMeaningfulContent id = other.hasMeaningfulContent id := by
  rw [Tree.hasMeaningfulContent, Tree.hasMeaningfulContent, alike.children,
    funext alike.isMeaningful]

theorem firstContentWithin (id : NodeId) (bound : Nat) :
    tree.firstContentWithin id bound = other.firstContentWithin id bound := by
  induction bound generalizing id with
  | zero => rfl
  | succ bound ih => simp only [Tree.firstContentWithin, alike.contentChildren, alike.kind, ih]

theorem firstSemanticElement (id : NodeId) :
    tree.firstSemanticElement id = other.firstSemanticElement id := by
  rw [Tree.firstSemanticElement, Tree.firstSemanticElement, alike.firstContentWithin, alike.size]

theorem keywordText? (id : NodeId) : SaysAlike (tree.keywordText? id) (other.keywordText? id) := by
  have letters := (alike.reads id).letters
  rw [Tree.keywordText?, Tree.keywordText?, ← alike.kind]
  split
  next isKeyword =>
    rw [letters (.inl isKeyword)]
    exact .refl _
  · exact (alike.names id).keyword
  · exact .refl none

theorem enclosingStatement? (id : NodeId) :
    tree.enclosingStatement? id = other.enclosingStatement? id := by
  simp only [Tree.enclosingStatement?, alike.lineage, alike.size, alike.kind]

theorem firstKeyword? (id : NodeId) :
    SaysAlike (tree.firstKeyword? id) (other.firstKeyword? id) := by
  unfold Tree.firstKeyword?
  rw [← alike.firstSemanticElement]
  refine .bind _ fun first => ?_
  rw [← alike.kind, ← alike.childrenOfKind]
  split
  · refine .bind _ fun clause => ?_
    rw [← alike.firstSemanticElement]
    exact .bind _ fun element => alike.keywordText? element
  · exact alike.keywordText? first

theorem startsLine (comment before : NodeId) :
    tree.startsLine comment before = other.startsLine comment before := by
  have breaks := (alike.reads before).breaks
  rw [Tree.startsLine, Tree.startsLine, ← alike.kind, ← alike.kind]
  by_cases isBlank : tree.kind before = .whiteSpace
  · rw [breaks (.inl isBlank)]
  · simp [beq_false_of_ne isBlank]

/-! #### Comments on lines of their own -/

/-- The nodes that move are the same, and so is the container to look into. A leaf may hide
nothing. -/
theorem readTail (passed moving ids : List NodeId) :
    (tree.readTail passed moving ids).moving = (other.readTail passed moving ids).moving ∧
      (tree.readTail passed moving ids).inner.filter (fun id => !(tree.kind id).isLeaf) =
        (other.readTail passed moving ids).inner.filter (fun id => !(tree.kind id).isLeaf) := by
  have inner (id : NodeId) :
      (if tree.text id = "" then some id else none).filter (fun id => !(tree.kind id).isLeaf) =
        (if other.text id = "" then some id else none).filter
          (fun id => !(tree.kind id).isLeaf) := by
    cases isLeaf : (tree.kind id).isLeaf with
    | false => rw [(alike.reads id).container isLeaf]
    | true =>
      split <;> split <;> simp [Option.filter, isLeaf]
  induction ids generalizing passed moving with
  | nil => exact ⟨rfl, rfl⟩
  | cons id before ih =>
    unfold Tree.readTail
    rw [← alike.kind]
    split
    · exact ih ..
    · cases (tree.kind id).isComment with
      | false => exact ⟨rfl, inner id⟩
      | true =>
        cases before with
        | nil => exact ⟨rfl, inner id⟩
        | cons previous before =>
          dsimp only
          rw [← alike.startsLine, ← alike.kind]
          split
          · exact ih ..
          · split
            · exact ih ..
            · exact ⟨rfl, inner id⟩

omit alike in
theorem moveBefore (alike : tree.Alike likeness other) (anchor : NodeId) (ids : List NodeId) :
    Agree (fun moved twin => moved.Alike likeness twin ∧ tree.Rearranged moved)
      (tree.moveBefore anchor ids) (other.moveBefore anchor ids) := by
  induction ids generalizing tree other with
  | nil => exact .ok ⟨alike, .refl tree⟩
  | cons id rest ih =>
    refine ((alike.detach id).insertBefore id anchor).bind ?_
    rintro grown twin ⟨alike, inserted⟩
    refine (ih alike).imp ?_
    rintro moved twin ⟨alike, further⟩
    exact ⟨alike, ((tree.rearranged_detach id).trans inserted).trans further⟩

theorem moveOwnLineComments_leaf {id : NodeId} (isLeaf : (tree.kind id).isLeaf = true)
    (anchor : NodeId) (bound : Nat) : tree.moveOwnLineComments id anchor bound = .ok tree := by
  have childless : tree.children id = [] := by
    by_contra some
    rw [(alike.holder some).hollow] at isLeaf
    cases isLeaf
  cases bound with
  | zero => rfl
  | succ bound =>
    simp [Tree.moveOwnLineComments, Tree.tail, childless, Tree.readTail, Tree.moveBefore]

/-- Only containers are looked into. -/
theorem moveOwnLineComments_filter (inner : Option NodeId) (anchor : NodeId) (bound : Nat) :
    inner.elim (.ok tree) (tree.moveOwnLineComments · anchor bound) =
      (inner.filter fun id => !(tree.kind id).isLeaf).elim (.ok tree)
        (tree.moveOwnLineComments · anchor bound) := by
  cases inner with
  | none => rfl
  | some id =>
    cases isLeaf : (tree.kind id).isLeaf with
    | false => simp [Option.filter, isLeaf]
    | true => simp [Option.filter, isLeaf, alike.moveOwnLineComments_leaf isLeaf]

omit alike in
theorem moveOwnLineComments (alike : tree.Alike likeness other) (container anchor : NodeId)
    (bound : Nat) :
    Agree (fun moved twin => moved.Alike likeness twin ∧ tree.Rearranged moved)
      (tree.moveOwnLineComments container anchor bound)
      (other.moveOwnLineComments container anchor bound) := by
  induction bound generalizing tree other container anchor with
  | zero => exact .ok ⟨alike, .refl tree⟩
  | succ bound ih =>
    obtain ⟨moving, inner⟩ := alike.readTail [] [] (tree.children container).reverse
    rw [moveOwnLineComments_succ, moveOwnLineComments_succ, Tree.tail, Tree.tail,
      ← alike.children, ← moving]
    refine (alike.moveBefore anchor _).bind ?_
    rintro moved twin ⟨alike, rearranged⟩
    -- One run may look into an empty leaf where the other does not; neither finds anything there.
    rw [alike.moveOwnLineComments_filter, alike.symm.moveOwnLineComments_filter]
    simp only [← alike.kind, rearranged.kind, ← inner]
    cases (tree.readTail [] [] (tree.children container).reverse).inner.filter _ with
    | none => exact .ok ⟨alike, rearranged⟩
    | some id =>
      refine (ih alike ..).imp ?_
      rintro final twin ⟨alike, further⟩
      exact ⟨alike, rearranged.trans further⟩

end Alike

end Tree

end SqlLayout
