import SqlLayout.Grammar.Reading
import SqlLayout.Proofs.Draft.Nesting
import SqlLayout.Tree.Walk

/-!
# Symbols

The source text of a document as a sequence of symbols: the tokens of its contents, its blanks and
comments, and the parentheses of its groups. A draft has a past, the symbols up to the place that
takes the next node; closing the open containers adds only the parentheses that are missing.
-/

namespace SqlLayout

variable {kind : NodeKind}

/-- A unit of source text. -/
inductive Symbol where
  /-- A token of some content. -/
  | token (kind : TokenKind) (value : String)
  /-- A blank or a comment. -/
  | trivia (kind : NodeKind) (text : String)
  | opening
  | closing
deriving DecidableEq

namespace Symbol

def chars : Symbol → List Char
  | token kind value => (Token.spelling { kind, value, span := default }).toList
  | trivia kind text => (kind.ownText text).toList
  | opening => ['(']
  | closing => [')']

/-- Whether a symbol is content or opens a group. -/
def isContent : Symbol → Bool
  | token _ _ | opening => true
  | trivia _ _ | closing => false

/-- The kind and the text of a blank or a comment. -/
def trivia? : Symbol → Option (NodeKind × String)
  | trivia kind text => some (kind, text)
  | _ => none

end Symbol

/-- The class of the token that a leaf holds. -/
def NodeKind.tokenKind : NodeKind → TokenKind
  | string => .string
  | nationalString => .nationalString
  | quotedString => .quotedString
  | bracketName => .bracketName
  | comma => .comma
  | period => .period
  | semicolon => .semicolon
  | asterisk => .asterisk
  | equalsSign => .equalsSign
  | otherOperator => .otherOperator
  | number => .number
  | binaryValue => .binaryValue
  | monetaryValue => .monetaryValue
  | pseudoName => .pseudoName
  | _ => .word

/-- A word with the colon after it. -/
def Symbol.ofLabel (text : String) : List Symbol :=
  match text.toList.reverse with
  | ':' :: name => [.token .word (String.ofList name.reverse), .token .colon ":"]
  | _ => [.token .word text]

/-- A word with the colon before it, a colon, or a word. -/
def Symbol.ofName (text : String) : List Symbol :=
  match text.toList with
  | [':'] => [.token .colon ":"]
  | ':' :: name => [.token .colon ":", .token .word (String.ofList name)]
  | _ => [.token .word text]

/-- A colon with the colon after it. -/
def Symbol.ofScope (text : String) : List Symbol :=
  match text.toList with
  | first :: second => [.token .colon (String.ofList [first]), .token .colon (String.ofList second)]
  | [] => [.token .colon text]

/-- The tokens of a node of content. Labels, host variables and the operator that resolves a scope
are made of two. -/
def NodeKind.tokens (kind : NodeKind) (text : String) : List Symbol :=
  match kind with
  | label => Symbol.ofLabel text
  | other => Symbol.ofName text
  | scopeResolutionOperator => Symbol.ofScope text
  | kind => if kind.isLeaf || text != "" then [.token kind.tokenKind text] else []

/-- The symbols of a node before its children. A closing parenthesis that closes no group is a
leaf. -/
def NodeKind.symbols (kind : NodeKind) (text : String) : List Symbol :=
  if kind.isTrivia then [.trivia kind text]
  else if kind.isParens then [.opening]
  else if kind = .other ∧ text = ")" then [.closing]
  else kind.tokens text

def NodeKind.ending (kind : NodeKind) : List Symbol :=
  if kind.isParens then [.closing] else []

def NodeKind.beginning (kind : NodeKind) : List Symbol :=
  if kind.isParens then [.opening] else []

namespace Outline

mutual

/-- The symbols of an outline, in document order. -/
def symbols : Outline → List Symbol
  | node _ kind text _ children => kind.symbols text ++ symbolsOfList children ++ kind.ending

def symbolsOfList : List Outline → List Symbol
  | [] => []
  | first :: rest => symbols first ++ symbolsOfList rest

end

@[simp]
theorem symbolsOfList_nil : symbolsOfList [] = [] := by
  rw [symbolsOfList]

@[simp]
theorem symbolsOfList_cons (first : Outline) (rest : List Outline) :
    symbolsOfList (first :: rest) = symbols first ++ symbolsOfList rest := by
  rw [symbolsOfList]

@[simp]
theorem symbolsOfList_append (front back : List Outline) :
    symbolsOfList (front ++ back) = symbolsOfList front ++ symbolsOfList back := by
  induction front with
  | nil => simp
  | cons first rest ih => simp [ih]

theorem symbolsOfList_eq (outlines : List Outline) :
    symbolsOfList outlines = outlines.flatMap symbols := by
  induction outlines with
  | nil => simp
  | cons first rest ih => simp [ih]

theorem symbols_node (id : NodeId) (kind : NodeKind) (text : String) (attributes : Attributes)
    (children : List Outline) :
    (node id kind text attributes children).symbols =
      kind.symbols text ++ symbolsOfList children ++ kind.ending := by
  rw [symbols]

theorem symbols_leaf (id : NodeId) (text : String) (isLeaf : kind.isLeaf = true) :
    (leaf id kind text).symbols = kind.symbols text := by
  have plain : kind.isParens = false := by
    revert isLeaf
    cases kind <;> decide
  simp [leaf, symbols_node, NodeKind.ending, plain]

theorem symbols_childless (id : NodeId) (text : String) (attributes : Attributes)
    (isLeaf : kind.isLeaf = true) :
    (node id kind text attributes []).symbols = kind.symbols text := by
  rw [← symbols_leaf id text isLeaf, leaf, symbols_node, symbols_node]

end Outline

/-- No word among symbols has a blank in it. -/
def Symbol.Clean (symbols : List Symbol) : Prop :=
  ∀ value, .token .word value ∈ symbols → ' ' ∉ (Text.upper value).toList

theorem Symbol.Clean.of_subset {symbols others : List Symbol} (clean : Clean others)
    (subset : symbols ⊆ others) : Clean symbols :=
  fun value member => clean value (subset member)

theorem Outline.spaceless_of_clean {outlines : List Outline}
    (clean : Symbol.Clean (symbolsOfList outlines)) : Spaceless (outlines.map part) := by
  intro _ member isKeyword
  obtain ⟨⟨id, kind, text, attributes, children⟩, among, rfl⟩ := List.mem_map.mp member
  obtain rfl : kind = .otherKeyword := isKeyword
  refine clean text ?_
  rw [symbolsOfList_eq]
  refine List.mem_flatMap_of_mem among ?_
  rw [symbols_node]
  exact List.mem_append_left _ List.mem_cons_self

namespace Symbol

theorem ofLabel_append (name : String) :
    ofLabel (name ++ ":") = [.token .word name, .token .colon ":"] := by
  simp [ofLabel]

theorem ofName_append {name : String} (named : name ≠ "") :
    ofName (":" ++ name) = [.token .colon ":", .token .word name] := by
  rcases List.exists_cons_of_ne_nil (show name.toList ≠ [] by simpa using named) with ⟨c, tail, cut⟩
  have whole : String.ofList (c :: tail) = name := by rw [← cut, String.ofList_toList]
  simp [ofName, cut, whole]

theorem ofName_of_notMem {name : String} (noColon : ':' ∉ name.toList) :
    ofName name = [.token .word name] := by
  unfold ofName
  split
  next isColon => simp [isColon] at noColon
  next tail _ isColon => simp [isColon] at noColon
  next => rfl

theorem chars_ofLabel (text : String) : (ofLabel text).flatMap chars = text.toList := by
  unfold ofLabel
  split
  next name cut =>
    have whole := congrArg List.reverse cut
    rw [List.reverse_reverse, List.reverse_cons] at whole
    simp [chars, Token.spelling, whole]
  next => simp [chars, Token.spelling]

theorem chars_ofName (text : String) : (ofName text).flatMap chars = text.toList := by
  unfold ofName
  split
  next cut => simp [chars, Token.spelling, cut]
  next name _ cut => simp [chars, Token.spelling, cut]
  next => simp [chars, Token.spelling]

theorem chars_ofScope (text : String) : (ofScope text).flatMap chars = text.toList := by
  unfold ofScope
  split
  next first second cut => simp [chars, Token.spelling, cut]
  next => simp [chars, Token.spelling]

end Symbol

namespace NodeKind

theorem chars_tokens (content : kind.isTrivia = false) (plain : kind.isParens = false)
    (text : String) : (kind.tokens text).flatMap Symbol.chars = (kind.ownText text).toList := by
  have own : kind ≠ .scopeResolutionOperator →
      kind.ownText text =
        Token.spelling { kind := kind.tokenKind, value := text, span := default } := by
    intro single
    cases kind <;> first | rfl | contradiction
  unfold tokens
  split
  · exact Symbol.chars_ofLabel text
  · exact Symbol.chars_ofName text
  · exact Symbol.chars_ofScope text
  next single =>
    split
    next => rw [List.flatMap_singleton, own single, Symbol.chars]
    next silent =>
      simp only [Bool.or_eq_true, bne_iff_ne, ne_eq, not_or, not_not] at silent
      obtain rfl := silent.2
      revert silent content plain
      cases kind <;> decide

theorem eq_token_of_mem_tokens {text : String} {symbol : Symbol}
    (member : symbol ∈ kind.tokens text) : ∃ kind value, symbol = .token kind value := by
  have single : ∀ {kind : TokenKind} {value : String}, symbol ∈ [Symbol.token kind value] →
      ∃ kind value, symbol = .token kind value :=
    fun member => ⟨_, _, List.mem_singleton.mp member⟩
  have double : ∀ {kind other : TokenKind} {value second : String},
      symbol ∈ [Symbol.token kind value, .token other second] →
      ∃ kind value, symbol = .token kind value := by
    intro kind other value second member
    rcases List.mem_cons.mp member with rfl | member
    · exact ⟨_, _, rfl⟩
    · exact single member
  unfold tokens at member
  split at member
  · unfold Symbol.ofLabel at member
    split at member
    · exact double member
    · exact single member
  · unfold Symbol.ofName at member
    split at member
    · exact single member
    · exact double member
    · exact single member
  · unfold Symbol.ofScope at member
    split at member
    · exact double member
    · exact single member
  · split at member
    · exact single member
    · cases member

end NodeKind

def Token.symbols (token : Token) : List Symbol :=
  if token.kind.isTrivia then [.trivia token.kind.leafKind token.value]
  else match token.kind with
  | .openParens => [.opening]
  | .closeParens => [.closing]
  | kind => [.token kind token.value]

theorem NodeKind.symbols_of_isInner (isInner : kind.isLeaf = false) :
    kind.symbols "" = kind.beginning := by
  revert isInner
  cases kind <;> decide

theorem NodeKind.symbols_of_opens (opens : kind = .root ∨ kind.parents ≠ []) :
    kind.symbols "" = kind.beginning := by
  revert opens
  cases kind <;> decide

/-! ### The past of a draft -/

/-- The symbols of open containers, the innermost first, up to what is open inside them. -/
def Frame.past : List Frame → List Symbol
  | [] => []
  | frame :: outer => past outer ++ frame.kind.beginning ++ Outline.symbolsOfList frame.before

theorem Frame.Sound.after_symbols {hole : NodeKind} {frame : Frame} (sound : frame.Sound hole) :
    Outline.symbolsOfList frame.after = [] := by
  have behind := sound.behind
  generalize frame.after = after at behind
  induction after with
  | nil => simp
  | cons first rest ih =>
    rw [Outline.symbolsOfList_cons, (behind first List.mem_cons_self).2,
      ih fun outline member => behind outline (List.mem_cons_of_mem _ member), Outline.leaf,
      Outline.symbols_node, Outline.symbolsOfList_nil]
    decide

namespace Draft

/-- The symbols of a draft up to the place that takes the next node. -/
def past (draft : Draft) : List Symbol :=
  Frame.past draft.outer ++ draft.kind.beginning ++ Outline.symbolsOfList draft.children

def groups (draft : Draft) : Nat :=
  draft.path.countP NodeKind.isParens

variable {draft : Draft}

@[simp]
theorem past_add (draft : Draft) (outline : Outline) :
    (draft.add outline).past = draft.past ++ outline.symbols := by
  simp [past, add]

@[simp]
theorem past_addAll (draft : Draft) (outlines : List Outline) :
    (draft.addAll outlines).past = draft.past ++ Outline.symbolsOfList outlines := by
  simp [past, addAll]

@[simp]
theorem past_enter (draft : Draft) (id : NodeId) (kind : NodeKind) :
    (draft.enter id kind).past = draft.past ++ kind.beginning := by
  simp [past, enter, Frame.past, frame]

theorem past_slip (empty : draft.children = []) (plain : draft.kind.isParens = false)
    (enclosed : draft.outer ≠ []) (outline : Outline) :
    (draft.slip outline).past = draft.past ++ outline.symbols := by
  obtain ⟨frame, outer, around⟩ := List.exists_cons_of_ne_nil enclosed
  simp [past, slip, around, Frame.past, empty, NodeKind.beginning, plain]

@[simp]
theorem past_follow (draft : Draft) (outline : Outline) :
    (draft.follow outline).past = draft.past := by
  unfold follow
  split
  · rfl
  next frame outer around => simp [past, around, Frame.past]

@[simp]
theorem past_setAttribute (draft : Draft) (id : NodeId) (key : Attribute) (value : String) :
    (draft.setAttribute id key value).past = draft.past := by
  have frames : ∀ outer, Frame.past (Frame.setAttributes id key value outer) =
      Frame.past outer := by
    intro outer
    induction outer with
    | nil => rfl
    | cons frame outer ih =>
      simp only [Frame.setAttributes, List.map_cons, Frame.past] at ih ⊢
      rw [ih]
      split <;> rfl
  simp [past, setAttribute, frames]

theorem closed_symbols (sound : draft.Sound) :
    draft.closed.symbols =
      draft.kind.beginning ++ Outline.symbolsOfList draft.children ++ draft.kind.ending := by
  rw [closed, Outline.symbols_node, NodeKind.symbols_of_opens sound.nested.opens]

/-- Closing a container adds its closing parenthesis, if it is a group. -/
theorem past_up (sound : draft.Sound) (enclosed : draft.outer ≠ []) :
    draft.up.past = draft.past ++ draft.kind.ending := by
  obtain ⟨frame, outer, around⟩ := List.exists_cons_of_ne_nil enclosed
  have here : frame.Sound draft.kind := by
    have frames := sound.around
    rw [around] at frames
    exact frames.1
  simp [up_eq around, past, around, Frame.past, closed_symbols sound, here.after_symbols]

theorem ending_eq_replicate (kind : NodeKind) :
    kind.ending = List.replicate ([kind].countP NodeKind.isParens) .closing := by
  simp only [NodeKind.ending, List.countP_singleton]
  split <;> rfl

theorem groups_up (enclosed : draft.outer ≠ []) :
    draft.groups = [draft.kind].countP NodeKind.isParens + draft.up.groups := by
  rw [groups, groups, path_up enclosed, ← List.countP_append]
  rfl

/-- The document is the past of the draft with the open groups closed. -/
theorem outline_symbols (sound : draft.Sound) :
    draft.outline.symbols = draft.past ++ List.replicate draft.groups .closing := by
  obtain ⟨id, kind, attributes, children, outer⟩ := draft
  induction outer generalizing id kind attributes children with
  | nil =>
    have whole := closed_symbols sound
    rw [ending_eq_replicate] at whole
    simpa [outline, Frame.plug, past, Frame.past, groups, path] using whole
  | cons frame outer ih =>
    have above := ih _ _ _ _ sound.up
    have closing := past_up sound (List.cons_ne_nil frame outer)
    rw [groups_up (List.cons_ne_nil frame outer), List.replicate_add, ← List.append_assoc,
      ← ending_eq_replicate, ← closing]
    exact above

theorem outline_ups (draft : Draft) (levels : Nat) :
    (draft.ups levels).outline = draft.outline := by
  induction levels generalizing draft with
  | zero => rfl
  | succ levels ih => exact (ih draft.up).trans draft.outline_up

def top (draft : Draft) : Draft :=
  draft.ups draft.outer.length

theorem outer_top (draft : Draft) : draft.top.outer = [] := by
  have closed := length_outer_ups (Nat.le_refl draft.outer.length)
  rw [Nat.sub_self] at closed
  exact List.eq_nil_of_length_eq_zero closed

theorem kind_top (sound : draft.Sound) : draft.top.kind = .root := by
  have nested := (sound.ups draft.outer.length).nested
  have alone := draft.outer_top
  rw [top] at alone
  simpa [top, path, alone, Nested] using nested

theorem groups_top (sound : draft.Sound) : draft.top.groups = 0 := by
  simp [groups, path, draft.outer_top, kind_top sound, NodeKind.isParens]

theorem past_top (sound : draft.Sound) : draft.top.past = draft.outline.symbols := by
  have whole := outline_symbols (sound.ups draft.outer.length)
  have closed : (draft.ups draft.outer.length).groups = 0 := groups_top sound
  rw [closed, List.replicate_zero, List.append_nil, outline_ups] at whole
  exact whole.symm

end Draft

end SqlLayout
