import SqlLayout.Keyword.Basic
import SqlLayout.Layout.Writer
import SqlLayout.Text.Alphabetic
import SqlLayout.Token.Spelling
import SqlLayout.Tree.Walk
import SqlLayout.Tree.Outline

/-!
# Layout plans

How a node is laid out is a list of steps, which depends on its kind, on the style, and on where the
node stands. A step either acts on the writer or lays out children of the node.
-/

namespace SqlLayout

inductive LayoutError where
  /-- A logical operator has no keyword. -/
  | missingKeyword (container : NodeKind)
  /-- A compound keyword has no text of its own. -/
  | missingSimpleText
deriving DecidableEq, Repr, Inhabited

def LayoutError.message : LayoutError → String
  | missingKeyword container =>
      container.name ++ " node has no " ++ NodeKind.name .otherKeyword ++ " child"
  | missingSimpleText =>
      NodeKind.name .compoundKeyword ++ " node has no " ++
        Attribute.name .simpleText ++ " attribute"

/-! ### Actions -/

/-- A change of the writer. -/
inductive Action where
  | indent
  | outdent
  /-- Starts a line. -/
  | newLine
  /-- Writes the line breaks that are due. -/
  | settle
  /-- Writes the white space that is due before a word. -/
  | separate
  /-- Writes a piece of content. -/
  | write (piece : String)
  | requestBreak
  | requestExtraBreaks (count : Nat)
  | requestSpace
  | dropSpace
  /-- Indents the next line break one level less. -/
  | hang
  /-- Records a keyword. -/
  | remember (keyword : String)
  /-- Separates a statement, which starts with the given keyword, from the one before it. -/
  | startStatement (starter : Option String)
  /-- Asks for the breaks between statements. -/
  | endStatement
  /-- Leaves what follows a body to the enclosing statement. -/
  | endBody
  /-- The source breaks the line here. -/
  | noteSourceBreak
  /-- Writes a comment, given its body, or ends with it the region that it closes. -/
  | comment (id : NodeId) (body : String) (piece : String)
  /-- Opens the region that a comment asks for, and then keeps a text. -/
  | openRegion (id : NodeId) (body : String) (after : String)
deriving DecidableEq, Repr, Inhabited

namespace Writer

/-- Closes the open region in front of a comment that ends it: the text of the region is kept. -/
def closeRegion? (writer : Writer) (tree : Tree) (id : NodeId) (body : String) : Option Writer :=
  match writer.region with
  | none => none
  | some (region, start) =>
      if region.isClosedBy body then
        some { { writer with region := none }.keep (tree.renderBetween start (some id)) with
          breakDue := false, extraBreaks := 0, spaceDue := false, sourceBreak := false }
      else none

/-- Writes a comment, or ends with it the region that it closes. -/
def comment (writer : Writer) (style : Style) (tree : Tree) (id : NodeId) (body piece : String) :
    Writer :=
  match writer.closeRegion? tree id body with
  | some writer => writer.keep piece
  | none => (writer.separateComment style).write style piece

/-- Opens the region that a comment asks for, unless one is open, and then keeps a text. -/
def openRegion (writer : Writer) (id : NodeId) (body after : String) : Writer :=
  if writer.region.isSome then writer
  else
    match Region.openedBy? body with
    | none => writer
    | some region => { writer with region := some (region, id) }.keep after

end Writer

def Action.apply (style : Style) (tree : Tree) (writer : Writer) : Action → Writer
  | indent => writer.indent
  | outdent => writer.outdent
  | newLine => writer.newLine style
  | settle => writer.settle style
  | separate => writer.separate style
  | write piece => writer.write style piece
  | requestBreak => { writer with breakDue := true }
  | requestExtraBreaks count => { writer with extraBreaks := count }
  | requestSpace => { writer with spaceDue := true }
  | dropSpace => { writer with spaceDue := false }
  | hang => { writer with hanging := true }
  | remember keyword => writer.remember keyword
  | startStatement starter => (writer.startStatement style starter).forgetKeywords
  | endStatement => { writer with statementBreakDue := true }
  | endBody => { writer with statementBreakDue := false, hanging := false }
  | noteSourceBreak => { writer with sourceBreak := true }
  | comment id body piece => writer.comment style tree id body piece
  | openRegion id body after => writer.openRegion id body after

/-! ### Steps -/

/-- A step of laying out a node. -/
inductive LayoutStep where
  | act (action : Action)
  /-- Lays out every child. -/
  | children
  /-- Lays out the children of a kind. -/
  | childrenOf (kind : NodeKind)
  /-- Lays out the comments among the children. -/
  | comments
  /-- Lays out the first keyword among the children. -/
  | firstKeyword
  /-- Lays out every child apart, and then takes over the result. -/
  | enclosed
  | fail (error : LayoutError)
deriving DecidableEq, Repr, Inhabited

/-- Where a node stands: the kinds of its ancestors, the nearest first, and the sibling after it. -/
structure Place where
  ancestors : List NodeKind := []
  next : Option Outline := none

namespace Place

def parent? (place : Place) : Option NodeKind :=
  place.ancestors.head?

/-- Whether the line breaks after the node in the source. -/
def breaksAfter (place : Place) : Bool :=
  place.next.any fun next => next.kind == .whiteSpace && containsLineBreak next.text

/-- Whether the node is all that an `IF`, `WHILE` or `ELSE` governs. -/
def isSoleStatement (place : Place) : Bool :=
  [NodeKind.clause, .statement, .containerSingleStatementBody].isPrefixOf place.ancestors

end Place

namespace Style

def operator (style : Style) (text : String) : String :=
  if style.upperKeywords then Text.upper text else Text.lower text

/-- A keyword in the spelling and the case of the style. -/
def keyword (style : Style) (text : String) : String :=
  let preferred := if style.preferredKeywords then Keyword.preferred? (Text.upper text) else none
  style.operator (preferred.getD text)

/-- A plain name, in brackets if the style asks for them. -/
def plainName (style : Style) (text : String) : String :=
  if style.bracketNames && text.toList.head?.any Text.isAlphabetic then bracketQuote text else text

/-- Whether the commas of a container separate lines. -/
def expandsCommas (style : Style) (container : Option NodeKind) : Bool :=
  match container with
  | some .inParens => style.expandInLists
  | some .ddlDetailParens | some .functionParens => false
  | _ => style.expandCommaLists

end Style

namespace LayoutStep

/-- An action that is taken under a condition. -/
def when (condition : Bool) (action : Action) : List LayoutStep :=
  if condition then [act action] else []

/-- A piece with the white space around words. -/
def word (piece : String) : List LayoutStep :=
  [act .separate, act (.write piece), act .requestSpace]

/-- A piece that follows the one before it without a space. -/
def tight (piece : String) : List LayoutStep :=
  [act .dropSpace, act .settle, act (.write piece)]

/-- Children one level in, under a line break that is not indented. -/
def hangingBlock : List LayoutStep :=
  [act .requestBreak, act .hang, act .indent, children, act .outdent]

def clause (style : Style) : List LayoutStep :=
  [act .hang, act .indent, children, act .outdent] ++
    when (0 < style.clauseBreaks) .requestBreak ++
    when (1 < style.clauseBreaks) (.requestExtraBreaks (style.clauseBreaks - 1))

/-- The steps for a set operator between two queries: it stands between blank lines, one level
out. -/
def setOperator : List LayoutStep :=
  [act .outdent, act .newLine, act .newLine, act .indent, children, act .requestBreak,
    act (.requestExtraBreaks 1)]

/-- The steps for a body of statements. An `IF` right after `ELSE` stays on its line. -/
def statementBody (isElseIf : Bool) : List LayoutStep :=
  (if isElseIf then [act .outdent, children, act .indent] else [act .requestBreak, children]) ++
    [act .endBody]

/-- The steps for a block between two keywords. A block that is a whole body is not indented in
it. -/
def block (isSole : Bool) : List LayoutStep :=
  when isSole .outdent ++
    [childrenOf .containerOpen, childrenOf .containerMultiStatementBody, act .outdent,
      act .requestBreak, childrenOf .containerClose, act .indent] ++
    when isSole .indent

def between (style : Style) : List LayoutStep :=
  [childrenOf .containerOpen, act .indent, act .indent, childrenOf .lowerBound] ++
    when style.expandBetween .requestBreak ++
    [act .outdent, childrenOf .containerClose, act .indent, childrenOf .upperBound, act .outdent,
      act .outdent]

def caseStatement (style : Style) : List LayoutStep :=
  [childrenOf .containerOpen, act .indent, childrenOf .caseInput, childrenOf .caseWhen,
    childrenOf .caseElse] ++
    when style.expandCases .requestBreak ++ [childrenOf .containerClose, act .outdent]

def caseBranch (style : Style) : List LayoutStep :=
  when style.expandCases .requestBreak ++
    [childrenOf .containerOpen, act .indent, childrenOf .containerContentBody, childrenOf .caseThen,
      act .outdent]

/-- The steps for parentheses that stay on the line. -/
def tightParens : List LayoutStep :=
  tight "(" ++
    [act .indent, children, act .outdent, act .settle, act (.write ")"), act .requestSpace]

/-- The steps for parentheses around content that may span lines. -/
def looseParens (indented : Bool) : List LayoutStep :=
  [act .separate] ++ when indented .indent ++ [act (.write "("), enclosed, act (.write ")")] ++
    when indented .outdent ++ [act .requestSpace]

def comma (style : Style) (container : Option NodeKind) : List LayoutStep :=
  let expands := style.expandsCommas container
  if style.trailingCommas then
    [act .settle, act (.write ","), act (if expands then .requestBreak else .requestSpace)]
  else if expands then
    [act .newLine, act (.write ",")] ++ when style.spaceAfterComma .requestSpace
  else [act .settle, act (.write ","), act .requestSpace]

/-- The steps for a keyword. `SELECT` and `WHERE` stand alone on their line. -/
def keyword (style : Style) (text : String) : List LayoutStep :=
  let isHeading := Text.eqIgnoringAsciiCase text "SELECT" || Text.eqIgnoringAsciiCase text "WHERE"
  [act .separate, act (.remember text), act (.write (style.keyword text)),
    act (if isHeading then .requestBreak else .requestSpace)]

def compoundKeyword (style : Style) (simpleText : Option String) : List LayoutStep :=
  match simpleText with
  | none => [fail .missingSimpleText]
  | some text =>
      [act .separate, act (.remember text), act (.write (style.keyword text)), act .requestSpace,
        act .indent, comments, act .outdent, act .requestSpace]

/-- The steps for a line comment that starts with a marker. -/
def lineComment (id : NodeId) (marker text : String) : List LayoutStep :=
  let body := String.ofList (text.toList.filter fun c => c != '\r' && c != '\n')
  [act (.comment id text (marker ++ body)), act .requestBreak, act .noteSourceBreak,
    act (.openRegion id text "\n")]

def blockComment (id : NodeId) (text : String) (place : Place) : List LayoutStep :=
  let breaks := place.parent? == some .statement || place.breaksAfter
  [act (.comment id text ("/*" ++ text ++ "*/")),
    act (if breaks then .requestBreak else .requestSpace), act (.openRegion id text "")]

end LayoutStep

namespace Outline

def childrenOf (outline : Outline) (kind : NodeKind) : List Outline :=
  outline.children.filter fun child => child.kind == kind

def holdsIf (body : Outline) : Bool :=
  (body.childrenOf .statement).any fun statement =>
    (statement.childrenOf .clause).any fun clause =>
      clause.children.any fun child => child.kind == .ifStatement

/-- The keyword that a statement starts with, in upper case. -/
def starter? (statement : Outline) : Option String :=
  match statement.firstSemanticElement with
  | none => none
  | some first => if first.kind = .otherKeyword then some (Text.upper first.text) else none

/-- The digits of a binary value, after its two-character mark. -/
def binaryDigits (value : Outline) : String :=
  String.ofList ((Span.dropBytes 2 value.text.toList).getD [])

end Outline

namespace LayoutStep

def plan (style : Style) (place : Place) (outline : Outline) : List LayoutStep :=
  let text := outline.text
  match outline.kind with
  | .root | .ddlProceduralBlock | .ddlOtherBlock | .ddlDeclareBlock | .cursorDeclaration
  | .beginTransaction | .saveTransaction | .commitTransaction | .rollbackTransaction
  | .containerOpen | .containerClose | .containerContentBody | .whileLoop | .ifStatement
  | .cteWithClause | .permissionsBlock | .permissionsDetail | .mergeClause | .mergeTarget =>
      [children]
  | .statement => [act (.startStatement outline.starter?), children, act .endStatement]
  | .clause => clause style
  | .setOperatorClause => setOperator
  | .batchSeparator => [act .newLine, children, act .requestBreak]
  | .selectionTarget => [act .requestBreak, children]
  | .caseInput | .booleanExpression | .lowerBound | .upperBound =>
      when outline.hasContent .separate ++ [children]
  | .containerSingleStatementBody | .containerMultiStatementBody | .mergeAction =>
      statementBody (place.parent? == some .elseClause && outline.holdsIf)
  | .permissionsTarget | .permissionsRecipient | .ddlWithClause | .mergeCondition | .mergeThen =>
      hangingBlock
  | .joinTarget | .ddlReturns | .mergeUsing | .mergeWhen => [act .requestBreak, act .hang, children]
  | .joinOn =>
      when style.breakBeforeOn .requestBreak ++
        [childrenOf .containerOpen, childrenOf .containerContentBody]
  | .cteAlias => [act .hang, children]
  | .elseClause =>
      [act .outdent, childrenOf .containerOpen, act .indent,
        childrenOf .containerSingleStatementBody]
  | .ddlAsBlock | .cursorForBlock =>
      [act .requestBreak, act .outdent, childrenOf .containerOpen, act .requestBreak,
        childrenOf .containerContentBody, act .indent]
  | .triggerCondition => [act .outdent, act .newLine, act .indent, children]
  | .cursorForOptions | .cteAsBlock =>
      [act .requestBreak, act .outdent, childrenOf .containerOpen, act .indent,
        childrenOf .containerContentBody]
  | .between => between style
  | .ddlDetailParens | .functionParens => tightParens
  | .ddlParens | .selectionTargetParens => looseParens false
  | .expressionParens | .inParens => looseParens true
  | .beginEndBlock | .tryBlock | .catchBlock => block place.isSoleStatement
  | .caseStatement => caseStatement style
  | .caseWhen | .caseThen | .caseElse => caseBranch style
  | .and | .or => when style.expandConditions .requestBreak ++ [firstKeyword]
  | .blockComment => blockComment outline.id text place
  | .lineComment => lineComment outline.id "--" text
  | .slashComment => lineComment outline.id "//" text
  | .string => word (quoteBody "'" '\'' text)
  | .nationalString => word (quoteBody "N'" '\'' text)
  | .quotedString => word (quoteBody "\"" '"' text)
  | .bracketName => word (bracketQuote text)
  | .comma => comma style place.parent?
  | .period | .semicolon | .scopeResolutionOperator => tight (style.operator text)
  | .asterisk | .equalsSign | .alphaOperator | .otherOperator => word (style.operator text)
  | .compoundKeyword => compoundKeyword style (outline.attributes.get? .simpleText)
  | .otherKeyword | .dataTypeKeyword => keyword style text
  | .pseudoName => word (style.keyword text)
  | .functionKeyword =>
      [act .separate, act (.remember text), act (.write text), act .requestSpace]
  | .other => word (style.plainName text)
  | .monetaryValue | .label => word text
  | .number => word (Text.lower text)
  | .binaryValue => word ("0x" ++ Text.upper (outline.binaryDigits))
  | .whiteSpace => when (containsLineBreak text) .noteSourceBreak

end LayoutStep

end SqlLayout
