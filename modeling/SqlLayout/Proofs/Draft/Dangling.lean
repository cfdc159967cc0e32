import SqlLayout.Proofs.Draft.Trace

/-!
# Comments that dangle at the end of a group

A comment on a line of its own right before a closing parenthesis can leave its group later, and
then it stands behind the parenthesis. Where no comment dangles this way, what leaves a container
keeps its place in the source text, and a trace that abandons no group is the source itself.
-/

namespace SqlLayout

namespace Symbol

def breaksLine : Symbol → Bool
  | trivia kind text => kind == .whiteSpace && containsLineBreak text
  | _ => false

def isComment : Symbol → Bool
  | trivia kind _ => kind.isComment
  | _ => false

def isTrivia : Symbol → Bool
  | trivia _ _ => true
  | _ => false

/-- Symbols that end in a comment on a line of its own, with blanks and comments behind it. -/
def EndOwnLine (symbols : List Symbol) : Prop :=
  ∃ before blank comment behind, symbols = before ++ blank :: comment :: behind ∧
    blank.breaksLine = true ∧ comment.isComment = true ∧ ∀ symbol ∈ behind, symbol.isTrivia = true

/-- Somewhere a group ends in a comment on a line of its own. -/
def Dangle (symbols : List Symbol) : Prop :=
  ∃ front back, symbols = front ++ .closing :: back ∧ EndOwnLine front

variable {symbols more : List Symbol}

theorem EndOwnLine.prepend (ends : EndOwnLine symbols) (front : List Symbol) :
    EndOwnLine (front ++ symbols) := by
  rcases ends with ⟨before, blank, comment, behind, rfl, shape⟩
  exact ⟨front ++ before, blank, comment, behind, by simp, shape⟩

theorem Dangle.append (dangles : Dangle symbols) (more : List Symbol) :
    Dangle (symbols ++ more) := by
  rcases dangles with ⟨front, back, rfl, ends⟩
  exact ⟨front, back ++ more, by simp, ends⟩

theorem Dangle.prepend (dangles : Dangle symbols) (front : List Symbol) :
    Dangle (front ++ symbols) := by
  rcases dangles with ⟨inside, back, rfl, ends⟩
  exact ⟨front ++ inside, back, by simp, ends.prepend front⟩

theorem Dangle.cases_cons {symbol : Symbol} (dangles : Dangle (symbol :: symbols)) :
    Dangle symbols ∨ symbol.breaksLine = true ∧ ∃ comment behind back,
      symbols = comment :: (behind ++ .closing :: back) ∧ comment.isComment = true ∧
        ∀ symbol ∈ behind, symbol.isTrivia = true := by
  rcases dangles with ⟨_, back, whole, before, blank, comment, behind, rfl, breaks, shape⟩
  cases before with
  | nil =>
    rcases List.cons.inj whole with ⟨rfl, rest⟩
    exact .inr ⟨breaks, comment, behind, back, rest, shape⟩
  | cons first before =>
    exact .inl ⟨_, back, (List.cons.inj whole).2, before, blank, comment, behind,
      rfl, breaks, shape⟩

theorem Dangle.tail {symbol : Symbol} (dangles : Dangle (symbol :: symbols))
    (other : symbol.breaksLine = false) : Dangle symbols := by
  rcases dangles.cases_cons with later | ⟨breaks, _⟩
  · exact later
  · rw [breaks] at other
    exact absurd other (by decide)

end Symbol

namespace Outline

theorem breaksLine_symbols {outline : Outline} (regular : outline.Regular)
    (breaks : outline.breaksLine = true) :
    ∃ blank, outline.symbols = [blank] ∧ blank.breaksLine = true := by
  have isBlank : outline.kind = .whiteSpace := by
    simp only [breaksLine, Bool.and_eq_true, beq_iff_eq] at breaks
    exact breaks.1
  refine ⟨_, symbols_of_isTrivia regular (by simp [isBlank, NodeKind.isTrivia]), ?_⟩
  simpa [Symbol.breaksLine, Outline.breaksLine] using breaks

theorem isTrivia_symbolsOfList {outlines : List Outline}
    (regular : ∀ outline ∈ outlines, outline.Regular) (none : anyContent outlines = false) :
    ∀ symbol ∈ symbolsOfList outlines, symbol.isTrivia = true := by
  rw [symbolsOfList_of_isTrivia regular fun outline => isTrivia_of_mem none]
  intro symbol member
  rcases List.mem_map.mp member with ⟨outline, _, rfl⟩
  rfl

/-- Where a split leaves something behind, a comment starts its line. -/
theorem endOwnLine_of_split {first : Outline} {rest : List Outline}
    (regular : ∀ outline ∈ first :: rest, outline.Regular) (none : anyContent rest = false)
    (leaves : (splitOwnLine first.breaksLine rest).2 ≠ []) :
    Symbol.EndOwnLine (symbolsOfList (first :: rest)) := by
  induction rest generalizing first with
  | nil => exact absurd rfl leaves
  | cons next others ih =>
    rcases List.forall_mem_cons.mp regular with ⟨here, later⟩
    have nextTrivia := isTrivia_of_mem none (.head _)
    have noneLater : anyContent others = false :=
      anyContent_eq_false fun outline member => isTrivia_of_mem none (.tail _ member)
    rw [splitOwnLine] at leaves
    split at leaves
    next starts =>
      -- The comment is the first of what leaves, and the blank comes right before it.
      rcases Bool.and_eq_true_iff.mp starts with ⟨breaks, isComment⟩
      rcases breaksLine_symbols here breaks with ⟨blank, symbol, blankBreaks⟩
      have nextSymbols := symbols_of_isTrivia (later next (.head _)) nextTrivia
      refine ⟨[], blank, .trivia next.kind next.text, symbolsOfList others, ?_,
        blankBreaks, isComment, ?_⟩
      · rw [symbolsOfList_cons, symbolsOfList_cons, symbol, nextSymbols]
        rfl
      · exact isTrivia_symbolsOfList
          (fun outline member => later outline (.tail _ member)) noneLater
    next =>
      rw [symbolsOfList_cons]
      exact (ih later noneLater leaves).prepend _

/-- Where no comment dangles, what leaves containers stays in its place, behind a comment on a line
of its own. -/
theorem shedList_symbols {outlines : List Outline} (regular : ∀ outline ∈ outlines, outline.Regular)
    (orderly : Orderly outlines) (firm : ¬Symbol.Dangle (symbolsOfList outlines)) :
    symbolsOfList (shedList outlines).1 ++ symbolsOfList (shedList outlines).2 =
      symbolsOfList outlines ∧ ((shedList outlines).2 ≠ [] →
        exposedList outlines = true ∧ Symbol.EndOwnLine (symbolsOfList outlines)) := by
  induction outlines using induction_on_tail with
  | nil => simp [shedList_nil]
  | pass first rest content ih =>
    rcases List.forall_mem_cons.mp regular with ⟨_, later⟩
    have orderlyRest : Orderly rest :=
      ⟨(List.isChain_cons.mp orderly.adjacent).2, (List.forall_mem_cons.mp orderly.neat).2⟩
    rw [symbolsOfList_cons] at firm
    rcases ih later orderlyRest fun dangles => firm (dangles.prepend _) with ⟨same, leaving⟩
    rw [shedList_pass content]
    refine ⟨by rw [symbolsOfList_cons, symbolsOfList_cons, List.append_assoc, same],
      fun leaves => ?_⟩
    rcases leaving leaves with ⟨isExposed, ends⟩
    exact ⟨by rw [exposedList_cons, if_pos content, isExposed], by
      rw [symbolsOfList_cons]
      exact ends.prepend _⟩
  | stop first rest content hides =>
    rw [shedList_stop content hides]
    refine ⟨by rw [← symbolsOfList_append, List.cons_append, splitOwnLine_append], fun leaves => ?_⟩
    exact ⟨by simp [exposedList_cons, content, leaves], endOwnLine_of_split regular content leaves⟩
  | inner first rest content hides ih =>
    rcases List.forall_mem_cons.mp regular with ⟨here, _⟩
    have below : Orderly first.children ∧ ∀ child ∈ first.children, child.Regular := by
      rcases List.forall_mem_cons.mp orderly.neat with ⟨neat, _⟩
      cases here with
      | node _ _ children =>
        cases neat with
        | node _ adjacent neat => exact ⟨⟨adjacent, neat⟩, children⟩
    have firmBelow : ¬Symbol.Dangle (symbolsOfList first.children) := by
      intro dangles
      apply firm
      cases first with
      | node id kind text attributes children =>
        rw [symbolsOfList_cons, symbols_node]
        exact (((dangles.prepend _).append _).append _)
    rcases ih below.2 below.1 firmBelow with ⟨same, leaving⟩
    rw [shedList_inner content hides]
    by_cases stays : (shedList first.children).2 = []
    · -- Nothing hides in the last content: only comments beside it leave.
      rw [shedList_eq_self stays, stays, List.nil_append]
      have whole : Outline.node first.id first.kind first.text first.attributes first.children =
          first := by
        cases first
        rfl
      rw [whole]
      refine ⟨by rw [← symbolsOfList_append, List.cons_append, splitOwnLine_append],
        fun leaves => ?_⟩
      exact ⟨by simp [exposedList_cons, content, leaves],
        endOwnLine_of_split regular content leaves⟩
    · rcases leaving stays with ⟨isExposed, ends⟩
      have plain : first.kind.isParens = false := by
        -- Leaving a group would pass its closing parenthesis.
        rw [← Bool.not_eq_true]
        intro group
        apply firm
        cases first with
        | node id kind text attributes children =>
          refine ⟨kind.symbols text ++ symbolsOfList children, symbolsOfList rest,
            ?_, ends.prepend _⟩
          have closes : kind.ending = [.closing] := if_pos group
          rw [symbolsOfList_cons, symbols_node, closes, List.append_assoc]
          rfl
      have exposedFirst : first.exposed = true := by rw [exposed_eq, plain, isExposed]; rfl
      obtain rfl : rest = [] := by
        -- A blank or comment behind it would follow something exposed.
        cases rest with
        | nil => rfl
        | cons next others =>
          have firmFirst := (List.isChain_cons_cons.mp orderly.adjacent).1
            (isTrivia_of_mem content (.head _))
          rw [exposedFirst] at firmFirst
          exact absurd firmFirst (by decide)
      refine ⟨?_, fun _ => ⟨by simp [exposedList_cons, content, hides, exposedFirst], ?_⟩⟩
      · cases first with
        | node id kind text attributes children =>
          have noEnding : kind.ending = [] := if_neg (by simpa using plain)
          have same : symbolsOfList (shedList children).1 ++ symbolsOfList (shedList children).2 =
              symbolsOfList children := same
          simp only [splitOwnLine, List.append_nil, symbolsOfList_cons,
            symbolsOfList_nil, symbols_node, Outline.kind, Outline.text, Outline.children, noEnding,
            List.append_assoc, same]
      · cases first with
        | node id kind text attributes children =>
          have noEnding : kind.ending = [] := if_neg (by simpa using plain)
          rw [symbolsOfList_cons, symbolsOfList_nil, symbols_node, noEnding, List.append_nil,
            List.append_nil]
          exact ends.prepend _

end Outline

/-- Without dangling comments and abandoned groups, what is written down is the source. -/
theorem Trace.eq_source {source past : List Symbol} (trace : Trace 0 source past)
    (firm : ¬Symbol.Dangle source) : past = source := by
  generalize none : 0 = abandoned at trace
  induction trace with
  | start => rfl
  | take _ symbols ih => rw [ih (fun dangles => firm (dangles.append _)) none]
  | @abandon abandoned _ _ _ groups ih =>
    obtain ⟨rfl, rfl⟩ : abandoned = 0 ∧ groups = 0 := by omega
    simpa using ih firm rfl
  | @shed _ _ front outlines _ regular orderly ih =>
    have before := ih firm none
    have firmEnd : ¬Symbol.Dangle (Outline.symbolsOfList outlines) := by
      intro dangles
      apply firm
      rw [← before]
      exact dangles.prepend _
    rw [List.append_assoc, (Outline.shedList_symbols regular orderly firmEnd).1, before]

end SqlLayout
