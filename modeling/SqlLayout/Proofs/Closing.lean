import SqlLayout.Proofs.Draft.Closure
import SqlLayout.Proofs.Grammar.Document
import SqlLayout.Proofs.Tree.Walk

/-!
# Documents without errors are closed

A document that is not marked has no parenthesis that closes too early. It is closed throughout,
every group, block, `CASE` and `BETWEEN` of it, unless one of them holds the body of a definition:
such a body ends with its batch, and nothing is said about what is still open around it.
-/

namespace SqlLayout

open Outline

/-- In a document that ends where a batch may end, exactly the containers that trap the body of a
definition are not closed. -/
theorem Draft.Tallied.outline {tokens : List Token} {draft : Draft} {groups : Nat}
    (tallied : draft.Tallied tokens groups) (sound : draft.Sound) (rests : draft.Rests) :
    draft.outline.Accounted ∧ Token.opens tokens = Token.closes tokens + draft.outline.lost := by
  have closed := tallied.top sound rests
  have isRoot := Draft.kind_top sound
  have whole : draft.outline = draft.top.closed := by
    rw [← Draft.outline_ups draft draft.outer.length]
    exact congrArg (Frame.plug · draft.top.closed) draft.outer_top
  obtain ⟨accounted, sum⟩ : (∀ outline ∈ draft.top.children, outline.Accounted) ∧
      lostOfList draft.top.children = groups + draft.groups := by
    have accounts := closed.accounts
    rwa [Draft.levels, draft.outer_top] at accounts
  have notGroup : draft.top.closed.kind.isParens = false := by rw [Draft.closed_kind, isRoot]; rfl
  have none : draft.top.closed.traps = false := by
    rw [traps, Draft.closed_kind, isRoot]
    simp [NodeKind.awaits, NodeKind.isParens, NodeKind.finish?]
  rw [whole]
  refine ⟨accounted_iff.mpr ⟨fun _ => ?_, accounted⟩, ?_⟩
  · rw [none, isComplete, Draft.closed_kind, isRoot]
    rfl
  · have total := closed.total
    have noGroup := Draft.groups_top sound
    rw [lost_eq, notGroup, Bool.false_and, if_neg Bool.false_ne_true, Nat.zero_add]
    change _ = _ + lostOfList draft.top.children
    omega

/-- An accounted outline is closed throughout exactly if nothing traps the body of a definition. -/
theorem Outline.Accounted.closed_iff {outline : Outline} (accounted : outline.Accounted) :
    (outline.lost = 0 ∧ ∀ node ∈ outline.nodes, node.isComplete = true) ↔
      ∀ node ∈ outline.nodes, node.traps = false := by
  rw [lost, List.countP_eq_zero]
  constructor
  · rintro ⟨groups, complete⟩ node member
    cases group : node.kind.isParens with
    | true => simpa [group] using groups node member
    | false => simpa [complete node member] using accounted node member group
  · intro free
    refine ⟨fun node member => by simp [free node member], fun node member => ?_⟩
    cases group : node.kind.isParens with
    | true => exact isComplete_of_isParens group
    | false => rw [accounted node member group, free node member, Bool.not_false]

namespace Tree

/-- In a script without errors no parenthesis closes before it is opened. All parentheses are
closed, every block and `CASE` has its end and every `BETWEEN` its upper bound, exactly if none of
them holds the body of a definition before its end. -/
theorem ofText_closed_iff {script : String} {tree : Tree} (isOk : Tree.ofText script = .ok tree)
    (clean : tree.hasError = false) :
    Token.OpensFirst (TokenList.ofText script).tokens ∧
      ((Token.opens (TokenList.ofText script).tokens =
        Token.closes (TokenList.ofText script).tokens ∧
          ∀ node ∈ (tree.outline Tree.root).nodes, node.isComplete = true) ↔
        ∀ node ∈ (tree.outline Tree.root).nodes, node.traps = false) := by
  obtain ⟨other, draft, isOther, shown, built, ends⟩ := Tree.ofTokens_ends (.ofText script)
  obtain rfl : tree = other := Except.ok.inj (isOk.symm.trans isOther)
  have unmarked : ¬draft.Flagged := by
    intro flagged
    rw [shown.hasError_iff.mpr flagged] at clean
    exact absurd clean (by decide)
  obtain ⟨groups, tallied⟩ := built.flagged_or_tallied.resolve_left unmarked
  obtain ⟨accounted, total⟩ := tallied.outline built.sound (ends.resolve_left unmarked)
  refine ⟨tallied.opensFirst, ?_⟩
  rw [shown.outline_eq, ← accounted.closed_iff, total]
  simp

/-- A definition that holds a block, a `CASE`, a group and a `BETWEEN` is closed throughout. -/
theorem ofText_closed_example :
    ∃ tree,
      Tree.ofText "CREATE PROC p AS BEGIN SELECT CASE WHEN (a) BETWEEN 1 AND 2 THEN 3 END END" =
        .ok tree ∧
      ∀ node ∈ (tree.outline Tree.root).nodes, node.isComplete = true := by
  obtain ⟨tree, _, isOk, _⟩ := Tree.ofTokens_shows
    (.ofText "CREATE PROC p AS BEGIN SELECT CASE WHEN (a) BETWEEN 1 AND 2 THEN 3 END END")
  have found : (Tree.ofText
      "CREATE PROC p AS BEGIN SELECT CASE WHEN (a) BETWEEN 1 AND 2 THEN 3 END END").toOption.map
        (fun tree => (tree.hasError, (tree.outline Tree.root).nodes.all (!·.traps))) =
      some (false, true) := by
    decide +kernel
  rw [show Tree.ofText _ = .ok tree from isOk] at found
  obtain ⟨clean, free⟩ := Prod.mk.inj (Option.some.inj found)
  refine ⟨tree, isOk, ((ofText_closed_iff isOk clean).2.mpr fun node member => ?_).2⟩
  simpa using List.all_eq_true.mp free node member

/-- A group, and a block, that hold the body of a definition are never closed. -/
theorem ofText_not_closed :
    (Tree.ofText "(CREATE PROC p AS").toOption.map Tree.hasError = some false ∧
      Token.opens (TokenList.ofText "(CREATE PROC p AS").tokens = 1 ∧
      Token.closes (TokenList.ofText "(CREATE PROC p AS").tokens = 0 ∧
      (Tree.ofText "BEGIN CREATE PROC p AS SELECT 1").toOption.map
        (fun tree => (tree.hasError, (tree.outline Tree.root).nodes.all isComplete)) =
      some (false, false) := by
  refine ⟨?_, ?_, ?_, ?_⟩ <;> decide +kernel

end Tree

end SqlLayout
