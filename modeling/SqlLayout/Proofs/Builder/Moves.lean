import SqlLayout.Proofs.Builder.Growth

/-!
# Moves of the cursor

A rule reaches a draft if it succeeds with a builder that stands there. Moves up are given by the
kinds that are left: as long as the path is known that far, the move succeeds.
-/

namespace SqlLayout

/-- A container that may be left at any time, and that is not the condition of an `IF` or `WHILE`.
Nothing follows one in the container around it. -/
def NodeKind.isPlain (kind : NodeKind) : Bool :=
  kind.isFree && kind != .booleanExpression

theorem NodeKind.ne_of_isPlain {kind : NodeKind} (plain : kind.isPlain = true) :
    kind ≠ .booleanExpression := by
  rintro rfl
  exact absurd plain (by decide)

namespace Draft

variable {draft : Draft}

theorem ups_succ (draft : Draft) (levels : Nat) : draft.ups (levels + 1) = (draft.ups levels).up :=
  draft.ups_add levels 1

theorem lastKind_up (sound : draft.Sound) (enclosed : draft.outer ≠ [])
    (notCondition : draft.kind ≠ .booleanExpression) : draft.up.lastKind = some draft.kind := by
  obtain ⟨frame, outer, around⟩ := List.exists_cons_of_ne_nil enclosed
  simp [up_eq around, lastKind, sound.after_eq_nil around notCondition]

end Draft

/-- A container with nothing behind it is left. -/
structure Draft.Leave (origin draft : Draft) : Prop where
  leavable : origin.Leavable
  notCondition : origin.kind ≠ .booleanExpression
  enclosed : origin.outer ≠ []
  up : draft = origin.up

theorem Draft.leave_up {draft : Draft} (plain : draft.kind.isPlain = true)
    (enclosed : draft.outer ≠ []) : draft.Leave draft.up := by
  have free := plain
  simp only [NodeKind.isPlain, Bool.and_eq_true] at free
  exact ⟨leavable_of_isFree free.1, NodeKind.ne_of_isPlain plain, enclosed, rfl⟩

/-- A draft is reached by leaving containers with nothing behind them. -/
abbrev Draft.Above : Draft → Draft → Prop := Relation.ReflTransGen Draft.Leave

namespace Draft.Above

variable {origin draft : Draft}

theorem passes (above : origin.Above draft) : origin.Passes draft := by
  induction above with
  | refl => exact .refl
  | tail _ leave ih =>
    obtain ⟨leavable, _, enclosed, rfl⟩ := leave
    exact ih.tail (.leave leavable enclosed)

theorem shows {tree : Tree} (above : origin.Above draft) (shown : tree.Shows origin) :
    tree.Shows draft := by
  induction above with
  | refl => exact shown
  | tail _ leave ih => exact leave.up ▸ ih.up

theorem sound (above : origin.Above draft) (sound : origin.Sound) : draft.Sound :=
  above.passes.sound sound

theorem outline (above : origin.Above draft) : draft.outline = origin.outline := by
  induction above with
  | refl => rfl
  | tail _ leave ih => rw [leave.up, Draft.outline_up, ih]

theorem exists_ups (above : origin.Above draft) :
    ∃ levels ≤ origin.outer.length, draft = origin.ups levels := by
  induction above with
  | refl => exact ⟨0, Nat.zero_le _, rfl⟩
  | tail _ leave ih =>
    obtain ⟨levels, enough, rfl⟩ := ih
    refine ⟨levels + 1, ?_, leave.up.trans (ups_succ ..).symm⟩
    have length := length_outer_ups enough
    have more := List.length_pos_iff.mpr leave.enclosed
    omega

end Draft.Above

theorem Draft.above_ups {draft : Draft} {levels : Nat} (enough : levels ≤ draft.outer.length)
    (plain : ∀ kind ∈ draft.path.take levels, kind.isPlain = true) :
    draft.Above (draft.ups levels) := by
  induction levels with
  | zero => exact .refl
  | succ levels ih =>
    have path := path_ups (Nat.le_of_succ_le enough)
    have enclosed : (draft.ups levels).outer ≠ [] := by
      have length := length_outer_ups (Nat.le_of_succ_le enough)
      intro none
      simp [none] at length
      omega
    refine .tail (ih (Nat.le_of_succ_le enough) fun kind member => plain kind ?_)
      (ups_succ draft levels ▸ leave_up ?_ enclosed)
    · exact (List.take_prefix_take_left (Nat.le_succ levels)).subset member
    · refine plain _ (@List.mem_of_getElem? _ _ levels _ ?_)
      rw [List.getElem?_take_of_lt (Nat.lt_succ_self levels), ← List.head?_drop, ← path]
      rfl

/-- What is known after containers of the kinds `inner` were left for those of the kinds
`others`. -/
structure Draft.Left (origin : Draft) (inner others : List NodeKind) (draft : Draft) : Prop where
  ups : draft = origin.ups inner.length
  whole : origin.path = inner ++ others
  above : origin.Above draft
  path : draft.path = others
  last : ∀ kind ∈ inner.getLast?, draft.lastKind = some kind

theorem Draft.left_ups {draft : Draft} (sound : draft.Sound) {inner others : List NodeKind}
    (path : draft.path = inner ++ others) (more : others ≠ [])
    (plain : ∀ kind ∈ inner, kind.isPlain = true) :
    draft.Left inner others (draft.ups inner.length) := by
  have enough := Draft.length_le_of_path path more
  refine ⟨rfl, path, Draft.above_ups enough (by rwa [path, List.take_left]),
    by rw [Draft.path_ups enough, path, List.drop_left], ?_⟩
  intro kind isLast
  obtain ⟨front, rfl⟩ := List.getLast?_eq_some_iff.mp isLast
  simp only [List.length_append, List.length_singleton] at enough ⊢
  have before := Draft.path_ups (Nat.le_of_succ_le enough)
  rw [path, List.append_assoc, List.drop_left] at before
  have isKind : (draft.ups front.length).kind = kind := by
    simpa [Draft.path] using congrArg List.head? before
  have enclosed : (draft.ups front.length).outer ≠ [] := by
    have shorter := Draft.length_outer_ups (Nat.le_of_succ_le enough)
    intro none
    simp [none] at shorter
    omega
  have notCondition := NodeKind.ne_of_isPlain (plain kind (by simp))
  rw [Draft.ups_succ, Draft.lastKind_up (sound.ups _) enclosed (isKind ▸ notCondition), isKind]

namespace Builder

/-- A builder stands at a draft that is built from tokens. -/
structure At (builder : Builder) (tokens : List Token) (draft : Draft) : Prop where
  stands : builder.Stands draft
  built : Built tokens draft

end Builder

theorem ok_bind {ε α β : Type} (value : α) (rest : α → Except ε β) :
    (Except.ok value >>= rest) = rest value :=
  rfl

/-- A result is a builder that stands at a draft built from tokens, and the draft has a property. -/
def Reaches (tokens : List Token) (result : Except TreeError Builder) (goal : Draft → Prop) :
    Prop :=
  ∃ builder draft, result = .ok builder ∧ builder.At tokens draft ∧ goal draft

namespace Reaches

variable {tokens more : List Token} {result : Except TreeError Builder} {goal next : Draft → Prop}
  {rest : Builder → Except TreeError Builder}

theorem bind (reaches : Reaches tokens result goal)
    (onward : ∀ builder draft, builder.At tokens draft → goal draft →
      Reaches more (rest builder) next) : Reaches more (result >>= rest) next := by
  obtain ⟨builder, draft, rfl, located, holds⟩ := reaches
  exact onward builder draft located holds

theorem bind_bind {first : Except TreeError Builder} {second : Builder → Except TreeError Builder}
    (reaches : Reaches tokens (first >>= second) goal)
    (onward : ∀ builder draft, builder.At tokens draft → goal draft →
      Reaches more (rest builder) next) :
    Reaches more (first >>= fun builder => second builder >>= rest) next := by
  have both := reaches.bind onward
  rwa [bind_assoc] at both

theorem bind_ite {condition : Prop} [Decidable condition]
    {positive negative : Except TreeError Builder}
    (reaches : Reaches tokens (if condition then positive else negative) goal)
    (onward : ∀ builder draft, builder.At tokens draft → goal draft →
      Reaches more (rest builder) next) :
    Reaches more (if condition then positive >>= rest else negative >>= rest) next := by
  have both := reaches.bind onward
  split at both
  next holds => rwa [if_pos holds]
  next fails => rwa [if_neg fails]

theorem imp (reaches : Reaches tokens result goal) (implied : ∀ draft, goal draft → next draft) :
    Reaches tokens result next := by
  obtain ⟨builder, draft, isOk, located, holds⟩ := reaches
  exact ⟨builder, draft, isOk, located, implied draft holds⟩

end Reaches

namespace Builder.At

variable {builder : Builder} {tokens : List Token} {draft : Draft}

theorem reaches (located : builder.At tokens draft) {goal : Draft → Prop} (holds : goal draft) :
    Reaches tokens (.ok builder) goal :=
  ⟨builder, draft, rfl, located, holds⟩

theorem sound (located : builder.At tokens draft) : draft.Sound :=
  located.built.sound

theorem passes (located : builder.At tokens draft) {moved : Builder} {other : Draft}
    (stands : moved.Stands other) (passes : draft.Passes other) : moved.At tokens other := by
  refine ⟨stands, ?_⟩
  clear stands
  induction passes with
  | refl => exact located.built
  | tail _ pass ih => exact ih.pass pass

theorem moveUp (located : builder.At tokens draft) {inner others : List NodeKind}
    (path : draft.path = inner ++ others) (more : others ≠ [])
    (plain : ∀ kind ∈ inner, kind.isPlain = true) :
    Reaches tokens (builder.moveUp inner.length) (draft.Left inner others) := by
  have left := Draft.left_ups located.sound path more plain
  have enough := Draft.length_le_of_path path more
  obtain ⟨moved, isOk, stands⟩ := located.stands.moveUp enough
  exact ⟨moved, _, isOk, located.passes stands left.above.passes, left⟩

theorem moveUpTo (located : builder.At tokens draft) {inner others : List NodeKind}
    {expected : NodeKind} (path : draft.path = inner ++ expected :: others)
    (plain : ∀ kind ∈ inner, kind.isPlain = true) :
    Reaches tokens (builder.moveUpTo inner.length expected)
      (draft.Left inner (expected :: others)) := by
  have left := Draft.left_ups located.sound path (List.cons_ne_nil _ _) plain
  have enough := Draft.length_le_of_path path (List.cons_ne_nil _ _)
  have met : (draft.ups inner.length).kind = expected := by
    simpa [Draft.path] using congrArg List.head? left.path
  obtain ⟨moved, isOk, stands⟩ := located.stands.moveUpTo enough met
  exact ⟨moved, _, isOk, located.passes stands left.above.passes, left⟩

theorem moveTo (located : builder.At tokens draft) {other : Draft} (above : draft.Above other) :
    Reaches tokens (builder.moveTo other.id) (· = other) := by
  obtain ⟨moved, isOk, stands⟩ := Builder.Stands.moveTo (above.shows located.stands.shown)
  exact ⟨moved, other, isOk, located.passes stands above.passes, rfl⟩

theorem enter (located : builder.At tokens draft) {kind : NodeKind} (plain : kind.isParens = false)
    (opens : draft.kind ∈ kind.parents) (accepted : draft.Accepts kind) (inside : kind ≠ .statement)
    (undecided : .ifStatement ∈ kind.parents → draft.Undecided) :
    Reaches tokens (builder.enter kind) fun other => ∃ id, other = draft.enter id kind := by
  obtain ⟨moved, id, isOk, stands⟩ := located.stands.enter kind
  have pass : draft.Pass (draft.enter id kind) :=
    .enter id plain opens accepted (fun isStatement => absurd isStatement inside) undecided
  exact ⟨moved, _, isOk, ⟨stands, located.built.pass pass⟩, id, rfl⟩

theorem isIn_iff (located : builder.At tokens draft) {kinds : List NodeKind} (asked : kinds ≠ []) :
    builder.isIn kinds = true ↔ ∃ others, draft.path = kinds ++ others := by
  rw [located.stands.isIn_eq asked, List.isPrefixOf_iff_prefix]
  exact ⟨fun ⟨others, found⟩ => ⟨others, found.symm⟩, fun ⟨others, found⟩ => ⟨others, found.symm⟩⟩

end Builder.At

end SqlLayout
