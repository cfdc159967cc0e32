import SqlLayout.Proofs.Draft.Built

/-!
# Tidy drafts

While a document is built, no blank or comment ever comes behind something that is exposed: what
could leave a container has left it before the next blank or comment is added. So comments that
leave a container without leaving a group keep their place in the source text.
-/

namespace SqlLayout

namespace Outline

variable {outlines : List Outline}

/-- Sibling outlines in which no blank or comment follows something that is exposed, at any
level. -/
structure Orderly (outlines : List Outline) : Prop where
  adjacent : Adjacent outlines
  neat : ∀ outline ∈ outlines, outline.Neat

namespace Orderly

variable {outlines others : List Outline} {outline : Outline}

theorem nil : Orderly [] := ⟨.nil, by simp⟩

theorem left (orderly : Orderly (outlines ++ others)) : Orderly outlines :=
  ⟨List.IsChain.left_of_append orderly.adjacent,
    fun outline member => orderly.neat outline (List.mem_append_left _ member)⟩

theorem snoc (orderly : Orderly outlines) (neat : outline.Neat)
    (firm : outline.kind.isTrivia = true → ∀ last ∈ outlines.getLast?, last.exposed = false) :
    Orderly (outlines ++ [outline]) where
  adjacent := by
    refine List.isChain_append.mpr ⟨orderly.adjacent, by simp, ?_⟩
    intro last isLast next isNext trivia
    obtain rfl : outline = next := by simpa using isNext
    exact firm trivia last isLast
  neat := by
    intro other member
    rcases List.mem_append.mp member with old | new
    · exact orderly.neat other old
    · exact List.mem_singleton.mp new ▸ neat

theorem append_childless (orderly : Orderly outlines)
    (firm : ∀ last ∈ outlines.getLast?, last.exposed = false)
    (childless : ∀ outline ∈ others, outline.children = []) : Orderly (outlines ++ others) := by
  induction others generalizing outlines with
  | nil => simpa using orderly
  | cons first rest ih =>
    obtain ⟨here, later⟩ := List.forall_mem_cons.mp childless
    have neat : first.Neat := by
      cases first
      obtain rfl := here
      exact .node (.inl rfl) .nil (by simp)
    rw [List.append_cons]
    refine ih (orderly.snoc neat fun _ => firm) ?_ later
    simpa using exposed_of_childless here

end Orderly

/-! ### What leaves is what is exposed or lies in a group -/

theorem exposedList_concat {last : Outline} (content : last.kind.isTrivia = false)
    (before : List Outline) :
    exposedList (before ++ [last]) = (last.mayHide [] && last.exposed) := by
  induction before with
  | nil => simp [exposedList_cons, anyContent, splitOwnLine]
  | cons first rest ih =>
    have more : anyContent (rest ++ [last]) = true := by simp [anyContent, content]
    rw [List.cons_append, exposedList_cons, if_pos more, ih]

theorem exposedList_eq_false (none : (shedList outlines).2 = []) :
    exposedList outlines = false := by
  induction outlines using induction_on_tail with
  | nil => exact exposedList_nil
  | pass first rest content ih =>
    rw [shedList_pass content] at none
    rw [exposedList_cons, if_pos content, ih none]
  | stop first rest content hides =>
    rw [shedList_stop content hides] at none
    simpa [exposedList_cons, content, hides] using none
  | inner first rest content hides ih =>
    rw [shedList_inner content hides] at none
    obtain ⟨below, beside⟩ := List.append_eq_nil_iff.mp none
    simp [exposedList_cons, content, hides, beside, exposed_eq, ih below]

theorem exposed_getLast (firm : exposedList outlines = false)
    (regular : ∀ outline ∈ outlines, outline.Regular) (neat : ∀ outline ∈ outlines, outline.Neat) :
    ∀ last ∈ outlines.getLast?, last.exposed = false := by
  intro last isLast
  obtain ⟨before, rfl⟩ := List.getLast?_eq_some_iff.mp isLast
  have lastRegular := regular last (by simp)
  have lastNeat := neat last (by simp)
  cases trivia : last.kind.isTrivia with
  | true => exact exposed_of_childless (lastRegular.childless trivia)
  | false =>
    rw [exposedList_concat trivia, Bool.and_eq_false_iff] at firm
    rcases firm with worded | firm
    · have text : last.text ≠ "" := by simpa [mayHide, trivia] using worded
      obtain ⟨bare, _, _⟩ := lastNeat
      exact exposed_of_childless (bare.resolve_right text)
    · exact firm

theorem Orderly.shedList (orderly : Orderly outlines) : Orderly (shedList outlines).1 := by
  have kept : ∀ (first : Outline) (rest : List Outline), Orderly (first :: rest) →
      Orderly (first :: (splitOwnLine first.breaksLine rest).1) := by
    intro first rest orderly
    rw [← splitOwnLine_append first.breaksLine rest, ← List.cons_append] at orderly
    exact orderly.left
  induction outlines using induction_on_tail with
  | nil => rw [shedList_nil]; exact .nil
  | pass first rest content ih =>
    obtain ⟨adjacent, neat⟩ := orderly
    obtain ⟨here, later⟩ := List.isChain_cons.mp adjacent
    obtain ⟨firstNeat, restNeat⟩ := List.forall_mem_cons.mp neat
    obtain ⟨stays, neatStays⟩ := ih ⟨later, restNeat⟩
    rw [shedList_pass content]
    refine ⟨List.isChain_cons.mpr ⟨?_, stays⟩, List.forall_mem_cons.mpr ⟨firstNeat, neatStays⟩⟩
    -- What stays starts with a node of the same kind.
    obtain ⟨moved, _, kinds⟩ := exists_kinds_shedList rest
    intro next isNext trivia
    obtain ⟨others, start⟩ := List.head?_eq_some_iff.mp isNext
    rw [start] at kinds
    cases rest with
    | nil => simp at kinds
    | cons second more =>
      have same : next.kind = second.kind := by simpa using congrArg List.head? kinds
      exact here second (by simp) (same ▸ trivia)
  | stop first rest content hides =>
    rw [shedList_stop content hides]
    exact kept first rest orderly
  | inner first rest content hides ih =>
    obtain ⟨adjacent, neat⟩ := kept first rest orderly
    obtain ⟨firstNeat, restNeat⟩ := List.forall_mem_cons.mp neat
    obtain ⟨id, kind, text, attributes, children⟩ := first
    obtain ⟨bare, below, inside⟩ := firstNeat
    obtain ⟨stays, neatStays⟩ := ih ⟨below, inside⟩
    have silent : text = "" := by
      simp only [mayHide, Bool.and_eq_true, beq_iff_eq] at hides
      exact hides.1.2
    rw [shedList_inner content hides]
    refine ⟨List.isChain_cons.mpr ⟨fun next _ _ => ?_, (List.isChain_cons.mp adjacent).2⟩, ?_⟩
    · simp [exposed_eq, Outline.children, exposedList_eq_false (shedList_kept _)]
    · exact List.forall_mem_cons.mpr ⟨.node (.inr silent) stays neatStays, restNeat⟩

end Outline

/-! ### Tidy drafts -/

namespace Draft

open Outline

/-- A draft in which no blank or comment follows something that is exposed. -/
structure Tidy (draft : Draft) : Prop where
  inside : Orderly draft.children
  around : ∀ frame ∈ draft.outer, Orderly frame.before

namespace Tidy

variable {draft other : Draft} {outline : Outline}

theorem add (tidy : draft.Tidy) (neat : outline.Neat)
    (firm : outline.kind.isTrivia = true → ∀ last ∈ draft.children.getLast?, last.exposed = false) :
    (draft.add outline).Tidy :=
  ⟨tidy.inside.snoc neat firm, tidy.around⟩

theorem enter (tidy : draft.Tidy) (id : NodeId) (kind : NodeKind) : (draft.enter id kind).Tidy :=
  ⟨.nil, List.forall_mem_cons.mpr ⟨tidy.inside, tidy.around⟩⟩

theorem up (tidy : draft.Tidy) (sound : draft.Sound) : draft.up.Tidy := by
  unfold Draft.up
  split
  · exact tidy
  next frame outer around =>
    have frames := sound.around
    rw [around] at frames
    have before := tidy.around
    rw [around] at before
    obtain ⟨here, above⟩ := List.forall_mem_cons.mp before
    have closed : Orderly (frame.before ++ [draft.closed]) := by
      refine here.snoc (.node (.inr rfl) tidy.inside.adjacent tidy.inside.neat) fun trivia => ?_
      rw [closed_kind, sound.content] at trivia
      exact absurd trivia (by decide)
    refine ⟨?_, above⟩
    -- Behind the container come only bodies that stayed empty.
    have behind := frames.1.behind
    clear frames
    change Orderly (frame.before ++ draft.closed :: frame.after)
    rw [List.append_cons]
    generalize frame.after = after at behind
    induction after using List.reverseRecOn with
    | nil => simpa using closed
    | append_singleton front last ih =>
      rw [← List.append_assoc]
      have isBody := (behind last (by simp)).2
      refine (ih fun outline member => behind outline (List.mem_append_left _ member)).snoc ?_ ?_
      · rw [isBody]
        exact neat_leaf ..
      · rw [isBody]
        exact nofun

theorem ups (tidy : draft.Tidy) (sound : draft.Sound) (levels : Nat) : (draft.ups levels).Tidy := by
  induction levels generalizing draft with
  | zero => exact tidy
  | succ levels ih => exact ih (tidy.up sound) sound.up

theorem slip (tidy : draft.Tidy) (neat : outline.Neat)
    (firm : ∀ frame ∈ draft.outer.head?, ∀ last ∈ frame.before.getLast?, last.exposed = false) :
    (draft.slip outline).Tidy := by
  unfold Draft.slip
  split
  · exact tidy
  next frame outer around =>
    have before := tidy.around
    rw [around] at before
    obtain ⟨here, above⟩ := List.forall_mem_cons.mp before
    exact ⟨tidy.inside, List.forall_mem_cons.mpr
      ⟨here.snoc neat fun _ => firm frame (by simp [around]), above⟩⟩

theorem follow (tidy : draft.Tidy) (outline : Outline) : (draft.follow outline).Tidy := by
  unfold Draft.follow
  split
  · exact tidy
  next frame outer around =>
    have before := tidy.around
    rw [around] at before
    exact ⟨tidy.inside, List.forall_mem_cons.mpr (List.forall_mem_cons.mp before)⟩

theorem setAttribute (tidy : draft.Tidy) (id : NodeId) (key : Attribute) (value : String) :
    (draft.setAttribute id key value).Tidy := by
  refine ⟨tidy.inside, ?_⟩
  intro frame member
  obtain ⟨old, wasThere, rfl⟩ := List.mem_map.mp member
  split <;> exact tidy.around old wasThere

theorem pass (tidy : draft.Tidy) (pass : draft.Pass other) (sound : draft.Sound) : other.Tidy := by
  cases pass with
  | leave _ _ => exact tidy.up sound
  | enter id _ _ _ _ _ => exact tidy.enter id _

end Tidy

/-- A container that holds nothing exposed can be left, or another one be opened in it. -/
theorem Pass.firm {draft other : Draft} (pass : draft.Pass other) (sound : draft.Sound)
    (firm : exposedList draft.children = false) : exposedList other.children = false := by
  cases pass with
  | enter id _ _ _ _ _ => exact exposedList_nil
  | leave _ enclosed =>
    obtain ⟨frame, outer, around⟩ := List.exists_cons_of_ne_nil enclosed
    have frames := sound.around
    rw [around] at frames
    rw [up_eq around]
    have behind := frames.1.behind
    clear frames
    change exposedList (frame.before ++ draft.closed :: frame.after) = false
    rw [List.append_cons]
    generalize frame.after = after at behind
    cases after using List.reverseRecOn with
    | nil =>
      have firm : draft.closed.exposed = false := by
        rw [exposed_eq, show draft.closed.children = draft.children from rfl, firm, Bool.and_false]
      have content : draft.closed.kind.isTrivia = false := sound.content
      rw [List.append_nil, exposedList_append content firm]
    | append_singleton front last =>
      have isBody := (behind last (by simp)).2
      rw [← List.append_assoc, isBody]
      exact exposedList_append rfl (exposed_leaf ..) _

/-- Containers are left and opened behind what stays: it is tidy, and a blank or comment may
follow. -/
theorem Passes.tidy {draft other : Draft} (passes : draft.Passes other) (sound : draft.Sound)
    (tidy : draft.Tidy) (firm : exposedList draft.children = false) :
    other.Tidy ∧ ∀ last ∈ other.children.getLast?, last.exposed = false := by
  have along : other.Tidy ∧ exposedList other.children = false := by
    induction passes with
    | refl => exact ⟨tidy, firm⟩
    | tail before pass ih =>
      have here := Passes.sound before sound
      exact ⟨ih.1.pass pass here, pass.firm here ih.2⟩
  refine ⟨along.1, exposed_getLast along.2 (passes.sound sound).regular along.1.inside.neat⟩

end Draft

/-- What is built from tokens is tidy. -/
theorem Built.tidy {tokens : List Token} {draft : Draft} (built : Built tokens draft) :
    draft.Tidy := by
  induction built with
  | start statement clause =>
    have empty : Draft.Tidy { id := Tree.root, kind := .root } := ⟨.nil, by simp⟩
    exact (empty.enter statement .statement).enter clause .clause
  | pass built pass ih => exact ih.pass pass built.sound
  | add _ read content _ _ ih =>
    refine ih.add (read.neat _ (by simp)) fun trivia => ?_
    rw [content] at trivia
    exact absurd trivia (by decide)
  | trivia _ id _ settled _ ih => exact ih.add (Outline.neat_leaf ..) fun _ => settled.inside
  | slip _ id _ settled inside empty ih =>
    refine ih.slip (Outline.neat_leaf ..) (settled.before ?_ empty)
    exact (List.cons_prefix_cons.mp inside).1.symm
  | openGroup _ id _ _ _ _ ih => exact ih.enter id _
  | closeGroup built _ _ ih => exact ih.up built.sound
  | stray _ id _ _ _ _ ih =>
    exact ih.add (Outline.neat_leaf ..) nofun
  | mark _ ih => exact (ih.setAttribute _ _ _).setAttribute _ _ _
  | follow _ id _ ih => exact ih.follow _
  | separate built id keyword _ _ ih =>
    refine (ih.ups built.sound _).add (.node (.inr rfl) (by simp [Outline.Adjacent]) ?_) ?_
    · simpa using Outline.neat_leaf keyword _ _
    · exact nofun
  | @migrate _ draft other built _ passes _ ih =>
    have stays : draft.shed.Tidy := ⟨ih.inside.shedList, ih.around⟩
    obtain ⟨tidy, firm⟩ := passes.tidy built.sound.shed stays
      (Outline.exposedList_eq_false (Outline.shedList_kept _))
    refine ⟨tidy.inside.append_childless firm fun outline member => ?_, tidy.around⟩
    have regular := (Outline.regular_of_mem_shedList built.sound.regular).2 outline member
    exact regular.childless (Outline.isTrivia_of_mem_shedList outline member)

end SqlLayout
