import Mathlib.Data.List.Induction
import SqlLayout.Command.Volume

/-!
# Parts of paths

A path is its parts with slashes between them. A name that is joined to a path becomes its last
part, and the path above a name is an initial piece of the path.
-/

namespace SqlLayout.Path

variable {path name : String} {names front : List String}

/-! ### Cutting at slashes -/

theorem cut_ne_nil (text : List Char) : cut text ≠ [] := by
  cases text with
  | nil => simp [cut]
  | cons c rest =>
    rw [cut]
    split
    · simp
    · split <;> simp

theorem cut_append (front back : List Char) :
    cut (front ++ '/' :: back) = cut front ++ cut back := by
  induction front with
  | nil => simp [cut]
  | cons c rest ih =>
    rw [List.cons_append, cut, cut, ih]
    split
    · rfl
    · rcases List.exists_cons_of_ne_nil (cut_ne_nil rest) with ⟨part, others, cuts⟩
      rw [cuts]
      rfl

theorem cut_of_not_mem {text : List Char} (whole : '/' ∉ text) : cut text = [text] := by
  induction text with
  | nil => rfl
  | cons c rest ih =>
    rw [List.mem_cons, not_or] at whole
    rw [cut, if_neg (Ne.symm whole.1), ih whole.2]

theorem not_mem_of_mem_cut {text part : List Char} (member : part ∈ cut text) : '/' ∉ part := by
  induction text generalizing part with
  | nil => simp_all [cut]
  | cons c rest ih =>
    rw [cut] at member
    split at member
    · rcases List.mem_cons.mp member with rfl | later
      · simp
      · exact ih later
    next other =>
      split at member
      next none => exact absurd none (cut_ne_nil rest)
      next first others cuts =>
        rcases List.mem_cons.mp member with rfl | later
        · have whole := ih (cuts ▸ List.mem_cons_self)
          simp [Ne.symm other, whole]
        · exact ih (cuts ▸ List.mem_cons_of_mem _ later)

theorem not_mem_of_mem_parts {part : String} (member : part ∈ parts path) : '/' ∉ part.toList := by
  rcases List.mem_map.mp member with ⟨chars, isPart, rfl⟩
  simpa using not_mem_of_mem_cut isPart

theorem exists_last (path : String) : ∃ front last, parts path = front ++ [last] := by
  have some : parts path ≠ [] := by simp [parts, cut_ne_nil]
  exact ⟨_, _, (List.dropLast_concat_getLast some).symm⟩

theorem parts_of_not_mem (whole : '/' ∉ name.toList) : parts name = [name] := by
  simp [parts, cut_of_not_mem whole]

theorem parts_append (base name : String) :
    parts (base ++ "/" ++ name) = parts base ++ parts name := by
  have chars : (base ++ "/" ++ name).toList = base.toList ++ '/' :: name.toList := by simp
  rw [parts, chars, cut_append, List.map_append]
  rfl

/-! ### Writing parts -/

theorem parts_intercalate (some : names ≠ []) (whole : ∀ name ∈ names, '/' ∉ name.toList) :
    parts ("/".intercalate names) = names := by
  induction names with
  | nil => exact absurd rfl some
  | cons first rest ih =>
    rcases List.forall_mem_cons.mp whole with ⟨here, later⟩
    cases rest with
    | nil => rw [String.intercalate_singleton, parts_of_not_mem here]
    | cons second others =>
      rw [String.intercalate_cons_cons, parts_append, parts_of_not_mem here, ih (by simp) later]
      rfl

theorem intercalate_append {back : List String} (some : front ≠ []) (more : back ≠ []) :
    "/".intercalate (front ++ back) = "/".intercalate front ++ "/" ++ "/".intercalate back := by
  induction front with
  | nil => exact absurd rfl some
  | cons first rest ih =>
    cases rest with
    | nil =>
      rcases List.exists_cons_of_ne_nil more with ⟨second, others, rfl⟩
      rw [String.intercalate_singleton, List.singleton_append, String.intercalate_cons_cons]
    | cons second others =>
      rw [List.cons_append, List.cons_append, String.intercalate_cons_cons, ← List.cons_append,
        ih (by simp), String.intercalate_cons_cons]
      simp only [String.append_assoc]

theorem intercalate_parts (path : String) : "/".intercalate (parts path) = path := by
  have written : ∀ text : List Char,
      "/".intercalate ((cut text).map String.ofList) = String.ofList text := by
    intro text
    induction text with
    | nil => rfl
    | cons c rest ih =>
      rcases List.exists_cons_of_ne_nil (cut_ne_nil rest) with ⟨part, others, cuts⟩
      rw [cut]
      split
      next slash =>
        rw [cuts, List.map_cons, List.map_cons, String.intercalate_cons_cons, ← List.map_cons,
          ← cuts, ih, slash]
        simp
      next =>
        rw [cuts] at ih ⊢
        cases others with
        | nil =>
          rw [← String.toList_inj] at ih ⊢
          simpa using ih
        | cons next more =>
          rw [List.map_cons, List.map_cons, String.intercalate_cons_cons, ← String.toList_inj]
            at ih ⊢
          simpa using ih
  rw [parts, written, String.ofList_toList]

/-- The last part of a path tells whether a slash stands at its end. -/
theorem getLast?_eq_slash {last : String} (some : path ≠ "") (cuts : parts path = front ++ [last]) :
    path.toList.getLast? = .some '/' ↔ last = "" := by
  constructor
  · intro slash
    rcases List.getLast?_eq_some_iff.mp slash with ⟨before, chars⟩
    obtain rfl : path = String.ofList before ++ "/" ++ "" := by
      rw [← String.toList_inj, chars]
      simp
    rw [parts_append] at cuts
    exact (List.append_inj_right' cuts rfl |> List.singleton_inj.mp).symm
  · rintro rfl
    have text := intercalate_parts path
    rw [cuts] at text
    cases front with
    | nil => exact absurd text.symm some
    | cons first rest =>
      rw [intercalate_append (by simp) (by simp)] at text
      simp [← text]

/-! ### Names -/

/-- A name that can stand in a directory. -/
def isProper (name : String) : Bool :=
  Volume.isName name && !name.toList.contains '/' && !name.toList.contains '\x00'

theorem isProper_iff :
    isProper name = true ↔
      Volume.isName name = true ∧ '/' ∉ name.toList ∧ '\x00' ∉ name.toList := by
  simp [isProper, and_assoc]

theorem ne_of_isName (isName : Volume.isName name = true) : name ≠ "" := by
  rintro rfl
  exact absurd isName (by decide)

theorem isProper_append_bak (proper : isProper name = true) : isProper (name ++ ".bak") = true := by
  have long : ∀ short : String, short.length < 4 → name ++ ".bak" ≠ short := by
    rintro short isShort rfl
    rw [String.length_append, show ".bak".length = 4 from rfl] at isShort
    omega
  rw [isProper_iff] at proper ⊢
  refine ⟨?_, by simpa using proper.2.1, by simpa using proper.2.2⟩
  simp only [Volume.isName, Bool.and_eq_true, bne_iff_ne]
  exact ⟨⟨long "" (by decide), long "." (by decide)⟩, long ".." (by decide)⟩

/-! ### Joining names -/

theorem join_ne (some : name ≠ "") : join path name ≠ "" := by
  rw [join]
  split <;> simp [some]

theorem join_append (base name ending : String) :
    join base name ++ ending = join base (name ++ ending) := by
  unfold join
  split <;> simp only [String.append_assoc]

/-- A joined path begins with the path that is joined to. -/
theorem join_eq (base name : String) : ∃ between, join base name = base ++ between ++ name ∧
    (between = "" ∨ between = "/") := by
  rw [join]
  split
  · exact ⟨"", by simp, .inl rfl⟩
  · exact ⟨"/", rfl, .inr rfl⟩

/-- Joining a name adds a part, in place of an empty one if there is one at the end. -/
theorem parts_join {base : String} (some : base ≠ "") (whole : '/' ∉ name.toList) :
    ∃ front, parts (join base name) = front ++ [name] ∧
      (parts base = front ∨ parts base = front ++ [""]) := by
  have full : base.isEmpty = false := by simpa using some
  rw [join, full, Bool.false_or]
  split
  next slash =>
    have ending : base.toList.getLast? = .some '/' := by simpa using slash
    rcases List.getLast?_eq_some_iff.mp ending with ⟨front, chars⟩
    obtain rfl : base = String.ofList front ++ "/" := by
      rw [← String.toList_inj, chars]
      simp
    refine ⟨parts (String.ofList front), by rw [parts_append, parts_of_not_mem whole], .inr ?_⟩
    simpa [parts_of_not_mem] using parts_append (String.ofList front) ""
  next => exact ⟨parts base, by rw [parts_append, parts_of_not_mem whole], .inl rfl⟩

theorem join_intercalate (some : path ≠ "") (more : names ≠ [])
    (proper : ∀ name ∈ names, isProper name = true) :
    join path ("/".intercalate names) = names.foldl join path := by
  induction names generalizing path with
  | nil => exact absurd rfl more
  | cons first rest ih =>
    rcases List.forall_mem_cons.mp proper with ⟨here, later⟩
    have named := ne_of_isName (isProper_iff.mp here).1
    cases rest with
    | nil => rw [String.intercalate_singleton, List.foldl_cons, List.foldl_nil]
    | cons second others =>
      have whole : (join path first).toList.getLast? ≠ .some '/' := by
        rcases parts_join some (isProper_iff.mp here).2.1 with ⟨front, cuts, _⟩
        rwa [ne_eq, getLast?_eq_slash (join_ne named) cuts]
      have full : (join path first).isEmpty = false := by simpa using join_ne named
      rw [List.foldl_cons, ← ih (join_ne named) (by simp) later, String.intercalate_cons_cons,
        String.append_assoc, ← join_append]
      conv_rhs => rw [join, full, Bool.false_or, if_neg (by simpa using whole)]
      rw [String.append_assoc]

/-! ### The path above a name -/

theorem dropIdle_ne_nil (some : names ≠ []) : dropIdle names ≠ [] := by
  fun_induction dropIdle names with
  | case1 _ _ _ _ ih => exact ih (by simp)
  | case2 => exact some
  | case3 => exact some

theorem dropIdle_suffix (names : List String) : dropIdle names <:+ names := by
  fun_induction dropIdle names with
  | case1 part next rest _ ih => exact ih.trans (List.suffix_cons ..)
  | case2 => exact List.suffix_rfl
  | case3 => exact List.suffix_rfl

/-- A path that ends in a name. Above it is nothing, or a path of the parts before the name up to
the last that counts. -/
theorem split?_eq (cuts : parts path = front ++ [name]) (isName : Volume.isName name = true) :
    split? path =
      some (if front = [] then "" else ofReversed (dropIdle front.reverse), .name name) := by
  simp only [Volume.isName, Bool.and_eq_true, bne_iff_ne] at isName
  have reversed : (parts path).reverse = name :: front.reverse := by simp [cuts]
  rw [split?, reversed]
  cases front using List.reverseRecOn with
  | nil => simp [dropIdle, isName, lastOf]
  | append_singleton before last =>
    simp [dropIdle, isName, lastOf]

theorem parent?_eq (cuts : parts path = front ++ [name]) (isName : Volume.isName name = true) :
    parent? path = some (if front = [] then "" else ofReversed (dropIdle front.reverse)) := by
  rw [parent?, split?_eq cuts isName, Option.map_some]

theorem fileName?_eq (cuts : parts path = front ++ [name]) (isName : Volume.isName name = true) :
    fileName? path = some name := by
  rw [fileName?, split?_eq cuts isName]

/-- The directory in which a path names something. -/
def above (path : String) : String :=
  ((parent? path).filter (· ≠ "")).getD "."

theorem above_eq {parent : String} (isParent : parent? path = some parent) (some : parent ≠ "") :
    above path = parent := by
  rw [above, isParent, Option.filter_some_pos (by simpa using some), Option.getD_some]

/-- The path above a name: the working directory, the root, or an initial piece of the path. -/
theorem above_of_name (cuts : parts path = front ++ [name]) (isName : Volume.isName name = true) :
    (front = [] ∧ path = name ∧ above path = ".") ∨
      ((dropIdle front.reverse).reverse = [""] ∧ path.toList.head? = some '/' ∧
        above path = "/") ∨
      (above path ≠ "" ∧ (∃ back, path = above path ++ "/" ++ back) ∧
        parts (above path) = (dropIdle front.reverse).reverse) := by
  have isParent := parent?_eq cuts isName
  by_cases alone : front = []
  · subst alone
    refine .inl ⟨rfl, ?_, ?_⟩
    · rw [← intercalate_parts path, cuts, List.nil_append, String.intercalate_singleton]
    · rw [above, isParent]
      rfl
  right
  rw [if_neg alone] at isParent
  generalize isKept : (dropIdle front.reverse).reverse = kept
  have reversed : dropIdle front.reverse = kept.reverse := by rw [← isKept, List.reverse_reverse]
  have some : kept ≠ [] := by
    rw [← isKept]
    simpa using dropIdle_ne_nil (by simpa using alone)
  obtain ⟨dropped, whole⟩ := dropIdle_suffix front.reverse
  have pieces : parts path = kept ++ (dropped.reverse ++ [name]) := by
    rw [cuts, ← isKept, ← List.append_assoc, ← List.reverse_append, whole, List.reverse_reverse]
  have text : path = "/".intercalate kept ++ "/" ++
      "/".intercalate (dropped.reverse ++ [name]) := by
    rw [← intercalate_append some (by simp), ← pieces, intercalate_parts]
  by_cases root : kept = [""]
  · subst root
    refine .inl ⟨rfl, ?_, ?_⟩
    · rw [text]
      simp
    · refine above_eq (isParent.trans (congrArg _ ?_)) (by decide)
      rw [reversed]
      rfl
  · have written : ofReversed (dropIdle front.reverse) = "/".intercalate kept := by
      rw [reversed]
      unfold ofReversed
      split
      next single => exact absurd (by simpa using congrArg List.reverse single) root
      next => rw [List.reverse_reverse]
    have full : "/".intercalate kept ≠ "" := by
      intro empty
      refine root ?_
      rw [← parts_intercalate some fun part member =>
        not_mem_of_mem_parts (pieces ▸ List.mem_append_left _ member), empty]
      rfl
    rw [above_eq (isParent.trans (congrArg _ written)) full]
    refine .inr ⟨full, ⟨_, text⟩, parts_intercalate some fun part member => ?_⟩
    exact not_mem_of_mem_parts (pieces ▸ List.mem_append_left _ member)

end SqlLayout.Path
