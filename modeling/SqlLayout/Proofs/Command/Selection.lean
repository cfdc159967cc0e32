import SqlLayout.Proofs.Command.Accounting
import SqlLayout.Proofs.Command.Volume

/-!
# Selected files

A pattern is read character by character: each one stands for a part of the name. A search that
succeeds on a host with a directory tree selects the files of the tree that are wanted, all of them
and each once, in order.
-/

namespace SqlLayout

variable {name : String}

/-! ### Patterns -/

/-- The parts of a name that a character of a pattern stands for. -/
inductive StandsFor : Char → List Char → Prop
  | star {part : List Char} (inLine : '\n' ∉ part) : StandsFor '*' part
  | one {c : Char} (inLine : c ≠ '\n') : StandsFor '?' [c]
  | same {wanted c : Char} (noStar : wanted ≠ '*') (noMark : wanted ≠ '?')
      (alike : Text.sameUpToCase wanted c = true) : StandsFor wanted [c]

/-- A name that a pattern describes: its parts are those that the characters of the pattern stand
for. -/
def Fits (pattern name : List Char) : Prop :=
  ∃ parts, List.Forall₂ StandsFor pattern parts ∧ name = parts.flatten

theorem fits_nil_iff {name : List Char} : Fits [] name ↔ name = [] := by
  constructor
  · rintro ⟨parts, stand, rfl⟩
    cases stand
    rfl
  · rintro rfl
    exact ⟨[], .nil, rfl⟩

theorem fits_cons_iff {wanted : Char} {pattern name : List Char} :
    Fits (wanted :: pattern) name ↔
      ∃ part rest, StandsFor wanted part ∧ Fits pattern rest ∧ name = part ++ rest := by
  constructor
  · rintro ⟨parts, stand, rfl⟩
    cases stand with
    | cons here later => exact ⟨_, _, here, ⟨_, later, rfl⟩, rfl⟩
  · rintro ⟨part, rest, here, ⟨parts, later, rfl⟩, rfl⟩
    exact ⟨part :: parts, .cons here later, rfl⟩

theorem fits_star_iff {pattern name : List Char} :
    Fits ('*' :: pattern) name ↔
      Fits pattern name ∨ ∃ c rest, name = c :: rest ∧ c ≠ '\n' ∧ Fits ('*' :: pattern) rest := by
  constructor
  · rw [fits_cons_iff]
    rintro ⟨part, rest, stands, fits, rfl⟩
    cases stands with
    | same noStar => exact absurd rfl noStar
    | star inLine =>
      cases part with
      | nil => exact .inl fits
      | cons c part =>
        rw [List.mem_cons, not_or] at inLine
        refine .inr ⟨c, part ++ rest, rfl, Ne.symm inLine.1, ?_⟩
        exact fits_cons_iff.mpr ⟨part, rest, .star inLine.2, fits, rfl⟩
  · rintro (fits | ⟨c, rest, rfl, differs, fits⟩)
    · exact fits_cons_iff.mpr ⟨[], name, .star List.not_mem_nil, fits, rfl⟩
    · obtain ⟨part, rest, stands, later, rfl⟩ := fits_cons_iff.mp fits
      cases stands with
      | same noStar => exact absurd rfl noStar
      | star inLine =>
        refine fits_cons_iff.mpr ⟨c :: part, rest, .star ?_, later, rfl⟩
        exact List.not_mem_cons_of_ne_of_not_mem (Ne.symm differs) inLine

theorem standsFor_iff {wanted : Char} (noStar : wanted ≠ '*') {part : List Char} :
    StandsFor wanted part ↔
      ∃ c, part = [c] ∧
      (if wanted = '?' then c != '\n' else Text.sameUpToCase wanted c) = true := by
  constructor
  · intro stands
    cases stands with
    | star => exact absurd rfl noStar
    | one inLine => exact ⟨_, rfl, by simpa using inLine⟩
    | same _ noMark alike => exact ⟨_, rfl, by rw [if_neg noMark, alike]⟩
  · rintro ⟨c, rfl, stands⟩
    split at stands
    next isMark =>
      subst isMark
      exact .one (by simpa using stands)
    next noMark => exact .same noStar noMark stands

/-- The test of a name against a pattern is exact. -/
theorem fitsPattern_iff (pattern name : List Char) :
    fitsPattern pattern name = true ↔ Fits pattern name := by
  fun_induction fitsPattern pattern name with
  | case1 => simp [fits_nil_iff]
  | case2 => simp [fits_nil_iff]
  | case3 pattern ih =>
    rw [fits_star_iff, ih]
    simp
  | case4 pattern c name skip more =>
    rw [fits_star_iff, Bool.or_eq_true, Bool.and_eq_true, skip, more]
    simp
  | case5 wanted pattern noStar =>
    rw [fits_cons_iff]
    simp [standsFor_iff noStar]
  | case6 wanted pattern c name noStar ih =>
    rw [fits_cons_iff, Bool.and_eq_true, ih]
    simp [standsFor_iff noStar]

theorem fits_self (name : List Char) : Fits name name := by
  induction name with
  | nil => exact fits_nil_iff.mpr rfl
  | cons c rest ih =>
    refine fits_cons_iff.mpr ⟨[c], rest, ?_, ih, rfl⟩
    by_cases isStar : c = '*'
    · subst isStar
      exact .star (by decide)
    by_cases isMark : c = '?'
    · subst isMark
      exact .one (by decide)
    · exact .same isStar isMark (by simp [Text.sameUpToCase])

/-! ### Extensions -/

theorem Path.extension?_of_not_mem (plain : '.' ∉ name.toList) : extension? name = none := by
  have whole : name.toList.reverse.takeWhile (· != '.') = name.toList.reverse :=
    List.takeWhile_eq_self_iff.mpr fun c member => by
      simpa using ne_of_mem_of_not_mem (List.mem_reverse.mp member) plain
  simp [extension?, whole]

theorem Path.extension?_append {stem extension : String} (plain : '.' ∉ extension.toList) :
    extension? (stem ++ "." ++ extension) =
      if stem ++ "." ++ extension = ".." ∨ stem = "" then none else some extension := by
  have chars : (stem ++ "." ++ extension).toList = stem.toList ++ '.' :: extension.toList := by simp
  have after : (stem.toList ++ '.' :: extension.toList).reverse.takeWhile (· != '.') =
      extension.toList.reverse := by
    have inside : ∀ c ∈ extension.toList.reverse, (c != '.') = true := fun c member => by
      simpa using ne_of_mem_of_not_mem (List.mem_reverse.mp member) plain
    rw [List.reverse_append, List.reverse_cons, List.append_assoc,
      List.takeWhile_append_of_pos inside]
    simp
  have before : (stem.toList ++ '.' :: extension.toList).length - extension.toList.length - 1 =
      stem.toList.length := by
    rw [List.length_append, List.length_cons]
    omega
  have shorter : extension.toList.length ≠ (stem.toList ++ '.' :: extension.toList).length := by
    rw [List.length_append, List.length_cons]
    omega
  rw [extension?]
  simp only [chars, after, List.reverse_reverse, before, List.take_left, shorter]
  simp

/-- A name with one of the listed extensions, up to the case of the ASCII letters. Something must
stand before the point. -/
def HasListedExtension (extensions : List String) (name : String) : Prop :=
  ∃ stem extension, name = stem ++ "." ++ extension ∧ stem ≠ "" ∧ '.' ∉ extension.toList ∧
    ∃ wanted ∈ extensions, Text.eqIgnoringAsciiCase wanted ("." ++ extension) = true

theorem hasExtension_iff {extensions : List String} (proper : Path.isProper name = true) :
    hasExtension extensions name = true ↔ HasListedExtension extensions name := by
  have notUp : name ≠ ".." := by
    rintro rfl
    exact absurd proper (by decide)
  constructor
  · intro has
    by_cases point : '.' ∈ name.toList
    · -- The extension starts at the last point.
      obtain ⟨after, before, cuts, plain⟩ := List.eq_append_cons_of_mem (List.mem_reverse.mpr point)
      obtain rfl : name = String.ofList before.reverse ++ "." ++ String.ofList after.reverse := by
        rw [← String.toList_inj, ← List.reverse_inj, cuts]
        simp
      have noPoint : '.' ∉ (String.ofList after.reverse).toList := by simpa using plain
      rw [hasExtension, Path.extension?_append noPoint] at has
      by_cases alone : String.ofList before.reverse = ""
      · rw [if_pos (.inr alone)] at has
        cases has
      · rw [if_neg (by simp only [notUp, alone, or_self, not_false_eq_true])] at has
        exact ⟨_, _, rfl, alone, noPoint, by simpa using has⟩
    · rw [hasExtension, Path.extension?_of_not_mem point] at has
      cases has
  · rintro ⟨stem, extension, rfl, some, plain, listed⟩
    rw [hasExtension, Path.extension?_append plain, if_neg (by simp [notUp, some])]
    simpa using listed

/-! ### Selected entries -/

variable {pattern : Option String} {extensions : List String} {entries : List Entry}

theorem mem_selectFiles {front : List String} :
    front ++ [name] ∈ selectFiles pattern extensions entries ↔
      ⟨front ++ [name], true⟩ ∈ entries ∧ (∀ wanted ∈ pattern, Fits wanted.toList name.toList) ∧
        hasExtension extensions name = true := by
  rw [selectFiles, List.mem_mergeSort, List.mem_map]
  constructor
  · rintro ⟨⟨names, isFile⟩, member, rfl⟩
    obtain ⟨listed, selected⟩ := List.mem_filter.mp member
    simp only [isSelected, List.getLast?_concat, Bool.and_eq_true, Option.all_eq_true,
      fitsPattern_iff] at selected
    obtain ⟨⟨rfl, fits⟩, has⟩ := selected
    exact ⟨listed, fits, has⟩
  · rintro ⟨listed, fits, has⟩
    refine ⟨_, List.mem_filter.mpr ⟨listed, ?_⟩, rfl⟩
    simpa only [isSelected, List.getLast?_concat, Bool.and_eq_true, Option.all_eq_true,
      fitsPattern_iff, true_and] using ⟨fits, has⟩

theorem nil_not_mem_selectFiles : [] ∉ selectFiles pattern extensions entries := by
  rw [selectFiles, List.mem_mergeSort, List.mem_map]
  rintro ⟨⟨names, isFile⟩, member, rfl⟩
  exact absurd (List.mem_filter.mp member).2 (by simp [isSelected])

theorem pairwise_selectFiles (once : (entries.map Entry.names).Nodup) :
    (selectFiles pattern extensions entries).Pairwise (· < ·) := by
  have distinct : (selectFiles pattern extensions entries).Nodup :=
    (List.mergeSort_perm ..).nodup_iff.mpr (once.sublist (List.filter_sublist.map Entry.names))
  have ordered : (selectFiles pattern extensions entries).Pairwise
      fun left right => (!decide (right < left)) = true := by
    refine List.pairwise_mergeSort ?_ ?_ _
    · intro first second third
      simp only [Bool.not_eq_true', decide_eq_false_iff_not, List.not_lt]
      exact List.le_trans
    · intro first second
      simp only [Bool.or_eq_true, Bool.not_eq_true', decide_eq_false_iff_not, List.not_lt]
      exact List.le_total ..
  refine (List.pairwise_and_iff.mpr ⟨ordered, distinct⟩).imp ?_
  rintro left right ⟨noMore, differ⟩
  simp only [Bool.not_eq_true', decide_eq_false_iff_not, List.not_lt] at noMore
  by_contra noLess
  exact differ (List.le_antisymm noMore (List.not_lt.mp noLess))

/-! ### Hosts with a directory tree -/

theorem searchPlan_eq (input : String) (isDirectory : Bool) :
    searchPlan input isDirectory =
      if isDirectory then (input, none) else (Path.above input, Path.fileName? input) := by
  cases isDirectory with
  | true => rfl
  | false =>
    rw [searchPlan, Path.above]
    cases Path.parent? input with
    | none => rfl
    | some parent => by_cases empty : parent = "" <;> simp [empty, Option.filter]

theorem mem_searchPlan {input wanted : String} {isDirectory : Bool} :
    wanted ∈ (searchPlan input isDirectory).2 ↔ isDirectory = false ∧
      wanted ∈ Path.fileName? input := by
  rw [searchPlan_eq]
  cases isDirectory <;> simp

/-- All that lies directly in a directory, or anywhere below it, is met once. -/
structure Volume.Meets (volume : Volume) (base : Location) (recursive : Bool)
    (entries : List Entry) :
    Prop where
  once : (entries.map Entry.names).Nodup
  all : ∀ names isFile, ⟨names, isFile⟩ ∈ entries ↔ names ≠ [] ∧
    (recursive = true ∨ names.length = 1) ∧
    ∃ item, volume.find? (base ++ names) = some item ∧ isFile = (item != .directory)

/-- The selected ones of all that a search meets are the wanted files. -/
theorem Volume.Meets.mem_selectFiles_iff {volume : Volume} (wellFormed : volume.WellFormed)
    {base : Location} {recursive : Bool} (meets : volume.Meets base recursive entries)
    {front : List String} :
    front ++ [name] ∈ selectFiles pattern extensions entries ↔
      (recursive = true ∨ front = []) ∧
      (∃ content, volume.find? (base ++ (front ++ [name])) = some (.file content)) ∧
      HasListedExtension extensions name ∧ ∀ wanted ∈ pattern, Fits wanted.toList name.toList := by
  have isFile : (∃ item, volume.find? (base ++ (front ++ [name])) = some item ∧
      true = (item != .directory)) ↔
      ∃ content, volume.find? (base ++ (front ++ [name])) = some (.file content) := by
    constructor
    · rintro ⟨_ | content, held, differs⟩
      · cases differs
      · exact ⟨content, held⟩
    · rintro ⟨content, held⟩
      exact ⟨_, held, rfl⟩
  -- No name in a tree is that of the directory above, which would have no extension.
  have proper : ∀ {item}, volume.find? (base ++ (front ++ [name])) = some item →
      Path.isProper name = true :=
    fun held => wellFormed.named _ (WellFormed.mem_of_find? (by simp) held) name (by simp)
  rw [mem_selectFiles, meets.all, isFile]
  constructor
  · rintro ⟨⟨-, deep, content, held⟩, fits, has⟩
    exact ⟨by simpa using deep, ⟨content, held⟩, (hasExtension_iff (proper held)).mp has, fits⟩
  · rintro ⟨deep, ⟨content, held⟩, has, fits⟩
    exact ⟨⟨by simp, by simpa using deep, content, held⟩, fits,
      (hasExtension_iff (proper held)).mpr has⟩

/-- A host that shows a directory tree: `locate` tells where in it a path leads, and questions about
paths are answered from what stands there. -/
structure Presents {σ : Type} [Host (StateM σ)] (state : σ) (volume : Volume)
    (locate : String → Option Location) : Prop where
  isDirectory (path : String) :
    Runs (Host.isDirectory path) state ((locate path).bind volume.find? = some .directory) state
  status (path : String) : ∃ answer, Runs (Host.status path) state answer state ∧
    (answer = .ok true ↔ (locate path).bind volume.find? = some .directory)
  entriesBelow {path : String} {base : Location} (located : locate path = some base)
    (recursive : Bool) :
    ∃ entries, Runs (Host.entriesBelow path recursive) state entries state ∧
      volume.Meets base recursive entries
  file {path : String} {location : Location} {content : ByteArray}
    (located : locate path = some location)
      (held : volume.find? location = some (.file content)) :
    ∃ base name, Path.fileName? path = some name ∧ locate (Path.above path) = some base ∧
      location = base ++ [name]

theorem Volume.toOption_locate {volume : Volume} {path : String} {location : Location} :
    (volume.locate path).toOption = some location ↔ volume.locate path = .ok location := by
  cases volume.locate path <;> simp [Except.toOption]

theorem Volume.get_eq_ok_iff {volume : Volume} {path : String} {item : Item} :
    volume.get path = .ok item ↔ (volume.locate path).toOption.bind volume.find? = some item := by
  rw [get]
  cases volume.locate path with
  | error fault => simp [bind, Except.bind, Except.toOption]
  | ok location =>
    simp only [bind, Except.bind, Except.toOption, Option.bind_some]
    cases volume.find? location <;> simp [pure, Except.pure]

/-- A session shows the tree of its volume. -/
theorem Session.presents {session : Session} (wellFormed : session.volume.WellFormed) :
    Presents session session.volume fun path => (session.volume.locate path).toOption where
  isDirectory path := by
    have answered : session.volume.isDirectory path =
        decide ((session.volume.locate path).toOption.bind session.volume.find? =
          some .directory) := by
      rw [Bool.eq_iff_iff, decide_eq_true_iff, ← Volume.get_eq_ok_iff, Volume.isDirectory]
      split <;> simp_all
    rw [← answered]
    rfl
  status path := by
    refine ⟨(session.volume.get path).map (· == Item.directory), rfl, ?_⟩
    rw [← Volume.get_eq_ok_iff]
    cases session.volume.get path <;> simp [Except.map]
  entriesBelow {path base} located recursive := by
    have isOk := Volume.toOption_locate.mp located
    refine ⟨session.volume.entriesBelow path recursive, rfl,
      wellFormed.nodup_entriesBelow path recursive, ?_⟩
    intro names isFile
    rw [Volume.mem_entriesBelow isOk]
    refine and_congr_right fun some => and_congr_right fun _ => exists_congr fun item => ?_
    exact and_congr_left fun _ =>
      ⟨wellFormed.find?_of_mem, Volume.WellFormed.mem_of_find? (by simp [some])⟩
  file {path location content} located held := by
    have isOk := Volume.toOption_locate.mp located
    rcases Volume.exists_start isOk with ⟨start, starts⟩
    rcases Path.exists_last path with ⟨front, last, cuts⟩
    rw [Volume.locate_of_start starts cuts] at isOk
    split at isOk
    next isName =>
      cases walked : session.volume.walk start front with
      | error fault =>
        rw [walked] at isOk
        cases isOk
      | ok base =>
        rw [walked] at isOk
        refine ⟨base, last, Path.fileName?_eq cuts isName, ?_, (Except.ok.inj isOk).symm⟩
        exact Volume.toOption_locate.mpr (Volume.locate_above cuts isName starts walked)
    next =>
      -- A walk does not end in a file.
      rw [wellFormed.walk_directory (Volume.start_directory starts) isOk] at held
      cases held

/-! ### Searches -/

section Search

variable {σ : Type} [Host (StateM σ)] {before after : σ} {volume : Volume}
  {locate : String → Option Location}
variable {input : String} {recursive : Bool}

/-- Where a search succeeds, and what it gives. -/
theorem runs_findFiles (presents : Presents before volume locate) {path : String}
    {pattern : Option String}
    (plan : searchPlan input ((locate input).bind volume.find? = some .directory) = (path, pattern))
    {set : FileSet} :
    Runs (findFiles input extensions recursive) before (.ok set) after ↔
      after = before ∧ ∃ base entries, locate path = some base ∧
        volume.find? base = some .directory ∧
        Runs (Host.entriesBelow path recursive) before entries before ∧
        volume.Meets base recursive entries ∧
        set = ⟨path, selectFiles pattern extensions entries⟩ := by
  obtain ⟨answer, asked, isDirectory⟩ := presents.status path
  rw [findFiles, Runs.bind_iff_of_runs (presents.isDirectory input), plan]
  simp only
  rw [Runs.bind_iff_of_runs asked]
  constructor
  · intro runs
    cases answer with
    | error fault => cases (Runs.pure_iff.mp runs).1
    | ok found =>
      cases found with
      | false => cases (Runs.pure_iff.mp runs).1
      | true =>
        obtain ⟨base, located, held⟩ := Option.bind_eq_some_iff.mp (isDirectory.mp rfl)
        obtain ⟨entries, listed, meets⟩ := presents.entriesBelow located recursive
        dsimp only at runs
        rw [Runs.bind_iff_of_runs listed] at runs
        obtain ⟨isSet, rfl⟩ := Runs.pure_iff.mp runs
        exact ⟨rfl, base, entries, located, held, listed, meets, (Except.ok.inj isSet).symm⟩
  · rintro ⟨rfl, base, entries, located, held, listed, -, rfl⟩
    obtain rfl := isDirectory.mpr (Option.bind_eq_some_iff.mpr ⟨base, located, held⟩)
    exact (Runs.bind_iff_of_runs listed).mpr (Runs.pure_iff.mpr ⟨rfl, rfl⟩)

/-- A search only asks. -/
theorem Presents.eq_of_findFiles (presents : Presents before volume locate)
    {result : Except RunError FileSet}
    (runs : Runs (findFiles input extensions recursive) before result after) : before = after := by
  generalize plan : searchPlan input
    ((locate input).bind volume.find? = some .directory) = searched
  rcases presents.status searched.1 with ⟨answer, asked, isDirectory⟩
  rw [findFiles, Runs.bind_iff_of_runs (presents.isDirectory input), plan] at runs
  simp only at runs
  rw [Runs.bind_iff_of_runs asked] at runs
  rcases answer with _ | _ | _
  · exact (Runs.pure_iff.mp runs).2
  · exact (Runs.pure_iff.mp runs).2
  · rcases Option.bind_eq_some_iff.mp (isDirectory.mp rfl) with ⟨base, located, _⟩
    rcases presents.entriesBelow located recursive with ⟨entries, listed, _⟩
    dsimp only at runs
    rw [Runs.bind_iff_of_runs listed] at runs
    exact (Runs.pure_iff.mp runs).2

/-- A search that succeeds selects exactly the wanted files: those directly in its base, or anywhere
below it, that have a listed extension and, unless the input is a directory, a name that fits the
name in the input. Each is selected once, in the order of the names that lead to it. An input that
is a file with a listed extension is selected itself. -/
theorem findFiles_exact (presents : Presents before volume locate) (wellFormed : volume.WellFormed)
    (input : String) (extensions : List String) (recursive : Bool) :
    (∀ set after, Runs (findFiles input extensions recursive) before (.ok set) after →
      ∃ base, locate set.base = some base ∧ volume.find? base = some .directory ∧
        set.base =
          (if (locate input).bind volume.find? = some .directory then input else Path.above input) ∧
        set.files.Pairwise (· < ·) ∧ [] ∉ set.files ∧
        ∀ front name, front ++ [name] ∈ set.files ↔
          (recursive = true ∨ front = []) ∧
          (∃ content, volume.find? (base ++ (front ++ [name])) = some (.file content)) ∧
          HasListedExtension extensions name ∧
          ((locate input).bind volume.find? ≠ some .directory → ∀ wanted ∈ Path.fileName? input,
            Fits wanted.toList name.toList)) ∧
    ∀ location name content, locate input = some (location ++ [name]) →
      volume.find? (location ++ [name]) = some (.file content) →
      HasListedExtension extensions name →
      ∃ set, Runs (findFiles input extensions recursive) before (.ok set) before ∧
        locate set.base = some location ∧ [name] ∈ set.files := by
  constructor
  · intro set after runs
    generalize plan : searchPlan input ((locate input).bind volume.find? = some .directory) =
      searched
    obtain ⟨path, pattern⟩ := searched
    obtain ⟨-, base, entries, located, held, -, meets, rfl⟩ :=
      (runs_findFiles presents plan).mp runs
    refine ⟨base, located, held, ?_, pairwise_selectFiles meets.once, nil_not_mem_selectFiles, ?_⟩
    · rw [searchPlan_eq] at plan
      simpa only [decide_eq_true_eq, apply_ite Prod.fst] using (congrArg Prod.fst plan).symm
    · intro front name
      have isPattern : ∀ wanted, wanted ∈ pattern ↔
          (locate input).bind volume.find? ≠ some .directory ∧ wanted ∈ Path.fileName? input := by
        intro wanted
        rw [show pattern = (path, pattern).2 from rfl, ← plan, mem_searchPlan,
          decide_eq_false_iff_not]
      simp only [meets.mem_selectFiles_iff wellFormed, isPattern, and_imp]
      exact and_congr_right' (and_congr_right' (and_congr_right' forall_comm))
  · intro location name content located held listed
    obtain ⟨base, last, named, above, same⟩ := presents.file located held
    obtain ⟨rfl, rfl⟩ := List.append_singleton_inj.mp same
    have noDirectory : (locate input).bind volume.find? ≠ some .directory := by
      rw [located, Option.bind_some, held]
      simp
    have plan : searchPlan input ((locate input).bind volume.find? = some .directory) =
        (Path.above input, some name) := by
      rw [searchPlan_eq, named]
      simp [noDirectory]
    have holds := (wellFormed.held _ (Volume.WellFormed.mem_of_find? (by simp) held)).2
    rw [List.dropLast_concat] at holds
    -- The search starts in the directory of the file and meets it there, at either depth.
    obtain ⟨entries, runs, meets⟩ := presents.entriesBelow above recursive
    refine ⟨_, (runs_findFiles presents plan).mpr ⟨rfl, _, _, above, holds, runs, meets, rfl⟩,
      above, ?_⟩
    have fits : ∀ wanted ∈ some name, Fits wanted.toList name.toList := by
      rintro wanted ⟨⟩
      exact fits_self name.toList
    exact (meets.mem_selectFiles_iff wellFormed).mpr ⟨.inr rfl, ⟨content, held⟩, listed, fits⟩

end Search

/-- Scripts and another file, one of them in a directory. -/
def Session.scripts : Session :=
  { volume := { items := [(["sub"], .directory), (["sub", "b.Sql"], .file .empty),
      (["ab.sql"], .file .empty), (["c.txt"], .file .empty)] } }

/-- A pattern selects a script in a directory below, and another script is selected by its own
name. -/
theorem findFiles_exact_scripts :
    Session.scripts.volume.WellFormed ∧
      Runs (findFiles "?.sql" [".sql"] true) Session.scripts (.ok ⟨".", [["sub", "b.Sql"]]⟩)
        Session.scripts ∧
      HasListedExtension [".sql"] "b.Sql" ∧ Fits "?.sql".toList "b.Sql".toList ∧
      ∃ set, Runs (findFiles "ab.sql" [".sql"] true) Session.scripts (.ok set) Session.scripts ∧
        ["ab.sql"] ∈ set.files := by
  have wellFormed : Session.scripts.volume.WellFormed := by refine ⟨?_, ?_, ?_⟩ <;> decide +kernel
  have runs : Runs (findFiles "?.sql" [".sql"] true) Session.scripts (.ok ⟨".", [["sub", "b.Sql"]]⟩)
      Session.scripts := Prod.ext (by decide +kernel) rfl
  obtain ⟨base, -, -, -, -, -, selected⟩ :=
    (findFiles_exact (Session.presents wellFormed) wellFormed "?.sql" [".sql"] true).1 _ _ runs
  obtain ⟨-, -, listed, fits⟩ := (selected ["sub"] "b.Sql").mp (.head _)
  refine ⟨wellFormed, runs, listed, fits (by decide +kernel) "?.sql" (by decide +kernel), ?_⟩
  obtain ⟨set, runsAgain, -, member⟩ :=
    (findFiles_exact (Session.presents wellFormed) wellFormed "ab.sql" [".sql"] true).2
      [] "ab.sql" .empty
      (by decide +kernel) (by decide +kernel)
      ⟨"ab", "sql", by decide, by decide, by decide, ".sql", by decide, by decide⟩
  exact ⟨set, runsAgain, member⟩

end SqlLayout
