import SqlLayout.Proofs.Command.Disk

/-!
# Runs keep the selected files

A run reads each selected file before anything is written to its place, unless the place of another
result or of a backup is that of a selected file. So afterwards each selected file holds what it
held before, or its own formatted text.
-/

namespace SqlLayout

theorem textOf_eq_ok {bytes : ByteArray} {text : String} (isOk : textOf bytes = .ok text) :
    bytes = text.toUTF8 := by
  rw [textOf] at isOk
  split at isOk
  next found =>
    cases isOk
    rw [String.fromUTF8?] at found
    split at found
    · cases found
      rfl
    · cases found
  next => cases isOk

section

variable {σ : Type} {disk : Disk σ} {original before between after : σ}
  {style : Style} {settings : RunSettings} {set : FileSet} {base : Location}
  {names other : List String} {target next : Target} {fate : Fate}
  {allowed : Location → ByteArray → Prop}

/-! ### Selected files -/

/-- The selected files are files of the tree, in directories to which their paths lead. -/
structure FileSet.Finds (set : FileSet) (disk : Disk σ) (state : σ) (base : Location) : Prop where
  distinct : set.files.Nodup
  inside : [] ∉ set.files
  named : ∀ names ∈ set.files, ∀ name ∈ names, Path.isProper name = true
  above : ∀ front name, front ++ [name] ∈ set.files →
    disk.locate state (set.path front) = some (base ++ front) ∧
      (disk.volume state).find? (base ++ front) = some .directory
  file : ∀ names ∈ set.files, ∃ content,
    (disk.volume state).find? (base ++ names) = some (.file content)

/-- The names that lead to the backup of a file. -/
def FileSet.beside (names : List String) : List String :=
  names.dropLast ++ [names.getLastD "" ++ ".bak"]

theorem FileSet.beside_concat (front : List String) (name : String) :
    beside (front ++ [name]) = front ++ [name ++ ".bak"] := by
  simp [beside]

theorem FileSet.path_concat (set : FileSet) (front : List String) (name : String) :
    set.path (front ++ [name]) = Path.join (set.path front) name := by
  rw [path, List.foldl_append]
  rfl

theorem FileSet.path_beside (set : FileSet) (front : List String) (name : String) :
    set.path (front ++ [name]) ++ ".bak" = set.path (beside (front ++ [name])) := by
  rw [beside_concat, path_concat, path_concat, Path.join_append]

theorem FileSet.Finds.exists_last (finds : set.Finds disk original base)
    (selected : names ∈ set.files) : ∃ front name, names = front ++ [name] := by
  cases names using List.reverseRecOn with
  | nil => exact absurd selected finds.inside
  | append_singleton front name => exact ⟨front, name, rfl⟩

/-! ### The places of results -/

/-- A selected file gets the formatted text of what it held in the original state. -/
def FileSet.Rewrites (disk : Disk σ) (original : σ) (base : Location) (style : Style)
    (names : List String) (content : ByteArray) : Prop :=
  ∃ script result, (disk.volume original).find? (base ++ names) = some (.file script.toUTF8) ∧
    format style script = .ok result ∧ content = result.text.toUTF8

/-- What may be written at a place: anything where no selected file is, and the results of some
selected files at their own places. -/
def FileSet.Allows (set : FileSet) (disk : Disk σ) (original : σ) (base : Location)
    (style : Style) (some : List (List String)) (place : Location) (content : ByteArray) : Prop :=
  (∀ other ∈ set.files, place ≠ base ++ other) ∨
    ∃ names ∈ some, place = base ++ names ∧ Rewrites disk original base style names content

/-- Neither results nor backups go to the place of a selected file, except a result to its own. -/
def Disk.Apart (disk : Disk σ) (state : σ) (settings : RunSettings) (set : FileSet) : Prop :=
  ∀ names ∈ set.files, ∀ other ∈ set.files,
    match settings.output with
    | none => settings.backups = true →
        disk.locate state (set.path names ++ ".bak") ≠ disk.locate state (set.path other)
    | some output =>
        if disk.item? state output = some .directory then
          (disk.locate state output).map (· ++ names) = disk.locate state (set.path other) →
            names = other
        else disk.locate state output ≠ disk.locate state (set.path other)

/-- Where results go, no selected file is. -/
def Target.Clear (disk : Disk σ) (original : σ) (settings : RunSettings) (set : FileSet)
    (base : Location) : Target → Prop
  | .inPlace => settings.backups = true →
      ∀ names ∈ set.files, ∀ other ∈ set.files, base ++ FileSet.beside names ≠ base ++ other
  | .directory path => ∃ place, disk.locate original path = some place ∧
      ∀ names ∈ set.files, ∀ other ∈ set.files, place ++ names = base ++ other → names = other
  | .combined output => ∃ place, disk.locate original output.path = some place ∧
      ∀ other ∈ set.files, place ≠ base ++ other

theorem FileSet.Allows.mono {some more : List (List String)} (within : some ⊆ more)
    (place : Location) (content : ByteArray)
    (allows : set.Allows disk original base style some place content) :
    set.Allows disk original base style more place content := by
  rcases allows with free | ⟨names, member, shape⟩
  · exact .inl free
  · exact .inr ⟨names, within member, shape⟩

/-! ### Searches -/

variable [Host (StateM σ)]

theorem Disk.Serves.finds (serves : disk.Serves) (wellFormed : (disk.volume before).WellFormed)
    {input : String} {extensions : List String} {recursive : Bool}
    (runs : Runs (findFiles input extensions recursive) before (.ok set) after) :
    after = before ∧ ∃ base, set.Finds disk before base := by
  generalize plan : searchPlan input
    ((disk.locate before input).bind (disk.volume before).find? = some .directory) = searched
  rcases searched with ⟨path, pattern⟩
  rcases (runs_findFiles (serves.presents wellFormed) plan).mp runs with
    ⟨rfl, base, entries, located, _, _, meets, rfl⟩
  have isFile : ∀ names ∈ selectFiles pattern extensions entries,
      ∃ content, (disk.volume after).find? (base ++ names) = some (.file content) := by
    intro names selected
    cases names using List.reverseRecOn with
    | nil => exact absurd selected nil_not_mem_selectFiles
    | append_singleton front name =>
      exact ((meets.mem_selectFiles_iff wellFormed).mp selected).2.1
  refine ⟨rfl, base, ?_, nil_not_mem_selectFiles, ?_, ?_, isFile⟩
  · apply (pairwise_selectFiles meets.once).imp
    rintro names _ less rfl
    exact List.lt_irrefl names less
  · intro names selected name member
    rcases isFile names selected with ⟨content, held⟩
    have inside : base ++ names ≠ [] := by
      intro empty
      rw [(List.append_eq_nil_iff.mp empty).2] at member
      cases member
    exact wellFormed.named _ (Volume.WellFormed.mem_of_find? inside held) name
      (List.mem_append_right _ member)
  · intro front name selected
    rcases isFile _ selected with ⟨content, held⟩
    rw [← List.append_assoc] at held
    have directory := (wellFormed.find?_concat held).2
    exact ⟨serves.locate_below wellFormed located directory, directory⟩

namespace FileSet.Finds

variable (finds : set.Finds disk original base) (serves : disk.Serves)

include finds serves

theorem locate (selected : names ∈ set.files) :
    disk.locate original (set.path names) = some (base ++ names) := by
  rcases finds.exists_last selected with ⟨front, name, rfl⟩
  rcases finds.above front name selected with ⟨located, directory⟩
  rw [set.path_concat, ← List.append_assoc]
  exact serves.below located directory (finds.named _ selected name (by simp))

theorem locate_beside (selected : names ∈ set.files) :
    disk.locate original (set.path names ++ ".bak") = some (base ++ beside names) := by
  rcases finds.exists_last selected with ⟨front, name, rfl⟩
  rcases finds.above front name selected with ⟨located, directory⟩
  rw [set.path_beside, beside_concat, set.path_concat, ← List.append_assoc]
  exact serves.below located directory
    (Path.isProper_append_bak (finds.named _ selected name (by simp)))

end FileSet.Finds

/-! ### Writing results -/

section

variable (serves : disk.Serves) {path script : String} {result : Except Fault Unit}
  {content : ByteArray}

include serves

theorem Runs.makeParents_changes (runs : Runs (makeParents path) before result after) :
    disk.Changes (fun _ _ => False) before after := by
  rw [makeParents] at runs
  split at runs
  · exact (serves.makeDirectories runs).1
  · rcases Runs.pure_iff.mp runs with ⟨_, rfl⟩
    exact .refl _

theorem Stores.changes {text : String} (stores : Stores path text before result after)
    (isAllowed : ∀ {between place}, disk.Changes (fun _ _ => False) before between →
      disk.locate between path = some place → allowed place text.toUTF8) :
    disk.Changes allowed before after := by
  cases stores with
  | noParents made => exact (made.makeParents_changes serves).mono fun _ _ => False.elim
  | file made written =>
    have prepared := made.makeParents_changes serves
    exact (prepared.mono fun _ _ => False.elim).trans
      ((serves.write written).changes fun place located => isAllowed prepared located)

theorem Settles.same {message : Fault → String}
    (settles : Settles message result before fate after) : disk.Same before after := by
  cases settles with
  | written => exact .refl _
  | failed logged => exact serves.log logged

/-! ### One file for all results -/

section

variable {combined held : Combined} {result : Except Fault Unit} {place : Location}
  (isAllowed : ∀ content, allowed place content)
  (located : disk.locate before combined.path = some place)

include isAllowed located

theorem Runs.append_changes (runs : Runs (Host.append combined.path content) before result after) :
    disk.Changes allowed before after := by
  rcases serves.append runs with same | ⟨found, old, isFound, _, puts⟩
  · exact same.changes
  · obtain rfl := Option.some.inj (located.symm.trans isFound)
    exact puts.changes (isAllowed _)

theorem Runs.flush_changes (runs : Runs combined.flush before (held, result) after) :
    held.path = combined.path ∧ disk.Changes allowed before after := by
  rw [Combined.flush] at runs
  split at runs
  · rcases Runs.pure_pair_iff.mp runs with ⟨rfl, _, rfl⟩
    exact ⟨rfl, .refl _⟩
  · rcases Runs.bind_iff.mp runs with ⟨appended, between, isAppended, rest⟩
    have changes := isAppended.append_changes serves isAllowed located
    cases appended with
    | ok =>
      rcases Runs.pure_pair_iff.mp rest with ⟨rfl, _, rfl⟩
      exact ⟨rfl, changes⟩
    | error fault =>
      rcases Runs.pure_pair_iff.mp rest with ⟨rfl, _, rfl⟩
      exact ⟨rfl, changes⟩

theorem Runs.put_changes {bytes : ByteArray}
    (runs : Runs (combined.put bytes) before (held, result) after) :
    held.path = combined.path ∧ disk.Changes allowed before after := by
  rcases Runs.bind_iff.mp runs with ⟨⟨ready, made⟩, between, room, rest⟩
  have prepared : ready.path = combined.path ∧ disk.Changes allowed before between := by
    rw [Combined.makeRoom] at room
    split at room
    · exact room.flush_changes serves isAllowed located
    · rcases Runs.pure_pair_iff.mp room with ⟨rfl, _, rfl⟩
      exact ⟨rfl, .refl _⟩
  cases made with
  | error fault =>
    rcases Runs.pure_pair_iff.mp rest with ⟨rfl, _, rfl⟩
    exact prepared
  | ok =>
    dsimp only at rest
    split at rest
    · rcases Runs.bind_iff.mp rest with ⟨appended, last, isAppended, isPure⟩
      rcases Runs.pure_pair_iff.mp isPure with ⟨rfl, _, rfl⟩
      have still := prepared.2.leads located
      rw [← prepared.1] at still
      exact ⟨prepared.1, prepared.2.trans (isAppended.append_changes serves isAllowed still)⟩
    · rcases Runs.pure_pair_iff.mp rest with ⟨rfl, _, rfl⟩
      exact prepared

theorem Runs.putBatch_changes (runs : Runs (combined.putBatch script) before (held, result) after) :
    held.path = combined.path ∧ disk.Changes allowed before after := by
  rcases Runs.bind_iff.mp runs with ⟨⟨ready, written⟩, between, put, rest⟩
  have first := put.put_changes serves isAllowed located
  cases written with
  | error fault =>
    rcases Runs.pure_pair_iff.mp rest with ⟨rfl, _, rfl⟩
    exact first
  | ok =>
    have still := first.2.leads located
    rw [← first.1] at still
    have second := Runs.put_changes serves isAllowed still rest
    exact ⟨second.1.trans first.1, first.2.trans second.2⟩

end

/-! ### One file after the other -/

section

variable (finds : set.Finds disk original base) (selected : names ∈ set.files)
  {earlier : Location → ByteArray → Prop} (past : disk.Changes earlier original before)

include finds selected past

theorem Runs.backUp_changes (held : disk.item? before (set.path names) = some (.file content))
    (clear : Target.inPlace.Clear disk original settings set base)
    (runs : Runs (backUp settings (set.path names)) before result after)
    (isAllowed : ∀ place content, (∀ other ∈ set.files, place ≠ base ++ other) →
      allowed place content) : disk.Changes allowed before after := by
  rw [backUp] at runs
  split at runs
  next backups =>
    refine (serves.copy held runs).changes fun place located => isAllowed _ _ ?_
    obtain rfl := Option.some.inj
      (located.symm.trans (past.leads (finds.locate_beside serves selected)))
    exact clear backups names selected
  next =>
    rcases Runs.pure_iff.mp runs with ⟨_, rfl⟩
    exact .refl _

/-- The result for a selected file is written to its own place, or to one where no selected file
is. -/
theorem Delivers.changes {text : String}
    (held : disk.item? before (set.path names) = some (.file content))
    (rewrites : FileSet.Rewrites disk original base style names text.toUTF8)
    (clear : target.Clear disk original settings set base)
    (delivers : Delivers settings set names script text target before fate next after) :
    disk.Changes (set.Allows disk original base style [names]) before after ∧
      next.Clear disk original settings set base := by
  have free : ∀ place content, (∀ other ∈ set.files, place ≠ base ++ other) →
      set.Allows disk original base style [names] place content := fun _ _ => .inl
  cases delivers with
  | unchanged => exact ⟨.refl _, clear⟩
  | unsaved _ copied logged =>
    have saved := copied.backUp_changes serves finds selected past held clear free
    exact ⟨saved.trans (serves.log logged).changes, clear⟩
  | inPlace _ copied stores settles =>
    have saved := copied.backUp_changes serves finds selected past held clear free
    refine ⟨(saved.trans (stores.changes serves fun prepared located => ?_)).trans
      (settles.same serves).changes, clear⟩
    obtain rfl := Option.some.inj (located.symm.trans
      (prepared.leads (saved.leads (past.leads (finds.locate serves selected)))))
    exact .inr ⟨names, .head _, rfl, rewrites⟩
  | @directory _ _ _ _ _ path stores settles =>
    rcases clear with ⟨place, isPlace, apart⟩
    refine ⟨(stores.changes serves fun {between found} prepared located => ?_).trans
      (settles.same serves).changes, place, isPlace, apart⟩
    have proper := finds.named names selected
    have filled : names ≠ [] := fun empty => finds.inside (empty ▸ selected)
    rw [Path.join_intercalate (serves.full isPlace) filled proper] at located
    obtain rfl := serves.place_below proper (prepared.leads (past.leads isPlace)) located
    by_cases hits : ∃ other ∈ set.files, place ++ names = base ++ other
    · rcases hits with ⟨other, member, same⟩
      obtain rfl := apart names selected other member same
      exact .inr ⟨names, .head _, same, rewrites⟩
    · exact .inl fun other member same => hits ⟨other, member, same⟩
  | combined put settles =>
    rcases clear with ⟨place, isPlace, apart⟩
    rcases put.putBatch_changes serves (fun content => free place content apart)
      (past.leads isPlace) with ⟨path, changes⟩
    refine ⟨changes.trans (settles.same serves).changes, place, ?_, apart⟩
    rwa [path]

omit past in
theorem FileSet.Finds.untouched {done : List (List String)} (fresh : names ∉ done)
    (past : disk.Changes (set.Allows disk original base style done) original before) :
    ∃ content, (disk.volume original).find? (base ++ names) = some (.file content) ∧
      disk.item? before (set.path names) = some (.file content) := by
  rcases finds.file names selected with ⟨content, held⟩
  refine ⟨content, held, ?_⟩
  rw [Disk.item?_eq (past.leads (finds.locate serves selected))]
  rcases past.file held with same | ⟨new, _, free | ⟨other, member, same, _⟩⟩
  · exact same
  · exact absurd rfl (free names selected)
  · exact absurd (List.append_cancel_left same ▸ member) fresh

end

theorem Runs.readText_same {result : Except Fault String}
    (held : disk.item? before path = some (.file content))
    (runs : Runs (readText path) before result after) :
    result = textOf content ∧ disk.Same before after := by
  rcases Runs.bind_iff.mp runs with ⟨read, between, isRead, isPure⟩
  rcases serves.read held isRead with ⟨rfl, same⟩
  rcases Runs.pure_iff.mp isPure with ⟨rfl, rfl⟩
  exact ⟨rfl, same⟩

theorem Runs.formatLogged_same {result : Except FormatError Formatted}
    (runs : Runs (SqlLayout.formatLogged style script) before result after) :
    disk.Same before after := by
  rw [SqlLayout.formatLogged] at runs
  split at runs
  · rcases Runs.pure_iff.mp runs with ⟨_, rfl⟩
    exact .refl _
  · dsimp only at runs
    split at runs
    · rcases Runs.bind_iff.mp runs with ⟨_, between, logged, isPure⟩
      rcases Runs.pure_iff.mp isPure with ⟨_, rfl⟩
      exact serves.log logged
    · rcases Runs.pure_iff.mp runs with ⟨_, rfl⟩
      exact .refl _

section

variable (finds : set.Finds disk original base) {done : List (List String)}
  (past : disk.Changes (set.Allows disk original base style done) original before)
  (clear : target.Clear disk original settings set base)

include finds past clear

/-- What becomes of a selected file whose turn it is. -/
theorem Handles.changes (selected : names ∈ set.files) (fresh : names ∉ done)
    (handles : Handles style settings set names target before fate next after) :
    disk.Changes (set.Allows disk original base style [names]) before after ∧
      next.Clear disk original settings set base := by
  rcases finds.untouched serves selected fresh past with ⟨content, held, now⟩
  cases handles with
  | unreadable read logged =>
    have same := (read.readText_same serves now).2.trans (serves.log logged)
    exact ⟨same.changes, clear⟩
  | empty read => exact ⟨(read.readText_same serves now).2.changes, clear⟩
  | refused read _ _ noted _ _ logged =>
    have same := (read.readText_same serves now).2.trans (noted.formatLogged_same serves)
    exact ⟨(same.trans (serves.log logged)).changes, clear⟩
  | delivered read _ formatted noted _ delivers =>
    rcases read.readText_same serves now with ⟨isScript, same⟩
    obtain rfl := textOf_eq_ok isScript.symm
    have still := same.trans (noted.formatLogged_same serves)
    have later := delivers.changes serves finds selected (past.trans still.changes)
      ((still.item? _).trans now) ⟨_, _, held, formatted, rfl⟩ clear
    exact ⟨still.changes.trans later.1, later.2⟩

/-- Selected files take their turns: those that come later are untouched so far. -/
theorem Unfolds.changes {turns : List (Turn σ)}
    (unfolds : Unfolds style settings set target before turns next after)
    (selected : ∀ names ∈ turns.map Turn.names, names ∈ set.files)
    (distinct : (done ++ turns.map Turn.names).Nodup) :
    disk.Changes (set.Allows disk original base style (done ++ turns.map Turn.names)) original
        after ∧
      next.Clear disk original settings set base := by
  induction unfolds generalizing done with
  | nil =>
    rw [List.map_nil, List.append_nil]
    exact ⟨past, clear⟩
  | @cons _ _ _ _ between _ names fate turns first _ ih =>
    rcases List.forall_mem_cons.mp selected with ⟨here, later⟩
    have order : done ++ (names :: turns.map Turn.names) =
        (done ++ [names]) ++ turns.map Turn.names := by simp
    rw [List.map_cons, order] at distinct ⊢
    have fresh : names ∉ done := fun inside => by
      have apart := List.disjoint_of_nodup_append distinct.of_append_left
      exact apart inside (.head _)
    have step := first.changes serves finds past clear here fresh
    refine ih ?_ step.2 later distinct
    exact (past.mono (FileSet.Allows.mono (by simp))).trans
      (step.1.mono (FileSet.Allows.mono (by simp)))

end

/-- Opening the target writes at most an empty file, where no selected file is. -/
theorem Runs.openTarget_changes (style : Style) (wellFormed : (disk.volume original).WellFormed)
    (finds : set.Finds disk original base) (apart : disk.Apart original settings set)
    {result : Except RunError Target} (runs : Runs (openTarget settings) original result after) :
    disk.Changes (set.Allows disk original base style []) original after ∧
      ∀ target, result = .ok target → target.Clear disk original settings set base := by
  unfold openTarget at runs
  unfold Disk.Apart at apart
  split at runs
  next isNone =>
    rcases Runs.pure_iff.mp runs with ⟨rfl, rfl⟩
    refine ⟨.refl _, fun target isTarget => ?_⟩
    obtain rfl := Except.ok.inj isTarget
    intro backups names selected other selectedToo same
    have differs := apart names selected other selectedToo
    rw [isNone] at differs
    refine differs backups ?_
    rw [finds.locate_beside serves selected, finds.locate serves selectedToo, same]
  next output isOutput =>
    rw [isOutput] at apart
    rw [Runs.bind_iff_of_runs ((serves.presents wellFormed).isDirectory output)] at runs
    split at runs
    next isDirectory =>
      have held : disk.item? original output = some .directory := of_decide_eq_true isDirectory
      rcases Option.bind_eq_some_iff.mp held with ⟨place, located, _⟩
      rcases Runs.pure_iff.mp runs with ⟨rfl, rfl⟩
      refine ⟨.refl _, fun target isTarget => ?_⟩
      obtain rfl := Except.ok.inj isTarget
      refine ⟨place, located, fun names selected other selectedToo same => ?_⟩
      have own := apart names selected other selectedToo
      simp only [held, if_true] at own
      apply own
      rw [located, finds.locate serves selectedToo, Option.map_some, same]
    next noDirectory =>
      have other : disk.item? original output ≠ some .directory := fun held =>
        noDirectory (decide_eq_true held)
      have free : ∀ {place}, disk.locate original output = some place →
          ∀ other ∈ set.files, place ≠ base ++ other := by
        rintro place located names selected rfl
        have differs := apart names selected names selected
        simp only [other, if_false] at differs
        exact differs (located.trans (finds.locate serves selected).symm)
      rcases Runs.bind_iff.mp runs with ⟨written, between, isWritten, rest⟩
      have wrote := serves.write isWritten
      have changes : disk.Changes (set.Allows disk original base style []) original between :=
        wrote.changes fun place located => .inl (free located)
      cases wrote with
      | done located puts =>
        rcases Runs.pure_iff.mp rest with ⟨rfl, rfl⟩
        refine ⟨changes, fun target isTarget => ?_⟩
        obtain rfl := Except.ok.inj isTarget
        exact ⟨_, located, free located⟩
      | failed =>
        rcases Runs.pure_iff.mp rest with ⟨rfl, rfl⟩
        exact ⟨changes, fun target isTarget => nomatch isTarget⟩

theorem Runs.finish_changes {earlier : Location → ByteArray → Prop}
    (past : disk.Changes earlier original before)
    (clear : target.Clear disk original settings set base)
    (runs : Runs target.finish before result after) :
    disk.Changes (set.Allows disk original base style set.files) before after := by
  cases target with
  | combined output =>
    rcases clear with ⟨place, isPlace, apart⟩
    rcases Runs.bind_iff.mp runs with ⟨⟨held, flushed⟩, between, isFlushed, isPure⟩
    rcases Runs.pure_iff.mp isPure with ⟨_, rfl⟩
    exact (isFlushed.flush_changes serves (fun content => .inl apart) (past.leads isPlace)).2
  | inPlace =>
    rcases Runs.pure_iff.mp runs with ⟨_, rfl⟩
    exact .refl _
  | directory path =>
    rcases Runs.pure_iff.mp runs with ⟨_, rfl⟩
    exact .refl _

/-- Only results are written to the places of selected files. -/
theorem Runs.formatSet_changes (wellFormed : (disk.volume original).WellFormed)
    (finds : set.Finds disk original base) (apart : disk.Apart original settings set)
    {result : Except RunError Report}
    (runs : Runs (SqlLayout.formatSet style settings set) original result after) :
    disk.Changes (set.Allows disk original base style set.files) original after := by
  rcases Runs.bind_iff.mp runs with ⟨target, opened, isTarget, rest⟩
  have start := isTarget.openTarget_changes serves style wellFormed finds apart
  cases target with
  | error error =>
    rcases Runs.pure_iff.mp rest with ⟨_, rfl⟩
    exact start.1.mono (FileSet.Allows.mono (by simp))
  | ok target =>
    rcases Runs.bind_iff.mp rest with ⟨⟨last, counted⟩, handled, all, rest⟩
    rcases Runs.formatAll all with ⟨turns, isFiles, _, unfolds⟩
    have handles := unfolds.changes serves finds start.1 (start.2 target rfl)
      (fun names member => isFiles ▸ member) (isFiles.symm ▸ finds.distinct)
    rw [List.nil_append, isFiles] at handles
    rcases Runs.bind_iff.mp rest with ⟨finished, between, isFinished, rest⟩
    have done := handles.1.trans (isFinished.finish_changes serves handles.1 handles.2)
    cases finished with
    | error fault =>
      rcases Runs.pure_iff.mp rest with ⟨_, rfl⟩
      exact done
    | ok =>
      rcases Runs.bind_iff.mp rest with ⟨_, _, logged, isPure⟩
      rcases Runs.pure_iff.mp isPure with ⟨_, rfl⟩
      exact done.trans (serves.log logged).changes

end

end

/-- On any host that works on a directory tree, however it resolves paths: if results and backups go
to other places than those of the selected files, each selected file holds after a run what it held
before, or its own formatted text. -/
theorem runFiles_keeps_files {σ : Type} [Host (StateM σ)] {disk : Disk σ} (serves : disk.Serves)
    {before found after : σ} (wellFormed : (disk.volume before).WellFormed) (style : Style)
    {settings : RunSettings} (formats : settings.dumpTree = false) {input : String} {set : FileSet}
    (search : Runs (findFiles input settings.extensions settings.recursive) before (.ok set) found)
    (apart : disk.Apart before settings set) {result : Except RunError Report}
    (runs : Runs (runFiles style settings input) before result after) {names : List String}
    (selected : names ∈ set.files) :
    ∃ old new, disk.item? before (set.path names) = some (.file old) ∧
      disk.item? after (set.path names) = some (.file new) ∧
      (new = old ∨ ∃ script result, old = script.toUTF8 ∧ format style script = .ok result ∧
        new = result.text.toUTF8) := by
  rcases serves.finds wellFormed search with ⟨rfl, base, finds⟩
  have changes : disk.Changes (set.Allows disk found base style set.files) found after := by
    rw [runFiles, Runs.bind_iff_of_runs search] at runs
    dsimp only at runs
    split at runs
    · rcases Runs.pure_iff.mp runs with ⟨_, rfl⟩
      exact .refl _
    · rw [formats] at runs
      exact Runs.formatSet_changes serves wellFormed finds apart runs
  have located := finds.locate serves selected
  rcases finds.file names selected with ⟨old, held⟩
  rw [Disk.item?_eq located, Disk.item?_eq (changes.leads located)]
  rcases changes.file held with same | ⟨new, changed, free | ⟨other, _, same, rewrites⟩⟩
  · exact ⟨old, old, held, same, .inl rfl⟩
  · exact absurd rfl (free names selected)
  · obtain rfl := List.append_cancel_left same
    rcases rewrites with ⟨script, result, original, formatted, rfl⟩
    obtain rfl := Item.file.inj (Option.some.inj (held.symm.trans original))
    exact ⟨_, _, held, changed, .inr ⟨script, result, rfl, formatted, rfl⟩⟩

/-- A session that works in a directory with files of the given texts. -/
def Session.ofTexts (texts : List (String × String)) : Session :=
  { volume :=
      { items := (["w"], .directory) ::
          texts.map fun (name, text) => (["w", name], .file text.toUTF8)
        home := ["w"] } }

def Session.afterRun (session : Session) (style : Style) (settings : RunSettings)
    (input : String) : Session :=
  ((runFiles style settings input : StateM Session (Except RunError Report)).run session).2

def Session.oneScript : Session :=
  .ofTexts [("a.sql", "select 1"), ("b.txt", "")]

/-- A file that is selected by a path from the root is rewritten beside its backup. -/
theorem runFiles_keeps_files_oneScript :
    Session.oneScript.volume.WellFormed ∧
      Session.disk.Apart .oneScript { backups := true } ⟨"/w", [["a.sql"]]⟩ ∧
      ∃ old new, Session.disk.item? .oneScript "/w/a.sql" = some (.file old) ∧
        Session.disk.item? (Session.oneScript.afterRun {} { backups := true } "/w") "/w/a.sql" =
          some (.file new) ∧
        (new = old ∨ ∃ script result, old = script.toUTF8 ∧ format {} script = .ok result ∧
          new = result.text.toUTF8) := by
  have wellFormed : Session.oneScript.volume.WellFormed := by
    refine ⟨?_, ?_, ?_⟩ <;> decide +kernel
  have search : Runs (findFiles "/w" [".sql"] false) Session.oneScript
      (.ok ⟨"/w", [["a.sql"]]⟩) Session.oneScript := Prod.ext (by decide +kernel) rfl
  have apart : Session.disk.Apart .oneScript { backups := true } ⟨"/w", [["a.sql"]]⟩ := by
    intro names selected other selectedToo
    obtain rfl := List.mem_singleton.mp selected
    obtain rfl := List.mem_singleton.mp selectedToo
    exact fun _ => by decide +kernel
  have runs := Runs.of_run (runFiles {} { backups := true } "/w") Session.oneScript
  have path : FileSet.path ⟨"/w", [["a.sql"]]⟩ ["a.sql"] = "/w/a.sql" := by decide +kernel
  have keeps := @runFiles_keeps_files _ _ Session.disk Session.serves .oneScript _ _ wellFormed {}
    { backups := true } rfl _ _ search apart _ runs ["a.sql"] (.head _)
  rw [path] at keeps
  exact ⟨wellFormed, apart, keeps⟩

/-- An output file that is selected itself is emptied before it is read. -/
theorem afterRun_destroys_output :
    ((findFiles "." [".sql"] false : StateM Session (Except RunError FileSet)).run
        (.ofTexts [("a.sql", "select 1")])).1 = .ok ⟨".", [["a.sql"]]⟩ ∧
      (Session.ofTexts [("a.sql", "select 1")]).volume.read "./a.sql" = .ok "select 1".toUTF8 ∧
      ((Session.ofTexts [("a.sql", "select 1")]).afterRun {} { output := some "/w/a.sql" }
        ".").volume.read "./a.sql" = .ok .empty ∧
      "select 1".toUTF8 ≠ .empty ∧
      (format {} "select 1").toOption.map (·.text.toUTF8) ≠ some .empty := by
  refine ⟨?_, ?_, ?_, ?_, ?_⟩ <;> decide +kernel

end SqlLayout
