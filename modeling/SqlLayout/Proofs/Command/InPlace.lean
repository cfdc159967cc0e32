import SqlLayout.Proofs.Command.Run

/-!
# Runs in place

A run in place gives each selected file that needs it its formatted text, and copies it first if
backups are asked for. Nothing else changes: neither a file that is formatted already or cannot be,
nor any place that does not belong to a selected file.
-/

namespace SqlLayout

/-! ### Revisions -/

theorem textOf_toUTF8 (script : String) : textOf script.toUTF8 = .ok script := by
  have valid : String.fromUTF8? script.toUTF8 = some script := by
    unfold String.fromUTF8?
    exact dif_pos script.isValidUTF8
  rw [textOf, valid]

/-- A content is replaced by the formatted text of the script that it is: the script is not empty,
needs no error recovery unless that is allowed, and differs from its formatted text. -/
def RunSettings.Revises (settings : RunSettings) (style : Style) (old new : ByteArray) : Prop :=
  ∃ script result, old = script.toUTF8 ∧ script ≠ "" ∧ format style script = .ok result ∧
    (result.parseError = false ∨ settings.allowParsingErrors = true) ∧ result.text ≠ script ∧
    new = result.text.toUTF8

theorem RunSettings.Revises.unique {settings : RunSettings} {style : Style}
    {old new other : ByteArray} (revises : settings.Revises style old new)
    (revisesToo : settings.Revises style old other) : new = other := by
  rcases revises with ⟨script, result, rfl, _, formats, _, _, rfl⟩
  rcases revisesToo with ⟨_, found, same, _, formatsToo, _, _, rfl⟩
  obtain rfl := String.toByteArray_inj.mp same
  obtain rfl := Except.ok.inj (formats.symm.trans formatsToo)
  rfl

theorem RunSettings.revises_iff {settings : RunSettings} {style : Style} {script : String}
    {result : Formatted} {new : ByteArray} (some : script ≠ "")
    (formats : format style script = .ok result) :
    settings.Revises style script.toUTF8 new ↔
      (result.parseError = false ∨ settings.allowParsingErrors = true) ∧ result.text ≠ script ∧
        new = result.text.toUTF8 := by
  constructor
  · rintro ⟨other, found, same, _, formatsToo, shape⟩
    obtain rfl := String.toByteArray_inj.mp same
    obtain rfl := Except.ok.inj (formats.symm.trans formatsToo)
    exact shape
  · intro shape
    exact ⟨script, result, rfl, some, formats, shape⟩

section

variable {σ : Type} {disk : Disk σ} {original before between after : σ} {place : Location}
  {style : Style} {settings : RunSettings} {set : FileSet} {base : Location}
  {names : List String} {next : Target} {fate : Fate} {old : ByteArray}

/-! ### Replacing a file -/

namespace Disk

variable {content : ByteArray}

/-- The content of a file is copied, if backups are asked for. -/
def Saves (disk : Disk σ) (settings : RunSettings) (before : σ) (place : Location)
    (content : ByteArray) (after : σ) : Prop :=
  if settings.backups then disk.Puts before place content after else disk.Same before after

/-- The content of a file is replaced by its revision and saved beside it, or the file is left
alone because there is none. -/
def Replaces (disk : Disk σ) (settings : RunSettings) (style : Style) (base : Location)
    (names : List String) (old : ByteArray) (before after : σ) : Prop :=
  (∃ new saved, settings.Revises style old new ∧
    disk.Saves settings before (base ++ FileSet.beside names) old saved ∧
    disk.Puts saved (base ++ names) new after) ∨
  (∀ new, ¬ settings.Revises style old new) ∧ disk.Same before after

theorem Same.puts {place : Location} {content : ByteArray} (same : disk.Same before between)
    (puts : disk.Puts between place content after) : disk.Puts before place content after where
  leads located := puts.leads (same.locate ▸ located)
  free := same.volume ▸ puts.free
  find? := same.volume ▸ puts.find?

theorem Same.saves (same : disk.Same before between)
    (saves : disk.Saves settings between place content after) :
    disk.Saves settings before place content after := by
  unfold Saves at saves ⊢
  split
  next backups =>
    rw [if_pos backups] at saves
    exact same.puts saves
  next noBackups =>
    rw [if_neg noBackups] at saves
    exact same.trans saves

theorem Saves.find? (saves : disk.Saves settings before place content after) (other : Location) :
    (disk.volume after).find? other =
      if settings.backups = true ∧ other = place then some (.file content)
      else (disk.volume before).find? other := by
  unfold Saves at saves
  split at saves
  next backups => simp [saves.find?, backups]
  next noBackups => simp [saves.volume, noBackups]

theorem Saves.changes (saves : disk.Saves settings before place content after) :
    disk.Changes (fun _ _ => True) before after := by
  unfold Saves at saves
  split at saves
  · exact saves.changes trivial
  · exact saves.changes

end Disk

section

variable (finds : set.Finds disk original base) (selected : names ∈ set.files)
  {result : Except Fault Unit} (past : disk.Changes (fun _ _ => True) original before)

include finds selected past

theorem FileSet.Finds.isOpen :
    ((disk.volume before).find? (base ++ names) ≠ some .directory →
      disk.Open before (set.path names)) ∧
    ((disk.volume before).find? (base ++ beside names) ≠ some .directory →
      disk.Open before (set.path names ++ ".bak")) := by
  rcases finds.exists_last selected with ⟨front, name, rfl⟩
  rcases finds.above front name selected with ⟨located, directory⟩
  have proper := finds.named _ selected name (by simp)
  rw [set.path_beside, beside_concat, set.path_concat, set.path_concat, ← List.append_assoc,
    ← List.append_assoc]
  have there := past.leads located
  have held := past.directory directory
  exact ⟨fun free => ⟨_, _, name, rfl, proper, there, held, free⟩,
    fun free => ⟨_, _, name ++ ".bak", rfl, Path.isProper_append_bak proper, there, held, free⟩⟩

variable [Host (StateM σ)]

omit finds selected past in
theorem Runs.makeParents_same (serves : disk.Serves) {path : String}
    (above : disk.item? before (Path.above path) = some .directory)
    (runs : Runs (makeParents path) before result after) :
    result = .ok () ∧ disk.Same before after := by
  rw [makeParents] at runs
  split at runs
  next parent isParent =>
    apply (serves.makeDirectories runs).2
    by_cases here : parent = ""
    · exact .inl here
    · exact .inr (Path.above_eq isParent here ▸ above)
  next =>
    rcases Runs.pure_iff.mp runs with ⟨rfl, rfl⟩
    exact ⟨rfl, .refl _⟩

variable (serves : disk.Serves)

include serves

theorem Runs.backUp_saves (held : (disk.volume before).find? (base ++ names) = some (.file old))
    (free : settings.backups = true →
      (disk.volume before).find? (base ++ FileSet.beside names) ≠ some .directory)
    (runs : Runs (backUp settings (set.path names)) before result after) :
    result = .ok () ∧ disk.Saves settings before (base ++ FileSet.beside names) old after := by
  rw [backUp] at runs
  unfold Disk.Saves
  split
  next backups =>
    rw [if_pos backups] at runs
    have item := (Disk.item?_eq (past.leads (finds.locate serves selected))).trans held
    cases serves.copy item runs with
    | done located puts =>
      obtain rfl := Option.some.inj
        (located.symm.trans (past.leads (finds.locate_beside serves selected)))
      exact ⟨rfl, puts⟩
    | failed shut =>
      exact absurd ((finds.isOpen selected past).2 (free backups)) shut
  next noBackups =>
    rw [if_neg noBackups] at runs
    rcases Runs.pure_iff.mp runs with ⟨rfl, rfl⟩
    exact ⟨rfl, .refl _⟩

variable (wellFormed : (disk.volume original).WellFormed)

include wellFormed

theorem Stores.puts {text : String}
    (free : (disk.volume before).find? (base ++ names) ≠ some .directory)
    (stores : Stores (set.path names) text before result after) :
    result = .ok () ∧ disk.Puts before (base ++ names) text.toUTF8 after := by
  have located := finds.locate serves selected
  rcases finds.file names selected with ⟨content, held⟩
  rcases (serves.presents wellFormed).file located held with ⟨parent, name, _, isAbove, place⟩
  have above : disk.item? before (Path.above (set.path names)) = some .directory := by
    rw [Disk.item?_eq (past.leads isAbove)]
    rw [place] at held
    exact past.directory (wellFormed.find?_concat held).2
  cases stores with
  | noParents made => cases (made.makeParents_same serves above).1
  | file made written =>
    have same := (made.makeParents_same serves above).2
    have prepared := past.trans same.changes
    cases serves.write written with
    | done isPlace puts =>
      obtain rfl := Option.some.inj (isPlace.symm.trans (prepared.leads located))
      exact ⟨rfl, same.puts puts⟩
    | failed shut =>
      refine absurd ((finds.isOpen selected prepared).1 ?_) shut
      rwa [same.volume]

/-- A selected file is replaced if its content is to be revised, and left alone if not. -/
theorem Handles.replaces (held : (disk.volume before).find? (base ++ names) = some (.file old))
    (free : settings.backups = true →
      (disk.volume before).find? (base ++ FileSet.beside names) ≠ some .directory)
    (handles : Handles style settings set names .inPlace before fate next after) :
    next = .inPlace ∧ disk.Replaces settings style base names old before after := by
  have item := (Disk.item?_eq (past.leads (finds.locate serves selected))).trans held
  cases handles with
  | unreadable read logged =>
    rcases read.readText_same serves item with ⟨isError, same⟩
    refine ⟨rfl, .inr ⟨?_, same.trans (serves.log logged)⟩⟩
    rintro new ⟨script, _, rfl, _⟩
    rw [textOf_toUTF8] at isError
    cases isError
  | empty read =>
    rcases read.readText_same serves item with ⟨isEmpty, same⟩
    refine ⟨rfl, .inr ⟨?_, same⟩⟩
    rintro new ⟨script, _, rfl, some, _⟩
    rw [textOf_toUTF8] at isEmpty
    exact some (Except.ok.inj isEmpty).symm
  | refused read full formatted noted recovered unwanted logged =>
    rcases read.readText_same serves item with ⟨isScript, same⟩
    obtain rfl := textOf_eq_ok isScript.symm
    refine ⟨rfl, .inr ⟨fun new revises => ?_, ?_⟩⟩
    · have accepted := ((RunSettings.revises_iff full formatted).mp revises).1
      simp [recovered, unwanted] at accepted
    · exact (same.trans (noted.formatLogged_same serves)).trans (serves.log logged)
  | delivered read full formatted noted accepted delivers =>
    rcases read.readText_same serves item with ⟨isScript, same⟩
    obtain rfl := textOf_eq_ok isScript.symm
    have still := same.trans (noted.formatLogged_same serves)
    have now := past.trans still.changes
    rw [← still.volume] at held free
    cases delivers with
    | unchanged isSame =>
      refine ⟨rfl, .inr ⟨fun new revises => ?_, still⟩⟩
      exact ((RunSettings.revises_iff full formatted).mp revises).2.1 isSame
    | unsaved _ copied _ => cases (copied.backUp_saves finds selected now serves held free).1
    | @inPlace _ saved _ _ _ _ differs copied stores settles =>
      have saves := (copied.backUp_saves finds selected now serves held free).2
      have open_ : (disk.volume saved).find? (base ++ names) ≠ some .directory := by
        rcases saves.changes.file held with isFile | ⟨_, isFile, _⟩ <;> simp [isFile]
      rcases stores.puts finds selected (now.trans saves.changes) serves wellFormed open_
        with ⟨rfl, puts⟩
      cases settles
      refine ⟨rfl, .inl ⟨_, saved, ?_, still.saves saves, puts⟩⟩
      refine (RunSettings.revises_iff full formatted).mpr ⟨?_, differs, rfl⟩
      cases isClean : Formatted.parseError _ with
      | false => exact .inl rfl
      | true => exact .inr (accepted isClean)

end

/-! ### Files one after the other -/

/-- The places that are written when a file is replaced: its own and, if asked for, that of its
backup. -/
def Disk.Writes (disk : Disk σ) (state : σ) (settings : RunSettings) (path : String)
    (place : Location) : Prop :=
  disk.locate state path = some place ∨
    settings.backups = true ∧ disk.locate state (path ++ ".bak") = some place

/-- A place is written because the content of a file is replaced. -/
def Disk.Touches (disk : Disk σ) (state : σ) (settings : RunSettings) (style : Style)
    (path : String) (place : Location) : Prop :=
  disk.Writes state settings path place ∧
    ∃ old new, disk.item? state path = some (.file old) ∧ settings.Revises style old new

/-- What a run in place has done when it has come to the end of some files: the contents to revise
are replaced and saved, and other places hold what they held. -/
structure FileSet.Done (set : FileSet) (disk : Disk σ) (settings : RunSettings) (style : Style)
    (base : Location) (original : σ) (done : List (List String)) (state : σ) : Prop where
  changes : disk.Changes (fun _ _ => True) original state
  revised : ∀ names ∈ done, ∀ old new,
    (disk.volume original).find? (base ++ names) = some (.file old) →
    settings.Revises style old new →
    (disk.volume state).find? (base ++ names) = some (.file new) ∧
      (settings.backups = true →
        (disk.volume state).find? (base ++ beside names) = some (.file old))
  frame : ∀ place,
    (∀ names ∈ done, ¬ disk.Touches original settings style (set.path names) place) →
    (disk.volume state).find? place = (disk.volume original).find? place

theorem FileSet.Done.start :
    set.Done disk settings style base original [] original where
  changes := .refl original
  revised _ member := nomatch member
  frame _ _ := rfl

theorem FileSet.Done.same {done : List (List String)}
    (isDone : set.Done disk settings style base original done before)
    (same : disk.Same before after) :
    set.Done disk settings style base original done after where
  changes := isDone.changes.trans same.changes
  revised := same.volume ▸ isDone.revised
  frame := same.volume ▸ isDone.frame

/-- A file without a revision is passed by. -/
theorem FileSet.Done.pass {done : List (List String)}
    (isDone : set.Done disk settings style base original done before)
    (held : (disk.volume original).find? (base ++ names) = some (.file old))
    (kept : ∀ new, ¬ settings.Revises style old new) :
    set.Done disk settings style base original (done ++ [names]) before where
  changes := isDone.changes
  revised := by
    intro other member old' new' heldToo revises
    rcases List.mem_append.mp member with earlier | last
    · exact isDone.revised other earlier old' new' heldToo revises
    · obtain rfl := List.mem_singleton.mp last
      obtain rfl := Item.file.inj (Option.some.inj (held.symm.trans heldToo))
      exact absurd revises (kept new')
  frame place untouched :=
    isDone.frame place fun other member => untouched other (List.mem_append_left _ member)

section

variable [Host (StateM σ)] (finds : set.Finds disk original base) (serves : disk.Serves)
  (clear : settings.backups = true → ∀ names ∈ set.files, FileSet.beside names ∉ set.files)

include finds serves

theorem FileSet.Finds.writes_iff (selected : names ∈ set.files) :
    disk.Writes original settings (set.path names) place ↔
      place = base ++ names ∨ settings.backups = true ∧ place = base ++ beside names := by
  rw [Disk.Writes, finds.locate serves selected, finds.locate_beside serves selected,
    Option.some.injEq, Option.some.injEq, eq_comm, eq_comm (a := base ++ beside names)]

theorem FileSet.Finds.writes_file (selected : names ∈ set.files) :
    disk.Writes original settings (set.path names) (base ++ names) :=
  (finds.writes_iff serves selected).mpr (.inl rfl)

theorem FileSet.Finds.writes_beside (selected : names ∈ set.files)
    (backups : settings.backups = true) :
    disk.Writes original settings (set.path names) (base ++ beside names) :=
  (finds.writes_iff serves selected).mpr (.inr ⟨backups, rfl⟩)

include clear

/-- What is written for one selected file is not written for another. -/
theorem FileSet.Finds.eq_of_writes {other : List String} (selected : names ∈ set.files)
    (selectedToo : other ∈ set.files)
    (writes : disk.Writes original settings (set.path names) place)
    (writesToo : disk.Writes original settings (set.path other) place) : names = other := by
  rw [finds.writes_iff serves selected] at writes
  rw [finds.writes_iff serves selectedToo] at writesToo
  rcases writes with rfl | ⟨backups, rfl⟩
  · rcases writesToo with same | ⟨backups, same⟩
    · exact List.append_cancel_left same
    · exact absurd (List.append_cancel_left same ▸ selected) (clear backups other selectedToo)
  · rcases writesToo with same | ⟨_, same⟩
    · exact absurd (List.append_cancel_left same ▸ selectedToo) (clear backups names selected)
    · rcases finds.exists_last selected with ⟨front, name, rfl⟩
      rcases finds.exists_last selectedToo with ⟨frontToo, nameToo, rfl⟩
      rw [beside_concat, beside_concat] at same
      rcases List.append_inj' (List.append_cancel_left same) rfl with ⟨rfl, ends⟩
      have sameName : name = nameToo := by simpa using ends
      rw [sameName]

variable {done : List (List String)} (within : ∀ other ∈ done, other ∈ set.files)
  (selected : names ∈ set.files) (fresh : names ∉ done)

include within selected fresh

theorem FileSet.Done.untouched (isDone : set.Done disk settings style base original done before)
    (writes : disk.Writes original settings (set.path names) place) :
    (disk.volume before).find? place = (disk.volume original).find? place := by
  refine isDone.frame place fun other member touches => fresh ?_
  rwa [finds.eq_of_writes serves clear selected (within other member) writes touches.1]

/-- A selected file is replaced, and what was written for others stays. -/
theorem FileSet.Done.replace (isDone : set.Done disk settings style base original done before)
    (held : (disk.volume original).find? (base ++ names) = some (.file old)) {saved : σ}
    {new : ByteArray} (revises : settings.Revises style old new)
    (saves : disk.Saves settings before (base ++ beside names) old saved)
    (puts : disk.Puts saved (base ++ names) new after) :
    set.Done disk settings style base original (done ++ [names]) after := by
  have item := (Disk.item?_eq (finds.locate serves selected)).trans held
  have elsewhere : ∀ place, ¬ disk.Writes original settings (set.path names) place →
      (disk.volume after).find? place = (disk.volume before).find? place := by
    intro place missed
    rw [finds.writes_iff serves selected, not_or] at missed
    rw [puts.find?, if_neg missed.1, saves.find?, if_neg missed.2]
  refine ⟨(isDone.changes.trans saves.changes).trans (puts.changes trivial), ?_, ?_⟩
  · intro other member old' new' heldToo revisesToo
    rcases List.mem_append.mp member with earlier | last
    · have others : ∀ place, disk.Writes original settings (set.path other) place →
          (disk.volume after).find? place = (disk.volume before).find? place := by
        refine fun place writes => elsewhere place fun writesToo => fresh ?_
        rwa [finds.eq_of_writes serves clear selected (within other earlier) writesToo writes]
      rcases isDone.revised other earlier old' new' heldToo revisesToo with ⟨file, backup⟩
      have fileStays := others _ (finds.writes_file serves (within other earlier))
      refine ⟨fileStays.trans file, fun backups => ?_⟩
      have backupStays := others _ (finds.writes_beside serves (within other earlier) backups)
      exact backupStays.trans (backup backups)
    · obtain rfl := List.mem_singleton.mp last
      obtain rfl := Item.file.inj (Option.some.inj (held.symm.trans heldToo))
      obtain rfl := revises.unique revisesToo
      refine ⟨by rw [puts.find?, if_pos rfl], fun backups => ?_⟩
      have differs : base ++ beside other ≠ base ++ other := fun equal =>
        clear backups other selected ((List.append_cancel_left equal).symm ▸ selected)
      rw [puts.find?, if_neg differs, saves.find?, if_pos ⟨backups, rfl⟩]
  · intro place untouched
    have missed : ¬ disk.Writes original settings (set.path names) place := fun writes =>
      untouched names (by simp) ⟨writes, old, new, item, revises⟩
    rw [elsewhere place missed]
    exact isDone.frame place fun other member => untouched other (List.mem_append_left _ member)

omit within selected fresh

variable (wellFormed : (disk.volume original).WellFormed)
  (free : settings.backups = true → ∀ names ∈ set.files,
    (disk.volume original).find? (base ++ FileSet.beside names) ≠ some .directory)

include wellFormed free

/-- Selected files take their turns, and each is replaced or passed by. -/
theorem Unfolds.replaces {target : Target} {turns : List (Turn σ)}
    (unfolds : Unfolds style settings set target before turns next after)
    (inPlace : target = .inPlace) (isDone : set.Done disk settings style base original done before)
    (selected : ∀ names ∈ done ++ turns.map Turn.names, names ∈ set.files)
    (distinct : (done ++ turns.map Turn.names).Nodup) :
    next = .inPlace ∧
      set.Done disk settings style base original (done ++ turns.map Turn.names) after := by
  induction unfolds generalizing done with
  | nil =>
    rw [List.map_nil, List.append_nil]
    exact ⟨inPlace, isDone⟩
  | @cons _ _ _ _ between _ names fate turns first _ ih =>
    subst inPlace
    have order : done ++ (names :: turns.map Turn.names) =
        (done ++ [names]) ++ turns.map Turn.names := by simp
    rw [List.map_cons, order] at distinct selected ⊢
    have within : ∀ other ∈ done, other ∈ set.files := fun other member =>
      selected other (by simp [member])
    have here : names ∈ set.files := selected names (by simp)
    have fresh : names ∉ done := fun inside =>
      List.disjoint_of_nodup_append distinct.of_append_left inside (.head _)
    rcases finds.file names here with ⟨old, held⟩
    have still : ∀ {place}, disk.Writes original settings (set.path names) place →
        (disk.volume _).find? place = (disk.volume original).find? place := fun writes =>
      isDone.untouched finds serves clear within here fresh writes
    have now := (still (finds.writes_file serves here)).trans held
    have freeNow := fun backups =>
      (still (finds.writes_beside serves here backups)).trans_ne (free backups names here)
    rcases first.replaces finds here isDone.changes serves wellFormed now freeNow with
      ⟨inPlace, ⟨new, saved, revises, saves, puts⟩ | ⟨kept, same⟩⟩
    · have further := isDone.replace finds serves clear within here fresh held revises saves puts
      exact ih inPlace further selected distinct
    · exact ih inPlace ((isDone.pass held kept).same same) selected distinct

theorem Runs.formatSet_done (inPlace : settings.output = none) {result : Except RunError Report}
    (runs : Runs (SqlLayout.formatSet style settings set) original result after) :
    set.Done disk settings style base original set.files after := by
  have opens : Runs (openTarget settings) original (.ok .inPlace) original := by
    rw [openTarget, inPlace]
    exact Runs.pure_iff.mpr ⟨rfl, rfl⟩
  rw [SqlLayout.formatSet, Runs.bind_iff_of_runs opens] at runs
  rcases Runs.bind_iff.mp runs with ⟨⟨last, counted⟩, handled, all, rest⟩
  rcases Runs.formatAll all with ⟨turns, isFiles, _, unfolds⟩
  rcases unfolds.replaces finds serves clear wellFormed free rfl .start
    (fun names member => isFiles ▸ member) (isFiles.symm ▸ finds.distinct) with ⟨rfl, isDone⟩
  rw [List.nil_append, isFiles] at isDone
  rcases Runs.bind_iff.mp rest with ⟨_, between, isFinished, rest⟩
  rcases Runs.pure_iff.mp isFinished with ⟨rfl, rfl⟩
  rcases Runs.bind_iff.mp rest with ⟨_, _, logged, isPure⟩
  rcases Runs.pure_iff.mp isPure with ⟨_, rfl⟩
  exact isDone.same (serves.log logged)

end

def RunSettings.selected [Host (StateM σ)] (settings : RunSettings) (input : String) (state : σ) :
    List String :=
  ((findFiles input settings.extensions settings.recursive :
    StateM σ (Except RunError FileSet)).run state).1.toOption.elim [] FileSet.paths

theorem RunSettings.mem_selected [Host (StateM σ)] {input path : String}
    (search : Runs (findFiles input settings.extensions settings.recursive) before (.ok set)
      after) :
    path ∈ settings.selected input before ↔ ∃ names ∈ set.files, set.path names = path := by
  rw [selected, search]
  exact List.mem_map

end

/-- On any host that works on a directory tree, however it resolves paths, a run in place changes
exactly what it should, if no backup falls on a selected file or a directory: a selected file whose
content is to be revised holds the formatted text, with its old content in the backup if there are
backups, any other selected file holds what it held, and so does every place that is not written
for a revised file. -/
theorem runFiles_inPlace {σ : Type} [Host (StateM σ)] {disk : Disk σ} (serves : disk.Serves)
    {before after : σ} (wellFormed : (disk.volume before).WellFormed) (style : Style)
    {settings : RunSettings} (inPlace : settings.output = none)
    (formats : settings.dumpTree = false) {input : String}
    (apart : settings.backups = true → ∀ path ∈ settings.selected input before,
      path ++ ".bak" ∉ settings.selected input before)
    (free : settings.backups = true → ∀ path ∈ settings.selected input before,
      disk.item? before (path ++ ".bak") ≠ some .directory)
    {result : Except RunError Report}
    (runs : Runs (runFiles style settings input) before result after) :
    (∀ path ∈ settings.selected input before,
      ∃ old, disk.item? before path = some (.file old) ∧
        (∀ new, settings.Revises style old new →
          disk.item? after path = some (.file new) ∧
          (settings.backups = true → disk.item? after (path ++ ".bak") = some (.file old))) ∧
        ((∀ new, ¬ settings.Revises style old new) →
          disk.item? after path = some (.file old))) ∧
    ∀ place, (∀ path ∈ settings.selected input before,
        ¬ disk.Touches before settings style path place) →
      (disk.volume after).find? place = (disk.volume before).find? place := by
  rcases Runs.bind_iff.mp runs with ⟨found, between, search, rest⟩
  obtain rfl := (serves.presents wellFormed).eq_of_findFiles search
  cases found with
  | error error =>
    rcases Runs.pure_iff.mp rest with ⟨_, rfl⟩
    rw [RunSettings.selected, search]
    exact ⟨nofun, fun _ _ => rfl⟩
  | ok set =>
    simp only [RunSettings.mem_selected search, forall_exists_index, and_imp,
      forall_apply_eq_imp_iff₂] at apart free ⊢
    rcases (serves.finds wellFormed search).2 with ⟨base, finds⟩
    have clear : settings.backups = true → ∀ names ∈ set.files,
        FileSet.beside names ∉ set.files := by
      intro backups names selected selectedToo
      rcases finds.exists_last selected with ⟨front, name, rfl⟩
      exact apart backups _ selected ⟨_, selectedToo, (set.path_beside front name).symm⟩
    have isDone : set.Done disk settings style base before set.files after := by
      dsimp only at rest
      split at rest
      next none =>
        rcases Runs.pure_iff.mp rest with ⟨_, rfl⟩
        rw [List.isEmpty_iff.mp none]
        exact .start
      next =>
        rw [formats] at rest
        refine Runs.formatSet_done finds serves clear wellFormed ?_ inPlace rest
        intro backups names selected
        rw [← Disk.item?_eq (finds.locate_beside serves selected)]
        exact free backups names selected
    refine ⟨fun names selected => ?_, isDone.frame⟩
    have located := finds.locate serves selected
    rcases finds.file names selected with ⟨old, held⟩
    rw [Disk.item?_eq located, Disk.item?_eq (isDone.changes.leads located)]
    refine ⟨old, held, fun new revises => ?_, fun kept => ?_⟩
    · rcases isDone.revised names selected old new held revises with ⟨file, backup⟩
      refine ⟨file, fun backups => ?_⟩
      rw [Disk.item?_eq (isDone.changes.leads (finds.locate_beside serves selected))]
      exact backup backups
    · -- The place is written for no other file, and this one is not revised.
      rw [← held]
      apply isDone.frame
      rintro other selectedToo ⟨writes, _, new, holds, revises⟩
      obtain rfl := finds.eq_of_writes serves clear selected selectedToo
        (finds.writes_file serves selected) writes
      rw [Disk.item?_eq located, held] at holds
      obtain rfl := Item.file.inj (Option.some.inj holds)
      exact kept new revises

/-- A selected file is revised and copied, and another file is left alone. -/
theorem runFiles_inPlace_oneScript :
    RunSettings.selected { backups := true } "/w" Session.oneScript = ["/w/a.sql"] ∧
      Session.disk.item? (Session.oneScript.afterRun {} { backups := true } "/w") "/w/a.sql" =
        some (.file "SELECT\n\t1\n".toUTF8) ∧
      Session.disk.item? (Session.oneScript.afterRun {} { backups := true } "/w") "/w/a.sql.bak" =
        some (.file "select 1".toUTF8) ∧
      (Session.oneScript.afterRun {} { backups := true } "/w").volume.find? ["w", "b.txt"] =
        some (.file "".toUTF8) := by
  have wellFormed : Session.oneScript.volume.WellFormed := by
    refine ⟨?_, ?_, ?_⟩ <;> decide +kernel
  have selected : RunSettings.selected { backups := true } "/w" Session.oneScript =
      ["/w/a.sql"] := by decide +kernel
  have item : Session.disk.item? .oneScript "/w/a.sql" = some (.file "select 1".toUTF8) := by
    decide +kernel
  have revises : RunSettings.Revises { backups := true } {} "select 1".toUTF8
      "SELECT\n\t1\n".toUTF8 :=
    ⟨_, ⟨_, false⟩, rfl, by decide, by decide +kernel, .inl rfl, by decide, rfl⟩
  have runs := Runs.of_run (runFiles {} { backups := true } "/w") Session.oneScript
  rcases @runFiles_inPlace _ _ Session.disk Session.serves .oneScript _ wellFormed {}
    { backups := true } rfl rfl "/w" (by rw [selected]; decide +kernel)
    (by rw [selected]; decide +kernel) _ runs with ⟨files, frame⟩
  rw [selected] at files frame
  rcases files "/w/a.sql" (.head _) with ⟨old, held, revised, _⟩
  obtain rfl := Item.file.inj (Option.some.inj (item.symm.trans held))
  rcases revised _ revises with ⟨file, backup⟩
  refine ⟨selected, file, backup rfl, (frame ["w", "b.txt"] ?_).trans (by decide +kernel)⟩
  intro path member
  obtain rfl := List.mem_singleton.mp member
  have missed : ¬ Session.disk.Writes .oneScript { backups := true } "/w/a.sql" ["w", "b.txt"] := by
    rw [Disk.Writes]
    decide +kernel
  exact fun touches => missed touches.1

end SqlLayout
