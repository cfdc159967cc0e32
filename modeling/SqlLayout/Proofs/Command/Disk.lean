import SqlLayout.Command.Session
import SqlLayout.Proofs.Command.Selection

/-!
# Hosts that work on a directory tree

A disk shows the directory tree in each state of a host, and where in the tree a path leads. A host
serves the disk if its operations read the tree and change it as they should: a file is written
where its path leads, and everything else stays. How paths are resolved is left to the disk; in a
session it is done by its volume, from the root or from the working directory.
-/

namespace SqlLayout

variable {path : String}

/-- The directory tree in each state of a host, and where in it a path leads. -/
structure Disk (σ : Type) where
  volume : σ → Volume
  locate : σ → String → Option Location

namespace Disk

variable {σ : Type} (disk : Disk σ)

def item? (state : σ) (path : String) : Option Item :=
  (disk.locate state path).bind (disk.volume state).find?

/-- Nothing has happened to the tree. -/
structure Same (before after : σ) : Prop where
  volume : disk.volume after = disk.volume before
  locate : disk.locate after = disk.locate before

/-- Paths lead where they led, directories stay, and a file keeps its content or gets one that is
allowed where it is. -/
structure Changes (allowed : Location → ByteArray → Prop) (before after : σ) : Prop where
  leads : ∀ {path place}, disk.locate before path = some place →
    disk.locate after path = some place
  directory : ∀ {place}, (disk.volume before).find? place = some .directory →
    (disk.volume after).find? place = some .directory
  file : ∀ {place content}, (disk.volume before).find? place = some (.file content) →
    (disk.volume after).find? place = some (.file content) ∨
      ∃ new, (disk.volume after).find? place = some (.file new) ∧ allowed place new

/-- A file is put at a place where no directory is, and nothing else happens. -/
structure Puts (before : σ) (place : Location) (content : ByteArray) (after : σ) : Prop where
  leads : ∀ {path place}, disk.locate before path = some place →
    disk.locate after path = some place
  free : (disk.volume before).find? place ≠ some .directory
  find? : ∀ other, (disk.volume after).find? other =
    if other = place then some (.file content) else (disk.volume before).find? other

/-- A path under which a file can be written: a name in a directory, unless it names a directory. -/
def Open (state : σ) (path : String) : Prop :=
  ∃ above base name, path = Path.join above name ∧ Path.isProper name = true ∧
    disk.locate state above = some base ∧
    (disk.volume state).find? base = some .directory ∧
    (disk.volume state).find? (base ++ [name]) ≠ some .directory

/-- A file is written where its path leads. If that fails, the path was not open, and nothing
happens. -/
inductive Wrote (path : String) (content : ByteArray) (before : σ) :
    Except Fault Unit → σ → Prop where
  | done {place : Location} {after : σ} (located : disk.locate before path = some place)
      (puts : disk.Puts before place content after) : Wrote path content before (.ok ()) after
  | failed {fault : Fault} {after : σ} (shut : ¬ disk.Open before path)
      (same : disk.Same before after) : Wrote path content before (.error fault) after

/-- The operations of a host act on the tree that the disk shows. -/
structure Serves [Host (StateM σ)] : Prop where
  presents {state : σ} (wellFormed : (disk.volume state).WellFormed) :
    Presents state (disk.volume state) (disk.locate state)
  full {state : σ} {path : String} {place : Location}
    (located : disk.locate state path = some place) : path ≠ ""
  below {state : σ} {path name : String} {base : Location}
    (located : disk.locate state path = some base)
    (directory : (disk.volume state).find? base = some .directory)
    (proper : Path.isProper name = true) :
    disk.locate state (Path.join path name) = some (base ++ [name])
  above {state : σ} {path name : String} {place : Location} (full : path ≠ "")
    (proper : Path.isProper name = true)
    (located : disk.locate state (Path.join path name) = some place) :
    ∃ base, disk.locate state path = some base ∧ place = base ++ [name]
  log {severity : Severity} {message : String} {before after : σ}
    (runs : Runs (Host.log severity message) before () after) : disk.Same before after
  read {path : String} {content : ByteArray} {before after : σ} {result : Except Fault ByteArray}
    (held : disk.item? before path = some (.file content))
    (runs : Runs (Host.read path) before result after) :
    result = .ok content ∧ disk.Same before after
  write {path : String} {content : ByteArray} {before after : σ} {result : Except Fault Unit}
    (runs : Runs (Host.write path content) before result after) :
    disk.Wrote path content before result after
  append {path : String} {content : ByteArray} {before after : σ} {result : Except Fault Unit}
    (runs : Runs (Host.append path content) before result after) :
    disk.Same before after ∨ ∃ place old, disk.locate before path = some place ∧
      (disk.volume before).find? place = some (.file old) ∧
      disk.Puts before place (old ++ content) after
  copy {source destination : String} {content : ByteArray} {before after : σ}
    {result : Except Fault Unit} (held : disk.item? before source = some (.file content))
    (runs : Runs (Host.copy source destination) before result after) :
    disk.Wrote destination content before result after
  makeDirectories {path : String} {before after : σ} {result : Except Fault Unit}
    (runs : Runs (Host.makeDirectories path) before result after) :
    disk.Changes (fun _ _ => False) before after ∧
      (path = "" ∨ disk.item? before path = some .directory →
        result = .ok () ∧ disk.Same before after)

variable {disk} {allowed : Location → ByteArray → Prop} {before between after : σ}

theorem item?_eq {place : Location} (located : disk.locate before path = some place) :
    disk.item? before path = (disk.volume before).find? place := by
  rw [item?, located, Option.bind_some]

namespace Same

theorem refl (state : σ) : disk.Same state state :=
  ⟨rfl, rfl⟩

theorem trans (first : disk.Same before between) (second : disk.Same between after) :
    disk.Same before after :=
  ⟨second.volume.trans first.volume, second.locate.trans first.locate⟩

theorem item? (same : disk.Same before after) (path : String) :
    disk.item? after path = disk.item? before path := by
  rw [Disk.item?, same.volume, same.locate, Disk.item?]

theorem changes (same : disk.Same before after) : disk.Changes allowed before after where
  leads located := same.locate ▸ located
  directory held := same.volume ▸ held
  file held := .inl (same.volume ▸ held)

end Same

namespace Changes

theorem refl (state : σ) : disk.Changes allowed state state :=
  (Same.refl state).changes

theorem trans (first : disk.Changes allowed before between)
    (second : disk.Changes allowed between after) : disk.Changes allowed before after where
  leads located := second.leads (first.leads located)
  directory held := second.directory (first.directory held)
  file held := by
    rcases first.file held with same | ⟨new, changed, isAllowed⟩
    · exact second.file same
    · rcases second.file changed with same | later
      · exact .inr ⟨new, same, isAllowed⟩
      · exact .inr later

theorem mono {wider : Location → ByteArray → Prop} (changes : disk.Changes allowed before after)
    (wide : ∀ place content, allowed place content → wider place content) :
    disk.Changes wider before after where
  leads := changes.leads
  directory := changes.directory
  file held := by
    rcases changes.file held with same | ⟨new, changed, isAllowed⟩
    · exact .inl same
    · exact .inr ⟨new, changed, wide _ _ isAllowed⟩

end Changes

theorem Puts.changes {place : Location} {content : ByteArray}
    (puts : disk.Puts before place content after) (isAllowed : allowed place content) :
    disk.Changes allowed before after where
  leads := puts.leads
  directory {other} held := by
    rw [puts.find?, if_neg ?_, held]
    rintro rfl
    exact puts.free held
  file {other old} held := by
    rw [puts.find?]
    split
    next same => exact .inr ⟨content, rfl, same ▸ isAllowed⟩
    next => exact .inl held

theorem Wrote.changes {content : ByteArray} {result : Except Fault Unit}
    (wrote : disk.Wrote path content before result after)
    (isAllowed : ∀ place, disk.locate before path = some place → allowed place content) :
    disk.Changes allowed before after := by
  cases wrote with
  | done located puts => exact puts.changes (isAllowed _ located)
  | failed _ same => exact same.changes

/-- Names below a directory, up to something that is there, lead to it. -/
theorem Serves.locate_below [Host (StateM σ)] (serves : disk.Serves)
    (wellFormed : (disk.volume before).WellFormed) {base : Location} {names : List String}
    {item : Item} (located : disk.locate before path = some base)
    (held : (disk.volume before).find? (base ++ names) = some item) :
    disk.locate before (names.foldl Path.join path) = some (base ++ names) := by
  induction names using List.reverseRecOn generalizing item with
  | nil => simpa using located
  | append_singleton front last ih =>
    rw [← List.append_assoc] at held ⊢
    rcases wellFormed.find?_concat held with ⟨proper, above⟩
    rw [List.foldl_append]
    exact serves.below (ih above) above proper

/-- What is written below a directory under some names is written at the place of these names. -/
theorem Serves.place_below [Host (StateM σ)] (serves : disk.Serves) {base place : Location}
    {names : List String} (proper : ∀ name ∈ names, Path.isProper name = true)
    (isBase : disk.locate before path = some base)
    (located : disk.locate before (names.foldl Path.join path) = some place) :
    place = base ++ names := by
  induction names using List.reverseRecOn generalizing place with
  | nil =>
    rw [List.append_nil]
    exact Option.some.inj (located.symm.trans isBase)
  | append_singleton front last ih =>
    rw [List.foldl_append] at located
    have named : ∀ name ∈ front, Path.isProper name = true := fun name member =>
      proper name (List.mem_append_left _ member)
    have full : front.foldl Path.join path ≠ "" := by
      cases front using List.reverseRecOn with
      | nil => exact serves.full isBase
      | append_singleton first second =>
        rw [List.foldl_append]
        exact Path.join_ne (Path.ne_of_isName (Path.isProper_iff.mp (named second (by simp))).1)
    rcases serves.above full (proper last (by simp)) located with ⟨above, isAbove, rfl⟩
    rw [ih named isAbove, List.append_assoc]

end Disk

/-! ### Sessions -/

namespace Session

def disk : Disk Session where
  volume := volume
  locate session path := (session.volume.locate path).toOption

variable {before after : Session} {result : Except Fault Unit}

theorem runs_change {operation : Volume → Except Fault Volume}
    (runs : Runs (change operation) before result after) :
    (∃ volume, operation before.volume = .ok volume ∧ result = .ok () ∧
      after = { before with volume }) ∨
    ∃ fault, operation before.volume = .error fault ∧ result = .error fault ∧ after = before := by
  rw [Runs, change] at runs
  simp only [StateT.run_bind, StateT.run_get, pure_bind] at runs
  cases operated : operation before.volume with
  | error fault =>
    rw [operated] at runs
    rcases Prod.mk.inj runs with ⟨rfl, rfl⟩
    exact .inr ⟨fault, rfl, rfl, rfl⟩
  | ok volume =>
    rw [operated] at runs
    rcases Prod.mk.inj runs with ⟨rfl, rfl⟩
    exact .inl ⟨volume, rfl, rfl, rfl⟩

theorem puts {place : Location} (inside : place ≠ [])
    (free : before.volume.find? place ≠ some .directory) (content : ByteArray) :
    disk.Puts before place content
      { before with volume := before.volume.put place (.file content) } where
  leads {path location} located := by
    have stay : ∀ {other}, before.volume.find? other = some .directory →
        (before.volume.put place (.file content)).find? other = some .directory := by
      intro other held
      rw [Volume.find?_put _ inside, if_neg ?_, held]
      rintro rfl
      exact free held
    have home : (before.volume.put place (.file content)).home = before.volume.home := rfl
    rw [disk, Volume.toOption_locate] at located ⊢
    exact Volume.locate_of_stay home stay located
  free := free
  find? other := Volume.find?_put _ inside (.file content) other

theorem wrote {content : ByteArray}
    (runs : Runs (change fun volume => volume.write path content) before result after) :
    disk.Wrote path content before result after := by
  rcases runs_change runs with ⟨volume, written, rfl, rfl⟩ | ⟨fault, failed, rfl, rfl⟩
  · rcases Volume.write_eq_ok written with ⟨place, located, inside, free, rfl⟩
    exact .done (Volume.toOption_locate.mpr located) (puts inside free content)
  · refine .failed ?_ (.refl _)
    rintro ⟨above, base, name, rfl, proper, located, held, free⟩
    have isBase := Volume.toOption_locate.mp located
    rcases Volume.exists_start isBase with ⟨_, starts⟩
    rw [Volume.write_join (Volume.start_eq_ok starts).2 proper (Volume.reach_of_locate isBase held)
      free] at failed
    cases failed

theorem read_of_item? {session : Session} {content : ByteArray}
    (held : disk.item? session path = some (.file content)) :
    session.volume.read path = .ok content := by
  rcases Option.bind_eq_some_iff.mp held with ⟨place, located, found⟩
  exact Volume.read_of_locate (Volume.toOption_locate.mp located) found

/-- A session serves its disk. -/
theorem serves : disk.Serves where
  presents wellFormed := presents wellFormed
  full {_ _ _} located := by
    rcases Volume.exists_start (Volume.toOption_locate.mp located) with ⟨_, starts⟩
    exact (Volume.start_eq_ok starts).2
  below {session path name base} located directory proper := by
    have isBase := Volume.toOption_locate.mp located
    rcases Volume.exists_start isBase with ⟨_, starts⟩
    rw [disk, Volume.toOption_locate, Volume.locate_join (Volume.start_eq_ok starts).2 proper,
      Volume.reach_of_locate isBase directory]
    rfl
  above {session path name place} full proper located := by
    rw [disk, Volume.toOption_locate, Volume.locate_join full proper] at located
    cases reached : session.volume.reach path with
    | error fault =>
      rw [reached] at located
      cases located
    | ok base =>
      rw [reached] at located
      refine ⟨base, ?_, (Except.ok.inj located).symm⟩
      exact Volume.toOption_locate.mpr (Volume.locate_of_reach reached)
  log runs := by
    cases runs
    exact ⟨rfl, rfl⟩
  read held runs := by
    rcases Prod.mk.inj runs with ⟨rfl, rfl⟩
    exact ⟨read_of_item? held, .refl _⟩
  write runs := wrote runs
  append {path content before after result} runs := by
    rcases runs_change runs with ⟨volume, appended, rfl, rfl⟩ | ⟨fault, _, _, rfl⟩
    · rw [Volume.append] at appended
      cases read : before.volume.read path with
      | error fault =>
        rw [read] at appended
        cases appended
      | ok old =>
        rw [read] at appended
        rcases Volume.write_eq_ok appended with ⟨place, located, inside, free, rfl⟩
        rcases Volume.read_eq_ok read with ⟨other, isOther, held⟩
        obtain rfl := Except.ok.inj (located.symm.trans isOther)
        exact .inr ⟨place, old, Volume.toOption_locate.mpr located, held, puts inside free _⟩
    · exact .inl (.refl _)
  copy {source destination content before after result} held runs := by
    have copied : before.volume.copy source destination =
        before.volume.write destination content := by
      rw [Volume.copy, read_of_item? held]
      rfl
    have same : (change fun volume => volume.write destination content).run before =
        (change fun volume => volume.copy source destination).run before := by
      simp only [change, StateT.run_bind, StateT.run_get, pure_bind, copied]
    exact wrote (same.trans runs)
  makeDirectories {path before after result} runs := by
    constructor
    · rcases runs_change runs with ⟨volume, made, rfl, rfl⟩ | ⟨fault, _, _, rfl⟩
      · have grows := Volume.makeDirectories_grows made
        refine ⟨fun located => ?_, grows.kept, fun held => .inl (grows.kept held)⟩
        rw [disk, Volume.toOption_locate] at located ⊢
        exact Volume.locate_of_stay grows.home grows.kept located
      · exact .refl _
    · intro there
      have made : before.volume.makeDirectories path = .ok before.volume := by
        rcases there with rfl | held
        · rfl
        · rcases Option.bind_eq_some_iff.mp held with ⟨place, located, found⟩
          exact Volume.makeDirectories_of_locate (Volume.toOption_locate.mp located) found
      rcases runs_change runs with ⟨volume, madeToo, rfl, rfl⟩ | ⟨fault, failed, _, _⟩
      · obtain rfl := Except.ok.inj (made.symm.trans madeToo)
        exact ⟨rfl, rfl, rfl⟩
      · rw [made] at failed
        cases failed

end Session

end SqlLayout
