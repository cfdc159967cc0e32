import Mathlib.Data.List.Nodup
import Mathlib.Data.List.TakeWhile
import SqlLayout.Proofs.Command.Path

/-!
# Paths in a volume

A path is walked part by part from where it starts. A name that is joined to a path to a directory
leads to that name in the directory. A file is written where its path leads, and directories are
only added, so that paths go on to lead where they led.
-/

namespace SqlLayout.Volume

variable {volume before after : Volume} {path name : String} {place directory : Location}
  {part last : String} {front : List String} {location : Location} {content : ByteArray}

/-! ### Where a path starts -/

theorem start_directory (isOk : volume.start path = .ok place) :
    volume.find? place = some .directory := by
  rw [start] at isOk
  split at isOk
  · cases isOk
  split at isOk
  · cases isOk
  split at isOk
  · cases isOk
    rfl
  split at isOk
  next held =>
    cases isOk
    exact held
  · cases isOk

theorem start_eq_ok (isOk : volume.start path = .ok place) :
    '\x00' ∉ path.toList ∧ path ≠ "" := by
  rw [start] at isOk
  split at isOk
  · cases isOk
  next text =>
    split at isOk
    · cases isOk
    next some => exact ⟨by simpa using text, by simpa using some⟩

/-- Only the first character of a path tells where it starts. -/
theorem start_congr {other : String} (some : path ≠ "") (someToo : other ≠ "")
    (text : '\x00' ∈ path.toList ↔ '\x00' ∈ other.toList)
    (first : path.toList.head? = other.toList.head?) : volume.start path = volume.start other := by
  have full : path.isEmpty = other.isEmpty := by
    rw [Bool.eq_iff_iff]
    simp [some, someToo]
  have same : path.toList.contains '\x00' = other.toList.contains '\x00' := by
    rw [Bool.eq_iff_iff]
    simpa using text
  rw [start, start, same, full, first]

theorem start_join (some : path ≠ "") (proper : Path.isProper name = true) :
    volume.start (Path.join path name) = volume.start path := by
  have plain := (Path.isProper_iff.mp proper).2.2
  rcases Path.join_eq path name with ⟨between, joined, isBetween⟩
  have clean : '\x00' ∉ between.toList := by
    rcases isBetween with rfl | rfl <;> decide
  refine start_congr (by simp [joined, some]) some ?_ ?_
  · simp [joined, plain, clean]
  · rw [joined, String.toList_append, String.toList_append, List.append_assoc,
      List.head?_append_of_ne_nil _ (by simpa using some)]

theorem start_left {front back : String} (some : front ≠ "")
    (isOk : volume.start (front ++ "/" ++ back) = .ok place) : volume.start front = .ok place := by
  have clean := (start_eq_ok isOk).1
  have plain : '\x00' ∉ front.toList := fun inside => clean (by simp [inside])
  rw [← isOk]
  refine start_congr some (by simp) (iff_of_false plain clean) ?_
  rw [String.toList_append, String.toList_append, List.append_assoc,
    List.head?_append_of_ne_nil _ (by simpa using some)]

/-! ### Walking along a path -/

theorem enter_idle (idle : (part = "" || part = ".") = true) (location : Location) :
    volume.enter location part = .ok location := by
  rw [enter, if_pos idle]

theorem enter_of_directory (isName : isName name = true)
    (held : volume.find? (directory ++ [name]) = some .directory) :
    volume.enter directory name = .ok (directory ++ [name]) := by
  simp only [Volume.isName, Bool.and_eq_true, bne_iff_ne] at isName
  simp [enter, isName, held]

theorem enter_eq_ok (isName : isName name = true)
    (isOk : volume.enter directory name = .ok place) : place = directory ++ [name] := by
  simp only [Volume.isName, Bool.and_eq_true, bne_iff_ne] at isName
  simp only [enter, isName] at isOk
  split at isOk
  next idle => simp at idle
  split at isOk
  next up => exact absurd up (by simp)
  split at isOk
  · exact (Except.ok.inj isOk).symm
  · cases isOk
  · cases isOk

theorem walk_append (location : Location) (front back : List String) :
    volume.walk location (front ++ back) =
      volume.walk location front >>= (volume.walk · back) := by
  induction front generalizing location with
  | nil => rfl
  | cons part rest ih =>
    rw [List.cons_append, walk, walk]
    split
    next location' _ => exact ih location'
    next => rfl

theorem walk_singleton (location : Location) (part : String) :
    volume.walk location [part] = volume.enter location part := by
  rw [walk]
  split <;> simp_all [walk]

/-- A part at the end that carries no meaning does not matter. -/
theorem walk_idle (idle : (part = "" || part = ".") = true) (location : Location)
    (front : List String) :
    volume.walk location (front ++ [part]) = volume.walk location front := by
  rw [walk_append]
  cases volume.walk location front with
  | error fault => rfl
  | ok found => exact (walk_singleton found part).trans (enter_idle idle found)

theorem walk_dropIdle (location : Location) (names : List String) :
    volume.walk location (Path.dropIdle names).reverse = volume.walk location names.reverse := by
  fun_induction Path.dropIdle names with
  | case1 part next rest idle ih => rw [ih, List.reverse_cons (a := part), walk_idle idle]
  | case2 => rfl
  | case3 => rfl

theorem walk_trimmed (location : Location) (names : List String) :
    volume.walk location (names.dropWhile (· == "")).reverse =
      volume.walk location names.reverse := by
  induction names with
  | nil => rfl
  | cons first rest ih =>
    rw [List.dropWhile_cons]
    split
    next empty =>
      rw [ih, List.reverse_cons, beq_iff_eq.mp empty, walk_idle (by decide)]
    next => rfl

theorem walk_concat_eq_ok (named : isName name = true)
    (isOk : volume.walk location (front ++ [name]) = .ok place) :
    ∃ above, volume.walk location front = .ok above ∧ place = above ++ [name] := by
  rw [walk_append] at isOk
  cases walked : volume.walk location front with
  | error fault =>
    rw [walked] at isOk
    cases isOk
  | ok above =>
    rw [walked] at isOk
    exact ⟨above, rfl, enter_eq_ok named ((walk_singleton above name).symm.trans isOk)⟩

/-- The directory that is reached where a path is walked to its end. -/
def reach (volume : Volume) (path : String) : Except Fault Location := do
  volume.walk (← volume.start path) (Path.parts path)

theorem reach_of_start (starts : volume.start path = .ok place) :
    volume.reach path = volume.walk place (Path.parts path) := by
  rw [reach, starts]
  rfl

/-- What a path locates: a name in a directory, or a directory itself. -/
theorem locate_of_start (starts : volume.start path = .ok place)
    (cuts : Path.parts path = front ++ [last]) :
    volume.locate path =
      if isName last then (· ++ [last]) <$> volume.walk place front
      else volume.walk place (front ++ [last]) := by
  simp only [locate, starts, cuts, bind, Except.bind, List.getLast?_concat, List.dropLast_concat]
  split
  · cases volume.walk place front <;> rfl
  · rfl

theorem exists_start (isOk : volume.locate path = .ok location) :
    ∃ place, volume.start path = .ok place := by
  cases starts : volume.start path with
  | error fault =>
    rw [locate, starts] at isOk
    cases isOk
  | ok place => exact ⟨place, rfl⟩

theorem locate_of_reach (reached : volume.reach path = .ok directory) :
    volume.locate path = .ok directory := by
  cases starts : volume.start path with
  | error fault =>
    rw [reach, starts] at reached
    cases reached
  | ok place =>
    rcases Path.exists_last path with ⟨front, last, cuts⟩
    rw [reach_of_start starts, cuts] at reached
    rw [locate_of_start starts cuts]
    split
    next named =>
      rcases walk_concat_eq_ok named reached with ⟨above, walked, rfl⟩
      rw [walked]
      rfl
    next => exact reached

/-- A path to a directory can be walked to its end. -/
theorem reach_of_locate (isOk : volume.locate path = .ok directory)
    (held : volume.find? directory = some .directory) : volume.reach path = .ok directory := by
  rcases exists_start isOk with ⟨place, starts⟩
  rcases Path.exists_last path with ⟨front, last, cuts⟩
  rw [locate_of_start starts cuts] at isOk
  rw [reach_of_start starts, cuts]
  split at isOk
  next isName =>
    cases walked : volume.walk place front with
    | error fault =>
      rw [walked] at isOk
      cases isOk
    | ok above =>
      rw [walked] at isOk
      obtain rfl : above ++ [last] = directory := Except.ok.inj isOk
      rw [walk_append, walked]
      exact (walk_singleton above last).trans (enter_of_directory isName held)
  next => exact isOk

/-- A name that is joined to a path leads to that name where the path ends. -/
theorem locate_join (some : path ≠ "") (proper : Path.isProper name = true) :
    volume.locate (Path.join path name) = (· ++ [name]) <$> volume.reach path := by
  rcases Path.isProper_iff.mp proper with ⟨isName, whole, _⟩
  rcases Path.parts_join some whole with ⟨front, cuts, same⟩
  cases starts : volume.start path with
  | error fault =>
    rw [locate, start_join some proper, reach, starts]
    rfl
  | ok place =>
    rw [locate_of_start ((start_join some proper).trans starts) cuts, if_pos isName,
      reach_of_start starts]
    rcases same with same | same
    · rw [same]
    · rw [same, walk_idle (by decide)]

theorem locate_above (cuts : Path.parts path = front ++ [name]) (isName : isName name = true)
    (starts : volume.start path = .ok place) (walked : volume.walk place front = .ok directory) :
    volume.locate (Path.above path) = .ok directory := by
  apply locate_of_reach
  rcases Path.above_of_name cuts isName with ⟨rfl, rfl, above⟩ | ⟨kept, first, above⟩ |
    ⟨some, ⟨back, isPath⟩, parts⟩
  · -- The path is a name, which like a point starts in the working directory.
    obtain rfl : place = directory := Except.ok.inj walked
    have whole : '/' ∉ path.toList := Path.not_mem_of_mem_parts (by rw [cuts]; exact .head [])
    have relative : path.toList.head? ≠ some '/' := fun first =>
      whole (List.mem_of_mem_head? first)
    have here : volume.start "." = .ok place := by
      rw [start] at starts ⊢
      split at starts
      · cases starts
      split at starts
      · cases starts
      exact starts
    rw [above, reach_of_start here]
    rfl
  · have root : volume.start "/" = .ok place := by
      rw [← starts]
      refine start_congr (by decide) (start_eq_ok starts).2 ?_ first.symm
      exact iff_of_false (by decide) (start_eq_ok starts).1
    rw [above, reach_of_start root, ← walked, ← List.reverse_reverse front, ← walk_dropIdle, kept]
    exact walk_idle (by decide) place [""]
  · rw [isPath] at starts
    rw [reach_of_start (start_left some starts), parts, walk_dropIdle, List.reverse_reverse, walked]

/-! ### Writing files -/

theorem read_of_locate (located : volume.locate path = .ok place)
    (held : volume.find? place = some (.file content)) : volume.read path = .ok content := by
  simp only [read, get, located, held, bind, Except.bind]
  rfl

theorem read_eq_ok (isOk : volume.read path = .ok content) :
    ∃ place, volume.locate path = .ok place ∧ volume.find? place = some (.file content) := by
  simp only [read, get, bind, Except.bind] at isOk
  cases located : volume.locate path with
  | error fault =>
    rw [located] at isOk
    cases isOk
  | ok place =>
    refine ⟨place, rfl, ?_⟩
    rw [located] at isOk
    simp only at isOk
    cases held : volume.find? place with
    | none =>
      rw [held] at isOk
      cases isOk
    | some item =>
      rw [held] at isOk
      cases item with
      | directory => cases isOk
      | file content => rw [Except.ok.inj isOk]

/-- The place of something new, from the parts that are left without empty ones at the end. -/
theorem locateNew_of_start (starts : volume.start path = .ok place)
    (trimmed : ((Path.parts path).reverse.dropWhile (· == "")).reverse = front ++ [last])
    (whenIdle : Fault) :
    volume.locateNew path whenIdle =
      if isName last then (· ++ [last]) <$> volume.walk place front
      else volume.walk place (front ++ [last]) >>= fun _ => .error whenIdle := by
  simp only [locateNew, starts, bind, Except.bind, trimmed, List.getLast?_concat,
    List.dropLast_concat]
  split
  · cases volume.walk place front <;> rfl
  · rfl

theorem locateNew_eq_ok {whenIdle : Fault} (isOk : volume.locateNew path whenIdle = .ok place) :
    ∃ start front above last, volume.start path = .ok start ∧
      ((Path.parts path).reverse.dropWhile (· == "")).reverse = front ++ [last] ∧
      isName last = true ∧ volume.walk start front = .ok above ∧ place = above ++ [last] := by
  cases starts : volume.start path with
  | error fault =>
    rw [locateNew, starts] at isOk
    cases isOk
  | ok start =>
    cases trimmed : ((Path.parts path).reverse.dropWhile (· == "")).reverse using
      List.reverseRecOn with
    | nil =>
      simp only [locateNew, starts, bind, Except.bind, trimmed] at isOk
      cases isOk
    | append_singleton front last _ =>
      rw [locateNew_of_start starts trimmed] at isOk
      split at isOk
      next isName =>
        cases walked : volume.walk start front with
        | error fault =>
          rw [walked] at isOk
          cases isOk
        | ok above =>
          rw [walked] at isOk
          exact ⟨start, front, above, last, rfl, rfl, isName, walked, (Except.ok.inj isOk).symm⟩
      next =>
        cases walked : volume.walk start (front ++ [last]) with
        | error fault =>
          rw [walked] at isOk
          cases isOk
        | ok found =>
          rw [walked] at isOk
          cases isOk

theorem trimmed_of_last (some : last ≠ "") (cuts : Path.parts path = front ++ [last]) :
    ((Path.parts path).reverse.dropWhile (· == "")).reverse = front ++ [last] := by
  simp [cuts, some]

/-- A file is written where its path leads, at a place that is no directory. -/
theorem write_eq_ok (isOk : volume.write path content = .ok after) :
    ∃ place, volume.locate path = .ok place ∧ place ≠ [] ∧
      volume.find? place ≠ some .directory ∧ after = volume.put place (.file content) := by
  rw [write, locateFile] at isOk
  cases located : volume.locateNew path .isDirectory with
  | error fault =>
    rw [located] at isOk
    cases isOk
  | ok place =>
    rw [located] at isOk
    simp only [bind, Except.bind] at isOk
    rcases locateNew_eq_ok located with ⟨start, front, above, last, starts, trimmed, isName,
      walked, rfl⟩
    split at isOk
    · cases isOk
    next found =>
      split at found
      · cases found
      next noSlash =>
        split at found
        · cases found
        next free =>
          cases found
          cases isOk
          rcases Path.exists_last path with ⟨before, final, cuts⟩
          rw [Path.getLast?_eq_slash (start_eq_ok starts).2 cuts] at noSlash
          rw [trimmed_of_last noSlash cuts] at trimmed
          rcases List.append_inj' trimmed rfl with ⟨rfl, same⟩
          obtain rfl := List.singleton_inj.mp same
          refine ⟨above ++ [final], ?_, by simp, free, rfl⟩
          rw [locate_of_start starts cuts, if_pos isName, walked]
          rfl

/-- A file is written at a name in a directory, unless a directory stands there. -/
theorem write_join (full : path ≠ "") (proper : Path.isProper name = true)
    (reached : volume.reach path = .ok directory)
    (free : volume.find? (directory ++ [name]) ≠ some .directory) (content : ByteArray) :
    volume.write (Path.join path name) content =
      .ok (volume.put (directory ++ [name]) (.file content)) := by
  rcases Path.isProper_iff.mp proper with ⟨isName, whole, _⟩
  have named := Path.ne_of_isName isName
  rcases Path.parts_join full whole with ⟨front, cuts, _⟩
  have located : volume.locate (Path.join path name) = .ok (directory ++ [name]) := by
    rw [locate_join full proper, reached]
    rfl
  rcases exists_start located with ⟨place, starts⟩
  have noSlash : ¬ (Path.join path name).toList.getLast? = some '/' := by
    rwa [Path.getLast?_eq_slash (Path.join_ne named) cuts]
  have new : volume.locateNew (Path.join path name) .isDirectory = .ok (directory ++ [name]) := by
    rw [locateNew_of_start starts (trimmed_of_last named cuts), if_pos isName]
    rw [locate_of_start starts cuts, if_pos isName] at located
    exact located
  simp only [write, locateFile, new, bind, Except.bind, if_neg noSlash, if_neg free]
  rfl

/-! ### Creating directories -/

/-- A tree that grows: what stands somewhere stays. -/
structure Grows (before after : Volume) : Prop where
  home : after.home = before.home
  kept : ∀ {location item}, before.find? location = some item →
    after.find? location = some item

theorem makeDirectory_grows (isOk : volume.makeDirectory path = .ok after) :
    volume.Grows after := by
  rw [makeDirectory] at isOk
  cases located : volume.locateNew path .alreadyExists with
  | error fault =>
    rw [located] at isOk
    cases isOk
  | ok location =>
    rcases locateNew_eq_ok located with ⟨_, _, above, last, _, _, _, _, rfl⟩
    rw [located] at isOk
    simp only [bind, Except.bind] at isOk
    split at isOk
    · cases isOk
    next free =>
      obtain rfl : volume.put (above ++ [last]) .directory = after := Except.ok.inj isOk
      refine ⟨rfl, fun {other item} held => ?_⟩
      rw [find?_put volume (by simp), if_neg ?_, held]
      rintro rfl
      rw [free] at held
      cases held

theorem makeDirectories_grows (isOk : volume.makeDirectories path = .ok after) :
    volume.Grows after := by
  rw [makeDirectories] at isOk
  generalize path.length + 1 = bound at isOk
  induction bound generalizing path after with
  | zero => cases isOk
  | succ bound ih =>
    rw [makeDirectoriesWithin] at isOk
    split at isOk
    · cases isOk
      exact ⟨rfl, id⟩
    · split at isOk
      next made =>
        cases isOk
        exact makeDirectory_grows made
      next =>
        split at isOk
        · cases isOk
        · split at isOk
          next above =>
            have first := ih above
            have second := makeDirectory_grows isOk
            exact ⟨second.home.trans first.home, fun held => second.kept (first.kept held)⟩
          · cases isOk
      next =>
        split at isOk
        · cases isOk
          exact ⟨rfl, id⟩
        · cases isOk

theorem makeDirectories_of_locate (isOk : volume.locate path = .ok directory)
    (held : volume.find? directory = some .directory) :
    volume.makeDirectories path = .ok volume := by
  rcases exists_start isOk with ⟨place, starts⟩
  have made : volume.makeDirectory path = .error .alreadyExists := by
    have walked := reach_of_locate isOk held
    rw [reach_of_start starts, ← List.reverse_reverse (Path.parts path), ← walk_trimmed] at walked
    cases trimmed : ((Path.parts path).reverse.dropWhile (· == "")).reverse using
      List.reverseRecOn with
    | nil => simp only [makeDirectory, locateNew, starts, bind, Except.bind, trimmed]; rfl
    | append_singleton front last _ =>
      rw [trimmed] at walked
      rw [makeDirectory, locateNew_of_start starts trimmed]
      split
      next named =>
        rcases walk_concat_eq_ok named walked with ⟨above, entered, rfl⟩
        rw [entered]
        simp only [Functor.map, Except.map, bind, Except.bind, held]
      next =>
        rw [walked]
        rfl
  have isDirectory : volume.isDirectory path = true := by
    simp only [isDirectory, get, isOk, bind, Except.bind, held]
    rfl
  have full : path.isEmpty = false := by simpa using (start_eq_ok starts).2
  rw [makeDirectories, makeDirectoriesWithin, full, made, isDirectory]
  rfl

/-! ### Trees in which directories stay -/

section

variable (home : after.home = before.home)
  (stay : ∀ {location}, before.find? location = some .directory →
    after.find? location = some .directory)

include stay

theorem walk_of_stay {parts : List String} (isOk : before.walk location parts = .ok place) :
    after.walk location parts = .ok place := by
  have entered : ∀ {location found : Location} {part : String},
      before.enter location part = .ok found → after.enter location part = .ok found := by
    intro location found part isOk
    rw [enter] at isOk ⊢
    split at isOk
    next idle => rw [if_pos idle, isOk]
    next named =>
      rw [if_neg named]
      split at isOk
      next up => rw [if_pos up, isOk]
      next down =>
        rw [if_neg down]
        split at isOk
        next held => rw [stay held, isOk]
        next => cases isOk
        next => cases isOk
  induction parts generalizing location with
  | nil => exact isOk
  | cons part rest ih =>
    rw [walk] at isOk ⊢
    split at isOk
    next reached =>
      rw [entered reached]
      exact ih isOk
    next => cases isOk

include home

theorem start_of_stay (isOk : before.start path = .ok place) : after.start path = .ok place := by
  rw [start] at isOk ⊢
  split at isOk
  · cases isOk
  next text =>
    rw [if_neg text]
    split at isOk
    · cases isOk
    next some =>
      rw [if_neg some]
      split at isOk
      next root => rw [if_pos root, isOk]
      next relative =>
        rw [if_neg relative]
        split at isOk
        next held => rw [home, if_pos (stay held), isOk]
        next => cases isOk

/-- Where directories stay, paths lead where they led. -/
theorem locate_of_stay (isOk : before.locate path = .ok place) :
    after.locate path = .ok place := by
  rcases exists_start isOk with ⟨start, starts⟩
  rcases Path.exists_last path with ⟨front, last, cuts⟩
  rw [locate_of_start starts cuts] at isOk
  rw [locate_of_start (start_of_stay home stay starts) cuts]
  split at isOk
  next isName =>
    rw [if_pos isName]
    cases found : before.walk start front with
    | error fault =>
      rw [found] at isOk
      cases isOk
    | ok above =>
      rw [found] at isOk
      rw [walk_of_stay stay found, ← isOk]
  next noName =>
    rw [if_neg noName]
    exact walk_of_stay stay isOk

end

/-! ### Well-formed volumes -/

/-- A volume lists every place once, under proper names and below directories. -/
structure WellFormed (volume : Volume) : Prop where
  distinct : (volume.items.map Prod.fst).Nodup
  named : ∀ entry ∈ volume.items, ∀ name ∈ entry.1, Path.isProper name = true
  held : ∀ entry ∈ volume.items,
    entry.1 ≠ [] ∧ volume.find? entry.1.dropLast = some .directory

namespace WellFormed

variable {item : Item}

theorem find?_of_mem (wellFormed : volume.WellFormed) (listed : (location, item) ∈ volume.items) :
    volume.find? location = some item := by
  have lookup : ∀ items : List (Location × Item), (items.map Prod.fst).Nodup →
      (location, item) ∈ items → items.lookup location = some item := by
    intro items distinct member
    induction items with
    | nil => cases member
    | cons entry rest ih =>
      rcases entry with ⟨place, held⟩
      rw [List.map_cons, List.nodup_cons] at distinct
      rcases List.mem_cons.mp member with same | later
      · cases same
        simp
      · have differs : location ≠ place := by
          rintro rfl
          exact distinct.1 (List.mem_map.mpr ⟨_, later, rfl⟩)
        have missed : (location == place) = false := by simpa using differs
        rw [List.lookup_cons, missed]
        exact ih distinct.2 later
  have inside := (wellFormed.held _ listed).1
  simp only at inside
  simp [find?, inside, lookup _ wellFormed.distinct listed]

theorem mem_of_find? (inside : location ≠ []) (found : volume.find? location = some item) :
    (location, item) ∈ volume.items := by
  have listed : ∀ items : List (Location × Item), items.lookup location = some item →
      (location, item) ∈ items := by
    intro items found
    induction items with
    | nil => cases found
    | cons entry rest ih =>
      rcases entry with ⟨place, held⟩
      rw [List.lookup_cons] at found
      split at found
      next same =>
        cases found
        rw [beq_iff_eq.mp same]
        exact .head _
      next => exact .tail _ (ih found)
  simp only [find?, List.isEmpty_iff, inside, if_false] at found
  exact listed _ found

/-- What stands below a directory has a proper name, and stands in a directory. -/
theorem find?_concat (wellFormed : volume.WellFormed) {front : Location}
    (found : volume.find? (front ++ [name]) = some item) :
    Path.isProper name = true ∧ volume.find? front = some .directory := by
  have listed := mem_of_find? (by simp) found
  have above := (wellFormed.held _ listed).2
  rw [List.dropLast_concat] at above
  exact ⟨wellFormed.named _ listed name (by simp), above⟩

theorem enter_directory (wellFormed : volume.WellFormed) {found : Location}
    (held : volume.find? location = some .directory)
    (isOk : volume.enter location part = .ok found) :
    volume.find? found = some .directory := by
  rw [enter] at isOk
  split at isOk
  next => rwa [← Except.ok.inj isOk]
  split at isOk
  next =>
    rw [← Except.ok.inj isOk]
    by_cases inside : location = []
    · rwa [inside, List.dropLast_nil, ← inside]
    · exact (wellFormed.held _ (mem_of_find? inside held)).2
  split at isOk
  next here => rwa [← Except.ok.inj isOk]
  next => cases isOk
  next => cases isOk

theorem walk_directory (wellFormed : volume.WellFormed) {found : Location} {parts : List String}
    (held : volume.find? location = some .directory)
    (isOk : volume.walk location parts = .ok found) : volume.find? found = some .directory := by
  induction parts generalizing location with
  | nil => rwa [← Except.ok.inj isOk]
  | cons part rest ih =>
    rw [walk] at isOk
    split at isOk
    next between entered => exact ih (wellFormed.enter_directory held entered) isOk
    next => cases isOk

end WellFormed

/-! ### Searching a directory -/

/-- What a search meets lies below its base, under the names that lead to it. -/
theorem mem_entriesBelow {base : Location} {recursive : Bool}
    (located : volume.locate path = .ok base) {entry : Entry} :
    entry ∈ volume.entriesBelow path recursive ↔
      entry.names ≠ [] ∧ (recursive = true ∨ entry.names.length = 1) ∧
        ∃ item, (base ++ entry.names, item) ∈ volume.items ∧
          entry.isFile = (item != .directory) := by
  rw [entriesBelow, located]
  simp only [List.mem_filterMap]
  constructor
  · rintro ⟨⟨location, item⟩, listed, isEntry⟩
    split at isEntry
    next below =>
      cases isEntry
      simp only [Bool.and_eq_true, Bool.not_eq_true', List.isEmpty_eq_false_iff, Bool.or_eq_true,
        beq_iff_eq] at below
      rcases List.isPrefixOf_iff_prefix.mp below.1.1 with ⟨names, rfl⟩
      rw [List.drop_left] at below ⊢
      exact ⟨below.1.2, below.2, item, listed, rfl⟩
    next => cases isEntry
  · rintro ⟨some, deep, item, listed, isFile⟩
    refine ⟨_, listed, ?_⟩
    rw [List.drop_left, if_pos (by simpa [some] using deep), ← isFile]

theorem WellFormed.nodup_entriesBelow (wellFormed : volume.WellFormed) (path : String)
    (recursive : Bool) : ((volume.entriesBelow path recursive).map Entry.names).Nodup := by
  rw [entriesBelow]
  split
  · exact .nil
  next base _ =>
    refine List.pairwise_map.mpr (.filterMap _ ?_ (List.pairwise_map.mp wellFormed.distinct))
    -- Entries with the same names would be at the same place below the base.
    rintro ⟨first, _⟩ ⟨second, _⟩ differs entry isEntry other isOther same
    dsimp only at isEntry isOther
    split at isEntry
    next below =>
      split at isOther
      next belowToo =>
        cases isEntry
        cases isOther
        simp only [Bool.and_eq_true] at below belowToo
        rcases List.isPrefixOf_iff_prefix.mp below.1.1 with ⟨names, rfl⟩
        rcases List.isPrefixOf_iff_prefix.mp belowToo.1.1 with ⟨names', rfl⟩
        apply differs
        simpa using same
      next => cases isOther
    next => cases isEntry

end SqlLayout.Volume
