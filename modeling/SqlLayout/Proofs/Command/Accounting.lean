import SqlLayout.Command.Run
import SqlLayout.Command.Session
import SqlLayout.Proofs.Formatting

/-!
# Accounts of runs

On any host, whatever its operations answer, each selected file meets one fate: what the host
answers about the file decides it (`Handles`). The counts of a run are those of the fates of the
selected files, so that the exit code tells whether some file met a bad one.
-/

namespace SqlLayout

/-! ### Programs and states -/

/-- What a program gives, and the state that it leaves. -/
def Runs {σ α : Type} (program : StateM σ α) (before : σ) (value : α) (after : σ) : Prop :=
  program.run before = (value, after)

namespace Runs

variable {σ α β : Type} {program : StateM σ α} {before after : σ} {value : α} {result : β}

theorem of_run (program : StateM σ α) (before : σ) :
    Runs program before (program.run before).1 (program.run before).2 :=
  rfl

theorem unique {other : α} {last : σ} (runs : Runs program before value after)
    (again : Runs program before other last) : value = other ∧ after = last :=
  Prod.mk.inj (runs.symm.trans again)

theorem bind_iff {rest : α → StateM σ β} :
    Runs (program >>= rest) before result after ↔
      ∃ value between, Runs program before value between ∧
      Runs (rest value) between result after := by
  constructor
  · intro runs
    exact ⟨_, _, rfl, runs⟩
  · rintro ⟨value, between, first, second⟩
    rw [Runs] at first second ⊢
    rw [StateT.run_bind, first]
    exact second

theorem bind_iff_of_runs {rest : α → StateM σ β} {between : σ}
    (runs : Runs program before value between) :
    Runs (program >>= rest) before result after ↔ Runs (rest value) between result after := by
  refine bind_iff.trans ⟨?_, fun later => ⟨value, between, runs, later⟩⟩
  rintro ⟨other, next, again, later⟩
  obtain ⟨rfl, rfl⟩ := runs.unique again
  exact later

theorem pure_iff {given : α} :
    Runs (pure given) before value after ↔ given = value ∧ before = after :=
  Prod.mk.injEq .. ▸ Iff.rfl

theorem pure_pair_iff {first : α} {second : β} :
    Runs (pure (first, second)) before (value, result) after ↔
      first = value ∧ second = result ∧ before = after := by
  rw [pure_iff, Prod.mk.injEq, and_assoc]

end Runs

/-! ### Fates -/

/-- What became of a selected file. -/
inductive Fate where
  /-- It could not be read as text. -/
  | unreadable
  /-- It held nothing to format. -/
  | empty
  /-- It needed error recovery, and such results are not wanted. -/
  | refused
  /-- It was formatted before. -/
  | unchanged
  /-- It could not be copied before it was to be overwritten. -/
  | unsaved
  /-- The result could not be written. -/
  | unwritten
  | written
deriving DecidableEq, Repr

/-- A file that was skipped or not written. -/
def Fate.isBad : Fate → Bool
  | unreadable | refused | unsaved | unwritten => true
  | _ => false

/-- A file for which there was nothing to do. -/
def Fate.isIdle : Fate → Bool
  | empty | unchanged => true
  | _ => false

def Report.enter (report : Report) (fate : Fate) : Report :=
  if fate.isBad then report.warn else if fate = .written then report.wrote else report

/-- The log line about a file that an operation fails for. -/
def Fault.about (path : String) (fault : Fault) : String :=
  s!"{path}: {fault.message}"

section

variable {σ : Type} [Host (StateM σ)] {path text script : String}

/-- A text is written to a file, with the directories on the way to it, or one of the two fails. -/
inductive Stores (path text : String) : σ → Except Fault Unit → σ → Prop where
  | noParents {before after : σ} {fault : Fault}
      (made : Runs (makeParents path) before (.error fault) after) :
      Stores path text before (.error fault) after
  | file {before between after : σ} {result : Except Fault Unit}
      (made : Runs (makeParents path) before (.ok ()) between)
      (written : Runs (Host.write path text.toUTF8) between result after) :
      Stores path text before result after

/-- Whether a result was written decides a fate. A failure is noted in the log. -/
inductive Settles (message : Fault → String) : Except Fault Unit → σ → Fate → σ → Prop where
  | written {state : σ} : Settles message (.ok ()) state .written state
  | failed {before after : σ} {fault : Fault}
      (logged : Runs (Host.log .error (message fault)) before () after) :
      Settles message (.error fault) before .unwritten after

inductive Delivers (settings : RunSettings) (set : FileSet) (names : List String)
    (script text : String) :
    Target → σ → Fate → Target → σ → Prop where
  | unchanged {state : σ} (same : text = script) :
      Delivers settings set names script text .inPlace state .unchanged .inPlace state
  | unsaved {before between after : σ} {fault : Fault} (differs : text ≠ script)
      (copied : Runs (backUp settings (set.path names)) before (.error fault) between)
      (logged : Runs (Host.log .error s!"{set.path names}: backup failed: {fault.message}")
        between () after) :
      Delivers settings set names script text .inPlace before .unsaved .inPlace after
  | inPlace {before saved between after : σ} {result : Except Fault Unit} {fate : Fate}
      (differs : text ≠ script)
      (copied : Runs (backUp settings (set.path names)) before (.ok ()) saved)
      (stores : Stores (set.path names) text saved result between)
      (settles : Settles (Fault.about (set.path names)) result between fate after) :
      Delivers settings set names script text .inPlace before fate .inPlace after
  | directory {before between after : σ} {result : Except Fault Unit} {fate : Fate} {path : String}
      (stores : Stores (Path.join path ("/".intercalate names)) text before result between)
      (settles : Settles (Fault.about (Path.join path ("/".intercalate names))) result
        between fate after) :
      Delivers settings set names script text (.directory path) before fate (.directory path) after
  | combined {before between after : σ} {result : Except Fault Unit} {fate : Fate}
      {output held : Combined}
      (put : Runs (output.putBatch text) before (held, result) between)
      (settles : Settles (fun fault => s!"Writing combined output failed: {fault.message}")
        result between fate
        after) :
      Delivers settings set names script text (.combined output) before fate (.combined held) after

inductive Handles (style : Style) (settings : RunSettings) (set : FileSet) (names : List String) :
    Target → σ → Fate → Target → σ → Prop where
  | unreadable {target : Target} {before between after : σ} {fault : Fault}
      (read : Runs (readText (set.path names)) before (.error fault) between)
      (logged : Runs (Host.log .error (fault.about (set.path names))) between () after) :
      Handles style settings set names target before .unreadable target after
  | empty {target : Target} {before after : σ}
      (read : Runs (readText (set.path names)) before (.ok "") after) :
      Handles style settings set names target before .empty target after
  | refused {target : Target} {before first second after : σ} {script : String} {result : Formatted}
      (read : Runs (readText (set.path names)) before (.ok script) first) (some : script ≠ "")
      (formatted : format style script = .ok result)
      (noted : Runs (formatLogged style script) first (.ok result) second)
      (recovered : result.parseError = true) (unwanted : settings.allowParsingErrors = false)
      (logged : Runs
        (Host.log .warning s!"{set.path names}: errors encountered while parsing, file skipped")
        second () after) :
      Handles style settings set names target before .refused target after
  | delivered {target next : Target} {before first second after : σ} {script : String}
      {result : Formatted} {fate : Fate}
      (read : Runs (readText (set.path names)) before (.ok script) first) (some : script ≠ "")
      (formatted : format style script = .ok result)
      (noted : Runs (formatLogged style script) first (.ok result) second)
      (accepted : result.parseError = true → settings.allowParsingErrors = true)
      (delivers : Delivers settings set names script result.text target second fate next after) :
      Handles style settings set names target before fate next after

/-- The turn of a selected file in a run: where results go then, the state that the file is found
in, and what becomes of it. -/
structure Turn (σ : Type) where
  names : List String
  target : Target
  before : σ
  fate : Fate

/-- Selected files take their turns one after the other. -/
inductive Unfolds (style : Style) (settings : RunSettings) (set : FileSet) :
    Target → σ → List (Turn σ) → Target → σ → Prop where
  | nil {target : Target} {state : σ} : Unfolds style settings set target state [] target state
  | cons {target next last : Target} {before between after : σ} {names : List String} {fate : Fate}
      {turns : List (Turn σ)}
      (first : Handles style settings set names target before fate next between)
      (later : Unfolds style settings set next between turns last after) :
      Unfolds style settings set target before ({ names, target, before, fate } :: turns) last after

/-- A file is read, and it is empty, or it is its own result in place. -/
def Turn.Settled (style : Style) (settings : RunSettings) (set : FileSet) (turn : Turn σ) : Prop :=
  ∃ script after, Runs (readText (set.path turn.names)) turn.before (.ok script) after ∧
    (script = "" ∨ turn.target = .inPlace ∧ ∃ result, format style script = .ok result ∧
      (result.parseError = true → settings.allowParsingErrors = true) ∧ result.text = script)

variable {style : Style} {settings : RunSettings} {set : FileSet} {names : List String}
  {report counted : Report} {target next other : Target} {before after last : σ} {fate again : Fate}

/-! ### The answers of the host decide the fate -/

theorem Stores.unique {result different : Except Fault Unit}
    (stores : Stores path text before result after) (too : Stores path text before different last) :
    result = different ∧ after = last := by
  cases stores with
  | noParents made =>
    cases too with
    | noParents madeToo => exact made.unique madeToo
    | file madeToo _ => cases (made.unique madeToo).1
  | file made written =>
    cases too with
    | noParents madeToo => cases (made.unique madeToo).1
    | file madeToo writtenToo =>
      obtain rfl := (made.unique madeToo).2
      exact written.unique writtenToo

theorem Settles.unique {message : Fault → String} {result : Except Fault Unit}
    (settles : Settles message result before fate after)
    (too : Settles message result before again last) : fate = again ∧ after = last := by
  cases settles with
  | written =>
    cases too
    exact ⟨rfl, rfl⟩
  | failed logged =>
    cases too with
    | failed loggedToo => exact ⟨rfl, (logged.unique loggedToo).2⟩

theorem Delivers.unique
    (delivers : Delivers settings set names script text target before fate next after)
    (too : Delivers settings set names script text target before again other last) :
    fate = again ∧ next = other ∧ after = last := by
  cases delivers with
  | unchanged same =>
    cases too with
    | unchanged => exact ⟨rfl, rfl, rfl⟩
    | unsaved differs | inPlace differs => exact absurd same differs
  | unsaved differs copied logged =>
    cases too with
    | unchanged same => exact absurd same differs
    | unsaved _ copiedToo loggedToo =>
      rcases copied.unique copiedToo with ⟨same, rfl⟩
      cases same
      exact ⟨rfl, rfl, (logged.unique loggedToo).2⟩
    | inPlace _ copiedToo => cases (copied.unique copiedToo).1
  | inPlace differs copied stores settles =>
    cases too with
    | unchanged same => exact absurd same differs
    | unsaved _ copiedToo => cases (copied.unique copiedToo).1
    | inPlace _ copiedToo storesToo settlesToo =>
      obtain rfl := (copied.unique copiedToo).2
      rcases stores.unique storesToo with ⟨rfl, rfl⟩
      rcases settles.unique settlesToo with ⟨rfl, rfl⟩
      exact ⟨rfl, rfl, rfl⟩
  | directory stores settles =>
    cases too with
    | directory storesToo settlesToo =>
      rcases stores.unique storesToo with ⟨rfl, rfl⟩
      rcases settles.unique settlesToo with ⟨rfl, rfl⟩
      exact ⟨rfl, rfl, rfl⟩
  | combined put settles =>
    cases too with
    | combined putToo settlesToo =>
      rcases put.unique putToo with ⟨same, rfl⟩
      cases same
      rcases settles.unique settlesToo with ⟨rfl, rfl⟩
      exact ⟨rfl, rfl, rfl⟩

theorem Handles.unique (handles : Handles style settings set names target before fate next after)
    (too : Handles style settings set names target before again other last) :
    fate = again ∧ next = other ∧ after = last := by
  cases handles with
  | unreadable read logged =>
    cases too with
    | unreadable readToo loggedToo =>
      rcases read.unique readToo with ⟨same, rfl⟩
      cases same
      exact ⟨rfl, rfl, (logged.unique loggedToo).2⟩
    | empty readToo | refused readToo | delivered readToo => cases (read.unique readToo).1
  | empty read =>
    cases too with
    | unreadable readToo => cases (read.unique readToo).1
    | empty readToo => exact ⟨rfl, rfl, (read.unique readToo).2⟩
    | refused readToo full | delivered readToo full =>
      exact absurd (Except.ok.inj (read.unique readToo).1).symm full
  | refused read full _ noted recovered unwanted logged =>
    cases too with
    | unreadable readToo => cases (read.unique readToo).1
    | empty readToo => exact absurd (Except.ok.inj (read.unique readToo).1) full
    | refused readToo _ _ notedToo _ _ loggedToo =>
      rcases read.unique readToo with ⟨same, rfl⟩
      cases same
      obtain rfl := (noted.unique notedToo).2
      exact ⟨rfl, rfl, (logged.unique loggedToo).2⟩
    | delivered readToo _ _ notedToo accepted =>
      rcases read.unique readToo with ⟨same, rfl⟩
      cases same
      cases (noted.unique notedToo).1
      cases unwanted.symm.trans (accepted recovered)
  | delivered read full _ noted accepted delivers =>
    cases too with
    | unreadable readToo => cases (read.unique readToo).1
    | empty readToo => exact absurd (Except.ok.inj (read.unique readToo).1) full
    | refused readToo _ _ notedToo recovered unwanted =>
      rcases read.unique readToo with ⟨same, rfl⟩
      cases same
      cases (noted.unique notedToo).1
      cases unwanted.symm.trans (accepted recovered)
    | delivered readToo _ _ notedToo _ deliversToo =>
      rcases read.unique readToo with ⟨same, rfl⟩
      cases same
      rcases noted.unique notedToo with ⟨same, rfl⟩
      cases same
      exact delivers.unique deliversToo

theorem Unfolds.unique {turns others : List (Turn σ)}
    (unfolds : Unfolds style settings set target before turns next after)
    (too : Unfolds style settings set target before others other last)
    (same : turns.map Turn.names = others.map Turn.names) : turns = others := by
  induction unfolds generalizing others with
  | nil => simpa using same
  | cons first _ ih =>
    cases too with
    | nil => simp at same
    | cons firstToo laterToo =>
      obtain ⟨rfl, rest⟩ : _ = _ ∧ _ = _ := by simpa using same
      obtain ⟨rfl, rfl, rfl⟩ := first.unique firstToo
      rw [ih laterToo rest]

theorem Delivers.isIdle_iff
    (delivers : Delivers settings set names script text target before fate next after) :
    fate.isIdle = true ↔ target = .inPlace ∧ text = script := by
  have written : ∀ {message : Fault → String} {result : Except Fault Unit} {between : σ},
      Settles message result between fate after → fate.isIdle = false := by
    intro message result between settles
    cases settles <;> rfl
  cases delivers with
  | unchanged same => simp [Fate.isIdle, same]
  | unsaved differs => simp [Fate.isIdle, differs]
  | inPlace differs _ _ settles => simp [written settles, differs]
  | directory _ settles => simp [written settles]
  | combined _ settles => simp [written settles]

/-- Nothing is done for a file exactly if it is empty or its own result. -/
theorem Handles.isIdle_iff
    (handles : Handles style settings set names target before fate next after) :
    fate.isIdle = true ↔ Turn.Settled style settings set { names, target, before, fate } := by
  -- What is read, and how it is formatted, is known: the two sides speak of the same script and
  -- result.
  cases handles with
  | unreadable read _ =>
    refine ⟨nofun, ?_⟩
    rintro ⟨script, _, readToo, _⟩
    cases (read.unique readToo).1
  | empty read => exact ⟨fun _ => ⟨"", _, read, .inl rfl⟩, fun _ => rfl⟩
  | refused read some formatted _ recovered unwanted _ =>
    refine ⟨nofun, ?_⟩
    rintro ⟨script, _, readToo, isEmpty | ⟨_, result, formattedToo, accepted, _⟩⟩
    · cases (read.unique readToo).1
      exact absurd isEmpty some
    · cases (read.unique readToo).1
      cases formatted.symm.trans formattedToo
      rw [accepted recovered] at unwanted
      cases unwanted
  | delivered read some formatted _ accepted delivers =>
    rw [delivers.isIdle_iff]
    constructor
    · rintro ⟨inPlace, same⟩
      exact ⟨_, _, read, .inr ⟨inPlace, _, formatted, accepted, same⟩⟩
    · rintro ⟨script, _, readToo, isEmpty | ⟨inPlace, result, formattedToo, _, same⟩⟩
      · cases (read.unique readToo).1
        exact absurd isEmpty some
      · cases (read.unique readToo).1
        cases formatted.symm.trans formattedToo
        exact ⟨inPlace, same⟩

theorem Unfolds.isIdle_iff {turns : List (Turn σ)}
    (unfolds : Unfolds style settings set target before turns next after) :
    ∀ turn ∈ turns, turn.fate.isIdle = true ↔ turn.Settled style settings set := by
  induction unfolds with
  | nil => simp
  | cons first _ ih => exact List.forall_mem_cons.mpr ⟨first.isIdle_iff, ih⟩

/-! ### The counts of one file -/

theorem Runs.skip {severity : Severity} {message : String}
    (runs : Runs (skip report severity message) before counted after) :
    counted = report.warn ∧ Runs (Host.log severity message) before () after := by
  obtain ⟨_, between, logged, isPure⟩ := Runs.bind_iff.mp runs
  obtain ⟨rfl, rfl⟩ := Runs.pure_iff.mp isPure
  exact ⟨rfl, logged⟩

theorem Runs.countWritten {result : Except Fault Unit}
    (runs : Runs (countWritten report path result) before counted after) :
    ∃ fate, counted = report.enter fate ∧ Settles (Fault.about path) result before fate after := by
  cases result with
  | ok =>
    obtain ⟨rfl, rfl⟩ := Runs.pure_iff.mp runs
    exact ⟨.written, rfl, .written⟩
  | error fault =>
    obtain ⟨rfl, logged⟩ := Runs.skip runs
    exact ⟨.unwritten, rfl, .failed logged⟩

theorem Runs.writeFile (runs : Runs (writeFile report path text) before counted after) :
    ∃ result between fate, counted = report.enter fate ∧ Stores path text before result between ∧
      Settles (Fault.about path) result between fate after := by
  obtain ⟨made, between, isMade, rest⟩ := Runs.bind_iff.mp runs
  cases made with
  | ok =>
    obtain ⟨result, stored, written, rest⟩ := Runs.bind_iff.mp rest
    obtain ⟨fate, isFate, settles⟩ := Runs.countWritten rest
    exact ⟨result, stored, fate, isFate, .file isMade written, settles⟩
  | error fault =>
    obtain ⟨fate, isFate, settles⟩ := Runs.countWritten rest
    exact ⟨_, between, fate, isFate, .noParents isMade, settles⟩

theorem Runs.writeInPlace
    (runs : Runs (writeInPlace settings report (set.path names) script text) before counted after) :
    ∃ fate, counted = report.enter fate ∧
      Delivers settings set names script text .inPlace before fate .inPlace after := by
  rw [SqlLayout.writeInPlace] at runs
  split at runs
  next same =>
    obtain ⟨rfl, rfl⟩ := Runs.pure_iff.mp runs
    exact ⟨.unchanged, rfl, .unchanged same⟩
  next differs =>
    obtain ⟨copied, saved, isCopied, rest⟩ := Runs.bind_iff.mp runs
    cases copied with
    | ok =>
      obtain ⟨result, between, fate, isFate, stores, settles⟩ := Runs.writeFile rest
      exact ⟨fate, isFate, .inPlace differs isCopied stores settles⟩
    | error fault =>
      obtain ⟨rfl, logged⟩ := Runs.skip rest
      exact ⟨.unsaved, rfl, .unsaved differs isCopied logged⟩

/-- The result for a file is written, or why not is noted, and the file is counted accordingly. -/
theorem Runs.deliver
    (runs : Runs (deliver settings set target report names script text) before
      (next, counted) after) :
    ∃ fate, counted = report.enter fate ∧
      Delivers settings set names script text target before fate next after := by
  cases target with
  | inPlace =>
    obtain ⟨_, between, written, isPure⟩ := Runs.bind_iff.mp runs
    obtain ⟨rfl, rfl, rfl⟩ := Runs.pure_pair_iff.mp isPure
    exact Runs.writeInPlace written
  | directory path =>
    obtain ⟨_, between, written, isPure⟩ := Runs.bind_iff.mp runs
    obtain ⟨rfl, rfl, rfl⟩ := Runs.pure_pair_iff.mp isPure
    obtain ⟨result, between, fate, isFate, stores, settles⟩ := Runs.writeFile written
    exact ⟨fate, isFate, .directory stores settles⟩
  | combined output =>
    obtain ⟨⟨held, result⟩, between, put, rest⟩ := Runs.bind_iff.mp runs
    cases result with
    | ok =>
      obtain ⟨rfl, rfl, rfl⟩ := Runs.pure_pair_iff.mp rest
      exact ⟨.written, rfl, .combined put .written⟩
    | error fault =>
      obtain ⟨_, _, skipped, isPure⟩ := Runs.bind_iff.mp rest
      obtain ⟨rfl, rfl, rfl⟩ := Runs.pure_pair_iff.mp isPure
      obtain ⟨rfl, logged⟩ := Runs.skip skipped
      exact ⟨.unwritten, rfl, .combined put (.failed logged)⟩

theorem Runs.formatLogged {result : Except FormatError Formatted}
    (runs : Runs (formatLogged style script) before result after) :
    ∃ formatted, result = .ok formatted ∧ format style script = .ok formatted := by
  obtain ⟨tree, draft, isTree, shown, built⟩ := Tree.ofTokens_shows (.ofText script)
  obtain ⟨text, isText⟩ := shown.format_ok built.sound style defaultWarning
  have isOk := format_eq_ok isTree isText
  refine ⟨_, ?_, isOk⟩
  rw [SqlLayout.formatLogged, isOk] at runs
  dsimp only at runs
  split at runs
  · obtain ⟨_, _, _, isPure⟩ := Runs.bind_iff.mp runs
    exact (Runs.pure_iff.mp isPure).1.symm
  · exact (Runs.pure_iff.mp runs).1.symm

/-- A selected file is counted once, by what becomes of it. -/
theorem Runs.formatFile
    (runs : Runs (formatFile style settings set target report names) before (next, counted) after) :
    ∃ fate, counted = report.enter fate ∧
      Handles style settings set names target before fate next after := by
  obtain ⟨read, first, isRead, rest⟩ := Runs.bind_iff.mp runs
  cases read with
  | error fault =>
    obtain ⟨_, between, skipped, isPure⟩ := Runs.bind_iff.mp rest
    obtain ⟨rfl, rfl, rfl⟩ := Runs.pure_pair_iff.mp isPure
    obtain ⟨rfl, logged⟩ := Runs.skip skipped
    exact ⟨.unreadable, rfl, .unreadable isRead logged⟩
  | ok script =>
    dsimp only at rest
    split at rest
    next isEmpty =>
      obtain ⟨rfl, rfl, rfl⟩ := Runs.pure_pair_iff.mp rest
      obtain rfl : script = "" := by simpa using isEmpty
      exact ⟨.empty, rfl, .empty isRead⟩
    next notEmpty =>
      have some : script ≠ "" := by simpa using notEmpty
      obtain ⟨result, second, noted, rest⟩ := Runs.bind_iff.mp rest
      obtain ⟨formatted, rfl, isFormatted⟩ := Runs.formatLogged noted
      dsimp only at rest
      split at rest
      next refused =>
        obtain ⟨recovered, unwanted⟩ : formatted.parseError = true ∧
            settings.allowParsingErrors = false := by
          simpa using refused
        obtain ⟨_, between, skipped, isPure⟩ := Runs.bind_iff.mp rest
        obtain ⟨rfl, rfl, rfl⟩ := Runs.pure_pair_iff.mp isPure
        obtain ⟨rfl, logged⟩ := Runs.skip skipped
        exact ⟨.refused, rfl, .refused isRead some isFormatted noted recovered unwanted logged⟩
      next wanted =>
        have accepted : formatted.parseError = true → settings.allowParsingErrors = true := by
          simpa using wanted
        obtain ⟨fate, isFate, delivers⟩ := Runs.deliver rest
        exact ⟨fate, isFate, .delivered isRead some isFormatted noted accepted delivers⟩

/-! ### The counts of a run -/

theorem Runs.formatAll {files : List (List String)}
    (runs : Runs (formatAll style settings set target report files) before (next, counted) after) :
    ∃ turns, turns.map Turn.names = files ∧
      counted = (turns.map Turn.fate).foldl Report.enter report ∧
      Unfolds style settings set target before turns next after := by
  induction files generalizing target report before with
  | nil =>
    obtain ⟨rfl, rfl, rfl⟩ := Runs.pure_pair_iff.mp runs
    exact ⟨[], rfl, rfl, .nil⟩
  | cons names files ih =>
    obtain ⟨⟨between, entered⟩, _, first, rest⟩ := Runs.bind_iff.mp runs
    obtain ⟨fate, rfl, handles⟩ := Runs.formatFile first
    obtain ⟨turns, rfl, isCounted, later⟩ := ih rest
    exact ⟨{ names, target, before, fate } :: turns, rfl, isCounted, .cons handles later⟩

theorem Runs.formatSet (runs : Runs (formatSet style settings set) before (.ok report) after) :
    ∃ target opened turns last handled, Runs (openTarget settings) before (.ok target) opened ∧
      Unfolds style settings set target opened turns last handled ∧
      turns.map Turn.names = set.files ∧
      report = (turns.map Turn.fate).foldl Report.enter { filesFound := set.files.length } := by
  obtain ⟨target, opened, isTarget, rest⟩ := Runs.bind_iff.mp runs
  cases target with
  | error error => cases (Runs.pure_iff.mp rest).1
  | ok target =>
    obtain ⟨⟨last, counted⟩, handled, all, rest⟩ := Runs.bind_iff.mp rest
    obtain ⟨turns, isFiles, rfl, unfolds⟩ := Runs.formatAll all
    obtain ⟨finished, _, _, rest⟩ := Runs.bind_iff.mp rest
    refine ⟨target, opened, turns, last, handled, isTarget, unfolds, isFiles, ?_⟩
    cases finished with
    | error fault => cases (Runs.pure_iff.mp rest).1
    | ok =>
      obtain ⟨_, _, _, isPure⟩ := Runs.bind_iff.mp rest
      exact (Except.ok.inj (Runs.pure_iff.mp isPure).1).symm

end

theorem Report.foldl_enter (fates : List Fate) (report : Report) :
    fates.foldl enter report =
      { report with
        filesWritten := report.filesWritten + fates.count .written
        warnings := report.warnings + fates.countP Fate.isBad } := by
  induction fates generalizing report with
  | nil => rfl
  | cons fate fates ih =>
    rw [List.foldl_cons, ih, List.count_cons, List.countP_cons]
    cases fate <;> simp [enter, Fate.isBad, warn, wrote] <;> omega

/-- No file is counted twice. -/
theorem Fate.count_add_countP (fates : List Fate) :
    fates.count .written + fates.countP isBad + fates.countP isIdle = fates.length := by
  induction fates with
  | nil => rfl
  | cons fate fates ih =>
    rw [List.count_cons, List.countP_cons, List.countP_cons, List.length_cons]
    cases fate <;> simp [isBad, isIdle] <;> omega

/-- The counts of a run are exact, on any host and whatever its operations answer. The selected
files take their turns in order, and the answers of the host determine what becomes of each. All the
selected files are counted as found; of these, those that were written are counted as such, and
those that could not be read, were refused or could not be copied or written as warnings. Neither is
counted exactly for a file that is empty or its own result in place. The exit code tells whether
there are warnings. -/
theorem runFiles_accounts {σ : Type} [Host (StateM σ)] (style : Style) {settings : RunSettings}
    (formats : settings.dumpTree = false) {input : String} {before after : σ} {report : Report}
    (runs : Runs (runFiles style settings input) before (.ok report) after) :
    ∃ set found target opened turns last handled,
      Runs (findFiles input settings.extensions settings.recursive) before (.ok set) found ∧
      Runs (openTarget settings) found (.ok target) opened ∧
      Unfolds style settings set target opened turns last handled ∧
      turns.map Turn.names = set.files ∧
      (∀ others last handled, Unfolds style settings set target opened others last handled →
        others.map Turn.names = set.files → others = turns) ∧
      report.filesFound = set.files.length ∧
      report.filesWritten = turns.countP (·.fate == .written) ∧
      report.warnings = turns.countP (·.fate.isBad) ∧
      report.filesWritten + report.warnings + turns.countP (·.fate.isIdle) = report.filesFound ∧
      (∀ turn ∈ turns, turn.fate.isIdle = true ↔ turn.Settled style settings set) ∧
      (report.exitCode = 5 ↔ ∃ turn ∈ turns, turn.fate.isBad = true) := by
  obtain ⟨set, found, isFound, rest⟩ := Runs.bind_iff.mp runs
  cases set with
  | error error => cases (Runs.pure_iff.mp rest).1
  | ok set =>
    dsimp only at rest
    split at rest
    · cases (Runs.pure_iff.mp rest).1
    rw [formats] at rest
    obtain ⟨target, opened, turns, last, handled, isTarget, unfolds, isFiles, rfl⟩ :=
      Runs.formatSet rest
    have counts := Fate.count_add_countP (turns.map Turn.fate)
    rw [Report.foldl_enter]
    refine ⟨set, found, target, opened, turns, last, handled, isFound, isTarget, unfolds, isFiles,
      ?_, rfl, ?_, ?_, ?_, unfolds.isIdle_iff, ?_⟩
    · intro others _ _ unfoldsToo isFilesToo
      exact unfoldsToo.unique unfolds (isFilesToo.trans isFiles.symm)
    · simp [List.count, List.countP_map, Function.comp_def]
    · simp [List.countP_map, Function.comp_def]
    · rw [← isFiles]
      simpa [List.countP_map, Function.comp_def] using counts
    · simp [Report.exitCode, List.countP_pos_iff]

/-- A session with a script whose copy would fall on a directory, an empty one, one that is to be
formatted, one that is formatted, and a file that is no text. -/
def Session.fiveScripts : Session :=
  { volume :=
      { items := [(["a.sql"], .file "select 1".toUTF8), (["a.sql.bak"], .directory),
          (["b.sql"], .file .empty), (["c.sql"], .file "select 2".toUTF8),
          (["d.sql"], .file "SELECT\n\t3\n".toUTF8), (["e.sql"], .file ⟨#[255]⟩)] } }

def FileSet.fiveScripts : FileSet :=
  ⟨".", [["a.sql"], ["b.sql"], ["c.sql"], ["d.sql"], ["e.sql"]]⟩

theorem Session.runs_findFiles_fiveScripts :
    Runs (findFiles "." [".sql"] false) fiveScripts (.ok .fiveScripts) fiveScripts := by
  have isDirectory : Runs (Host.isDirectory ".") fiveScripts true fiveScripts :=
    Prod.ext (by decide +kernel) rfl
  have status : Runs (Host.status ".") fiveScripts (.ok true) fiveScripts :=
    Prod.ext (by decide +kernel) rfl
  have listed := Runs.of_run (Host.entriesBelow "." false) fiveScripts
  have selected : ((fiveScripts.volume.entriesBelow "." false).filter
      (isSelected none [".sql"])).map Entry.names = FileSet.fiveScripts.files := by decide +kernel
  have sorted : selectFiles none [".sql"] (fiveScripts.volume.entriesBelow "." false) =
      FileSet.fiveScripts.files := by
    rw [selectFiles, selected]
    exact List.mergeSort_of_pairwise (by decide)
  rw [findFiles, Runs.bind_iff_of_runs isDirectory]
  simp only [searchPlan, if_true]
  rw [Runs.bind_iff_of_runs status]
  simp only
  rw [Runs.bind_iff_of_runs listed, Runs.pure_iff]
  exact ⟨congrArg (fun files => Except.ok (FileSet.mk "." files)) sorted, rfl⟩

/-- One file is written, two are not, and for two there is nothing to do. -/
theorem runFiles_accounts_fiveScripts :
    ∃ after : Session,
      Runs (runFiles {} { backups := true } ".") Session.fiveScripts
        (.ok { filesFound := 5, filesWritten := 1, warnings := 2 }) after ∧
      ∃ (set : FileSet) (target : Target) (opened : Session) (turns : List (Turn Session))
        (last : Target) (handled : Session),
        Unfolds {} { backups := true } set target opened turns last handled ∧
        turns.map Turn.names = set.files ∧ 5 = set.files.length ∧
        1 = turns.countP (·.fate == .written) ∧ 2 = turns.countP (·.fate.isBad) ∧
        1 + 2 + turns.countP (·.fate.isIdle) = 5 := by
  have counts : ((formatSet {} { backups := true } .fiveScripts : StateM Session _).run
      .fiveScripts).1 = .ok { filesFound := 5, filesWritten := 1, warnings := 2 } := by
    decide +kernel
  have formats := Runs.of_run (formatSet {} { backups := true } .fiveScripts) Session.fiveScripts
  rw [counts] at formats
  generalize ((formatSet {} { backups := true } .fiveScripts : StateM Session _).run
    .fiveScripts).2 = after at formats
  have runs : Runs (runFiles {} { backups := true } ".") Session.fiveScripts
      (.ok { filesFound := 5, filesWritten := 1, warnings := 2 }) after := by
    rw [runFiles, Runs.bind_iff_of_runs Session.runs_findFiles_fiveScripts]
    exact formats
  obtain ⟨set, _, target, opened, turns, last, handled, _, _, unfolds, isFiles, _, found, written,
    warned, total, _⟩ := runFiles_accounts {} rfl runs
  exact ⟨_, runs, set, target, opened, turns, last, handled, unfolds, isFiles, found,
    written, warned, total⟩

end SqlLayout
