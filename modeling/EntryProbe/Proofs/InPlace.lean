import EntryProbe.Build.Task
import EntryProbe.Proofs.Instrumenting

/-!
# Processing a file where it is

A file that is processed where it is should be left as it was, or hold the
instrumented program: all or nothing (`EntryProbe.Build.AllOrNothing`). That this holds
rests on the printer, because the file is emptied before the syntax tree is printed.
It holds with one exception: a program in which a declaration starts before the package
clause that counts has ended is read but cannot be printed, and its file is lost
(`EntryProbe.Build.LosesFile`).

* `EntryProbe.Build.processInPlace_outcome` – processing a file is all or nothing
  exactly if the path does not lead to such a program; if it does, the run crashes and
  the file is empty.
-/

namespace EntryProbe

/-- One location has changed: `node` stands there, and everything else is as it was. -/
structure FileSystem.ChangedAt (before after : FileSystem) (place : Location) (node : Node) :
    Prop where
  /-- What stands at the location now. -/
  here : after.get? place = some node
  /-- All other locations. -/
  elsewhere : ∀ other, other ≠ place → after.get? other = before.get? other

namespace FileSystem

theorem changedAt_insert (files : FileSystem) {place : Location} (node : Node)
    (below : place ≠ []) : ChangedAt files (files.insert place node) place node where
  here := files.get?_insert_self node below
  elsewhere _ different := files.get?_insert_of_ne node different

theorem changedAt_insert_insert (files : FileSystem) {place : Location} (first node : Node)
    (below : place ≠ []) :
    ChangedAt files ((files.insert place first).insert place node) place node where
  here := get?_insert_self _ node below
  elsewhere other different := by
    rw [get?_insert_of_ne _ node different, get?_insert_of_ne _ first different]

/-- A text that was read stands in a file that the path leads to. -/
theorem exists_of_readText {files : FileSystem} {cwd : Location} {path : Path} {text : String}
    (h : files.readText cwd path = .ok text) :
    ∃ place content, files.resolve cwd path = .ok place ∧
      files.get? place = some (.file content) ∧ String.fromUTF8? content = some text := by
  obtain ⟨content, hbytes, h⟩ := Go.bind_eq_ok.mp h
  obtain ⟨node, hstat, hbytes⟩ := Go.bind_eq_ok.mp hbytes
  obtain ⟨place, hresolve, hstat⟩ := Go.bind_eq_ok.mp hstat
  refine ⟨place, content, hresolve, ?_, ?_⟩
  · rcases hget : files.get? place with _ | found
    · rw [hget] at hstat
      cases hstat
    · rw [hget] at hstat
      cases hstat
      cases node with
      | file bytes =>
        cases hbytes
        rfl
      | dir => cases hbytes
      | link target => cases hbytes
  · rcases htext : String.fromUTF8? content with _ | found
    · simp only [htext] at h
      cases h
    · simp only [htext] at h
      cases h
      rfl

end FileSystem

namespace Build

open Go Profiling

/-! ### Performing steps -/

namespace Action

variable {α β : Type} (world : World)

theorem perform_bind (action : Action α) (next : α → Action β) :
    (action >>= next).perform world =
      match action.perform world with
      | (.ok a, after) => (next a).perform after
      | (.error failure, after) => (.error failure, after) := by
  unfold perform ExceptT.run StateT.run
  change (match action world with
    | (result, after) => ExceptT.bindCont next result after) = _
  rcases action world with ⟨_ | a, after⟩
  · rfl
  · rfl

@[simp] theorem perform_pure (a : α) : (pure a : Action α).perform world = (.ok a, world) := rfl

@[simp] theorem perform_files : files.perform world = (.ok world.files, world) := rfl

@[simp] theorem perform_setFiles (fs : FileSystem) :
    (setFiles fs).perform world = (.ok (), { world with files := fs }) := rfl

@[simp] theorem perform_emit (event : Event) :
    (emit event).perform world = (.ok (), { world with events := world.events ++ [event] }) := rfl

@[simp] theorem perform_note (level : Level) (origin : Origin) (text : String) :
    (note level origin text).perform world =
      (.ok (), { world with events := world.events ++ [.noted ⟨level, origin, text⟩] }) := rfl

@[simp] theorem perform_throw (failure : Failure) :
    (throw failure : Action α).perform world = (.error failure, world) := rfl

theorem perform_orFail {ε : Type} (error : ε → Error) (result : Except ε α) :
    (orFail error result).perform world =
      match result with
      | .ok value => (.ok value, world)
      | .error cause => (.error (.error (error cause)), world) := by
  cases result <;> rfl

end Action

/-! ### The steps of processing a file -/

section

variable (cwd : Location) (path : Path) (profile : String) (world : World)

/-- Looking for a program changes nothing. -/
theorem perform_entryFile? :
    (entryFile? cwd path).perform world =
      (match world.files.readText cwd path with
        | .error cause => .error (.error (.read path cause))
        | .ok text =>
          match parse text with
          | .error cause => .error (.error (.parse path cause))
          | .ok file => .ok (if file.hasEntryPoint then some file else none), world) := by
  simp only [entryFile?, Action.perform_bind, Action.perform_files, Action.perform_orFail]
  rcases world.files.readText cwd path with cause | text
  · rfl
  · simp only
    rcases parse text with cause | file
    · rfl
    · rfl

/-- Instrumenting a program changes no files. -/
theorem perform_instrumented (file : SourceFile) :
    ∃ events, (instrumented file profile).perform world =
      (.ok (instrument file profile).1, { world with events }) := by
  simp only [instrumented]
  split
  · exact ⟨_, rfl⟩
  · exact ⟨world.events, rfl⟩

/-- A file is emptied, and then written if it can be printed. -/
theorem perform_writeFile (place : Location) (file : SourceFile) :
    (writeFile place file).perform world =
      match file.print with
      | some text => (.ok (), { world with
          files := (world.files.insert place (.file .empty)).insert place (.ofText text) })
      | none => (.error .crash, { world with
          files := world.files.insert place (.file .empty) }) := by
  rcases hprint : file.print with _ | text
  · simp only [writeFile, Action.perform_bind, Action.perform_files, Action.perform_setFiles,
      hprint]
    rfl
  · simp only [writeFile, Action.perform_bind, Action.perform_files, Action.perform_setFiles,
      hprint]

end

/-- The path is that of a source file, and the program `file` is read from where it
leads. -/
structure LeadsTo (files : FileSystem) (cwd : Location) (path : Path) (file : SourceFile) :
    Prop where
  /-- The name is that of a source file. -/
  isSource : isSource path = true
  /-- The file can be read. -/
  parse_eq : ∃ text, files.readText cwd path = .ok text ∧ parse text = .ok file
  /-- The program has an entry point. -/
  hasEntryPoint : file.hasEntryPoint = true

section

variable {cwd : Location} {path : Path} {world : World}

/-- A program is instrumented, and its file is emptied and then written. -/
theorem perform_processInPlace_of_leadsTo {file : SourceFile} {place : Location}
    (h : LeadsTo world.files cwd path file) (hplace : world.files.resolve cwd path = .ok place)
    (profile : String) :
    ∃ events, (processInPlace cwd path profile).perform world =
      match (instrument file profile).1.print with
      | some out => (.ok true,
          ⟨(world.files.insert place (.file .empty)).insert place (.ofText out), events⟩)
      | none => (.error .crash, ⟨world.files.insert place (.file .empty), events⟩) := by
  obtain ⟨text, htext, hparse⟩ := h.parse_eq
  obtain ⟨events, hinstrumented⟩ := perform_instrumented profile world file
  refine ⟨events, ?_⟩
  simp only [processInPlace, h.isSource, if_true, Action.perform_bind, perform_entryFile?, htext,
    hparse, h.hasEntryPoint, hinstrumented, Action.perform_files, Action.perform_orFail, hplace,
    perform_writeFile]
  rcases (instrument file profile).1.print with _ | out
  · rfl
  · rfl

/-- Where there is no program, nothing happens. -/
theorem perform_processInPlace_of_not_leadsTo
    (h : ∀ file, ¬ LeadsTo world.files cwd path file) (profile : String) :
    ∃ result, (processInPlace cwd path profile).perform world = (result, world) ∧
      result ≠ .ok true := by
  by_cases hsource : isSource path = true
  · simp only [processInPlace, hsource, if_true, Action.perform_bind, perform_entryFile?]
    rcases htext : world.files.readText cwd path with cause | text
    · exact ⟨_, rfl, by simp⟩
    simp only
    rcases hparse : parse text with cause | file
    · exact ⟨_, rfl, by simp⟩
    have hentry : file.hasEntryPoint = false := by
      rw [Bool.eq_false_iff]
      intro hentry
      exact h file ⟨hsource, ⟨text, htext, hparse⟩, hentry⟩
    simp only [hentry]
    exact ⟨_, rfl, by simp⟩
  · rw [processInPlace, if_neg hsource]
    exact ⟨_, rfl, by simp⟩

end

/-! ### All or nothing -/

/-- **All or nothing**: the path leads to a program, and its file now holds the
instrumented program and nothing else has changed; or the file was not instrumented,
and nothing has changed at all. -/
def AllOrNothing (cwd : Location) (path : Path) (profile : String) (world : World) : Prop :=
  let (result, after) := (processInPlace cwd path profile).perform world
  (result = .ok true ∧ ∃ file out place, LeadsTo world.files cwd path file ∧
      (instrument file profile).1.print = some out ∧ world.files.resolve cwd path = .ok place ∧
      FileSystem.ChangedAt world.files after.files place (.ofText out)) ∨
  (result ≠ .ok true ∧ after.files = world.files)

/-- The path leads to a program in which a declaration starts before the package clause
that counts has ended. -/
def LosesFile (files : FileSystem) (cwd : Location) (path : Path) : Prop :=
  ∃ file, LeadsTo files cwd path file ∧ file.HasEarlyDecl

/-- A program is not read from an empty file, and not from the root. -/
theorem LeadsTo.exists_place {files : FileSystem} {cwd : Location} {path : Path}
    {file : SourceFile} (h : LeadsTo files cwd path file) :
    ∃ place content, files.resolve cwd path = .ok place ∧ place ≠ [] ∧
      files.get? place = some (.file content) ∧ content ≠ .empty := by
  obtain ⟨text, htext, hparse⟩ := h.parse_eq
  obtain ⟨place, content, hplace, hget, hcontent⟩ := FileSystem.exists_of_readText htext
  refine ⟨place, content, hplace, ?_, hget, ?_⟩
  · rintro rfl
    simp at hget
  · rintro rfl
    have hempty : String.fromUTF8? ByteArray.empty = some "" := by decide
    rw [hempty] at hcontent
    cases hcontent
    cases hparse

/-- **The outcome of processing a file where it is.** It is all or nothing exactly if
the path does not lead to a program in which a declaration comes too early. If it does,
the run crashes, the file is empty, and nothing else has changed. -/
theorem processInPlace_outcome (cwd : Location) (path : Path) (profile : String)
    (world : World) :
    (AllOrNothing cwd path profile world ↔ ¬ LosesFile world.files cwd path) ∧
    (LosesFile world.files cwd path →
      ∃ after place, (processInPlace cwd path profile).perform world = (.error .crash, after) ∧
        world.files.resolve cwd path = .ok place ∧
        FileSystem.ChangedAt world.files after.files place (.file .empty)) := by
  have hlost : LosesFile world.files cwd path →
      ∃ after place content,
        (processInPlace cwd path profile).perform world = (.error .crash, after) ∧
        world.files.resolve cwd path = .ok place ∧
        world.files.get? place = some (.file content) ∧ content ≠ .empty ∧
        FileSystem.ChangedAt world.files after.files place (.file .empty) := by
    rintro ⟨file, hleads, hearly⟩
    obtain ⟨place, content, hplace, hbelow, hget, hcontent⟩ := hleads.exists_place
    obtain ⟨text, -, hparse⟩ := hleads.parse_eq
    obtain ⟨events, hrun⟩ := perform_processInPlace_of_leadsTo hleads hplace profile
    rw [print_instrument_eq_none hparse hearly profile] at hrun
    exact ⟨_, place, content, hrun, hplace, hget, hcontent,
      FileSystem.changedAt_insert _ _ hbelow⟩
  refine ⟨⟨?_, ?_⟩, ?_⟩
  · intro hall hloses
    obtain ⟨after, place, content, hrun, -, hget, hcontent, hchanged⟩ := hlost hloses
    rw [AllOrNothing, hrun] at hall
    rcases hall with ⟨hresult, -⟩ | ⟨-, hsame⟩
    · cases hresult
    · have hhere := hchanged.here
      rw [hsame, hget] at hhere
      cases hhere
      exact hcontent rfl
  · intro hsafe
    by_cases hprogram : ∃ file, LeadsTo world.files cwd path file
    · obtain ⟨file, hleads⟩ := hprogram
      have hearly : ¬ file.HasEarlyDecl := fun hearly => hsafe ⟨file, hleads, hearly⟩
      obtain ⟨place, content, hplace, hbelow, -, -⟩ := hleads.exists_place
      obtain ⟨text, -, hparse⟩ := hleads.parse_eq
      obtain ⟨out, hout⟩ := exists_print_instrument hparse hearly profile
      obtain ⟨events, hrun⟩ := perform_processInPlace_of_leadsTo hleads hplace profile
      rw [hout] at hrun
      rw [AllOrNothing, hrun]
      exact .inl ⟨rfl, file, out, place, hleads, hout, hplace,
        FileSystem.changedAt_insert_insert _ _ _ hbelow⟩
    · obtain ⟨result, hrun, hresult⟩ := perform_processInPlace_of_not_leadsTo
        (fun file hleads => hprogram ⟨file, hleads⟩) profile
      rw [AllOrNothing, hrun]
      exact .inr ⟨hresult, rfl⟩
  · intro hloses
    obtain ⟨after, place, -, hrun, hplace, -, -, hchanged⟩ := hlost hloses
    exact ⟨after, place, hrun, hplace, hchanged⟩

/-- One file with a program whose package clause is repeated at the end. -/
def repeatedClause : World where
  files := ⟨[(["main.go"], .ofText "package main; func main() \x7b\x7d; package main")], by simp⟩
  events := []

theorem processInPlace_repeatedClause :
    ∃ after, (processInPlace [] ⟨"main.go"⟩ "p").perform repeatedClause = (.error .crash, after) ∧
      after.files.get? ["main.go"] = some (.file .empty) := by
  have hcheck : (repeatedClause.files.readText [] ⟨"main.go"⟩).toOption.any (fun text =>
      (parse text).toOption.any fun file =>
        file.hasEntryPoint && decide file.HasEarlyDecl) = true := by
    decide +kernel
  obtain ⟨text, htext, hcheck⟩ := exists_ok_of_any hcheck
  obtain ⟨file, hparse, hcheck⟩ := exists_ok_of_any hcheck
  rw [Bool.and_eq_true, decide_eq_true_eq] at hcheck
  have hloses : LosesFile repeatedClause.files [] ⟨"main.go"⟩ :=
    ⟨file, ⟨by decide +kernel, ⟨text, htext, hparse⟩, hcheck.1⟩, hcheck.2⟩
  obtain ⟨after, place, hrun, hplace, hchanged⟩ :=
    (processInPlace_outcome [] ⟨"main.go"⟩ "p" repeatedClause).2 hloses
  have hresolve : (repeatedClause.files.resolve [] ⟨"main.go"⟩).toOption.any
      (fun place => place == ["main.go"]) = true := by
    decide +kernel
  obtain ⟨place', hplace', heq⟩ := exists_ok_of_any hresolve
  rw [hplace] at hplace'
  cases hplace'
  obtain rfl : place = ["main.go"] := eq_of_beq heq
  exact ⟨after, hrun, hchanged.here⟩

end Build

end EntryProbe
