import EntryProbe.Proofs.InPlace
import EntryProbe.Proofs.Rounds
import EntryProbe.Proofs.Walks

/-!
# Files reported as instrumented

A file is reported as instrumented when it has an entry point, and the profiling block goes
into the entry functions of the file that have a body. The two questions are asked of the
same functions, but only one of them looks at the body. So a file whose entry functions are
all declared without a body is rewritten and reported, with the imports and without a block.

What a report says for certain is `EntryProbe.Build.Reported`: the text that was written is
the print of the instrumented tree, and nothing else has changed.

* `EntryProbe.Profiling.carriesBlock_instrument` – an instrumented tree carries the block
  exactly if one of its entry functions has a body;
* `EntryProbe.Build.reported_of_ok_true` – the three ways to process a file, and every tree
  with an entry point.
-/

namespace EntryProbe

namespace Profiling

open Go

/-- The declaration is an entry function whose body starts with a statement. -/
def StartsWith (stmt : Stmt) (decl : Decl) : Prop :=
  ∃ rest bodySpan span, decl = .func ⟨"main", none, [], none, some ⟨stmt :: rest, bodySpan⟩, span⟩

/-- Some entry function of the file starts with the profiling block. -/
def CarriesBlock (profile : String) (file : SourceFile) : Prop :=
  ∃ decl ∈ file.decls, StartsWith (preamble profile) decl

/-- Some entry function of the file has a body. -/
def DefinesEntry (file : SourceFile) : Prop :=
  ∃ decl ∈ file.decls, isEntryWithBody decl = true

theorem StartsWith.isEntryWithBody {stmt : Stmt} {decl : Decl} (h : StartsWith stmt decl) :
    isEntryWithBody decl = true := by
  obtain ⟨rest, bodySpan, span, rfl⟩ := h
  rfl

/-- What is put in front of a body is what the body starts with. -/
theorem startsWith_withFront (stmt : Stmt) {decl : Decl} (h : isEntryWithBody decl = true) :
    StartsWith stmt (withFront [stmt] decl) := by
  unfold isEntryWithBody at h
  split at h
  · exact ⟨_, _, _, rfl⟩
  · cases h

/-- **An instrumented tree carries the block** exactly if some entry function has a body.
The imports that come first are not functions. -/
theorem carriesBlock_instrument (file : SourceFile) (profile : String) :
    CarriesBlock profile (instrument file profile).1 ↔ DefinesEntry file := by
  rw [instrument_eq]
  constructor
  · rintro ⟨decl, hmem, hstarts⟩
    have hentry := hstarts.isEntryWithBody
    rcases List.mem_append.mp hmem with himport | hdecl
    · obtain ⟨path, -, rfl⟩ := List.mem_map.mp himport
      cases hentry
    · obtain ⟨old, hold, rfl⟩ := List.mem_map.mp hdecl
      rw [isEntryWithBody_withFront] at hentry
      exact ⟨old, hold, hentry⟩
  · rintro ⟨decl, hmem, hentry⟩
    exact ⟨_, List.mem_append_right _ (List.mem_map_of_mem hmem), startsWith_withFront _ hentry⟩

/-- A block is counted exactly if some entry function has a body. -/
theorem one_le_preamblesInserted (file : SourceFile) (profile : String) :
    1 ≤ (instrument file profile).2.preamblesInserted ↔ DefinesEntry file := by
  rw [instrument_eq]
  exact List.countP_pos_iff

end Profiling

namespace Build

open Go Profiling

/-- **What a report stands for**: the source holds a file with an entry point, and the print
of the instrumented tree is what now stands at a location. All else is as it was. -/
structure Reported (before after : FileSystem) (cwd : Location) (source : Path)
    (profile : String) (place : Location) (file : SourceFile) (out : String) : Prop where
  /-- The file is what the source holds. -/
  parse_eq : ∃ text, before.readText cwd source = .ok text ∧ parse text = .ok file
  /-- It has an entry point. -/
  hasEntryPoint : file.hasEntryPoint = true
  /-- The instrumented tree can be printed. -/
  print_eq : (instrument file profile).1.print = some out
  /-- The print was written, and nothing else. -/
  changedAt : before.ChangedAt after place (.ofText out)

section

variable {cwd : Location} {world after : World}

/-- A step that ends well after another one. -/
theorem perform_bind_eq_ok {α β : Type} {action : Action α} {next : α → Action β} {b : β} :
    (action >>= next).perform world = (.ok b, after) ↔
      ∃ a mid, action.perform world = (.ok a, mid) ∧ (next a).perform mid = (.ok b, after) := by
  rw [Action.perform_bind]
  rcases action.perform world with ⟨failure | a, mid⟩
  · simp
  · simp

theorem perform_orFail_eq_ok {ε α : Type} {error : ε → Error} {result : Except ε α} {a : α} :
    (Action.orFail error result).perform world = (.ok a, after) ↔
      result = .ok a ∧ after = world := by
  rw [Action.perform_orFail]
  cases result with
  | error cause => simp
  | ok value => simp [eq_comm]

/-- What is found in a source is what it holds, with an entry point. -/
theorem perform_entryFile?_eq_some {path : Path} {file : SourceFile}
    (h : (entryFile? cwd path).perform world = (.ok (some file), after)) :
    after = world ∧ (∃ text, world.files.readText cwd path = .ok text ∧ parse text = .ok file) ∧
      file.hasEntryPoint = true := by
  rw [perform_entryFile?, Prod.mk.injEq] at h
  obtain ⟨hfound, rfl⟩ := h
  refine ⟨rfl, ?_⟩
  rcases htext : world.files.readText cwd path with cause | text
  · simp [htext] at hfound
  rcases hparse : parse text with cause | found
  · simp [htext, hparse] at hfound
  by_cases hentry : found.hasEntryPoint = true
  · simp only [htext, hparse, hentry, if_true, Except.ok.injEq, Option.some.injEq] at hfound
    subst hfound
    exact ⟨⟨text, rfl, hparse⟩, hentry⟩
  · simp [htext, hparse, hentry] at hfound

/-- A file that could be written holds the print. -/
theorem perform_writeFile_eq_ok {place : Location} (hbelow : place ≠ []) {file : SourceFile}
    (h : (writeFile place file).perform world = (.ok (), after)) :
    ∃ out, file.print = some out ∧ world.files.ChangedAt after.files place (.ofText out) := by
  rw [perform_writeFile] at h
  rcases hprint : file.print with _ | out
  · simp [hprint] at h
  · simp only [hprint, Prod.mk.injEq, true_and] at h
    subst h
    exact ⟨out, rfl, FileSystem.changedAt_insert_insert _ _ _ hbelow⟩

/-- A file that was found is instrumented and written to a location below the root. -/
theorem reported_of_writeFile {path : Path} {profile : String} {place : Location}
    {file changed : SourceFile} {first second : World}
    (hfound : (entryFile? cwd path).perform world = (.ok (some file), first))
    (hchanged : (instrumented file profile).perform first = (.ok changed, second))
    (hbelow : place ≠ [])
    (hwritten : (writeFile place changed).perform second = (.ok (), after)) :
    ∃ out, Reported world.files after.files cwd path profile place file out := by
  obtain ⟨rfl, hparse, hentry⟩ := perform_entryFile?_eq_some hfound
  obtain ⟨events, hinstrumented⟩ := perform_instrumented profile first file
  rw [hinstrumented] at hchanged
  cases hchanged
  obtain ⟨out, hprint, hplace⟩ := perform_writeFile_eq_ok hbelow hwritten
  exact ⟨out, hparse, hentry, hprint, hplace⟩

/-- Nothing is put in the place of the root. -/
theorem ne_nil_of_newEntry {files : FileSystem} {path : Path} {place : Location}
    (h : files.newEntry cwd path = .ok place) : place ≠ [] := by
  rintro rfl
  obtain ⟨-, hfree⟩ := FileSystem.newEntry_eq_ok.mp h
  simp at hfree

/-- A file is reported that was written to a new place. -/
theorem reported_of_processSource {task : Task}
    (h : (task.processSource cwd).perform world = (.ok true, after)) :
    ∃ place file out, world.files.newEntry cwd task.destination = .ok place ∧
      Reported world.files after.files cwd task.source task.profile place file out := by
  rw [Task.processSource, perform_bind_eq_ok] at h
  obtain ⟨found, first, hfound, h⟩ := h
  cases found with
  | none =>
    obtain ⟨-, mid, -, h⟩ := perform_bind_eq_ok.mp h
    simp at h
  | some file =>
    simp only [perform_bind_eq_ok, perform_orFail_eq_ok, Action.perform_files,
      Action.perform_pure, Prod.mk.injEq, Except.ok.injEq] at h
    obtain ⟨changed, second, hchanged, fs, third, ⟨rfl, rfl⟩, place, fourth, ⟨hplace, rfl⟩,
      done, last, hwritten, -, rfl⟩ := h
    obtain ⟨out, hreported⟩ :=
      reported_of_writeFile hfound hchanged (ne_nil_of_newEntry hplace) hwritten
    -- finding and instrumenting the file have left the files alone
    obtain ⟨rfl, -⟩ := perform_entryFile?_eq_some hfound
    obtain ⟨events, hinstrumented⟩ := perform_instrumented task.profile first file
    rw [hinstrumented] at hchanged
    cases hchanged
    exact ⟨place, file, out, hplace, hreported⟩

theorem reported_of_process {task : Task}
    (h : (task.process cwd).perform world = (.ok true, after)) :
    ∃ place file out, world.files.newEntry cwd task.destination = .ok place ∧
      Reported world.files after.files cwd task.source task.profile place file out := by
  unfold Task.process at h
  split at h
  · exact reported_of_processSource h
  · obtain ⟨-, mid, -, h⟩ := perform_bind_eq_ok.mp h
    simp at h

/-- A file is reported that was written where it is. -/
theorem reported_of_processInPlace {path : Path} {profile : String}
    (h : (processInPlace cwd path profile).perform world = (.ok true, after)) :
    ∃ place file out, world.files.resolve cwd path = .ok place ∧
      Reported world.files after.files cwd path profile place file out := by
  by_cases hleads : ∃ file, LeadsTo world.files cwd path file
  · obtain ⟨file, hleads⟩ := hleads
    obtain ⟨place, -, hplace, hbelow, -, -⟩ := hleads.exists_place
    obtain ⟨events, hrun⟩ := perform_processInPlace_of_leadsTo hleads hplace profile
    rw [hrun] at h
    rcases hprint : (instrument file profile).1.print with _ | out
    · simp [hprint] at h
    · simp only [hprint, Prod.mk.injEq, true_and] at h
      subst h
      exact ⟨place, file, out, hplace, hleads.parse_eq, hleads.hasEntryPoint, hprint,
        FileSystem.changedAt_insert_insert _ _ _ hbelow⟩
  · obtain ⟨result, hrun, hresult⟩ := perform_processInPlace_of_not_leadsTo
      (fun file hfile => hleads ⟨file, hfile⟩) profile
    rw [hrun] at h
    cases h
    exact absurd rfl hresult

end

/-- **A file that is reported as instrumented** holds the print of the instrumented tree,
whichever way it was processed, and that tree carries the profiling block exactly if an entry
function of the file has a body. In the same way, instrumenting a tree with an entry point
counts at least one block exactly if one of its entry functions has a body. -/
theorem reported_of_ok_true (cwd : Location) (world after : World) :
    (∀ task : Task, (task.process cwd).perform world = (.ok true, after) →
      ∃ place file out, world.files.newEntry cwd task.destination = .ok place ∧
        Reported world.files after.files cwd task.source task.profile place file out ∧
        (CarriesBlock task.profile (instrument file task.profile).1 ↔ DefinesEntry file)) ∧
    (∀ task : Task, (task.processSource cwd).perform world = (.ok true, after) →
      ∃ place file out, world.files.newEntry cwd task.destination = .ok place ∧
        Reported world.files after.files cwd task.source task.profile place file out ∧
        (CarriesBlock task.profile (instrument file task.profile).1 ↔ DefinesEntry file)) ∧
    (∀ path profile, (processInPlace cwd path profile).perform world = (.ok true, after) →
      ∃ place file out, world.files.resolve cwd path = .ok place ∧
        Reported world.files after.files cwd path profile place file out ∧
        (CarriesBlock profile (instrument file profile).1 ↔ DefinesEntry file)) ∧
    (∀ (file : SourceFile) (profile : String), file.hasEntryPoint = true →
      (1 ≤ (instrument file profile).2.preamblesInserted ↔ DefinesEntry file)) := by
  refine ⟨fun task h => ?_, fun task h => ?_, fun path profile h => ?_,
    fun file profile _ => one_le_preamblesInserted file profile⟩
  · obtain ⟨place, file, out, hplace, hreported⟩ := reported_of_process h
    exact ⟨place, file, out, hplace, hreported, carriesBlock_instrument file _⟩
  · obtain ⟨place, file, out, hplace, hreported⟩ := reported_of_processSource h
    exact ⟨place, file, out, hplace, hreported, carriesBlock_instrument file _⟩
  · obtain ⟨place, file, out, hplace, hreported⟩ := reported_of_processInPlace h
    exact ⟨place, file, out, hplace, hreported, carriesBlock_instrument file _⟩

/-- Two programs: the entry function of one is only declared, that of the other has a body. -/
def twoPrograms : World where
  files := ⟨[(["declared.go"], .ofText "package main\n\nfunc main()\n"),
    (["defined.go"], .ofText "package main\n\nfunc main() \x7b\x7d\n")], by simp⟩
  events := []

/-- Whether one of the two programs defines its entry function. -/
theorem definesEntry_twoPrograms (path : Path) (defined : Bool)
    (hcheck : (twoPrograms.files.readText [] path).toOption.any (fun text =>
      (parse text).toOption.any fun file => file.decls.any isEntryWithBody == defined) = true)
    {file : SourceFile}
    (h : ∃ text, twoPrograms.files.readText [] path = .ok text ∧ parse text = .ok file) :
    DefinesEntry file ↔ defined = true := by
  obtain ⟨text, htext, hparse⟩ := h
  obtain ⟨text', htext', hcheck⟩ := exists_ok_of_any hcheck
  obtain ⟨file', hparse', hcheck⟩ := exists_ok_of_any hcheck
  obtain rfl : text = text' := Except.ok.inj (htext.symm.trans htext')
  obtain rfl : file = file' := Except.ok.inj (hparse.symm.trans hparse')
  rw [← eq_of_beq hcheck, DefinesEntry, List.any_eq_true]

/-- A step that reports a file. -/
theorem perform_eq_of_any (action : Action Bool) (world : World)
    (h : (action.perform world).1.toOption.any (fun found => found == true) = true) :
    ∃ after, action.perform world = (.ok true, after) :=
  ⟨_, Prod.ext (eq_ok_of_any h) rfl⟩

/-- A program with a body is reported where it is. -/
theorem perform_processInPlace_twoPrograms : ∃ after,
    (processInPlace [] ⟨"defined.go"⟩ "p").perform twoPrograms = (.ok true, after) := by
  have hcheck : (twoPrograms.files.readText [] ⟨"defined.go"⟩).toOption.any (fun text =>
      (parse text).toOption.any fun file =>
        file.hasEntryPoint && !decide file.HasEarlyDecl) = true := by
    decide +kernel
  obtain ⟨text, htext, hcheck⟩ := exists_ok_of_any hcheck
  obtain ⟨file, hparse, hcheck⟩ := exists_ok_of_any hcheck
  rw [Bool.and_eq_true, Bool.not_eq_true', decide_eq_false_iff_not] at hcheck
  have hleads : LeadsTo twoPrograms.files [] ⟨"defined.go"⟩ file :=
    ⟨by decide +kernel, ⟨text, htext, hparse⟩, hcheck.1⟩
  obtain ⟨place, -, hplace, -, -, -⟩ := hleads.exists_place
  obtain ⟨events, hrun⟩ := perform_processInPlace_of_leadsTo hleads hplace "p"
  obtain ⟨out, hout⟩ := exists_print_instrument hparse hcheck.2 "p"
  rw [hout] at hrun
  exact ⟨_, hrun⟩

theorem reported_twoPrograms :
    (∃ after place file out,
      (Task.process [] ⟨⟨"declared.go"⟩, ⟨"out.go"⟩, "p"⟩).perform twoPrograms = (.ok true, after) ∧
      Reported twoPrograms.files after.files [] ⟨"declared.go"⟩ "p" place file out ∧
      ¬ CarriesBlock "p" (instrument file "p").1) ∧
    (∃ after place file out,
      (Task.processSource [] ⟨⟨"declared.go"⟩, ⟨"out.go"⟩, "p"⟩).perform twoPrograms =
        (.ok true, after) ∧
      Reported twoPrograms.files after.files [] ⟨"declared.go"⟩ "p" place file out ∧
      ¬ 1 ≤ (instrument file "p").2.preamblesInserted) ∧
    (∃ after place file out,
      (processInPlace [] ⟨"defined.go"⟩ "p").perform twoPrograms = (.ok true, after) ∧
      Reported twoPrograms.files after.files [] ⟨"defined.go"⟩ "p" place file out ∧
      CarriesBlock "p" (instrument file "p").1) := by
  refine ⟨?_, ?_, ?_⟩
  · obtain ⟨after, hresult⟩ := perform_eq_of_any
      (Task.process [] ⟨⟨"declared.go"⟩, ⟨"out.go"⟩, "p"⟩) twoPrograms (by decide +kernel)
    obtain ⟨place, file, out, -, hreported, hcarries⟩ :=
      (reported_of_ok_true [] twoPrograms after).1 _ hresult
    have hdefines := definesEntry_twoPrograms ⟨"declared.go"⟩ false
      (by decide +kernel) hreported.parse_eq
    exact ⟨after, place, file, out, hresult, hreported, by rw [hcarries, hdefines]; simp⟩
  · obtain ⟨after, hresult⟩ := perform_eq_of_any
      (Task.processSource [] ⟨⟨"declared.go"⟩, ⟨"out.go"⟩, "p"⟩) twoPrograms (by decide +kernel)
    obtain ⟨place, file, out, -, hreported, -⟩ :=
      (reported_of_ok_true [] twoPrograms after).2.1 _ hresult
    have hcount := (reported_of_ok_true [] twoPrograms after).2.2.2 file "p"
      hreported.hasEntryPoint
    have hdefines := definesEntry_twoPrograms ⟨"declared.go"⟩ false
      (by decide +kernel) hreported.parse_eq
    exact ⟨after, place, file, out, hresult, hreported, by rw [hcount, hdefines]; simp⟩
  · obtain ⟨after, hresult⟩ := perform_processInPlace_twoPrograms
    obtain ⟨place, file, out, -, hreported, hcarries⟩ :=
      (reported_of_ok_true [] twoPrograms after).2.2.1 _ _ hresult
    have hdefines := definesEntry_twoPrograms ⟨"defined.go"⟩ true
      (by decide +kernel) hreported.parse_eq
    exact ⟨after, place, file, out, hresult, hreported, by rw [hcarries, hdefines]⟩

end Build

end EntryProbe
