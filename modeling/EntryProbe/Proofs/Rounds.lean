import EntryProbe.Profiling.Instrument

/-!
# Instrumenting a tree again and again

A file may be instrumented for one profile after the other without being printed in
between (`EntryProbe.Profiling.instrumentRounds`). The two parts of the work behave in
opposite ways, and this file keeps them apart. The imports are *idempotent*: the first
round puts in what is lacking, and no later round finds anything to do. The profiling
blocks *pile up*: each round puts one in front of those of the rounds before.

What is put in front of a body is said by `EntryProbe.Profiling.withFront`, which knows
nothing of rounds, and `EntryProbe.Profiling.withFront_withFront` is the law by which
blocks pile up. The main result, `EntryProbe.Profiling.instrumentRounds_cons`, gives the
tree and the reports of all rounds outright.
-/

namespace EntryProbe.Profiling

open Go

/-- A file instrumented for one profile after the other, and the report of each
round. -/
def instrumentRounds (file : SourceFile) : List String → SourceFile × List Report
  | [] => (file, [])
  | profile :: rest =>
    let (changed, report) := instrument file profile
    let (final, reports) := instrumentRounds changed rest
    (final, report :: reports)

/-- A function `main` without receiver, parameters and result that has a body. -/
def isEntryWithBody : Decl → Bool
  | .func ⟨"main", none, [], none, some _, _⟩ => true
  | _ => false

/-- A declaration with statements in front of its body, if it is such a function. -/
def withFront (front : List Stmt) : Decl → Decl
  | .func ⟨"main", none, [], none, some ⟨stmts, bodySpan⟩, span⟩ =>
    .func ⟨"main", none, [], none, some ⟨front ++ stmts, bodySpan⟩, span⟩
  | decl => decl

/-- The path literals of the two imports that no import of the file has, in their
order. -/
def lackedImports (file : SourceFile) : List String :=
  [osImport, pprofImport].filter fun path => decide (∀ spec ∈ file.importSpecs, spec.path ≠ path)

/-! ### The code and the description -/

/-- What an entry function is, spelled out. -/
theorem eq_of_isEntry {decl : FuncDecl} (h : decl.isEntry = true) :
    decl = ⟨"main", none, [], none, decl.body, decl.span⟩ := by
  obtain ⟨name, receiver, params, result, body, span⟩ := decl
  simp only [FuncDecl.isEntry, entryName, Bool.and_eq_true, beq_iff_eq, Option.isNone_iff_eq_none,
    List.isEmpty_iff] at h
  obtain ⟨⟨⟨rfl, rfl⟩, rfl⟩, rfl⟩ := h
  rfl

theorem takesPreamble_eq (decl : Decl) : takesPreamble decl = isEntryWithBody decl := by
  cases decl with
  | imports decl => rfl
  | other span => rfl
  | func decl =>
    by_cases hentry : decl.isEntry = true
    · rw [eq_of_isEntry hentry]
      cases decl.body with
      | none => rfl
      | some body => rfl
    · have hother : isEntryWithBody (.func decl) = false := by
        unfold isEntryWithBody
        split
        · next heq =>
          cases heq
          exact absurd rfl hentry
        · rfl
      simp [takesPreamble, hentry, hother]

theorem addPreamble_eq (profile : String) (decl : Decl) :
    addPreamble profile decl = withFront [preamble profile] decl := by
  cases decl with
  | imports decl => rfl
  | other span => rfl
  | func decl =>
    by_cases hentry : decl.isEntry = true
    · rw [eq_of_isEntry hentry]
      cases decl.body with
      | none => rfl
      | some body => rfl
    · rw [addPreamble, if_neg hentry]
      unfold withFront
      split
      · next heq =>
        cases heq
        exact absurd rfl hentry
      · rfl

theorem missingImports_eq (file : SourceFile) : missingImports file = lackedImports file := by
  refine List.filter_congr fun path _ => ?_
  rw [Bool.eq_iff_iff]
  simp [SourceFile.hasImport]

/-! ### Blocks pile up -/

/-- **Putting statements in front twice** puts the later ones in front of the earlier
ones. -/
theorem withFront_withFront (front front' : List Stmt) (decl : Decl) :
    withFront front (withFront front' decl) = withFront (front ++ front') decl := by
  by_cases hentry : isEntryWithBody decl = true
  · unfold isEntryWithBody at hentry
    split at hentry
    · simp [withFront]
    · cases hentry
  · have hother : ∀ front, withFront front decl = decl := by
      intro front
      unfold withFront
      split
      · exact absurd rfl hentry
      · rfl
    rw [hother, hother, hother]

theorem isEntryWithBody_withFront (front : List Stmt) (decl : Decl) :
    isEntryWithBody (withFront front decl) = isEntryWithBody decl := by
  unfold withFront
  split
  · rfl
  · rfl

theorem withFront_nil (decl : Decl) : withFront [] decl = decl := by
  unfold withFront
  split
  · rfl
  · rfl

/-- There are as many entry functions with a body as before. -/
theorem countP_map_withFront (front : List Stmt) (decls : List Decl) :
    (decls.map (withFront front)).countP isEntryWithBody = decls.countP isEntryWithBody := by
  rw [List.countP_map]
  exact List.countP_congr fun decl _ => by rw [Function.comp_apply, isEntryWithBody_withFront]

/-! ### Imports come once -/

/-- The two imports that the profiling block needs are there. -/
def HasBothImports (file : SourceFile) : Prop :=
  ∀ path ∈ [osImport, pprofImport], file.hasImport path = true

theorem hasImport_iff {file : SourceFile} {path : String} :
    file.hasImport path = true ↔
      ∃ imports, .imports imports ∈ file.decls ∧ ∃ spec ∈ imports.specs, spec.path = path := by
  simp only [SourceFile.hasImport, SourceFile.importSpecs, List.any_eq_true, List.mem_flatMap,
    beq_iff_eq]
  constructor
  · rintro ⟨spec, ⟨decl, hdecl, hspec⟩, hpath⟩
    cases decl with
    | imports imports => exact ⟨imports, hdecl, spec, hspec, hpath⟩
    | func decl => cases hspec
    | other span => cases hspec
  · rintro ⟨imports, hdecl, spec, hspec, hpath⟩
    exact ⟨spec, ⟨.imports imports, hdecl, hspec⟩, hpath⟩

/-- What a round makes of a file. -/
theorem instrument_eq (file : SourceFile) (profile : String) :
    instrument file profile =
      ({ file with
          decls := (lackedImports file).map importOf ++
            file.decls.map (withFront [preamble profile]) },
        { importsAdded := lackedImports file
          preamblesInserted := file.decls.countP isEntryWithBody
          profilerAlreadyImported := file.hasImport pprofImport }) := by
  have hadd : addPreamble profile = withFront [preamble profile] :=
    funext (addPreamble_eq profile)
  have htakes : takesPreamble = isEntryWithBody := funext takesPreamble_eq
  simp only [instrument, hadd, htakes, missingImports_eq]

/-- **After one round both imports are there.** -/
theorem hasBothImports_instrument (file : SourceFile) (profile : String) :
    HasBothImports (instrument file profile).1 := by
  intro path hpath
  rw [hasImport_iff]
  by_cases hlacks : path ∈ missingImports file
  · refine ⟨⟨[⟨none, path⟩], none⟩, ?_, ⟨none, path⟩, by simp, rfl⟩
    exact List.mem_append_left _ (List.mem_map.mpr ⟨path, hlacks, rfl⟩)
  · have himport : file.hasImport path = true := by
      simpa [missingImports, List.mem_filter, hpath] using hlacks
    obtain ⟨imports, hdecl, hspec⟩ := hasImport_iff.mp himport
    refine ⟨imports, ?_, hspec⟩
    exact List.mem_append_right _ (List.mem_map.mpr ⟨.imports imports, hdecl, rfl⟩)

theorem lackedImports_eq_nil {file : SourceFile} (h : HasBothImports file) :
    lackedImports file = [] := by
  rw [← missingImports_eq, missingImports, List.filter_eq_nil_iff]
  intro path hpath
  simp [h path hpath]

/-! ### All rounds -/

/-- **Later rounds** put blocks in front of those that are there, and nothing else. -/
theorem instrumentRounds_of_hasBothImports {file : SourceFile} (h : HasBothImports file)
    (profiles : List String) :
    instrumentRounds file profiles =
      ({ file with decls := file.decls.map (withFront (profiles.reverse.map preamble)) },
        List.replicate profiles.length
          { importsAdded := []
            preamblesInserted := file.decls.countP isEntryWithBody
            profilerAlreadyImported := true }) := by
  induction profiles generalizing file with
  | nil =>
    have hmap : file.decls.map (withFront []) = file.decls := by
      simp [funext withFront_nil]
    simp [instrumentRounds, hmap]
  | cons profile rest ih =>
    -- the round finds both imports, and leaves a file that has them
    have hround := instrument_eq file profile
    rw [lackedImports_eq_nil h, h pprofImport (by simp), List.map_nil, List.nil_append] at hround
    have hboth := hasBothImports_instrument file profile
    rw [hround] at hboth
    simp only [instrumentRounds, hround, ih hboth, countP_map_withFront]
    simp [withFront_withFront, List.replicate_succ]

/-- **Any number of rounds**, at least one. The source and the package clause stay. The
imports that were lacking come first, once; then come the declarations of the file, where
each entry function with a body has the blocks of all rounds in front, the last one
first. The first round reports the imports that were lacking, and whether the profiler was
imported before; the others report no imports, and that it was. All of them report the
number of those functions. -/
theorem instrumentRounds_cons (file : SourceFile) (profile : String) (rest : List String) :
    instrumentRounds file (profile :: rest) =
      ({ source := file.source
         package := file.package
         decls := (lackedImports file).map importOf ++
           file.decls.map (withFront ((profile :: rest).reverse.map preamble)) },
        { importsAdded := lackedImports file
          preamblesInserted := file.decls.countP isEntryWithBody
          profilerAlreadyImported :=
            decide (∃ spec ∈ file.importSpecs, spec.path = pprofImport) } ::
        List.replicate rest.length
          { importsAdded := []
            preamblesInserted := file.decls.countP isEntryWithBody
            profilerAlreadyImported := true }) := by
  -- the first round puts in the imports, which later rounds meet as declarations
  have hlater := instrumentRounds_of_hasBothImports (hasBothImports_instrument file profile) rest
  have hcount : ((lackedImports file).map importOf ++
        file.decls.map (withFront [preamble profile])).countP isEntryWithBody =
      file.decls.countP isEntryWithBody := by
    have himports : ((lackedImports file).map importOf).countP isEntryWithBody = 0 := by
      simp [List.countP_eq_zero, importOf, isEntryWithBody]
    rw [List.countP_append, himports, Nat.zero_add, countP_map_withFront]
  have hdecls : ((lackedImports file).map importOf ++
        file.decls.map (withFront [preamble profile])).map
          (withFront (rest.reverse.map preamble)) =
      (lackedImports file).map importOf ++
        file.decls.map (withFront ((profile :: rest).reverse.map preamble)) := by
    have himports : withFront (rest.reverse.map preamble) ∘ importOf = importOf := rfl
    have hdecls : withFront (rest.reverse.map preamble) ∘ withFront [preamble profile] =
        withFront ((profile :: rest).reverse.map preamble) := by
      funext decl
      simp [withFront_withFront]
    rw [List.map_append, List.map_map, List.map_map, himports, hdecls]
  have himport : file.hasImport pprofImport =
      decide (∃ spec ∈ file.importSpecs, spec.path = pprofImport) := by
    rw [Bool.eq_iff_iff]
    simp [SourceFile.hasImport]
  rw [instrument_eq] at hlater
  simp only [instrumentRounds, instrument_eq, hlater, hcount, hdecls, himport]

end EntryProbe.Profiling
