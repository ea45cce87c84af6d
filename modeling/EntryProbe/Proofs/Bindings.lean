import EntryProbe.Proofs.Reading
import EntryProbe.Proofs.Rounds
import EntryProbe.Text.Unquoted

/-!
# The packages that the profiling block refers to

The profiling block refers to two packages by their names
(`EntryProbe.Profiling.qualifiers_preamble`), and a name means a package where an import binds
it. Whether an import is put in is decided by something else: by the path literals of the file,
taken as they are written, whatever local names there are. The two questions have the same
answer in most files, and this file says in which.

Two things can come between them. An import under another name has the literal but does not
bind the name, and then nothing does. And there are many literals for one path: an import with
another literal can bind the name, and then the import that is put in binds it once more.

* `EntryProbe.Profiling.bindings_eq` – how many imports bind the name after instrumenting;
* `EntryProbe.Profiling.bindings_instrument` – it is one of them, except in the two cases.
-/

namespace EntryProbe

namespace Go

/-! ### Names in front of a dot -/

mutual

/-- The names in front of a dot in an expression. -/
def Expr.qualifiers : Expr → List String
  | .ident _ => []
  | .literal _ => []
  | .selector (.ident name) _ => [name]
  | .selector operand _ => operand.qualifiers
  | .call function arguments => function.qualifiers ++ exprsQualifiers arguments
  | .binary left _ right => left.qualifiers ++ right.qualifiers

/-- The names in front of a dot in some expressions. -/
def exprsQualifiers : List Expr → List String
  | [] => []
  | expr :: rest => expr.qualifiers ++ exprsQualifiers rest

end

/-- The name that stands for itself, if the expression is one. -/
def Expr.ident? : Expr → Option String
  | .ident name => some name
  | _ => none

/-- The names that a statement declares in the block that it is in. -/
def Stmt.declared : Stmt → List String
  | .assign left .define _ => left.filterMap Expr.ident?
  | _ => []

mutual

/-- The names in front of a dot in a statement, without those that are declared in it. What is
left are names of the file: they stand for packages, or for what the file declares. -/
def Stmt.qualifiers : Stmt → List String
  | .block body =>
    (stmtsQualifiers body).filter fun name => !(body.flatMap Stmt.declared).contains name
  | .assign left _ right => exprsQualifiers left ++ exprsQualifiers right
  | .ifThen condition body =>
    condition.qualifiers ++
      (stmtsQualifiers body).filter fun name => !(body.flatMap Stmt.declared).contains name
  | .expr value => value.qualifiers
  | .return_ results => exprsQualifiers results
  | .defer function arguments => function.qualifiers ++ exprsQualifiers arguments
  | .verbatim _ => []

/-- The names in front of a dot in some statements. -/
def stmtsQualifiers : List Stmt → List String
  | [] => []
  | stmt :: rest => stmt.qualifiers ++ stmtsQualifiers rest

end

/-! ### Imports -/

/-- The import is of a path, in whichever form its literal is written. -/
def ImportSpec.Denotes (spec : ImportSpec) (path : String) : Prop :=
  unquote? spec.path = some path

/-- The package is known in the file by a name, which is its own one or a local one. -/
def ImportSpec.GoesBy (spec : ImportSpec) (name : String) : Prop :=
  spec.name = none ∨ spec.name = some name

/-- Two imports are not of the same path. -/
def ImportSpec.ApartFrom (spec other : ImportSpec) : Prop :=
  unquote? spec.path = none ∨ unquote? spec.path ≠ unquote? other.path

instance (spec : ImportSpec) (path : String) : Decidable (spec.Denotes path) :=
  inferInstanceAs (Decidable (_ = _))

instance (spec : ImportSpec) (name : String) : Decidable (spec.GoesBy name) :=
  inferInstanceAs (Decidable (_ ∨ _))

instance (spec other : ImportSpec) : Decidable (spec.ApartFrom other) :=
  inferInstanceAs (Decidable (_ ∨ _))

/-- **No path is imported twice.** -/
def SourceFile.ImportsApart (file : SourceFile) : Prop :=
  file.importSpecs.Pairwise ImportSpec.ApartFrom

instance (file : SourceFile) : Decidable file.ImportsApart :=
  inferInstanceAs (Decidable (List.Pairwise _ _))

/-- What a declaration imports. -/
def Decl.specs : Decl → List ImportSpec
  | .imports decl => decl.specs
  | _ => []

theorem SourceFile.importSpecs_eq (file : SourceFile) :
    file.importSpecs = file.decls.flatMap Decl.specs := rfl

/-- If no path is imported twice, then no other import is of the path of an import. -/
theorem SourceFile.ImportsApart.exists_split {file : SourceFile} (h : file.ImportsApart)
    {spec : ImportSpec} {path : String} (hmem : spec ∈ file.importSpecs)
    (hpath : spec.Denotes path) :
    ∃ front back, file.importSpecs = front ++ spec :: back ∧
      ∀ other ∈ front ++ back, ¬ other.Denotes path := by
  obtain ⟨front, back, hsplit⟩ := List.append_of_mem hmem
  refine ⟨front, back, hsplit, fun other hother hsame => ?_⟩
  have hpairs : (front ++ spec :: back).Pairwise ImportSpec.ApartFrom := hsplit ▸ h
  obtain ⟨-, hback, hfront⟩ := List.pairwise_append.mp hpairs
  unfold ImportSpec.Denotes at hpath hsame
  rcases List.mem_append.mp hother with hother | hother
  · rcases hfront other hother spec List.mem_cons_self with hnone | hne
    · simp [hsame] at hnone
    · exact hne (hsame.trans hpath.symm)
  · rcases (List.pairwise_cons.mp hback).1 other hother with hnone | hne
    · simp [hpath] at hnone
    · exact hne (hpath.trans hsame.symm)

/-- If no path is imported twice, then two imports of one path are the same. -/
theorem SourceFile.ImportsApart.eq_of_denotes {file : SourceFile} (h : file.ImportsApart)
    {spec other : ImportSpec} {path : String} (hmem : spec ∈ file.importSpecs)
    (hpath : spec.Denotes path) (hother : other ∈ file.importSpecs) (hsame : other.Denotes path) :
    other = spec := by
  obtain ⟨front, back, hsplit, hothers⟩ := h.exists_split hmem hpath
  have hnot : other ∉ front ++ back := fun hin => hothers other hin hsame
  rw [List.mem_append, not_or] at hnot
  simpa [hsplit, hnot.1, hnot.2] using hother

end Go

namespace Profiling

open Go

/-! ### The packages -/

/-- A package that is referred to: its path, and its name in the code. -/
structure NeededPackage where
  /-- The path that it is imported by. -/
  path : String
  /-- The name that it is referred to by. -/
  name : String
  deriving Repr, DecidableEq, Inhabited

/-- The packages that the profiling block refers to. -/
def neededPackages : List NeededPackage :=
  [⟨"os", "os"⟩, ⟨"runtime/pprof", "pprof"⟩]

/-- **The block refers to these packages and to no others.** The file of the profile and the
error are variables of its own. -/
theorem qualifiers_preamble (profile name : String) :
    name ∈ (preamble profile).qualifiers ↔ ∃ package ∈ neededPackages, package.name = name := by
  have hqualifiers : (preamble profile).qualifiers = ["os", "os", "pprof", "pprof"] := by
    simp [preamble, openProfile, openGuard, openFailure, memberOf, Expr.string, Stmt.qualifiers,
      stmtsQualifiers, Expr.qualifiers, exprsQualifiers, Stmt.declared, Expr.ident?]
  simp [hqualifiers, neededPackages, eq_comm]

/-- The number of the imports that bind the name of a package to it. -/
def bindings (file : SourceFile) (package : NeededPackage) : Nat :=
  file.importSpecs.countP fun spec => spec.Denotes package.path ∧ spec.GoesBy package.name

section

variable {file : SourceFile} {package : NeededPackage}

theorem quote_neededPackages : neededPackages.map (fun package => quote package.path) =
    [osImport, pprofImport] := by decide

/-- The literal that an import is put in with stands for the path of the package. -/
theorem denotes_quote (h : package ∈ neededPackages) (name : Option String) (path : String) :
    (ImportSpec.mk name (quote package.path)).Denotes path ↔ package.path = path := by
  have hunquote : ∀ package ∈ neededPackages,
      unquote? (quote package.path) = some package.path := by decide +kernel
  simp [ImportSpec.Denotes, hunquote package h]

/-- Statements that are put in front of a body do not change what is imported. -/
theorem specs_withFront (front : List Stmt) (decl : Decl) :
    (withFront front decl).specs = decl.specs := by
  unfold withFront
  split
  · rfl
  · rfl

/-- **What an instrumented file imports**: the paths that were lacking, without a local name,
and what the file imported. -/
theorem importSpecs_instrument (file : SourceFile) (profile : String) :
    (instrument file profile).1.importSpecs =
      (lackedImports file).map (ImportSpec.mk none) ++ file.importSpecs := by
  have hlacked : ((lackedImports file).map importOf).flatMap Decl.specs =
      (lackedImports file).map (ImportSpec.mk none) := by
    rw [List.flatMap_map, List.map_eq_flatMap]
    rfl
  have hdecls : (file.decls.map (withFront [preamble profile])).flatMap Decl.specs =
      file.decls.flatMap Decl.specs := by
    simp only [List.flatMap_map, specs_withFront]
  rw [instrument_eq, SourceFile.importSpecs_eq, SourceFile.importSpecs_eq, List.flatMap_append,
    hlacked, hdecls]

/-- Of the imports that are put in, the one with the literal of the package binds its name. -/
theorem countP_lacked (hpackage : package ∈ neededPackages) (file : SourceFile) :
    ((lackedImports file).map (ImportSpec.mk none)).countP (fun spec =>
        spec.Denotes package.path ∧ spec.GoesBy package.name) =
      if ∀ spec ∈ file.importSpecs, spec.path ≠ quote package.path then 1 else 0 := by
  have hbinds : ∀ other ∈ neededPackages, ((ImportSpec.mk none (quote other.path)).Denotes
      package.path ∧ (ImportSpec.mk none (quote other.path)).GoesBy package.name) ↔
        other.path = package.path := by
    intro other hother
    rw [denotes_quote hother]
    exact and_iff_left (.inl rfl)
  have hlacked : lackedImports file = (neededPackages.filter fun other =>
      decide (∀ spec ∈ file.importSpecs, spec.path ≠ quote other.path)).map
        fun other => quote other.path := by
    rw [lackedImports, ← quote_neededPackages, List.filter_map]
    rfl
  have hcount : ((lackedImports file).map (ImportSpec.mk none)).countP (fun spec =>
      spec.Denotes package.path ∧ spec.GoesBy package.name) =
        (neededPackages.filter fun other => decide (∀ spec ∈ file.importSpecs,
          spec.path ≠ quote other.path)).countP fun other => other.path = package.path := by
    rw [hlacked, List.countP_map, List.countP_map]
    refine List.countP_congr fun other hother => ?_
    simpa using hbinds other (List.mem_filter.mp hother).1
  rw [hcount, List.countP_filter]
  simp only [neededPackages, List.mem_cons, List.not_mem_nil, or_false] at hpackage ⊢
  rcases hpackage with rfl | rfl
  · simp [List.countP_cons]
  · simp [List.countP_cons]

/-- **How many imports bind the name after instrumenting**: those that did before, and one more
if no import has the literal of the package. -/
theorem bindings_eq (hpackage : package ∈ neededPackages) (file : SourceFile) (profile : String) :
    bindings (instrument file profile).1 package =
      (if ∀ spec ∈ file.importSpecs, spec.path ≠ quote package.path then 1 else 0) +
        bindings file package := by
  rw [bindings, importSpecs_instrument, List.countP_append, countP_lacked hpackage]
  rfl

/-- In a file that imports no path twice, what is known of the one import of a package says
how many imports bind its name. -/
theorem bindings_of_mem (hapart : file.ImportsApart) {spec : ImportSpec}
    (hmem : spec ∈ file.importSpecs) (hpath : spec.Denotes package.path) :
    bindings file package = if spec.GoesBy package.name then 1 else 0 := by
  obtain ⟨front, back, hsplit, hothers⟩ := hapart.exists_split hmem hpath
  have hnone : ∀ specs : List ImportSpec, specs ⊆ front ++ back →
      specs.countP (fun spec => spec.Denotes package.path ∧ spec.GoesBy package.name) = 0 := by
    intro specs hsub
    rw [List.countP_eq_zero]
    intro other hother
    simp [hothers other (hsub hother)]
  rw [bindings, hsplit, List.countP_append, hnone front (List.subset_append_left ..),
    List.countP_cons, hnone back (List.subset_append_right ..)]
  simp [hpath]

/-- An import with the literal that is looked for is an import of the package. -/
theorem denotes_of_path_eq (hpackage : package ∈ neededPackages) {spec : ImportSpec}
    (h : spec.path = quote package.path) : spec.Denotes package.path := by
  obtain ⟨name, path⟩ := spec
  cases h
  exact (denotes_quote hpackage name package.path).mpr rfl

/-- If the file does not import the package, then the one import that is put in binds its
name. -/
theorem bindings_instrument_of_absent (hpackage : package ∈ neededPackages) (profile : String)
    (habsent : ∀ spec ∈ file.importSpecs, ¬ spec.Denotes package.path) :
    bindings (instrument file profile).1 package = 1 := by
  have hlacked : ∀ spec ∈ file.importSpecs, spec.path ≠ quote package.path :=
    fun spec hmem heq => habsent spec hmem (denotes_of_path_eq hpackage heq)
  have hnone : bindings file package = 0 := by
    rw [bindings, List.countP_eq_zero]
    intro spec hmem
    simp [habsent spec hmem]
  rw [bindings_eq hpackage, if_pos hlacked, hnone]

/-- If the file imports the package, then one import is put in if that import has another
literal, and that import counts if it goes by the name. -/
theorem bindings_instrument_of_mem (hpackage : package ∈ neededPackages) (profile : String)
    (hapart : file.ImportsApart) {spec : ImportSpec} (hmem : spec ∈ file.importSpecs)
    (hpath : spec.Denotes package.path) :
    bindings (instrument file profile).1 package =
      (if spec.path = quote package.path then 0 else 1) +
        if spec.GoesBy package.name then 1 else 0 := by
  have hlacked : (∀ other ∈ file.importSpecs, other.path ≠ quote package.path) ↔
      ¬ spec.path = quote package.path := by
    refine ⟨fun h => h spec hmem, fun hne other hother heq => hne ?_⟩
    rwa [hapart.eq_of_denotes hmem hpath hother (denotes_of_path_eq hpackage heq)] at heq
  rw [bindings_eq hpackage, bindings_of_mem hapart hmem hpath]
  simp only [hlacked, ite_not]

/-- **The name of a package is bound by one import after instrumenting**, in a file that imports
no path twice, unless the import that the file has of it is in the way. That is so if just one
of two things holds of this import: that its literal is the one that is looked for, and that it
goes by the name. With the first alone nothing binds the name, and with the second alone two
imports do. -/
theorem bindings_instrument (file : SourceFile) (profile : String) (hapart : file.ImportsApart) :
    (∀ name, name ∈ (preamble profile).qualifiers ↔
      ∃ package ∈ neededPackages, package.name = name) ∧
    ∀ package ∈ neededPackages,
      (bindings (instrument file profile).1 package = 1 ↔
        ∀ spec ∈ file.importSpecs, spec.Denotes package.path →
          (spec.path = quote package.path ↔ spec.GoesBy package.name)) ∧
      (bindings (instrument file profile).1 package = 0 ↔
        ∃ spec ∈ file.importSpecs, spec.path = quote package.path ∧
          ¬ spec.GoesBy package.name) ∧
      (bindings (instrument file profile).1 package = 2 ↔
        ∃ spec ∈ file.importSpecs, spec.Denotes package.path ∧
          spec.path ≠ quote package.path ∧ spec.GoesBy package.name) := by
  refine ⟨qualifiers_preamble profile, fun package hpackage => ?_⟩
  by_cases himports : ∃ spec ∈ file.importSpecs, spec.Denotes package.path
  · obtain ⟨spec, hmem, hpath⟩ := himports
    -- what is said of all imports of the path, or of some, is said of this one
    have hall : ∀ p : ImportSpec → Prop,
        (∀ other ∈ file.importSpecs, other.Denotes package.path → p other) ↔ p spec :=
      fun p => ⟨fun h => h spec hmem hpath, fun h other hother hsame =>
        hapart.eq_of_denotes hmem hpath hother hsame ▸ h⟩
    have hsome : ∀ p : ImportSpec → Prop, (∀ other, p other → other.Denotes package.path) →
        ((∃ other ∈ file.importSpecs, p other) ↔ p spec) :=
      fun p hp => ⟨fun ⟨other, hother, h⟩ =>
        hapart.eq_of_denotes hmem hpath hother (hp other h) ▸ h, fun h => ⟨spec, hmem, h⟩⟩
    rw [bindings_instrument_of_mem hpackage profile hapart hmem hpath, hall,
      hsome _ fun other h => denotes_of_path_eq hpackage h.1, hsome _ fun other h => h.1]
    by_cases hliteral : spec.path = quote package.path <;>
      by_cases hname : spec.GoesBy package.name <;> simp [hliteral, hname, hpath]
  · have habsent : ∀ spec ∈ file.importSpecs, ¬ spec.Denotes package.path :=
      fun spec hmem hpath => himports ⟨spec, hmem, hpath⟩
    rw [bindings_instrument_of_absent hpackage profile habsent]
    refine ⟨?_, ?_, ?_⟩
    · exact iff_of_true rfl fun spec hmem hpath => absurd hpath (habsent spec hmem)
    · refine iff_of_false nofun ?_
      rintro ⟨spec, hmem, hliteral, -⟩
      exact habsent spec hmem (denotes_of_path_eq hpackage hliteral)
    · refine iff_of_false nofun ?_
      rintro ⟨spec, hmem, hpath, -⟩
      exact habsent spec hmem hpath

end

/-- One package is imported with the literal that is looked for, the other with another one. -/
def groupedSource : String :=
  "package main\n\nimport (\n\t\"os\"\n\tpprof \x60runtime/pprof\x60\n)\n\nfunc main() \x7b\x7d\n"

theorem bindings_instrument_grouped :
    ∃ file, parse groupedSource = .ok file ∧ file.ImportsApart ∧
      bindings (instrument file "cpu.prof").1 ⟨"os", "os"⟩ = 1 ∧
      bindings (instrument file "cpu.prof").1 ⟨"runtime/pprof", "pprof"⟩ = 2 := by
  have hcheck : (parse groupedSource).toOption.any (fun file =>
      decide file.ImportsApart && file.importSpecs ==
        [⟨none, quote "os"⟩, ⟨some "pprof", "\x60runtime/pprof\x60"⟩]) = true := by
    decide +kernel
  obtain ⟨file, hparse, hfile⟩ := exists_ok_of_any hcheck
  rw [Bool.and_eq_true, decide_eq_true_eq, beq_iff_eq] at hfile
  obtain ⟨hapart, hspecs⟩ := hfile
  obtain ⟨-, hpackages⟩ := bindings_instrument file "cpu.prof" hapart
  refine ⟨file, hparse, hapart, ?_, ?_⟩
  · refine (hpackages ⟨"os", "os"⟩ (by decide)).1.mpr ?_
    rw [hspecs]
    decide +kernel
  · refine (hpackages ⟨"runtime/pprof", "pprof"⟩ (by decide)).2.2.mpr ?_
    rw [hspecs]
    decide +kernel

/-- A package is imported by a literal between back quotes. -/
def rawSource : String :=
  "package main\n\nimport \x60os\x60\n\nfunc main() \x7b\x7d\n"

/-- A package is imported under a name of the file. -/
def renamedSource : String :=
  "package main\n\nimport o \"os\"\n\nfunc main() \x7b\x7d\n"

/-- Another literal of the path is one too many, and another name leaves none. -/
theorem bindings_ne_one :
    (∃ file, parse rawSource = .ok file ∧
      file.ImportsApart ∧ bindings (instrument file "cpu.prof").1 ⟨"os", "os"⟩ = 2) ∧
    ∃ file, parse renamedSource = .ok file ∧
      file.ImportsApart ∧ bindings (instrument file "cpu.prof").1 ⟨"os", "os"⟩ = 0 := by
  have hraw : (parse rawSource).toOption.any (fun file =>
      decide file.ImportsApart && file.importSpecs == [⟨none, "\x60os\x60"⟩]) = true := by
    decide +kernel
  have hrenamed : (parse renamedSource).toOption.any (fun file =>
      decide file.ImportsApart && file.importSpecs == [⟨some "o", quote "os"⟩]) = true := by
    decide +kernel
  have hcount : ∀ (file : SourceFile) (spec : ImportSpec), file.ImportsApart →
      file.importSpecs = [spec] → spec.Denotes "os" →
      bindings (instrument file "cpu.prof").1 ⟨"os", "os"⟩ =
        (if spec.path = quote "os" then 0 else 1) + if spec.GoesBy "os" then 1 else 0 := by
    intro file spec hapart hspecs hpath
    exact bindings_instrument_of_mem (by decide) "cpu.prof" hapart (by simp [hspecs]) hpath
  refine ⟨?_, ?_⟩
  · obtain ⟨file, hparse, hfile⟩ := exists_ok_of_any hraw
    rw [Bool.and_eq_true, decide_eq_true_eq, beq_iff_eq] at hfile
    refine ⟨file, hparse, hfile.1, ?_⟩
    rw [hcount file _ hfile.1 hfile.2 (by decide +kernel)]
    decide +kernel
  · obtain ⟨file, hparse, hfile⟩ := exists_ok_of_any hrenamed
    rw [Bool.and_eq_true, decide_eq_true_eq, beq_iff_eq] at hfile
    refine ⟨file, hparse, hfile.1, ?_⟩
    rw [hcount file _ hfile.1 hfile.2 (by decide +kernel)]
    decide +kernel

end Profiling

end EntryProbe
