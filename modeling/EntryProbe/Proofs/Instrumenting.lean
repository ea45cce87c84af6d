import EntryProbe.Profiling.Instrument
import EntryProbe.Proofs.SpanOrder

/-!
# Instrumenting keeps the order

Instrumenting a file that was read puts in made-up imports and a fresh statement, and
changes nothing else (`EntryProbe.Profiling.editOf_instrument`). So all that is known
of changes that keep the order is known of it. In particular, whether the result can be
printed is decided by the source alone
(`EntryProbe.Profiling.exists_print_instrument`,
`EntryProbe.Profiling.print_instrument_eq_none`).
-/

namespace EntryProbe.Profiling

open Go

/-- The profiling block is made up. -/
theorem isFresh_preamble (profile : String) : (preamble profile).isFresh = true := by
  simp [preamble, openProfile, openGuard, Stmt.isFresh, areFresh]

/-- A declaration takes the profiling block as a change to its body. -/
theorem editedDecl_addPreamble (profile : String) {decl : Decl} (h : decl.BodyWasRead) :
    EditedDecl decl (addPreamble profile decl) := by
  cases decl with
  | imports decl => exact .same _
  | other span => exact .same _
  | func decl =>
    simp only [addPreamble]
    split
    · obtain ⟨name, receiver, params, result, body, span⟩ := decl
      rcases body with _ | ⟨stmts, bodySpan⟩
      · exact .same _
      · obtain ⟨bodySpan, rfl⟩ := Option.isSome_iff_exists.mp h.1
        exact .body ⟨name, receiver, params, result, none, span⟩
          (.insert _ (isFresh_preamble profile) (.refl stmts))
    · exact .same _

/-- **Instrumenting is a change that keeps the order.** -/
theorem editOf_instrument {file : SourceFile} (profile : String)
    (h : ∀ decl ∈ file.decls, decl.BodyWasRead) : EditOf file (instrument file profile).1 where
  source_eq := rfl
  package_eq := rfl
  decls := by
    have hold : EditedDecls file.decls (file.decls.map (addPreamble profile)) := by
      generalize file.decls = decls at h
      induction decls with
      | nil => exact .nil
      | cons decl decls ih =>
        exact .keep (editedDecl_addPreamble profile (h decl (by simp)))
          (ih fun decl hmem => h decl (by simp [hmem]))
    change EditedDecls file.decls ((missingImports file).map importOf ++ _)
    induction missingImports file with
    | nil => exact hold
    | cons path missing ih => exact .insert _ rfl ih

section

variable {source : String} {file : SourceFile}

/-- The result of instrumenting a file that was read is printed if no declaration comes
too early. -/
theorem exists_print_instrument (h : parse source = .ok file) (hearly : ¬ file.HasEarlyDecl)
    (profile : String) : ∃ out, (instrument file profile).1.print = some out := by
  have hedit := editOf_instrument profile fun decl hmem => (parse_wasRead h hmem).2
  obtain ⟨out, hout, -⟩ := (((parse_inOrder h).wellFormed hearly).of_edit hedit).exists_print
  exact ⟨out, hout⟩

theorem span?_addPreamble (profile : String) (decl : Decl) :
    (addPreamble profile decl).span? = decl.span? := by
  cases decl with
  | imports decl => rfl
  | other span => rfl
  | func decl =>
    simp only [addPreamble]
    split <;> rfl

/-- The result of instrumenting a file that was read cannot be printed if a declaration
comes too early. -/
theorem print_instrument_eq_none (h : parse source = .ok file) (hearly : file.HasEarlyDecl)
    (profile : String) : (instrument file profile).1.print = none := by
  have hedit := editOf_instrument profile fun decl hmem => (parse_wasRead h hmem).2
  have hin : (instrument file profile).1.InOrder :=
    ⟨(parse_inOrder h).isPlace_package, (parse_inOrder h).inOrder.of_edit hedit.decls⟩
  refine hin.print_eq_none ?_
  obtain ⟨decl, hmem, span, hspan, hlt⟩ := hearly
  refine ⟨addPreamble profile decl, ?_, span, ?_, hlt⟩
  · exact List.mem_append_right _ (List.mem_map_of_mem hmem)
  · rw [span?_addPreamble]
    exact hspan

end

end EntryProbe.Profiling
