import EntryProbe.Go.Tree
import EntryProbe.Proofs.Places

/-!
# Trees that fit their source

The printer walks over a source with a cursor that only moves forward. A tree fits
its source if such a walk is possible: the spans of the package clause, of the
declarations and of the statements denote places of the source, and they are met in
order (`EntryProbe.Go.SourceFile.WellFormed`). Nodes without a span stand nowhere and
are passed over.

Fitting is a matter of order, so it survives every change that keeps the order: nodes
that were read may go, and nodes that are made up may come, anywhere. Such a change is
an `EntryProbe.Go.EditOf`, and `EntryProbe.Go.SourceFile.WellFormed.of_edit` is the
statement. The one thing asked of a statement that comes is that it is *fresh*: no
part of it is a piece of the source.
-/

namespace EntryProbe.Go

/-! ### Fresh statements -/

mutual

/-- No part of a statement is a piece of the source. -/
def Stmt.isFresh : Stmt → Bool
  | .block body => areFresh body
  | .ifThen _ body => areFresh body
  | .verbatim _ => false
  | .assign _ _ _ | .expr _ | .return_ _ | .defer _ _ => true

/-- All of some statements are fresh. -/
def areFresh : List Stmt → Bool
  | [] => true
  | stmt :: rest => stmt.isFresh && areFresh rest

end

theorem Stmt.span?_eq_none_of_isFresh {stmt : Stmt} (h : stmt.isFresh = true) :
    stmt.span? = none := by
  cases stmt with
  | verbatim span => simp [Stmt.isFresh] at h
  | _ => rfl

/-! ### The order of spans -/

/-- The statements that were read stand between `cursor` and `close`, in order and
apart from one another; all others are fresh. -/
def StmtsInOrder (source : List Char) (close : Nat) : Nat → List Stmt → Prop
  | cursor, [] => cursor ≤ close
  | cursor, stmt :: rest =>
    match stmt.span? with
    | none => stmt.isFresh = true ∧ StmtsInOrder source close cursor rest
    | some span => span.Follows source cursor ∧ StmtsInOrder source close span.stop rest

/-- A body is enclosed in braces, and its statements stand in order between them. -/
structure BodyInOrder (source : List Char) (stmts : List Stmt) (span : Span) : Prop where
  /-- The body starts with an opening brace. -/
  opens : ∃ rest, RestAt source span.start ('\x7b' :: rest)
  /-- The body ends with a closing brace. -/
  closes : ∃ close rest, span.stop = close + 1 ∧ RestAt source close ('\x7d' :: rest) ∧
    StmtsInOrder source close (span.start + 1) stmts

/-- The body of a declaration, if it was read, is in order and inside its
declaration. -/
def Decl.BodyFits (source : List Char) (decl : Decl) (span : Span) : Prop :=
  match decl with
  | .func { body := some { stmts, span := some bodySpan }, .. } =>
    span.start ≤ bodySpan.start ∧ bodySpan.stop ≤ span.stop ∧
      BodyInOrder source stmts bodySpan
  | _ => True

/-- The body of a declaration, if it has one, was read, and so was every statement of
it. -/
def Decl.BodyWasRead : Decl → Prop
  | .func { body := some { stmts, span }, .. } =>
    span.isSome ∧ ∀ stmt ∈ stmts, stmt.span?.isSome
  | _ => True

/-- The declarations that were read stand behind `cursor`, in order and apart from one
another. -/
def DeclsInOrder (source : List Char) : Nat → List Decl → Prop
  | _, [] => True
  | cursor, decl :: rest =>
    match decl.span? with
    | none => DeclsInOrder source cursor rest
    | some span =>
      span.Follows source cursor ∧ decl.BodyFits source span ∧
        DeclsInOrder source span.stop rest

/-- **A file fits its source**: after the package clause come the declarations that
were read, in order. -/
structure SourceFile.WellFormed (file : SourceFile) : Prop where
  /-- The package clause ends at a place. -/
  isPlace_package : IsPlace file.source.toList file.package.span.stop
  /-- The declarations follow it. -/
  inOrder : DeclsInOrder file.source.toList file.package.span.stop file.decls

/-- Some declaration that was read starts before the package clause has ended. -/
def SourceFile.HasEarlyDecl (file : SourceFile) : Prop :=
  ∃ decl ∈ file.decls, ∃ span, decl.span? = some span ∧ span.start < file.package.span.stop

instance (file : SourceFile) : Decidable file.HasEarlyDecl :=
  inferInstanceAs (Decidable
    (∃ decl ∈ file.decls, ∃ span ∈ decl.span?, span.start < file.package.span.stop))

/-- A file whose declarations are in order, but for the package clause: they may stand
on either side of it. -/
structure SourceFile.InOrder (file : SourceFile) : Prop where
  /-- The package clause ends at a place. -/
  isPlace_package : IsPlace file.source.toList file.package.span.stop
  /-- The declarations are in order. -/
  inOrder : DeclsInOrder file.source.toList 0 file.decls

section

variable {source : List Char} {close cursor cursor' : Nat}

theorem StmtsInOrder.cons_fresh {stmt : Stmt} {rest : List Stmt} (h : stmt.isFresh = true)
    (hrest : StmtsInOrder source close cursor rest) :
    StmtsInOrder source close cursor (stmt :: rest) := by
  simp only [StmtsInOrder, Stmt.span?_eq_none_of_isFresh h]
  exact ⟨h, hrest⟩

/-- A walk that can start at a place can start at any place before it. -/
theorem StmtsInOrder.mono {stmts : List Stmt} (h : StmtsInOrder source close cursor stmts)
    (hle : cursor' ≤ cursor) : StmtsInOrder source close cursor' stmts := by
  induction stmts with
  | nil => exact Nat.le_trans hle h
  | cons stmt rest ih =>
    rcases hs : stmt.span? with _ | span
    · simp only [StmtsInOrder, hs] at h ⊢
      exact ⟨h.1, ih h.2⟩
    · simp only [StmtsInOrder, hs] at h ⊢
      exact ⟨h.1.mono hle, h.2⟩

/-- Statements in order end before the closing brace. -/
theorem StmtsInOrder.le_close {stmts : List Stmt} (h : StmtsInOrder source close cursor stmts) :
    cursor ≤ close := by
  induction stmts generalizing cursor with
  | nil => exact h
  | cons stmt rest ih =>
    rcases hs : stmt.span? with _ | span
    · simp only [StmtsInOrder, hs] at h
      exact ih h.2
    · simp only [StmtsInOrder, hs] at h
      exact Nat.le_trans h.1.le_stop (ih h.2)

@[inherit_doc StmtsInOrder.mono]
theorem DeclsInOrder.mono {decls : List Decl} (h : DeclsInOrder source cursor decls)
    (hle : cursor' ≤ cursor) : DeclsInOrder source cursor' decls := by
  induction decls with
  | nil => trivial
  | cons decl rest ih =>
    rcases hs : decl.span? with _ | span
    · simp only [DeclsInOrder, hs] at h ⊢
      exact ih h
    · simp only [DeclsInOrder, hs] at h ⊢
      exact ⟨h.1.mono hle, h.2⟩

/-- Declarations in order all start behind the cursor. -/
theorem DeclsInOrder.le_start {decls : List Decl} (h : DeclsInOrder source cursor decls)
    {decl : Decl} (hmem : decl ∈ decls) {span : Span} (hspan : decl.span? = some span) :
    cursor ≤ span.start := by
  induction decls generalizing cursor with
  | nil => cases hmem
  | cons first rest ih =>
    rcases hs : first.span? with _ | firstSpan
    · simp only [DeclsInOrder, hs] at h
      rcases List.mem_cons.mp hmem with rfl | hmem
      · rw [hs] at hspan
        cases hspan
      · exact ih h hmem
    · simp only [DeclsInOrder, hs] at h
      rcases List.mem_cons.mp hmem with rfl | hmem
      · rw [hs] at hspan
        cases hspan
        exact h.1.after
      · exact Nat.le_trans h.1.le_stop (ih h.2.2 hmem)

/-- A walk can start at a place that no declaration starts before. -/
theorem DeclsInOrder.of_le_start {decls : List Decl} (h : DeclsInOrder source cursor decls)
    (hle : ∀ decl ∈ decls, ∀ span, decl.span? = some span → cursor' ≤ span.start) :
    DeclsInOrder source cursor' decls := by
  induction decls with
  | nil => trivial
  | cons decl rest ih =>
    rcases hs : decl.span? with _ | span
    · simp only [DeclsInOrder, hs] at h ⊢
      exact ih h fun decl hmem => hle decl (by simp [hmem])
    · simp only [DeclsInOrder, hs] at h ⊢
      exact ⟨{ h.1 with after := hle decl (by simp) span hs }, h.2⟩

/-- **A file in order fits its source** if no declaration comes too early. -/
theorem SourceFile.InOrder.wellFormed {file : SourceFile} (h : file.InOrder)
    (hearly : ¬ file.HasEarlyDecl) : file.WellFormed where
  isPlace_package := h.isPlace_package
  inOrder := by
    refine h.inOrder.of_le_start fun decl hmem span hspan => ?_
    exact Nat.le_of_not_lt fun hlt => hearly ⟨decl, hmem, span, hspan, hlt⟩

end

/-! ### Changes that keep the order -/

/-- Statements that were read are taken away, and fresh ones are put in. -/
inductive EditedStmts : List Stmt → List Stmt → Prop
  /-- There is nothing to change. -/
  | nil : EditedStmts [] []
  /-- A statement stays. -/
  | keep (stmt : Stmt) {old new : List Stmt} :
      EditedStmts old new → EditedStmts (stmt :: old) (stmt :: new)
  /-- A statement that was read goes. -/
  | delete (span : Span) {old new : List Stmt} :
      EditedStmts old new → EditedStmts (.verbatim span :: old) new
  /-- A fresh statement comes. -/
  | insert (stmt : Stmt) {old new : List Stmt} :
      stmt.isFresh = true → EditedStmts old new → EditedStmts old (stmt :: new)

/-- A declaration stays as it is, but for the statements of a body that was read. -/
inductive EditedDecl : Decl → Decl → Prop
  /-- Nothing changes. -/
  | same (decl : Decl) : EditedDecl decl decl
  /-- The statements of the body change. -/
  | body (decl : FuncDecl) {old new : List Stmt} {span : Span} :
      EditedStmts old new →
      EditedDecl (.func { decl with body := some ⟨old, some span⟩ })
        (.func { decl with body := some ⟨new, some span⟩ })

/-- Declarations that were read are taken away, declarations that are made up are put
in, and the statements of bodies change likewise. -/
inductive EditedDecls : List Decl → List Decl → Prop
  /-- There is nothing to change. -/
  | nil : EditedDecls [] []
  /-- A declaration stays, up to its body. -/
  | keep {decl decl' : Decl} {old new : List Decl} :
      EditedDecl decl decl' → EditedDecls old new → EditedDecls (decl :: old) (decl' :: new)
  /-- A declaration that was read goes. -/
  | delete (decl : Decl) {old new : List Decl} :
      decl.span?.isSome → EditedDecls old new → EditedDecls (decl :: old) new
  /-- A declaration that is made up comes. -/
  | insert (decl : Decl) {old new : List Decl} :
      decl.span? = none → EditedDecls old new → EditedDecls old (decl :: new)

/-- **A change that keeps the order.** -/
structure EditOf (old new : SourceFile) : Prop where
  /-- The source stays. -/
  source_eq : new.source = old.source
  /-- The package clause stays. -/
  package_eq : new.package = old.package
  /-- The declarations change as described. -/
  decls : EditedDecls old.decls new.decls

section

variable {source : List Char} {close cursor : Nat}

theorem EditedStmts.refl (stmts : List Stmt) : EditedStmts stmts stmts := by
  induction stmts with
  | nil => exact .nil
  | cons stmt rest ih => exact .keep stmt ih

theorem EditedDecl.span?_eq {decl decl' : Decl} (h : EditedDecl decl decl') :
    decl'.span? = decl.span? := by
  cases h <;> rfl

theorem StmtsInOrder.of_edit {old new : List Stmt} (he : EditedStmts old new)
    (h : StmtsInOrder source close cursor old) : StmtsInOrder source close cursor new := by
  induction he generalizing cursor with
  | nil => exact h
  | keep stmt _ ih =>
    rcases hs : stmt.span? with _ | span
    · simp only [StmtsInOrder, hs] at h ⊢
      exact ⟨h.1, ih h.2⟩
    · simp only [StmtsInOrder, hs] at h ⊢
      exact ⟨h.1, ih h.2⟩
  | delete span _ ih =>
    obtain ⟨hspan, hrest⟩ : span.Follows source cursor ∧ StmtsInOrder source close span.stop _ := h
    exact ih (hrest.mono hspan.le_stop)
  | insert stmt hfresh _ ih => exact .cons_fresh hfresh (ih h)

theorem Decl.BodyFits.of_edit {decl decl' : Decl} {span : Span} (he : EditedDecl decl decl')
    (h : decl.BodyFits source span) : decl'.BodyFits source span := by
  cases he with
  | same => exact h
  | body func hstmts =>
    obtain ⟨hstart, hstop, hopens, close, rest, hclose, hbrace, hin⟩ := h
    exact ⟨hstart, hstop, hopens, close, rest, hclose, hbrace, hin.of_edit hstmts⟩

theorem DeclsInOrder.of_edit {old new : List Decl} (he : EditedDecls old new)
    (h : DeclsInOrder source cursor old) : DeclsInOrder source cursor new := by
  induction he generalizing cursor with
  | nil => exact h
  | @keep decl decl' _ _ hdecl _ ih =>
    rcases hs : decl.span? with _ | span
    · simp only [DeclsInOrder, hdecl.span?_eq, hs] at h ⊢
      exact ih h
    · simp only [DeclsInOrder, hdecl.span?_eq, hs] at h ⊢
      exact ⟨h.1, h.2.1.of_edit hdecl, ih h.2.2⟩
  | delete decl hparsed _ ih =>
    obtain ⟨span, hs⟩ := Option.isSome_iff_exists.mp hparsed
    simp only [DeclsInOrder, hs] at h
    exact ih (h.2.2.mono h.1.le_stop)
  | insert decl hnone _ ih =>
    simp only [DeclsInOrder, hnone]
    exact ih h

/-- **A tree that fits its source still fits after a change that keeps the
order.** -/
theorem SourceFile.WellFormed.of_edit {old new : SourceFile} (h : old.WellFormed)
    (he : EditOf old new) : new.WellFormed := by
  refine ⟨?_, ?_⟩
  · rw [he.source_eq, he.package_eq]
    exact h.isPlace_package
  · rw [he.source_eq, he.package_eq]
    exact h.inOrder.of_edit he.decls

end

end EntryProbe.Go
