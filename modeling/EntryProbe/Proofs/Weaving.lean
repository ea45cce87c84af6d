import EntryProbe.Go.Printer
import EntryProbe.Proofs.Layout
import EntryProbe.Proofs.FirstBreak
import Mathlib.Data.List.Forall2
import Mathlib.Data.List.TakeWhile

/-!
# What the printer does to a source

A printed file is its source with *runs* woven into it, the texts of the nodes that
were made up. `EntryProbe.Go.Woven` is the relation between a source, the runs, and
the text that comes of them: every character of the source is kept, in order, and a
run is placed between two characters; only white space that stands next to a run may
go, and a line break and some tabs may come in its place.

* `EntryProbe.Go.woven_splice` – splicing a run into a gap weaves it in;
* `EntryProbe.Go.SourceFile.WellFormed.exists_print` – a tree that fits its source is
  printed, and as its source with its runs woven in;
* `EntryProbe.Go.print_of_edit` – so it is for a tree that was read and changed in any
  way that keeps the order, and without its runs the text has the same characters as
  the source, white space apart.
-/

namespace EntryProbe.Go

/-! ### Weaving -/

/-- A run as it may be placed in a text: as it is, or with the other line breaks. -/
def PlacedAs (run placed : List Char) : Prop :=
  placed = run ∨ placed = withCarriageReturns run

/-- **A text with runs woven into it.** -/
inductive Woven : List Char → List (List Char) → List Char → Prop
  /-- Nothing is left. -/
  | nil : Woven [] [] []
  /-- A character of the text is kept. -/
  | keep (c : Char) {text out : List Char} {runs : List (List Char)} :
      Woven text runs out → Woven (c :: text) runs (c :: out)
  /-- A run is placed, and white space next to it goes. -/
  | run {blanks run placed text out : List Char} {runs : List (List Char)} :
      (∀ c ∈ blanks, isBlank c = true) → PlacedAs run placed → Woven text runs out →
      Woven (blanks ++ text) (run :: runs) (placed ++ out)
  /-- A run is placed, and a line break and tabs replace the white space after it. -/
  | runBreak {blanks run placed text out : List Char} {runs : List (List Char)} (tabs : Nat) :
      (∀ c ∈ blanks, isBlank c = true) → PlacedAs run placed → Woven text runs out →
      Woven (blanks ++ text) (run :: runs)
        (placed ++ '\n' :: List.replicate tabs '\t' ++ out)

namespace Woven

variable {text text' out out' : List Char} {runs runs' : List (List Char)}

theorem refl (text : List Char) : Woven text [] text := by
  induction text with
  | nil => exact .nil
  | cons c text ih => exact .keep c ih

theorem append (h : Woven text runs out) (h' : Woven text' runs' out') :
    Woven (text ++ text') (runs ++ runs') (out ++ out') := by
  induction h with
  | nil => simpa using h'
  | keep c _ ih => exact .keep c ih
  | run hblanks hplaced _ ih => simpa using Woven.run hblanks hplaced ih
  | runBreak tabs hblanks hplaced _ ih => simpa using Woven.runBreak tabs hblanks hplaced ih

theorem keepAll (kept : List Char) (h : Woven text runs out) :
    Woven (kept ++ text) runs (kept ++ out) := by
  simpa using (refl kept).append h

/-- Without runs nothing changes. -/
theorem eq_of_nil (h : Woven text [] out) : out = text := by
  generalize hr : ([] : List (List Char)) = runs at h
  induction h with
  | nil => rfl
  | keep c _ ih => rw [ih hr]
  | run => cases hr
  | runBreak => cases hr

end Woven

/-- Pieces of text with runs between them. -/
def interleave (first : List Char) (rest : List (List Char × List Char)) : List Char :=
  first ++ rest.flatMap fun (run, piece) => run ++ piece

/-- The characters of a text that are not white space. -/
def inked (text : List Char) : List Char :=
  text.filter fun c => !isBlank c

theorem inked_append (text text' : List Char) : inked (text ++ text') = inked text ++ inked text' :=
  List.filter_append ..

theorem inked_eq_nil {blanks : List Char} (h : ∀ c ∈ blanks, isBlank c = true) :
    inked blanks = [] := by
  simpa [inked] using h

/-- **Weaving keeps all that is not white space**: with the runs taken out, the pieces
of the text that are left have the same characters as the source, white space
apart. -/
theorem Woven.exists_pieces {text out : List Char} {runs : List (List Char)}
    (h : Woven text runs out) :
    ∃ first rest, out = interleave first rest ∧
      List.Forall₂ PlacedAs runs (rest.map Prod.fst) ∧
      inked (first ++ rest.flatMap Prod.snd) = inked text := by
  induction h with
  | nil => exact ⟨[], [], rfl, .nil, rfl⟩
  | keep c _ ih =>
    obtain ⟨first, rest, rfl, hruns, hinked⟩ := ih
    refine ⟨c :: first, rest, by simp [interleave], hruns, ?_⟩
    have hcons : ∀ piece, inked (c :: piece) = inked [c] ++ inked piece := fun piece =>
      inked_append [c] piece
    rw [List.cons_append, hcons, hinked, ← hcons]
  | @run blanks run placed text out runs hblanks hplaced _ ih =>
    obtain ⟨first, rest, rfl, hruns, hinked⟩ := ih
    refine ⟨[], (placed, first) :: rest, by simp [interleave], .cons hplaced hruns, ?_⟩
    rw [inked_append blanks, inked_eq_nil hblanks]
    simpa using hinked
  | @runBreak blanks run placed text out runs tabs hblanks hplaced _ ih =>
    obtain ⟨first, rest, rfl, hruns, hinked⟩ := ih
    have hbreak : inked ('\n' :: List.replicate tabs '\t') = [] := by
      refine inked_eq_nil fun c hc => ?_
      rcases List.mem_cons.mp hc with rfl | hc
      · decide
      · rw [List.eq_of_mem_replicate hc]
        decide
    refine ⟨[], (placed, '\n' :: List.replicate tabs '\t' ++ first) :: rest,
      by simp [interleave], .cons hplaced hruns, ?_⟩
    rw [inked_append blanks, inked_eq_nil hblanks, ← hinked]
    simp only [List.flatMap_cons, List.nil_append, List.append_assoc]
    rw [inked_append _ (first ++ _), hbreak, List.nil_append]

/-! ### Splicing -/

/-- A run to be placed, if it is not empty. -/
def pending (run : List Char) : List (List Char) :=
  if run = [] then [] else [run]

@[simp] theorem pending_nil : pending [] = [] := rfl

theorem exists_trimLineEnd (text : List Char) :
    ∃ blanks, text = trimLineEnd text ++ blanks ∧ ∀ c ∈ blanks, c = ' ' ∨ c = '\t' := by
  refine ⟨(text.reverse.takeWhile fun c => c == ' ' || c == '\t').reverse, ?_, ?_⟩
  · rw [trimLineEnd, ← List.reverse_append, List.takeWhile_append_dropWhile, List.reverse_reverse]
  · intro c hc
    have hor := List.mem_takeWhile_imp (List.mem_reverse.mp hc)
    simpa using hor

theorem exists_trimStart (text : List Char) :
    ∃ blanks, text = blanks ++ trimStart text ∧ ∀ c ∈ blanks, isBlank c = true :=
  ⟨text.takeWhile isBlank, (List.takeWhile_append_dropWhile ..).symm,
    fun _ hc => List.mem_takeWhile_imp hc⟩

/-- A run placed at the end of a line, before its line break. -/
theorem woven_atLineEnd {run placed : List Char} (line rest : List Char)
    (h : PlacedAs run placed) :
    Woven (line ++ rest) [run] (trimLineEnd line ++ placed ++ rest) := by
  obtain ⟨blanks, hline, hblanks⟩ := exists_trimLineEnd line
  have hblank : ∀ c ∈ blanks, isBlank c = true := by
    intro c hc
    rcases hblanks c hc with rfl | rfl
    · decide
    · decide
  have hrun := (Woven.run hblank h (Woven.refl rest)).keepAll (trimLineEnd line)
  rw [← List.append_assoc, ← hline] at hrun
  simpa using hrun

/-- **Splicing weaves a run into a gap.** -/
theorem woven_splice (gap run : List Char) (tabs : Nat) :
    Woven gap (pending run) (splice gap run (List.replicate tabs '\t')) := by
  by_cases hrun : run = []
  · simpa [hrun] using Woven.refl gap
  rw [pending, if_neg hrun, splice, cutAtLineBreak?_eq, if_neg hrun]
  cases hsplit : splitAtLineBreak? gap with
  | some parts =>
    obtain ⟨line, rest⟩ := parts
    have hgap : line ++ rest = gap := splitAtLineBreakFrom?_append hsplit
    simp only
    split
    · next hreturn =>
      obtain ⟨start, rfl⟩ := List.getLast?_eq_some_iff.mp hreturn
      rw [← hgap, List.dropLast_concat, List.append_assoc]
      exact woven_atLineEnd start ('\r' :: rest) (.inr rfl)
    · rw [← hgap]
      exact woven_atLineEnd line rest (.inl rfl)
  | none =>
    simp only
    split
    · exact @Woven.run [] run run gap gap [] (by simp) (.inl rfl) (Woven.refl gap)
    · obtain ⟨blanks, hgap, hblanks⟩ := exists_trimStart gap
      have hbreak := Woven.runBreak tabs hblanks (.inl rfl : PlacedAs run run)
        (Woven.refl (trimStart gap))
      rwa [← hgap] at hbreak

/-! ### The runs of a file -/

mutual

/-- A fresh statement is rendered, and its text does not depend on the source. -/
theorem exists_renderStmt (indent : String) :
    (stmt : Stmt) → stmt.isFresh = true →
      ∃ text, ∀ source, renderStmt source indent stmt = some text
  | .block body, h => by
    obtain ⟨lines, hlines⟩ := exists_renderLines (indent ++ "\t") body h
    exact ⟨_, fun source => by rw [renderStmt, renderBlock, hlines]; rfl⟩
  | .ifThen condition body, h => by
    obtain ⟨lines, hlines⟩ := exists_renderLines (indent ++ "\t") body h
    exact ⟨_, fun source => by rw [renderStmt, renderBlock, hlines]; rfl⟩
  | .verbatim _, h => by simp [Stmt.isFresh] at h
  | .assign _ _ _, _ => ⟨_, fun _ => by rw [renderStmt]⟩
  | .expr _, _ => ⟨_, fun _ => by rw [renderStmt]⟩
  | .return_ _, _ => ⟨_, fun _ => by rw [renderStmt]⟩
  | .defer _ _, _ => ⟨_, fun _ => by rw [renderStmt]⟩

@[inherit_doc exists_renderStmt]
theorem exists_renderLines (indent : String) :
    (stmts : List Stmt) → areFresh stmts = true →
      ∃ text, ∀ source, renderLines source indent stmts = some text
  | [], _ => ⟨"", fun _ => by rw [renderLines]⟩
  | stmt :: rest, h => by
    rw [areFresh, Bool.and_eq_true] at h
    obtain ⟨line, hline⟩ := exists_renderStmt indent stmt h.1
    obtain ⟨lines, hlines⟩ := exists_renderLines indent rest h.2
    exact ⟨_, fun source => by rw [renderLines, hline, hlines]; rfl⟩

end

/-- A fresh statement as it is written in the body of a function. -/
def Stmt.rendered (stmt : Stmt) : List Char :=
  ((renderStmt [] "\t" stmt).map String.toList).getD []

theorem renderStmt_of_isFresh {stmt : Stmt} (h : stmt.isFresh = true) (source : List Char) :
    ∃ text, renderStmt source "\t" stmt = some text ∧ text.toList = stmt.rendered := by
  obtain ⟨text, htext⟩ := exists_renderStmt "\t" stmt h
  exact ⟨text, htext source, by rw [Stmt.rendered, htext]; rfl⟩

/-- The runs of the statements of a body, after a run that is still to be placed: the
statements that were made up between two others, each on a line of its own. -/
def stmtRuns : (run : List Char) → List Stmt → List (List Char)
  | run, [] => pending run
  | run, stmt :: rest =>
    match stmt.span? with
    | none => stmtRuns (run ++ '\n' :: '\t' :: stmt.rendered) rest
    | some _ => pending run ++ stmtRuns [] rest

/-- The runs inside a declaration that was read. -/
def Decl.runs : Decl → List (List Char)
  | .func { body := some { stmts, span := some _ }, .. } => stmtRuns [] stmts
  | _ => []

/-- The runs of declarations, after a run that is still to be placed. -/
def declRuns : (run : List Char) → List Decl → List (List Char)
  | run, [] => pending run
  | run, decl :: rest =>
    match decl.span? with
    | none => declRuns (addToRun run decl) rest
    | some _ => pending run ++ decl.runs ++ declRuns [] rest

/-- **The runs of a file**, in order. -/
def SourceFile.runs (file : SourceFile) : List (List Char) :=
  declRuns [] file.decls

/-! ### Printing -/

section

variable {source rest tail : List Char} {close cursor : Nat}

/-- **The statements of a body are printed with their runs woven in.** -/
theorem StmtsInOrder.exists_print {stmts : List Stmt}
    (h : StmtsInOrder source close cursor stmts) (hrest : RestAt source cursor rest)
    (hclose : RestAt source close tail) (run : List Char) :
    ∃ inner out, rest = inner ++ tail ∧
      printStatements source close cursor run stmts = some out ∧
      Woven inner (stmtRuns run stmts) out := by
  induction stmts generalizing cursor rest run with
  | nil =>
    obtain ⟨gap, tail', rfl, htail, rfl⟩ := IsPlace.exists_between hrest hclose.isPlace h
    obtain rfl := htail.unique hclose
    refine ⟨gap, splice gap run [], rfl, ?_, woven_splice gap run 0⟩
    simp [printStatements, hrest.cut?]
  | cons stmt stmts ih =>
    rcases hs : stmt.span? with _ | span
    · simp only [StmtsInOrder, hs] at h
      obtain ⟨line, hline, htext⟩ := renderStmt_of_isFresh h.1 source
      obtain ⟨inner, out, hinner, hout, hwoven⟩ :=
        ih h.2 hrest (run ++ '\n' :: '\t' :: line.toList)
      refine ⟨inner, out, hinner, ?_, ?_⟩
      · simp only [printStatements, hs, hline]
        exact hout
      · simp only [stmtRuns, hs]
        rw [← htext]
        exact hwoven
    · simp only [StmtsInOrder, hs] at h
      obtain ⟨hspan, hin⟩ := h
      obtain ⟨gap, rest', rfl, hstart, hgap⟩ :=
        IsPlace.exists_between hrest hspan.isPlace_start hspan.after
      obtain ⟨text, rest'', rfl, hstop, htext⟩ :=
        IsPlace.exists_between hstart hspan.isPlace_stop hspan.forward
      obtain ⟨inner, out, rfl, hout, hwoven⟩ := ih hin hstop []
      refine ⟨gap ++ (text ++ inner), splice gap run ['\t'] ++ text ++ out, by simp, ?_, ?_⟩
      · have hcut : Span.cut? ⟨cursor, span.start⟩ source = some gap := by
          rw [hgap]
          exact hrest.cut?
        have hcut' : span.cut? source = some text := by
          have := hstart.cut?
          rwa [← htext] at this
        simp [printStatements, hs, hcut, hcut', hout]
      · simp only [stmtRuns, hs, List.append_assoc]
        exact (woven_splice gap run 1).append (hwoven.keepAll text)

/-- **A body is printed with its runs woven in.** -/
theorem BodyInOrder.exists_print {stmts : List Stmt} {span : Span}
    (h : BodyInOrder source stmts span) (hrest : RestAt source span.start rest) :
    ∃ inner out tail, rest = inner ++ tail ∧ RestAt source span.stop tail ∧
      printBody source ⟨stmts, some span⟩ span = some out ∧
      Woven inner (stmtRuns [] stmts) out := by
  obtain ⟨⟨opened, hopen⟩, close, tail, hclose, hbrace, hin⟩ := h
  obtain rfl := hrest.unique hopen
  have hstart : RestAt source (span.start + 1) opened := hopen.advance_cons
  have hstop : RestAt source (close + 1) tail := hbrace.advance_cons
  obtain ⟨inner, out, rfl, hout, hwoven⟩ := hin.exists_print hstart hbrace []
  refine ⟨'\x7b' :: inner ++ ['\x7d'], '\x7b' :: out ++ ['\x7d'], tail, by simp, ?_, ?_, ?_⟩
  · rw [hclose]
    exact hstop
  · simp [printBody, hclose, hout]
  · simpa using Woven.keep '\x7b' (hwoven.append (Woven.refl ['\x7d']))

/-- **A declaration is printed with its runs woven in.** -/
theorem Decl.BodyFits.exists_print {decl : Decl} {span : Span} (h : decl.BodyFits source span)
    (hspan : span.Follows source cursor) (hrest : RestAt source span.start rest) :
    ∃ inner out tail, rest = inner ++ tail ∧ RestAt source span.stop tail ∧
      printDecl source decl span = some out ∧ Woven inner decl.runs out := by
  obtain ⟨text, tail, rfl, hstop, htext⟩ :=
    IsPlace.exists_between hrest hspan.isPlace_stop hspan.forward
  unfold Decl.BodyFits at h
  split at h
  · next stmts bodySpan _ =>
    obtain ⟨hle, hle', hbody⟩ := h
    obtain ⟨opened, hopen⟩ := hbody.opens
    obtain ⟨head, rest', hhead, hbodyStart, hheadEq⟩ :=
      IsPlace.exists_between hrest hopen.isPlace hle
    obtain ⟨inner, out, after, rfl, hbodyStop, hout, hwoven⟩ := hbody.exists_print hbodyStart
    obtain ⟨last, tail', rfl, hstop', hlast⟩ :=
      IsPlace.exists_between hbodyStop hspan.isPlace_stop hle'
    obtain rfl := hstop'.unique hstop
    refine ⟨head ++ inner ++ last, head ++ out ++ last, tail', ?_, hstop, ?_, ?_⟩
    · simpa using hhead
    · have hcut : Span.cut? ⟨span.start, bodySpan.start⟩ source = some head := by
        rw [hheadEq]
        rw [hhead] at hrest
        exact hrest.cut?
      have hcut' : Span.cut? ⟨bodySpan.stop, span.stop⟩ source = some last := by
        rw [hlast]
        exact hbodyStop.cut?
      simp [printDecl, hcut, hcut', hout]
    · have := (hwoven.keepAll head).append (Woven.refl last)
      simpa [Decl.runs] using this
  · next hnot =>
    have hcut : span.cut? source = some text := by
      have := hrest.cut?
      rwa [← htext] at this
    refine ⟨text, text, tail, rfl, hstop, ?_, ?_⟩
    · rw [printDecl]
      · exact hcut
      · exact hnot
    · rw [Decl.runs]
      · exact Woven.refl text
      · exact hnot

/-- **Declarations are printed with their runs woven in.** -/
theorem DeclsInOrder.exists_print {decls : List Decl} (h : DeclsInOrder source cursor decls)
    (hrest : RestAt source cursor rest) (run : List Char) :
    ∃ out, printDecls source cursor run decls = some out ∧
      Woven rest (declRuns run decls) out := by
  induction decls generalizing cursor rest run with
  | nil =>
    refine ⟨splice rest run [], ?_, woven_splice rest run 0⟩
    simp [printDecls, hrest.cut?_end]
  | cons decl decls ih =>
    rcases hs : decl.span? with _ | span
    · simp only [DeclsInOrder, hs] at h
      simp only [printDecls, declRuns, hs]
      exact ih h hrest (addToRun run decl)
    · simp only [DeclsInOrder, hs] at h
      obtain ⟨hspan, hfits, hin⟩ := h
      obtain ⟨gap, rest', rfl, hstart, hgap⟩ :=
        IsPlace.exists_between hrest hspan.isPlace_start hspan.after
      obtain ⟨inner, text, tail, rfl, hstop, htext, hwoven⟩ := hfits.exists_print hspan hstart
      obtain ⟨out, hout, hwoven'⟩ := ih hin hstop []
      refine ⟨splice gap run [] ++ text ++ out, ?_, ?_⟩
      · have hcut : Span.cut? ⟨cursor, span.start⟩ source = some gap := by
          rw [hgap]
          exact hrest.cut?
        simp [printDecls, hs, hcut, htext, hout]
      · simp only [declRuns, hs, List.append_assoc]
        exact (woven_splice gap run 0).append (hwoven.append hwoven')

end

/-- **A tree that fits its source is printed**, and as its source with its runs woven
in. -/
theorem SourceFile.WellFormed.exists_print {file : SourceFile} (h : file.WellFormed) :
    ∃ out, file.print = some out ∧ Woven file.source.toList file.runs out.toList := by
  obtain ⟨head, rest, hsource, hrest, hhead⟩ :=
    IsPlace.exists_between (RestAt.start file.source.toList) h.isPlace_package (Nat.zero_le _)
  obtain ⟨out, hout, hwoven⟩ := h.inOrder.exists_print hrest []
  have hcut : Span.cut? ⟨0, file.package.span.stop⟩ file.source.toList = some head := by
    have hstart := RestAt.start file.source.toList
    rw [hhead]
    nth_rewrite 2 [hsource] at hstart
    exact hstart.cut?
  refine ⟨String.ofList (head ++ out), ?_, ?_⟩
  · simp [SourceFile.print, hcut, hout]
  · rw [hsource, String.toList_ofList]
    exact hwoven.keepAll head

theorem stmtRuns_eq_nil {stmts : List Stmt} (h : ∀ stmt ∈ stmts, stmt.span?.isSome) :
    stmtRuns [] stmts = [] := by
  induction stmts with
  | nil => rfl
  | cons stmt stmts ih =>
    obtain ⟨span, hs⟩ := Option.isSome_iff_exists.mp (h stmt (by simp))
    simp only [stmtRuns, hs, pending_nil, List.nil_append]
    exact ih fun stmt hmem => h stmt (by simp [hmem])

theorem Decl.BodyWasRead.runs_eq_nil {decl : Decl} (h : decl.BodyWasRead) : decl.runs = [] := by
  unfold Decl.runs
  split
  · exact stmtRuns_eq_nil h.2
  · rfl

/-- **What is left of a source that was changed.** A tree that fits its source is
changed in any way that keeps the order. It is printed, and as the source with the
runs of the new nodes woven in. Without these runs the text has the characters of the
source in the same order, white space apart; if there are none, it is the source. -/
theorem print_of_edit {old new : SourceFile} (h : old.WellFormed) (he : EditOf old new) :
    ∃ out, new.print = some out ∧
      Woven old.source.toList new.runs out.toList ∧
      (∃ first rest, out.toList = interleave first rest ∧
        List.Forall₂ PlacedAs new.runs (rest.map Prod.fst) ∧
        inked (first ++ rest.flatMap Prod.snd) = inked old.source.toList) ∧
      (new.runs = [] → out = old.source) := by
  obtain ⟨out, hout, hwoven⟩ := (h.of_edit he).exists_print
  rw [he.source_eq] at hwoven
  refine ⟨out, hout, hwoven, hwoven.exists_pieces, fun hruns => ?_⟩
  rw [hruns] at hwoven
  exact String.toList_inj.mp hwoven.eq_of_nil

/-- A file of two declarations, one with a statement in its body. -/
def smallFile : SourceFile where
  source := "package p;func f()\x7bg()\x7d;var x"
  package := ⟨"p", ⟨0, 9⟩⟩
  decls := [.func ⟨"f", none, [], none, some ⟨[.verbatim ⟨19, 22⟩], some ⟨18, 23⟩⟩, some ⟨10, 23⟩⟩,
    .other ⟨24, 29⟩]

/-- The same file with an import and a statement put in, and a declaration taken
away. -/
def smallFileEdited : SourceFile where
  source := "package p;func f()\x7bg()\x7d;var x"
  package := ⟨"p", ⟨0, 9⟩⟩
  decls := [.imports ⟨[⟨none, "\"os\""⟩], none⟩,
    .func ⟨"f", none, [], none,
      some ⟨[.expr (.call (.ident "h") []), .verbatim ⟨19, 22⟩], some ⟨18, 23⟩⟩, some ⟨10, 23⟩⟩]

theorem wellFormed_smallFile : smallFile.WellFormed where
  isPlace_package := ⟨_, "package p".toList, rfl, rfl⟩
  inOrder := by
    refine ⟨⟨by decide, by decide, ⟨_, "package p;".toList, rfl, rfl⟩,
        ⟨_, "package p;func f()\x7bg()\x7d".toList, rfl, rfl⟩⟩, ⟨by decide, by decide, ?_, ?_⟩, ?_⟩
    · exact ⟨_, "package p;func f()".toList, rfl, rfl⟩
    · refine ⟨22, _, rfl, ⟨"package p;func f()\x7bg()".toList, rfl, rfl⟩, ?_⟩
      exact ⟨⟨by decide, by decide, ⟨_, "package p;func f()\x7b".toList, rfl, rfl⟩,
        ⟨_, "package p;func f()\x7bg()".toList, rfl, rfl⟩⟩, Nat.le_refl 22⟩
    · exact ⟨⟨by decide, by decide, ⟨_, "package p;func f()\x7bg()\x7d;".toList, rfl, rfl⟩,
        ⟨_, smallFile.source.toList, rfl, rfl⟩⟩, trivial, trivial⟩

theorem editOf_smallFile : EditOf smallFile smallFileEdited where
  source_eq := rfl
  package_eq := rfl
  decls := .insert _ rfl (.keep (.body ⟨"f", none, [], none, none, some ⟨10, 23⟩⟩
    (.insert _ rfl (.keep _ .nil))) (.delete _ rfl .nil))

theorem print_smallFileEdited :
    ∃ out, smallFileEdited.print = some out ∧
      Woven smallFile.source.toList
        ["\n\nimport \"os\"".toList, "\n\th()".toList] out.toList := by
  have hruns : smallFileEdited.runs = ["\n\nimport \"os\"".toList, "\n\th()".toList] := by
    cbv
  obtain ⟨out, hout, hwoven, -, -⟩ := print_of_edit wellFormed_smallFile editOf_smallFile
  rw [hruns] at hwoven
  exact ⟨out, hout, hwoven⟩

end EntryProbe.Go
