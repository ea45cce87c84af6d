import EntryProbe.Proofs.PairedBreaks
import EntryProbe.Proofs.Reparsing
import EntryProbe.Proofs.Unquoting

/-!
# The line endings of an instrumented file

A file whose line breaks all have a carriage return is instrumented. The imports are put into
one gap, and the blocks into one gap each, so that the result has line breaks of one form
exactly if all of these gaps have a line break (`EntryProbe.Go.Respliced`). A body on one
line has none, and neither has a file on one line.

The result is compared with the source declaration by declaration, from the last one to the
first one, as it is printed.

* `EntryProbe.Go.ItemRead.exists_respliced` – one declaration;
* `EntryProbe.Go.ItemsRead.exists_respliced` – all of them;
* `EntryProbe.Go.pairedBreaks_print_instrument` – a file.
-/

namespace EntryProbe.Go

open Profiling

/-! ### Runs have no carriage returns -/

theorem return_not_mem_encode (text : List Char) : '\r' ∉ Quoted.encode text := by
  intro hmem
  have hprint := Quoted.isPrintable_of_mem_encode hmem
  revert hprint
  decide

theorem return_not_mem_blockRun (profile : String) : '\r' ∉ blockRun profile := by
  have hstart : '\r' ∉ unscan (blockStart [] ['\n']) := by decide
  have hmiddle : '\r' ∉ unscan (blockMiddle ['\n']) := by decide
  have hend : '\r' ∉ unscan (blockEnd ['\n']) := by decide
  rw [blockRun, rendered_preamble]
  simp [blockTokens, Token.quoted, hstart, hmiddle, hend, return_not_mem_encode]

theorem return_not_mem_importRun (file : SourceFile) : '\r' ∉ importRun (missingImports file) := by
  simp only [missingImports, List.filter_cons, List.filter_nil]
  split <;> split <;> decide

/-! ### Gaps that runs are put into -/

/-- The text between the opening brace of a body and what comes next, a statement or the
closing brace. -/
def Decl.firstGap? (source : List Char) : Decl → Option (List Char)
  | .func { body := some { stmts, span := some span }, .. } =>
    let stop := ((stmts.head?.bind Stmt.span?).map Span.start).getD (span.stop - 1)
    Span.cut? ⟨span.start + 1, stop⟩ source
  | _ => none

/-- There is a line break in a gap, outside block comments. -/
def HasBreak (gap : Option (List Char)) : Prop :=
  (gap.bind splitAtLineBreak?).isSome

theorem hasBreak_iff {gap : Option (List Char)} {text : List Char} (h : gap = some text) :
    HasBreak gap ↔ (splitAtLineBreak? text).isSome := by
  rw [HasBreak, h, Option.bind_some]

/-- A token does not start with a line feed. -/
theorem Token.Starts.head?_ne {token : Token} {tail : List Char} (h : token.Starts tail)
    (rest : List Char) : (token.text ++ rest).head? ≠ some '\n' := by
  obtain ⟨c, text, htext⟩ := List.exists_cons_of_ne_nil h.text_ne
  obtain ⟨mode, hmode, -, hstop⟩ := trivia_of_splitTrivia h.gap_eq
  rw [htext, List.cons_append] at hstop ⊢
  rintro hhead
  cases hhead
  cases mode with
  | block => exact hmode rfl
  | line => cases splitTriviaFrom_line_iff.mp hstop
  | outside => cases (splitTriviaFrom_outside_iff.mp hstop).1

section

variable {source last : List Char} {offset close : Nat} {tokens rest : List Token}
  {kind : TopLevelKind} {decl : Decl} {span : Span} {spans : List Span}

/-- The gap behind an opening brace is the gap of the token that comes next. -/
theorem StmtsRead.cut?_firstGap {token brace : Token} {inner after : List Token}
    (h : StmtsRead offset (token :: inner) spans close (brace :: after))
    (hrest : RestAt source offset (unscan (token :: inner) ++ last)) :
    Span.cut? ⟨offset, (((spans.map Stmt.verbatim).head?.bind Stmt.span?).map Span.start).getD
      (close + byteLength brace.gap)⟩ source = some token.gap := by
  have hgap : RestAt source offset (token.gap ++ (token.text ++ unscan inner ++ last)) := by
    simpa using hrest
  have hmore : ∀ {piece rest : List Token} {spans' : List Span}, piece ≠ [] →
      piece ++ rest = token :: inner → spans = pieceSpan offset piece :: spans' →
      Span.cut? ⟨offset, (((spans.map Stmt.verbatim).head?.bind Stmt.span?).map Span.start).getD
        (close + byteLength brace.gap)⟩ source = some token.gap := by
    rintro piece rest spans' hpiece hcut rfl
    obtain ⟨first, piece, rfl⟩ := List.exists_cons_of_ne_nil hpiece
    obtain ⟨rfl, -⟩ := List.cons.inj hcut
    exact hgap.cut?
  generalize hend : brace :: after = rest at h
  generalize hall : token :: inner = tokens at h
  cases h with
  | done =>
    cases hend
    cases hall
    exact hgap.cut?
  | step _ _ hcut hpiece _ _ =>
    subst hall
    exact hmore hpiece hcut.append_eq rfl
  | last _ _ hcut hpiece _ _ =>
    subst hall
    exact hmore hpiece hcut.append_eq rfl

/-- The first gap of an entry function that was read. -/
theorem firstGap?_funcOf {first brace closing token : Token} {used inner : List Token}
    {signature : FuncDecl} (hopened : brace.text = ['\x7b']) (hclosed : closing.text = ['\x7d'])
    (h : StmtsRead (offset + width (first :: used) + byteLength brace.full) (token :: inner) spans
      close (closing :: rest))
    (hrest : RestAt source (offset + width (first :: used) + byteLength brace.full)
      (unscan (token :: inner) ++ last)) :
    (Decl.func (funcOf offset (first :: used) signature brace spans close closing)).firstGap?
      source = some token.gap := by
  have hstart : offset + width (first :: used) + byteLength brace.gap + 1 =
      offset + width (first :: used) + byteLength brace.full := by
    rw [brace.byteLength_full_eq hopened rfl, ← Nat.add_assoc]
  have hstop : close + byteLength closing.full - 1 = close + byteLength closing.gap := by
    rw [closing.byteLength_full_eq hclosed rfl, ← Nat.add_assoc, Nat.add_sub_cancel]
  have hcut := h.cut?_firstGap hrest
  rw [← hstart, ← hstop] at hcut
  exact hcut

/-! ### Declarations -/

/-- An entry function is printed with a run put into the first gap of its body. -/
theorem exists_respliced_entry {first brace closing : Token} {used inner : List Token}
    {signature : FuncDecl} (profile : String) (hentry : signature.isEntry = true)
    (hbrace : brace.lexeme = .mark .openBrace)
    (hstmts : StmtsRead (offset + width (first :: used) + byteLength brace.full) inner spans close
      (closing :: rest))
    (hrest : RestAt source offset (unscan (first :: used ++ brace :: inner) ++ last))
    (hscanned : Scanned (brace :: inner) last)
    (hspelled : ∀ token ∈ first :: used ++ brace :: inner, token.Spelled) :
    ∃ text,
      printDecl source
          (addPreamble profile
            (.func (funcOf offset (first :: used) signature brace spans close closing)))
          ⟨(pieceSpan offset (first :: used)).start, close + byteLength closing.full⟩ = some text ∧
      ∀ {condition : Prop} {out : List Char}, Respliced condition (unscan rest ++ last) out →
        Respliced
          (HasBreak ((Decl.func
            (funcOf offset (first :: used) signature brace spans close closing)).firstGap? source) ∧
            condition)
          (spelling (first :: used ++ brace :: inner) ++ last) (text ++ out) := by
  have hopened : brace.text = ['\x7b'] := (hspelled brace (by simp)).text_openBrace hbrace
  have hclosed : closing.text = ['\x7d'] :=
    hstmts.text_closing fun token hmem => hspelled token (by simp [hmem])
  have hinner := restAt_token (restAt_piece hrest)
  obtain ⟨token, inner, tabs, text, rfl, htext, hprint⟩ :=
    exists_printDecl_entry profile hentry hbrace hstmts hrest hspelled
  refine ⟨_, hprint, fun {condition out} hout => ?_⟩
  have hbehind :
      text ++ '\x7d' :: (unscan rest ++ last) = token.text ++ (unscan inner ++ last) := by
    rw [unscan_cons, List.append_assoc, List.append_assoc] at htext
    exact (List.append_cancel_left htext).symm
  have hhead : (text ++ '\x7d' :: (unscan rest ++ last)).head? ≠ some '\n' := by
    rw [hbehind]
    exact hscanned.2.1.head?_ne _
  have hsource : spelling (first :: used ++ brace :: token :: inner) ++ last =
      (spelling (first :: used) ++ brace.gap) ++
        '\x7b' :: (token.gap ++ (text ++ '\x7d' :: (unscan rest ++ last))) := by
    rw [hbehind]
    simp [spelling, hopened]
  have hmade : Respliced ((splitAtLineBreak? token.gap).isSome ∧ condition)
      ((spelling (first :: used) ++ brace.gap) ++
        '\x7b' :: (token.gap ++ (text ++ '\x7d' :: (unscan rest ++ last))))
      ((spelling (first :: used) ++ brace.gap) ++
        '\x7b' :: (splice token.gap (blockRun profile) (List.replicate tabs '\t') ++
          (text ++ '\x7d' :: out))) :=
    .splice (by decide) hhead (return_not_mem_blockRun profile) rfl
      ((hout.append_left ['\x7d']).append_left text)
  rw [hsource]
  have hfirstGap := hasBreak_iff (@firstGap?_funcOf _ _ _ _ _ _ _ _ _ _ _ _ signature hopened
    hclosed hstmts hinner)
  have hsame := hmade.congr (and_congr_left' hfirstGap.symm)
  simpa using hsame

/-- **One declaration is printed** with runs put into the text that it was read from. -/
theorem ItemRead.exists_respliced (profile : String)
    (h : ItemRead offset tokens (.decl kind decl) rest)
    (hrest : RestAt source offset (unscan tokens ++ last)) (hscanned : Scanned tokens last)
    (hspelled : ∀ token ∈ tokens, token.Spelled) (hspan : decl.span? = some span) :
    ∃ text, printDecl source (addPreamble profile decl) span = some text ∧
      ∀ {condition : Prop} {out : List Char}, Respliced condition (unscan rest ++ last) out →
        Respliced ((takesPreamble decl = true → HasBreak (decl.firstGap? source)) ∧ condition)
          (spelling tokens ++ last) (text ++ out) := by
  cases htakes : takesPreamble decl with
  | false =>
    obtain ⟨used, rfl, hused, -⟩ := h.exists_taken
    refine ⟨_, h.printDecl_same profile hused hrest hspelled hspan htakes, fun hout => ?_⟩
    rw [spelling_append hused, List.append_assoc]
    exact (hout.append_left (spelling used)).congr (by simp)
  | true =>
    generalize hitem : Item.decl kind decl = item at h
    cases h with
    | package => cases hitem
    | imports =>
      cases hitem
      cases htakes
    | other =>
      cases hitem
      cases htakes
    | stub _ _ hread _ _ =>
      cases hitem
      simp [takesPreamble, readSignature_body hread] at htakes
    | @func first inner left head middle rest signature body stop hfirst hdeclares hread hcut hbody
        hreadBody =>
      cases hitem
      cases hspan
      have hentry : signature.isEntry = true := (Bool.and_eq_true_iff.mp htakes).1
      obtain ⟨used, rfl, rfl, rfl, -⟩ := steady_readSignature.exists_piece hread hcut
      obtain ⟨brace, inner, spans, close, closing, rfl, hbrace, hstmts, rfl, rfl⟩ :=
        readBody_eq_ok.mp hreadBody
      obtain ⟨text, htext, hout⟩ := exists_respliced_entry profile hentry hbrace hstmts hrest
        (@Scanned.append_right (first :: used) _ _ hscanned) hspelled
      refine ⟨text, htext, fun hrest => (hout hrest).congr ?_⟩
      exact and_congr_left' ⟨fun hbreak _ => hbreak, fun hbreak => hbreak rfl⟩

/-- The tokens are a gap and what it stands in front of. -/
theorem unscan_eq_spelling (tokens : List Token) :
    unscan tokens = (tokens.head?.map Token.gap).getD [] ++ spelling tokens := by
  cases tokens with
  | nil => rfl
  | cons token tokens => simp [spelling]

/-- The bodies that take a block have room for it on a line of its own. -/
def BodiesHaveBreaks (source : List Char) (decls : List Decl) : Prop :=
  ∀ decl ∈ decls, takesPreamble decl = true → HasBreak (decl.firstGap? source)

/-- **The declarations are printed** with runs put into the text that they were read from. The
gap in front of them is left open. -/
theorem ItemsRead.exists_respliced (profile : String) {items : List Item}
    (h : ItemsRead offset tokens items) (hdecls : items.filterMap Item.clause? = [])
    (hrest : RestAt source offset (unscan tokens ++ last)) (hscanned : Scanned tokens last)
    (hspelled : ∀ token ∈ tokens, token.Spelled) :
    ∃ out, Respliced (BodiesHaveBreaks source (items.filterMap Item.decl?))
        (spelling tokens ++ last) out ∧
      ∀ cursor before, RestAt source cursor (before ++ (unscan tokens ++ last)) →
        printDecls source cursor [] ((items.filterMap Item.decl?).map (addPreamble profile)) =
          some (before ++ ((tokens.head?.map Token.gap).getD [] ++ out)) := by
  induction h with
  | done =>
    refine ⟨last, (Respliced.same last).congr (by simp [BodiesHaveBreaks]),
      fun cursor before hplace => ?_⟩
    simp [printDecls, hplace.cut?_end]
  | @step offset length tokens rest item items hitem hend _ ih =>
    obtain ⟨kind, decl, rfl⟩ := exists_decl_of_clauses hdecls
    obtain ⟨span, ⟨hspan, -⟩, -, -, hstop⟩ := hitem.inOrder hrest hspelled
    obtain ⟨text, htext, hrespliced⟩ :=
      hitem.exists_respliced profile hrest hscanned hspelled hspan
    obtain ⟨used, rfl, -, -⟩ := hitem.exists_taken
    obtain ⟨terminator, tokens, rfl, rfl, -⟩ := exists_itemEnd hend
    rw [taken_append, List.drop_left, List.take_left] at ih
    obtain ⟨out, hout, hprint⟩ := ih (by simpa [Item.clause?] using hdecls)
      (restAt_piece (restAt_piece hrest)) hscanned.append_right.append_right
      fun token hmem => hspelled token (by simp [hmem])
    -- the terminator and the gap behind it are printed as they are
    have hbetween := (hout.append_left ((tokens.head?.map Token.gap).getD [])).append_left
      (unscan terminator)
    rw [← List.append_assoc _ (spelling tokens), ← unscan_eq_spelling, ← List.append_assoc,
      ← unscan_append] at hbetween
    refine ⟨_, (hrespliced hbetween).congr ?_, fun cursor before hplace => ?_⟩
    · simp [BodiesHaveBreaks, Item.decl?]
    · refine hitem.printDecls_cons hrest hspan hplace htext
        (hprint span.stop (unscan terminator) ?_)
      simpa using hstop
  | @last offset tokens item hitem =>
    obtain ⟨kind, decl, rfl⟩ := exists_decl_of_clauses hdecls
    obtain ⟨span, ⟨hspan, -⟩, -, -, hstop⟩ := hitem.inOrder hrest hspelled
    obtain ⟨text, htext, hrespliced⟩ :=
      hitem.exists_respliced profile hrest hscanned hspelled hspan
    refine ⟨_, (hrespliced (.same _)).congr ?_, fun cursor before hplace => ?_⟩
    · simp [BodiesHaveBreaks, Item.decl?]
    · refine hitem.printDecls_cons hrest hspan hplace htext ?_
      simpa [printDecls] using hstop.cut?_end

end

/-! ### Files -/

/-- A token of a package clause, or a terminator, does not end in a carriage return. -/
theorem Token.InClauses.exists_concat {token : Token} {gap tail : List Char} (h : token.InClauses)
    (hspelled : token.Spelled) (hstarts : ({ token with gap } : Token).Starts tail) :
    ∃ front c, token.text = front ++ [c] ∧ c ≠ '\r' := by
  have hword : token.lexeme = .word ∨ (∃ keyword, token.lexeme = .keyword keyword) →
      ∃ front c, token.text = front ++ [c] ∧ c ≠ '\r' := by
    intro hkind
    obtain ⟨c, rest, htext, hstart, hall⟩ := exists_of_lexeme_word hstarts.lexeme_eq hkind
    rcases List.eq_nil_or_concat rest with rfl | ⟨front, d, rfl⟩
    · refine ⟨[], c, htext, ?_⟩
      rintro rfl
      cases hstart
    · refine ⟨c :: front, d, by simpa using htext, ?_⟩
      rintro rfl
      cases hall '\r' (by simp)
  have hmark : token.lexeme = .mark .semicolon ∨ token.lexeme = .mark .null →
      ∃ front c, token.text = front ++ [c] ∧ c ≠ '\r' := by
    intro hkind
    obtain ⟨c, htext, hc⟩ := hspelled.text_terminator hkind
    refine ⟨[], c, htext, ?_⟩
    rintro rfl
    revert hc
    decide
  rcases h with h | h | h | h
  · exact hword (.inr ⟨_, h⟩)
  · exact hword (.inl h)
  · exact hmark (.inl h)
  · exact hmark (.inr h)

namespace Opened

variable {source : String} {file : SourceFile} {used terminator rest : List Token} {first : Token}
  {last : List Char} {items : List Item}

/-- The text up to the end of the package clause does not end in a carriage return. -/
theorem exists_concat (h : Opened source file used terminator first rest last items) :
    ∃ front c, unscan used = front ++ [c] ∧ c ≠ '\r' := by
  obtain ⟨used', token, rfl⟩ := (List.eq_nil_or_concat used).resolve_left h.used_ne
  obtain ⟨gap, tail, hstarts⟩ := exists_starts_of_scan h.scan_eq token (by simp)
  obtain ⟨front, c, htext, hc⟩ := (h.clauses token (by simp)).exists_concat
    (h.spelled token (by simp)) hstarts
  exact ⟨unscan used' ++ (token.gap ++ front), c, by simp [htext], hc⟩

/-- **The file is printed** with runs put into its source. -/
theorem exists_respliced (h : Opened source file used terminator first rest last items)
    (profile : String) :
    ∃ out, (instrument file profile).1.print = some (String.ofList out) ∧
      Respliced ((missingImports file ≠ [] → HasBreak file.headGap?) ∧
        BodiesHaveBreaks source.toList file.decls) source.toList out := by
  have hplace := h.restAt.advance.advance
  rw [Nat.zero_add] at hplace
  obtain ⟨out, hout, hprint⟩ := h.read.exists_respliced profile h.no_clauses hplace
    h.scanned.append_right fun token hmem => h.spelled token (by simp [List.mem_cons.mp hmem])
  rw [← h.decls_eq] at hout hprint
  have hhead : (spelling (first :: rest) ++ last).head? ≠ some '\n' := by
    rw [spelling, List.append_assoc]
    exact h.scanned.append_right.1.head?_ne _
  have hsource : source.toList = unscan used ++ ((unscan terminator ++ first.gap) ++
      (spelling (first :: rest) ++ last)) := by
    have happend := scan_append source.toList
    rw [h.scan_eq] at happend
    rw [← happend]
    simp [spelling]
  have hplain : printDecls source.toList file.package.span.stop []
      (file.decls.map (addPreamble profile)) = some ((unscan terminator ++ first.gap) ++ out) := by
    rw [hprint _ _ h.restAt_stop]
    simp
  refine ⟨_, h.print_of_decls hplain, ?_⟩
  generalize BodiesHaveBreaks source.toList file.decls = bodies at hout ⊢
  by_cases hmissing : missingImports file = []
  · rw [hsource, hmissing, importRun, List.foldl_nil, splice_nil]
    exact ((hout.append_left _).append_left _).congr (by simp)
  · obtain ⟨front, c, hused, hc⟩ := h.exists_concat
    have hconcat : ∀ rest, front ++ [c] ++ rest = front ++ c :: rest := fun rest => by simp
    have hmade : Respliced ((splitAtLineBreak? (unscan terminator ++ first.gap)).isSome ∧ bodies)
        (front ++ c :: ((unscan terminator ++ first.gap) ++ (spelling (first :: rest) ++ last)))
        (front ++ c ::
          (splice (unscan terminator ++ first.gap) (importRun (missingImports file)) [] ++ out)) :=
      .splice hc hhead (return_not_mem_importRun file) (head_importRun hmissing) hout
    rw [hsource, hused, hconcat, hconcat]
    refine hmade.congr (and_congr_left' ?_)
    rw [hasBreak_iff h.headGap?_eq]
    exact ⟨fun hbreak _ => hbreak, fun hbreak => hbreak hmissing⟩

end Opened

section

variable {source profile out : String} {file : SourceFile}

/-- **Line breaks stay of one form** in an instrumented file if and only if every gap that takes
imports or a block has a line break outside block comments. -/
theorem pairedBreaks_print_instrument (h : parse source = .ok file)
    (hentry : file.hasEntryPoint = true) (hpaired : PairedBreaks source.toList)
    (hprint : (instrument file profile).1.print = some out) :
    PairedBreaks out.toList ↔
      (missingImports file ≠ [] → HasBreak file.headGap?) ∧
        ∀ decl ∈ file.decls, takesPreamble decl = true →
          HasBreak (decl.firstGap? source.toList) := by
  have hearly : ¬ file.HasEarlyDecl := by
    intro hearly
    rw [print_instrument_eq_none h hearly profile] at hprint
    cases hprint
  have hdecls : file.decls ≠ [] := by
    intro hnil
    simp [SourceFile.hasEntryPoint, SourceFile.funcs, hnil] at hentry
  obtain ⟨used, terminator, first, rest, last, items, hopened⟩ := exists_opened h hearly hdecls
  obtain ⟨text, htext, hrespliced⟩ := hopened.exists_respliced profile
  rw [hprint] at htext
  rw [Option.some.inj htext, String.toList_ofList]
  exact hrespliced.pairedBreaks_iff hpaired

end

/-- A program with its body on one line. -/
def shortSource : String :=
  "package main\r\n\r\nfunc main() \x7b\x7d\r\n"

/-- The same program with its body on lines of its own. -/
def longSource : String :=
  "package main\r\n\r\nfunc main() \x7b\r\n\r\n\x7d\r\n"

theorem pairedBreaks_print_instrument_both :
    (∃ file out, parse shortSource = .ok file ∧ file.hasEntryPoint = true ∧
      PairedBreaks shortSource.toList ∧ (instrument file "cpu.prof").1.print = some out ∧
      ¬ PairedBreaks out.toList) ∧
    ∃ file out, parse longSource = .ok file ∧ file.hasEntryPoint = true ∧
      PairedBreaks longSource.toList ∧ (instrument file "cpu.prof").1.print = some out ∧
      PairedBreaks out.toList := by
  have hshort : (parse shortSource).toOption.any (fun file =>
      file.hasEntryPoint && !decide file.HasEarlyDecl && file.decls.any fun decl =>
        takesPreamble decl && decl.firstGap? shortSource.toList == some []) = true := by
    decide +kernel
  have hlong : (parse longSource).toOption.any (fun file =>
      file.hasEntryPoint && !decide file.HasEarlyDecl &&
        (file.headGap?.bind splitAtLineBreak?).isSome && file.decls.all fun decl =>
          ((decl.firstGap? longSource.toList).bind splitAtLineBreak?).isSome) = true := by
    decide +kernel
  have hshortPaired : PairedBreaks shortSource.toList := by
    have hreturns : shortSource.toList =
        withCarriageReturns "package main\n\nfunc main() \x7b\x7d\n".toList := by decide
    rw [hreturns]
    exact .withReturns (by decide)
  have hlongPaired : PairedBreaks longSource.toList := by
    have hreturns : longSource.toList =
        withCarriageReturns "package main\n\nfunc main() \x7b\n\n\x7d\n".toList := by decide
    rw [hreturns]
    exact .withReturns (by decide)
  refine ⟨?_, ?_⟩
  · obtain ⟨file, hparse, hfile⟩ := exists_ok_of_any hshort
    simp only [Bool.and_eq_true, Bool.not_eq_true', decide_eq_false_iff_not, List.any_eq_true,
      beq_iff_eq] at hfile
    obtain ⟨⟨hentry, hearly⟩, decl, hmem, htakes, hgap⟩ := hfile
    obtain ⟨out, hprint⟩ := exists_print_instrument hparse hearly "cpu.prof"
    refine ⟨file, out, hparse, hentry, hshortPaired, hprint, fun hout => ?_⟩
    have hbreaks := ((pairedBreaks_print_instrument hparse hentry hshortPaired hprint).mp hout).2
    have hbreak := hbreaks decl hmem htakes
    rw [hgap] at hbreak
    cases hbreak
  · obtain ⟨file, hparse, hfile⟩ := exists_ok_of_any hlong
    simp only [Bool.and_eq_true, Bool.not_eq_true', decide_eq_false_iff_not, List.all_eq_true]
      at hfile
    obtain ⟨⟨⟨hentry, hearly⟩, hhead⟩, hbodies⟩ := hfile
    obtain ⟨out, hprint⟩ := exists_print_instrument hparse hearly "cpu.prof"
    refine ⟨file, out, hparse, hentry, hlongPaired, hprint, ?_⟩
    exact (pairedBreaks_print_instrument hparse hentry hlongPaired hprint).mpr
      ⟨fun _ => hhead, fun decl hmem _ => hbodies decl hmem⟩

end EntryProbe.Go
