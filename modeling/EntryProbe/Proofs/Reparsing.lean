import EntryProbe.Proofs.HeadGap
import EntryProbe.Proofs.Probing

/-!
# Reading an instrumented file again

A file that was read and instrumented is printed, and the text is what the compiler gets to
see. It is read as it was meant: the package clauses of the file, the imports that were put
in, and the declarations of the file, which say the same as before but for the blocks in
front of the bodies of entry functions (`EntryProbe.Go.parse_instrument`). One thing may be
left over, the semicolon that ended the package clause
(`EntryProbe.Go.SourceFile.LeavesBehind`).

The file is taken apart into the tokens of its package clauses, a terminator, and the tokens
of its declarations (`EntryProbe.Go.Opened`). The first are kept
(`EntryProbe.Go.ItemsRead.exists_clauses`), the terminator makes room for the imports
(`EntryProbe.Go.exists_joined`), and the last take the blocks
(`EntryProbe.Go.ItemsRead.exists_probed`). Then they are read again from the back to the front
(`EntryProbe.Go.Opened.exists_items`).
-/

namespace EntryProbe.Go

open Profiling

/-! ### Package clauses -/

section

variable {source last : List Char} {offset : Nat} {tokens rest : List Token}
  {clause : PackageClause} {front back items : List Item}

/-- A package clause consists of two tokens. -/
theorem ItemRead.exists_clause (h : ItemRead offset tokens (.package clause) rest) :
    ∃ first name, tokens = [first, name] ++ rest ∧ first.lexeme = .keyword .packageWord ∧
      name.lexeme = .word ∧ clause = ⟨nodeText [name], pieceSpan offset [first, name]⟩ := by
  generalize hitem : Item.package clause = item at h
  cases h with
  | @package first inner left piece rest name hfirst hread hcut =>
    cases hitem
    obtain ⟨token, hword, rfl, rfl⟩ := exists_of_readWord hread
    obtain ⟨rfl, rfl⟩ := @Cut.eq_of_append [first, token] _ _ _ hcut
    exact ⟨first, token, rfl, hfirst, hword, rfl⟩
  | imports => cases hitem
  | func => cases hitem
  | stub => cases hitem
  | other => cases hitem

theorem itemRead_clause {first name : Token} (hfirst : first.lexeme = .keyword .packageWord)
    (hname : name.lexeme = .word) (offset : Nat) (rest : List Token) :
    ItemRead offset ([first, name] ++ rest)
      (.package ⟨nodeText [name], pieceSpan offset [first, name]⟩) rest :=
  .package hfirst (readWord_cons hname rest) (cut_append [first, name] rest)

/-- The tokens of package clauses and of the terminators between them. -/
def Token.InClauses (token : Token) : Prop :=
  token.lexeme = .keyword .packageWord ∨ token.lexeme = .word ∨
    token.lexeme = .mark .semicolon ∨ token.lexeme = .mark .null

theorem inClauses_of_terminator {terminator after : List Token}
    (h : terminatorLength? (terminator ++ after) = some terminator.length) :
    ∀ token ∈ terminator, token.InClauses := by
  rcases terminator_cases h with ⟨rfl, -⟩ | ⟨token, rfl, -, hmark⟩
  · exact nofun
  · exact List.forall_mem_cons.mpr ⟨.inr (.inr hmark), nofun⟩

/-- **The package clauses at the front of a file are read again**, whatever follows them, if
it starts with a terminator. -/
theorem ItemsRead.exists_clauses (h : ItemsRead offset tokens (front ++ .package clause :: back))
    (hfront : front.filterMap Item.decl? = []) (hback : back ≠ []) :
    ∃ used terminator rest, tokens = used ++ (terminator ++ rest) ∧ used ≠ [] ∧
      (∀ token ∈ used, token.InClauses) ∧ clause.span.stop = offset + width used ∧
      terminatorLength? (terminator ++ rest) = some terminator.length ∧
      ItemsRead (offset + width used + width terminator) rest back ∧
      ∀ terminator' rest' back',
        terminatorLength? (terminator' ++ rest') = some terminator'.length →
        ItemsRead (offset + width used + width terminator') rest' back' →
        ItemsRead offset (used ++ (terminator' ++ rest')) (front ++ .package clause :: back') := by
  induction front generalizing offset tokens with
  | nil =>
    cases h with
    | last => exact absurd rfl hback
    | step hitem hterm hitems =>
      obtain ⟨first, name, rfl, hfirst, hname, rfl⟩ := hitem.exists_clause
      rw [itemEnd?_package] at hterm
      obtain ⟨terminator, rest, rfl, rfl, -⟩ := exists_terminator hterm
      rw [taken_append, List.take_left, List.drop_left] at hitems
      refine ⟨[first, name], terminator, rest, rfl, by simp, ?_, rfl, hterm, hitems, ?_⟩
      · simp [Token.InClauses, hfirst, hname]
      · intro terminator' rest' back' hterm' hitems'
        exact .step_append (itemRead_clause hfirst hname offset _) (itemEnd?_of_terminator hterm')
          hitems'
  | cons item front ih =>
    cases item with
    | decl kind decl => cases hfront
    | package early =>
      generalize hall : Item.package early :: front ++ .package clause :: back = all at h
      cases h with
      | done => cases hall
      | last => simp at hall
      | step hitem hterm hitems =>
        obtain ⟨rfl, rfl⟩ := List.cons.inj hall
        obtain ⟨first, name, rfl, hfirst, hname, rfl⟩ := hitem.exists_clause
        rw [itemEnd?_package] at hterm
        obtain ⟨between, rest, rfl, rfl, -⟩ := exists_terminator hterm
        rw [taken_append, List.take_left, List.drop_left] at hitems
        obtain ⟨used, terminator, rest, rfl, hused, hclauses, hstop, hterm', hrest, hagain⟩ :=
          ih hitems hfront
        have hwidth : offset + width ([first, name] ++ (between ++ used)) =
            offset + width [first, name] + width between + width used := by
          rw [width_append, width_append]
          omega
        rw [← hwidth] at hstop hrest
        refine ⟨[first, name] ++ (between ++ used), terminator, rest, by simp, by simp, ?_, hstop,
          hterm', hrest, ?_⟩
        -- the clauses in front are kept with the terminators between them
        · simp only [List.forall_mem_append]
          refine ⟨?_, inClauses_of_terminator hterm, hclauses⟩
          simp [Token.InClauses, hfirst, hname]
        · intro terminator' rest' back' hnext hitems'
          have hbetween : terminatorLength? (between ++ (used ++ (terminator' ++ rest'))) =
              some between.length := by
            rw [← hterm]
            refine terminatorLength?_eq ?_
            obtain ⟨token, used, rfl⟩ := List.exists_cons_of_ne_nil hused
            cases between <;> rfl
          rw [hwidth] at hitems'
          have hread := hagain terminator' rest' back' hnext hitems'
          simpa using ItemsRead.step_append (itemRead_clause hfirst hname offset _)
            (itemEnd?_of_terminator hbetween) hread

theorem width_cons_pos {first : Token} (h : first.text ≠ []) (tokens : List Token) :
    0 < width (first :: tokens) := by
  obtain ⟨c, text, htext⟩ := List.exists_cons_of_ne_nil h
  have := c.utf8Size_pos
  simp only [width, unscan_cons, htext, byteLength_append, byteLength_cons]
  omega

/-- A package clause ends behind the offset that it was read from. -/
theorem ItemsRead.lt_stop (h : ItemsRead offset tokens items) (hmem : .package clause ∈ items)
    (htexts : ∀ token ∈ tokens, token.text ≠ []) : offset < clause.span.stop := by
  have hclause : ∀ {offset : Nat} {tokens rest : List Token},
      ItemRead offset tokens (.package clause) rest → (∀ token ∈ tokens, token.text ≠ []) →
      offset < clause.span.stop := by
    intro offset tokens rest hitem htexts
    obtain ⟨first, name, rfl, -, -, rfl⟩ := hitem.exists_clause
    exact Nat.lt_add_of_pos_right (width_cons_pos (htexts first (by simp)) [name])
  induction h with
  | done => cases hmem
  | step hitem hterm _ ih =>
    rcases List.mem_cons.mp hmem with rfl | hmem
    · exact hclause hitem htexts
    · obtain ⟨used, rfl, -, -⟩ := hitem.exists_taken
      have := ih hmem fun token hmem =>
        htexts token (List.mem_append_right _ (List.mem_of_mem_drop hmem))
      omega
  | last hitem =>
    obtain rfl := List.mem_singleton.mp hmem
    exact hclause hitem htexts

/-- **Only package clauses stand in front of the last one** if no declaration comes too
early. -/
theorem ItemsRead.front_clauses (h : ItemsRead offset tokens (front ++ .package clause :: back))
    (hrest : RestAt source offset (unscan tokens ++ last))
    (hspelled : ∀ token ∈ tokens, token.Spelled) (htexts : ∀ token ∈ tokens, token.text ≠ [])
    (hearly : ∀ decl ∈ front.filterMap Item.decl?, ∀ span, decl.span? = some span →
      ¬ span.start < clause.span.stop) : front.filterMap Item.decl? = [] := by
  induction front generalizing offset tokens with
  | nil => rfl
  | cons item front ih =>
    generalize hall : item :: front ++ .package clause :: back = all at h
    cases h with
    | done => cases hall
    | last => simp at hall
    | step hitem hterm hitems =>
      obtain ⟨rfl, rfl⟩ := List.cons.inj hall
      obtain ⟨span, hfits, hfollows, -, hstop⟩ := hitem.inOrder hrest hspelled
      obtain ⟨used, rfl, -, -⟩ := hitem.exists_taken
      obtain ⟨terminator, rest, rfl, rfl, -⟩ := exists_itemEnd hterm
      rw [taken_append, List.take_left, List.drop_left] at hitems
      have htexts' : ∀ token ∈ rest, token.text ≠ [] := fun token hmem =>
        htexts token (by simp [hmem])
      cases item with
      | package early =>
        exact ih hitems (restAt_piece (restAt_piece hrest))
          (fun token hmem => hspelled token (by simp [hmem])) htexts' hearly
      | decl kind decl =>
        -- the clause ends behind this declaration, so the declaration comes too early
        have hplace := (restAt_piece hrest).add_byteLength
        have hplace' := hstop.add_byteLength
        have hlt : _ < clause.span.stop := hitems.lt_stop (by simp) htexts'
        have hforward := hfollows.forward
        exact absurd (by omega) (hearly decl (by simp [Item.decl?]) span hfits.1)

/-- The last package clause counts. -/
theorem packageOf?_eq (hfront : front.filterMap Item.decl? = [])
    (hback : back.filterMap Item.clause? = []) :
    packageOf? (front ++ .package clause :: back) = .ok clause := by
  cases front with
  | nil => simp [packageOf?, hback]
  | cons item front =>
    cases item with
    | decl kind decl => cases hfront
    | package early => simp [packageOf?, Item.clause?, hback]

end

/-! ### Files -/

/-- A run in front of a declaration that was read is spliced into the gap in front of it. -/
theorem printDecls_run {source gap text run : List Char} {cursor : Nat} {decl : Decl}
    {decls : List Decl} {span : Span} (hspan : decl.span? = some span)
    (hcut : Span.cut? ⟨cursor, span.start⟩ source = some gap)
    (h : printDecls source cursor [] (decl :: decls) = some (gap ++ text)) :
    printDecls source cursor run (decl :: decls) = some (splice gap run [] ++ text) := by
  simp only [printDecls, hspan, hcut, Option.bind_eq_bind, Option.bind_some, splice_nil] at h ⊢
  obtain ⟨body, hbody, h⟩ := Option.bind_eq_some_iff.mp h
  obtain ⟨after, hafter, h⟩ := Option.bind_eq_some_iff.mp h
  have htext : gap ++ (body ++ after) = gap ++ text := by
    rw [← List.append_assoc]
    exact Option.some.inj h
  rw [hbody, hafter, ← List.append_cancel_left htext, ← List.append_assoc]
  rfl

/-- **A file whose declarations all follow its package clauses.** Its tokens are those of the
package clauses, a terminator, and those of the declarations. -/
structure Opened (source : String) (file : SourceFile) (used terminator : List Token)
    (first : Token) (rest : List Token) (last : List Char) (items : List Item) : Prop where
  /-- The source the file was read from. -/
  source_eq : file.source = source
  /-- The tokens of the source. -/
  scan_eq : scan source.toList = (used ++ (terminator ++ first :: rest), last)
  /-- There is a package clause. -/
  used_ne : used ≠ []
  /-- The tokens of the package clauses. -/
  clauses : ∀ token ∈ used, token.InClauses
  /-- The package clause that counts ends where its tokens do. -/
  stop_eq : file.package.span.stop = width used
  /-- A terminator follows. -/
  terminated : terminatorLength? (terminator ++ first :: rest) = some terminator.length
  /-- The other items are declarations, -/
  read : ItemsRead (width used + width terminator) (first :: rest) items
  /-- and nothing else, -/
  no_clauses : items.filterMap Item.clause? = []
  /-- and they are the declarations of the file. -/
  decls_eq : file.decls = items.filterMap Item.decl?
  /-- Other declarations may take their place. -/
  reparse {text : String} {terminator' rest' : List Token} {last' : List Char}
      {items' : List Item} :
    scan text.toList = (used ++ (terminator' ++ rest'), last') →
    terminatorLength? (terminator' ++ rest') = some terminator'.length →
    ItemsRead (width used + width terminator') rest' items' →
    items'.filterMap Item.clause? = [] →
    parse text = .ok ⟨text, file.package, items'.filterMap Item.decl?⟩

section

variable {source : String} {file : SourceFile}

theorem exists_opened (h : parse source = .ok file) (hearly : ¬ file.HasEarlyDecl)
    (hdecls : file.decls ≠ []) :
    ∃ used terminator first rest last items,
      Opened source file used terminator first rest last items := by
  obtain ⟨items, hitems, hpackage, hsource, hfile⟩ := itemsRead_of_parse h
  obtain ⟨front, back, rfl, hback⟩ := exists_of_packageOf? hpackage
  have hspelled := scan_spelled source.toList
  have hplace := RestAt.start source.toList
  nth_rewrite 2 [← scan_append source.toList] at hplace
  rcases hscan : scan source.toList with ⟨tokens, last⟩
  rw [hscan] at hitems hspelled hplace
  have htexts : ∀ token ∈ tokens, token.text ≠ [] := fun token hmem => by
    obtain ⟨_, _, hstarts⟩ := exists_starts_of_scan hscan token hmem
    exact hstarts.text_ne
  have hfront : front.filterMap Item.decl? = [] := by
    refine hitems.front_clauses hplace hspelled htexts fun decl hmem span hspan hlt => ?_
    refine hearly ⟨decl, ?_, span, hspan, hlt⟩
    rw [hfile, List.filterMap_append]
    exact List.mem_append_left _ hmem
  have hdecls' : file.decls = back.filterMap Item.decl? := by
    rw [hfile, List.filterMap_append, hfront, List.nil_append, List.filterMap_cons_none (by rfl)]
  obtain ⟨item, back, rfl⟩ : ∃ item rest, back = item :: rest := by
    refine List.exists_cons_of_ne_nil ?_
    rintro rfl
    exact hdecls hdecls'
  obtain ⟨used, terminator, rest, rfl, hused, hclauses, hstop, hterm, hrest, hagain⟩ :=
    hitems.exists_clauses hfront (List.cons_ne_nil item back)
  obtain ⟨first, rest, rfl⟩ := List.exists_cons_of_ne_nil hrest.tokens_ne_nil
  rw [Nat.zero_add] at hstop hrest hagain
  refine ⟨used, terminator, first, rest, last, item :: back, hsource, hscan, hused, hclauses, hstop,
    hterm, hrest, hback, hdecls', ?_⟩
  intro text terminator' rest' last' items' hscan' hterm' hitems' hclauses'
  have hread := hagain terminator' rest' items' hterm' hitems'
  rw [parse_of_itemsRead hscan' hread (packageOf?_eq hfront hclauses'), List.filterMap_append,
    hfront, List.filterMap_cons_none (by rfl), List.nil_append]

/-! ### Instrumented files -/

/-- The text between the package clause that counts and the first declaration. -/
def SourceFile.headGap? (file : SourceFile) : Option (List Char) := do
  let decl ← file.decls.head?
  let span ← decl.span?
  Span.cut? ⟨file.package.span.stop, span.start⟩ file.source.toList

/-- **There is room for the imports that a file lacks**: in the text between the package clause
that counts and the first declaration, as far as the tokens behind the clause allow. -/
def SourceFile.HasRoom (file : SourceFile) : Prop :=
  missingImports file ≠ [] → ∀ gap, file.headGap? = some gap →
    ∀ front behind, (scan file.source.toList).1 = front ++ behind →
      width front = file.package.span.stop → Go.HasRoom behind gap

/-- In a source without null characters there is room. -/
theorem SourceFile.hasRoom_of_noNull {file : SourceFile} (h : nullChar ∉ file.source.toList) :
    file.HasRoom := by
  intro _ gap hgap front behind hscan _
  refine ⟨fun before after happend => ?_, fun _ => not_reachesNull fun token hmem hnull => ?_⟩
  · obtain ⟨decl, _, hgap⟩ := Option.bind_eq_some_iff.mp hgap
    obtain ⟨span, _, hcut⟩ := Option.bind_eq_some_iff.mp hgap
    rw [happend] at hcut
    exact absurd ((Span.infix_of_cut? hcut).subset (by simp)) h
  · have hmem' : token ∈ (scan file.source.toList).1 := by simp [hscan, hmem]
    have htext : token.text = [nullChar] := by
      simpa [marks] using scan_spelled file.source.toList token hmem' _ hnull
    refine h ?_
    rw [← scan_append file.source.toList]
    obtain ⟨before, after, happend⟩ := List.append_of_mem hmem'
    simp [happend, htext]

variable {used terminator rest : List Token} {first : Token} {last : List Char} {items : List Item}

/-- The tokens of the package clauses are neither stray nor slashes. -/
theorem Token.InClauses.isSolid {token : Token} {gap tail : List Char} (h : token.InClauses)
    (hspelled : token.Spelled) (hstarts : ({ token with gap } : Token).Starts tail) :
    token.isSolid = true := by
  have hstray : token.lexeme ≠ .stray := by
    rcases h with h | h | h | h <;> simp [h]
  have hslash : token.text ≠ ['/'] := by
    intro htext
    have hlexeme := hstarts.lexeme_eq
    simp only [htext, List.singleton_append] at hlexeme
    have hword : ¬ (token.lexeme = .word ∨ ∃ keyword, token.lexeme = .keyword keyword) := by
      intro hkind
      have := @isWordStart_of_lexeme '/' tail (by rw [hlexeme]; exact hkind)
      revert this
      decide
    rcases h with h | h | h | h
    · exact hword (.inr ⟨_, h⟩)
    · exact hword (.inl h)
    · have := hspelled _ h
      rw [htext] at this
      revert this
      decide
    · have := hspelled _ h
      rw [htext] at this
      revert this
      decide
  simp [Token.isSolid, hstray, hslash]

namespace Opened

variable (h : Opened source file used terminator first rest last items)
include h

theorem spelled : ∀ token ∈ used ++ (terminator ++ first :: rest), token.Spelled := by
  have hspelled := scan_spelled source.toList
  rwa [h.scan_eq] at hspelled

theorem restAt : RestAt source.toList 0 (unscan used ++ (unscan terminator ++
    (unscan (first :: rest) ++ last))) := by
  have hplace := RestAt.start source.toList
  nth_rewrite 2 [← scan_append source.toList] at hplace
  simpa only [h.scan_eq, unscan_append, List.append_assoc] using hplace

/-- The text between the package clause and the first declaration consists of the terminator
and a gap. -/
theorem exists_decl : ∃ decl decls span, file.decls = decl :: decls ∧ decl.span? = some span ∧
    Span.cut? ⟨file.package.span.stop, span.start⟩ source.toList =
      some (unscan terminator ++ first.gap) := by
  have hbehind := h.restAt.advance
  have hrest := hbehind.advance
  have hspelled : ∀ token ∈ first :: rest, token.Spelled := fun token hmem =>
    h.spelled token (by simp [List.mem_cons.mp hmem])
  have hgap : RestAt source.toList (0 + byteLength (unscan used))
      ((unscan terminator ++ first.gap) ++ (first.text ++ unscan rest ++ last)) := by
    simpa using hbehind
  have hcut := hgap.cut?
  rw [Nat.zero_add] at hrest hcut
  obtain ⟨item, items', rest', rfl, hread⟩ := h.read.exists_item
  obtain ⟨kind, decl, rfl⟩ := exists_decl_of_clauses h.no_clauses
  obtain ⟨span, ⟨hspan, -⟩, -, -, -⟩ := hread.inOrder hrest hspelled
  have hstart : span.start =
      byteLength (unscan used) + byteLength (unscan terminator ++ first.gap) := by
    have := hread.start_eq hspan
    rw [byteLength_append, ← Nat.add_assoc]
    exact this
  refine ⟨decl, _, span, h.decls_eq, hspan, ?_⟩
  rw [h.stop_eq, hstart]
  exact hcut

/-- **What is printed** if the imports are put in front of declarations that are printed. -/
theorem print_of_decls {profile : String} {text : List Char}
    (hplain : printDecls source.toList file.package.span.stop []
      (file.decls.map (addPreamble profile)) = some ((unscan terminator ++ first.gap) ++ text)) :
    (instrument file profile).1.print = some (String.ofList (unscan used ++
      (splice (unscan terminator ++ first.gap) (importRun (missingImports file)) [] ++ text))) := by
  obtain ⟨decl, decls, span, hdecls, hspan, hcut⟩ := h.exists_decl
  have hhead : Span.cut? ⟨0, file.package.span.stop⟩ source.toList = some (unscan used) := by
    have hcut := h.restAt.cut?
    rwa [Nat.zero_add, ← width, ← h.stop_eq] at hcut
  have hrun : printDecls source.toList file.package.span.stop []
      ((missingImports file).map importOf ++ file.decls.map (addPreamble profile)) =
        some (splice (unscan terminator ++ first.gap) (importRun (missingImports file)) [] ++
          text) := by
    rw [printDecls_imports]
    rw [hdecls, List.map_cons] at hplain ⊢
    exact printDecls_run (by rw [span?_addPreamble, hspan]) hcut hplain
  have hsource : (instrument file profile).1.source = source := h.source_eq
  have hpackage : (instrument file profile).1.package = file.package := rfl
  have hdecls : (instrument file profile).1.decls =
    (missingImports file).map importOf ++ file.decls.map (addPreamble profile) := rfl
  simp [SourceFile.print, hsource, hpackage, hdecls, hhead, hrun]

/-- The declarations start behind the package clause that counts. -/
theorem restAt_stop : RestAt source.toList file.package.span.stop
    (unscan terminator ++ (unscan (first :: rest) ++ last)) := by
  have hbehind := h.restAt.advance
  rwa [Nat.zero_add, ← width, ← h.stop_eq] at hbehind

/-- **What is printed** if the blocks and the imports are put in. -/
theorem print_instrument {profile : String} {rest' : List Token}
    (hprobed : AllProbed profile source.toList last file.decls (first :: rest) (first :: rest')) :
    (instrument file profile).1.print = some (String.ofList (unscan used ++
      (splice (unscan terminator ++ first.gap) (importRun (missingImports file)) [] ++
        (first.text ++ (unscan rest' ++ last))))) := by
  refine h.print_of_decls ?_
  rw [hprobed.print _ _ h.restAt_stop]
  simp

theorem headGap?_eq : file.headGap? = some (unscan terminator ++ first.gap) := by
  obtain ⟨decl, decls, span, hdecls, hspan, hcut⟩ := h.exists_decl
  rw [← h.source_eq] at hcut
  simp [SourceFile.headGap?, hdecls, hspan, hcut]

theorem scanned : Scanned (terminator ++ first :: rest) last := by
  obtain ⟨clause, used, rfl⟩ := List.exists_cons_of_ne_nil h.used_ne
  obtain ⟨-, -, hscanned, -⟩ := scanned_of_scan h.scan_eq
  exact hscanned.append_right

/-- The tokens of the package clauses are scanned as before if what follows them changes only
behind a stop. -/
theorem scan_behind {tokens : List Token} (hscanned : Scanned tokens last)
    (hmeets : Meets (unscan (terminator ++ first :: rest) ++ last) (unscan tokens ++ last)) :
    scan (unscan (used ++ tokens) ++ last) = (used ++ tokens, last) := by
  have hscan := h.scan_eq
  have hsolid : ∀ token ∈ used, token.isSolid = true := by
    intro token hmem
    obtain ⟨gap, tail, hstarts⟩ := exists_starts_of_scan hscan token (by simp [hmem])
    exact (h.clauses token hmem).isSolid (h.spelled token (by simp [hmem])) hstarts
  obtain ⟨clause, used', rfl⟩ := List.exists_cons_of_ne_nil h.used_ne
  obtain ⟨hclause, hused⟩ := List.forall_mem_cons.mp hsolid
  obtain ⟨-, -, hscanned', -⟩ := scanned_of_scan hscan
  simp only [Token.isSolid, Bool.and_eq_true, bne_iff_ne] at hclause
  refine scan_keep hscan ?_ hclause.1 hclause.2 (hscanned'.of_meets (List.all_eq_true.mpr hused)
    hmeets hscanned)
  simpa using hmeets.append (unscan used')

/-- Something stands in front of the declarations. -/
theorem width_pos : 0 < width used := by
  obtain ⟨clause, used, rfl⟩ := List.exists_cons_of_ne_nil h.used_ne
  obtain ⟨_, _, hstarts⟩ := exists_starts_of_scan h.scan_eq clause (by simp)
  have htext : clause.text ≠ [] := hstarts.text_ne
  exact width_cons_pos htext used

/-- The room is still there if tokens are put in behind the braces of the declarations. -/
theorem hasRoom {Put : Token → List Token → Token → Prop} {rest' : List Token}
    (hroom : file.HasRoom) (hpaths : missingImports file ≠ [])
    (hgrown : Grown Put (first :: rest) (first :: rest')) :
    HasRoom (terminator ++ first :: rest') (unscan terminator ++ first.gap) := by
  refine (hroom hpaths _ h.headGap?_eq used _ ?_ h.stop_eq.symm).grown (hgrown.keepAll terminator)
  rw [h.source_eq, h.scan_eq]

/-- What follows the package clause is still a terminator. -/
theorem terminated_grown {Put : Token → List Token → Token → Prop} {rest' : List Token}
    (hgrown : Grown Put (first :: rest) (first :: rest')) :
    terminatorLength? (terminator ++ first :: rest') = some terminator.length := by
  rw [← terminatorLength?_eq (hgrown.keepAll terminator).head_eq, h.terminated]

/-- **The tokens of what is printed** are scanned as they are written. -/
theorem exists_inserted {profile : String} {rest' : List Token}
    (hgrown : Grown (Probes profile) (first :: rest) (first :: rest'))
    (hcomment : OpensComment (scan source.toList).1 (scan source.toList).2 →
      ¬ commentEnd <:+: profile.toList)
    (hroom : file.HasRoom) :
    ∃ inserted behind, Joined (missingImports file) terminator first rest' last inserted behind ∧
      scan (unscan (used ++ (inserted ++ behind)) ++ last) =
        (used ++ (inserted ++ behind), last) := by
  have hgrown' := hgrown.keepAll terminator
  have hspelled : ∀ token ∈ terminator ++ first :: rest, token.Spelled := fun token hmem =>
    h.spelled token (List.mem_append_right _ hmem)
  have hstray : ∀ token ∈ terminator ++ first :: rest, token.lexeme ≠ .stray := by
    refine List.forall_mem_append.mpr ⟨fun token hmem => ?_, h.read.noStray⟩
    rcases inClauses_of_terminator h.terminated token hmem with h | h | h | h <;> simp [h]
  have hterm := h.terminated_grown hgrown
  have hscanned : Scanned (terminator ++ first :: rest') last := by
    refine hgrown'.scanned h.scanned hspelled hstray fun hopens => hcomment ?_
    rw [h.scan_eq]
    exact hopens.append used
  by_cases hpaths : missingImports file = []
  · -- nothing is put in, and no room is needed
    rw [hpaths]
    exact ⟨terminator, first :: rest', joined_nil hterm hscanned,
      h.scan_behind hscanned (hgrown'.meets hspelled last)⟩
  · have hquoted : ∀ path ∈ missingImports file, IsQuoted path := by
      intro path hmem
      have hmem' := List.mem_of_mem_filter hmem
      simp only [List.mem_cons, List.not_mem_nil, or_false] at hmem'
      rcases hmem' with rfl | rfl
      · exact isQuoted_osImport
      · exact isQuoted_pprofImport
    obtain ⟨⟨inserted, behind, hjoined⟩, hmeets⟩ := exists_joined hpaths hquoted hterm
      (fun token hmem => hspelled token (by simp [hmem])) hscanned
      (h.hasRoom hroom hpaths hgrown)
    refine ⟨inserted, behind, hjoined, h.scan_behind hjoined.scanned ?_⟩
    have := hmeets (first.text ++ (unscan rest ++ last)) (first.text ++ (unscan rest' ++ last))
    rw [hjoined.splice_eq]
    simpa using this

end Opened

/-! #### A semicolon left behind -/

/-- The imports that are put into the file leave behind the terminator of its package
clause. -/
def SourceFile.StrandsTerminator (file : SourceFile) : Prop :=
  missingImports file ≠ [] ∧ ∃ gap, file.headGap? = some gap ∧ Go.StrandsTerminator gap

/-- **What is left behind** between the imports and the declarations of an instrumented file:
a semicolon if it lost what it ended, unless it pairs up with one that the declarations start
with. -/
structure SourceFile.LeavesBehind (file : SourceFile) (left : List Content) : Prop where
  /-- In most files nothing is left behind. -/
  eq_nil : ¬ file.StrandsTerminator → left = []
  /-- The semicolon is a declaration of its own. -/
  eq_semicolon : file.StrandsTerminator → left = [semicolonContent] ∨
    left = [] ∧ (file.decls.head?.map (Decl.content file.source.toList)) = some semicolonContent

/-- Only a semicolon is instrumented to a semicolon. -/
theorem Instrumented.eq_semicolon {profile : String} {source source' : List Char}
    {decl decl' : Decl} (h : Instrumented profile source source' decl decl')
    (hdecl : decl'.content source' = semicolonContent) :
    decl.content source = semicolonContent := by
  unfold Instrumented at h
  split at h
  · obtain ⟨text, -, hcontent⟩ := h
    exact Content.eq_of_withFirst_eq_other (hcontent.symm.trans hdecl)
  · exact h.symm.trans hdecl

theorem head_of_forall₂_instrumented {profile : String} {source source' : List Char}
    {decls decls' : List Decl}
    (h : List.Forall₂ (Instrumented profile source source') decls decls')
    (hhead : (decls'.map (Decl.content source')).head? = some semicolonContent) :
    decls.head?.map (Decl.content source) = some semicolonContent := by
  cases h with
  | nil => cases hhead
  | cons hdecl _ => exact congrArg some (hdecl.eq_semicolon (Option.some.inj hhead))

theorem forall₂_instrumented_congr {profile : String} {source source' : List Char}
    {decls decls' decls'' : List Decl}
    (h : List.Forall₂ (Instrumented profile source source') decls decls')
    (hcontents : decls''.map (Decl.content source') = decls'.map (Decl.content source')) :
    List.Forall₂ (Instrumented profile source source') decls decls'' := by
  induction h generalizing decls'' with
  | nil =>
    rw [List.map_eq_nil_iff.mp hcontents]
    exact .nil
  | cons hdecl _ ih =>
    obtain ⟨decl'', rest'', rfl, hcontent, hrest⟩ := List.map_eq_cons_iff.mp hcontents
    refine .cons ?_ (ih hrest)
    unfold Instrumented at hdecl ⊢
    rwa [hcontent]

/-- **The declarations are read again**, behind a semicolon if one is left behind. -/
theorem Opened.exists_items (h : Opened source file used terminator first rest last items)
    {profile : String} {rest' inserted behind : List Token} {text : List Char} {offset : Nat}
    (hprobed : AllProbed profile source.toList last file.decls (first :: rest) (first :: rest'))
    (hjoined : Joined (missingImports file) terminator first rest' last inserted behind)
    (hroom : file.HasRoom) (hoffset : 0 < offset)
    (hplace : RestAt text offset (unscan behind ++ last)) :
    ∃ items', ItemsRead offset behind items' ∧ items'.filterMap Item.clause? = [] ∧
      ∃ left decls, items'.filterMap Item.decl? = left ++ decls ∧
        file.LeavesBehind (left.map (Decl.content text)) ∧
        List.Forall₂ (Instrumented profile source.toList text) file.decls decls := by
  by_cases hstrands : file.StrandsTerminator
  · -- the semicolon is read in front of the declarations
    obtain ⟨hpaths, gap, hgap, hleft⟩ := id hstrands
    cases h.headGap?_eq.symm.trans hgap
    obtain ⟨semicolon, rfl, hlexeme⟩ := hjoined.stranded hpaths hleft
    have hscanned : Scanned (semicolon :: first :: rest') last := hjoined.scanned.append_right
    have hgrown := hprobed.fenced.grown
    have hnull : ¬ ReachesNull (first :: rest') :=
      (h.hasRoom hroom hpaths hgrown).not_reachesNull (h.terminated_grown hgrown) hleft
    obtain ⟨items', hitems', hclauses, hdecls⟩ := hprobed.reread first.gap text last
      (offset + width [semicolon]) (by omega) (@restAt_piece _ _ _ [semicolon] _ hplace)
    obtain ⟨items'', hmore⟩ :=
      hitems'.exists_oneMore hlexeme hoffset hplace hscanned.spelled hnull
    refine ⟨items'', hmore.read, hmore.clauses.trans hclauses, ?_⟩
    rcases hmore.contents with hcontents | ⟨hcontents, hhead⟩
    · obtain ⟨decl, decls, hsplit, hdecl, hrest⟩ := List.map_eq_cons_iff.mp hcontents
      refine ⟨[decl], decls, hsplit, ⟨fun hnot => absurd hstrands hnot, fun _ => .inl ?_⟩,
        forall₂_instrumented_congr hdecls hrest⟩
      simp [hdecl]
    · refine ⟨[], _, rfl, ⟨fun _ => rfl, fun _ => .inr ⟨rfl, ?_⟩⟩,
        forall₂_instrumented_congr hdecls hcontents⟩
      rw [h.source_eq]
      exact head_of_forall₂_instrumented hdecls hhead
  · have hkept : missingImports file = [] ∨
        ¬ Go.StrandsTerminator (unscan terminator ++ first.gap) := by
      by_contra hnot
      rw [not_or, not_not] at hnot
      exact hstrands ⟨hnot.1, _, h.headGap?_eq, hnot.2⟩
    obtain ⟨gap', rfl⟩ := hjoined.kept hkept
    obtain ⟨items', hitems', hclauses, hdecls⟩ :=
      hprobed.reread gap' text last offset hoffset hplace
    exact ⟨items', hitems', hclauses, [], _, rfl,
      ⟨fun _ => rfl, fun hleft => absurd hleft hstrands⟩, hdecls⟩

/-- **An instrumented file is read again.** Its declarations are the imports that were missing,
a semicolon where one is left behind, and the declarations of the file, which say the same as
before, but for the blocks. There has to be room for the imports, as there is in a source
without null characters (`EntryProbe.Go.SourceFile.hasRoom_of_noNull`), and nothing may look
like the start of a comment that the name of the profile closes. -/
theorem parse_instrument {source profile text : String} {file : SourceFile}
    (h : parse source = .ok file) (hentry : file.hasEntryPoint = true)
    (hprint : (instrument file profile).1.print = some text)
    (hcomment : OpensComment (scan source.toList).1 (scan source.toList).2 →
      ¬ commentEnd <:+: profile.toList)
    (hroom : file.HasRoom) :
    ∃ file', parse text = .ok file' ∧ file'.package.name = file.package.name ∧
      ∃ imports left decls, file'.decls = imports ++ (left ++ decls) ∧
        imports.map (Decl.content text.toList) =
          ([osImport, pprofImport].filter fun path => !file.hasImport path).map
            (fun path => .imports [⟨none, path⟩]) ∧
        file.LeavesBehind (left.map (Decl.content text.toList)) ∧
        List.Forall₂ (Instrumented profile source.toList text.toList) file.decls decls := by
  have hearly : ¬ file.HasEarlyDecl := by
    intro hearly
    rw [print_instrument_eq_none h hearly profile] at hprint
    cases hprint
  have hdecls : file.decls ≠ [] := by
    intro hnil
    simp [SourceFile.hasEntryPoint, SourceFile.funcs, hnil] at hentry
  -- the file is taken apart, the declarations take the blocks and the terminator the imports
  obtain ⟨used, terminator, first, rest, last, items, hopened⟩ := exists_opened h hearly hdecls
  have hplace := hopened.restAt.advance.advance
  rw [Nat.zero_add] at hplace
  obtain ⟨tokens', hprobed⟩ := @ItemsRead.exists_probed _ _ _ _ profile _ hopened.read
    hopened.no_clauses hplace hopened.scanned.append_right
    fun token hmem => hopened.spelled token (by simp [List.mem_cons.mp hmem])
  rw [← hopened.decls_eq] at hprobed
  have hgrown := hprobed.fenced.grown
  obtain ⟨rest', rfl⟩ : ∃ rest', tokens' = first :: rest' :=
    List.head?_eq_some_iff.mp hgrown.head_eq.symm
  obtain ⟨inserted, behind, hjoined, hscan⟩ := hopened.exists_inserted hgrown hcomment hroom
  -- the tokens spell what is printed
  have htext : text.toList = unscan used ++ (unscan inserted ++ (unscan behind ++ last)) := by
    have hout := hopened.print_instrument hprobed
    have hsplice := hjoined.splice_eq
    rw [unscan_append] at hsplice
    rw [hprint] at hout
    rw [Option.some.inj hout, ← List.append_assoc (unscan inserted), hsplice]
    simp
  have hplace' : RestAt text.toList (width used + width inserted) (unscan behind ++ last) := by
    have hstart := RestAt.start text.toList
    nth_rewrite 2 [htext] at hstart
    have := hstart.advance.advance
    rwa [Nat.zero_add] at this
  -- from the back to the front: the declarations, the imports, the package clauses
  obtain ⟨items', hitems', hclauses, left, decls, hdecls', hleft, hinstrumented⟩ :=
    hopened.exists_items hprobed hjoined hroom
      (Nat.add_pos_left hopened.width_pos (width inserted)) hplace'
  obtain ⟨front, back, hsplit, hterm, imports, hread, himports, hcontents⟩ :=
    hjoined.reread _ _ hitems'
  have hwhole : scan text.toList = (used ++ (front ++ back), last) := by
    rw [← hsplit, ← hscan, htext]
    simp
  refine ⟨_, hopened.reparse hwhole hterm hread ?_, rfl, imports.filterMap Item.decl?, left, decls,
    ?_, hcontents _, hleft, hinstrumented⟩
  · rw [List.filterMap_append, himports, hclauses]
    rfl
  · rw [← hdecls']
    exact List.filterMap_append

end

/-- A program on one line, with a comment in front of its semicolon. -/
def oneLineSource : String :=
  "package main /* c */; func main() \x7b\x7d"

theorem parse_instrument_oneLine :
    ∃ file text, parse oneLineSource = .ok file ∧ file.hasEntryPoint = true ∧
      file.StrandsTerminator ∧ (instrument file "cpu.prof").1.print = some text ∧
      ∃ file', parse text = .ok file' ∧ file'.package.name = file.package.name ∧
        ∃ imports left decls, file'.decls = imports ++ (left ++ decls) ∧
          imports.map (Decl.content text.toList) =
            ([osImport, pprofImport].filter fun path => !file.hasImport path).map
              (fun path => .imports [⟨none, path⟩]) ∧
          left.map (Decl.content text.toList) = [semicolonContent] ∧
          List.Forall₂ (Instrumented "cpu.prof" oneLineSource.toList text.toList) file.decls
            decls := by
  have hcheck : (parse oneLineSource).toOption.any (fun file =>
      file.hasEntryPoint && !decide file.HasEarlyDecl && missingImports file != [] &&
        file.headGap? == some " /* c */; ".toList && file.source == oneLineSource &&
        file.decls.head?.map (Decl.content oneLineSource.toList) != some semicolonContent) =
      true := by
    decide +kernel
  obtain ⟨file, hparse, hfile⟩ := exists_ok_of_any hcheck
  simp only [Bool.and_eq_true, Bool.not_eq_true', decide_eq_false_iff_not, bne_iff_ne,
    beq_iff_eq] at hfile
  obtain ⟨⟨⟨⟨⟨hentry, hearly⟩, hmissing⟩, hgap⟩, hsource⟩, hfirst⟩ := hfile
  obtain ⟨text, hprint⟩ := exists_print_instrument hparse hearly "cpu.prof"
  have hstar : '*' ∉ "cpu.prof".toList := by decide
  have hstrands : file.StrandsTerminator := ⟨hmissing, _, hgap, by decide⟩
  have hroom : file.HasRoom := by
    refine SourceFile.hasRoom_of_noNull ?_
    rw [hsource]
    decide
  obtain ⟨file', hread, hname, imports, left, decls, hdecls, himports, hleft, hinstrumented⟩ :=
    parse_instrument hparse hentry hprint
      (fun _ hfound => hstar (hfound.subset (by simp [commentEnd]))) hroom
  refine ⟨file, text, hparse, hentry, hstrands, hprint, file', hread, hname, imports, left, decls,
    hdecls, himports, ?_, hinstrumented⟩
  refine (hleft.eq_semicolon hstrands).resolve_right fun hsame => hfirst ?_
  rw [← hsame.2, hsource]

end EntryProbe.Go
