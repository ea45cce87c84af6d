import EntryProbe.Proofs.Reading
import EntryProbe.Proofs.Weaving

/-!
# The spans of a file that was read

Reading cuts pieces off the front of the tokens that are left, so its spans come out in
order and apart from one another. The tokens that are left always say where the reader
is: the source goes on at the current offset with their text. This is the one
invariant of the file, `RestAt source offset (unscan tokens ++ last)`, and each
relation of `EntryProbe.Proofs.Reading` is shown to keep it.

* `EntryProbe.Go.ItemsRead.inOrder` – the items of a file are in order;
* `EntryProbe.Go.parse_inOrder` – the declarations of a file that was read are in
  order;
* `EntryProbe.Go.print_of_parse` – printing a file that was read gives its source
  back, or nothing if there is such a declaration.
-/

namespace EntryProbe.Go

/-! ### Pieces of tokens -/

@[simp] theorem unscan_nil : unscan [] = [] := rfl

@[simp] theorem unscan_cons (token : Token) (tokens : List Token) :
    unscan (token :: tokens) = token.gap ++ (token.text ++ unscan tokens) := by
  simp [unscan, Token.full]

@[simp] theorem unscan_append (tokens tokens' : List Token) :
    unscan (tokens ++ tokens') = unscan tokens ++ unscan tokens' := by
  simp [unscan]

/-- A token that is one byte takes one more than its gap. -/
theorem Token.byteLength_full_eq {token : Token} {c : Char} (htext : token.text = [c])
    (hc : c.utf8Size = 1) : byteLength token.full = byteLength token.gap + 1 := by
  simp [Token.full, htext, hc]

@[simp] theorem width_nil : width [] = 0 := rfl

@[simp] theorem width_append (tokens tokens' : List Token) :
    width (tokens ++ tokens') = width tokens + width tokens' := by
  simp [width]

section

variable {source last : List Char} {offset : Nat} {tokens piece rest : List Token}

theorem restAt_piece (h : RestAt source offset (unscan (piece ++ rest) ++ last)) :
    RestAt source (offset + width piece) (unscan rest ++ last) := by
  rw [unscan_append, List.append_assoc] at h
  exact h.advance

/-- Behind a token stands what follows it. -/
theorem restAt_token {token : Token} (h : RestAt source offset (unscan (token :: rest) ++ last)) :
    RestAt source (offset + byteLength token.full) (unscan rest ++ last) := by
  have hpiece := @restAt_piece source last offset [token] rest h
  simpa [width, Token.full] using hpiece

theorem restAt_drop (h : RestAt source offset (unscan tokens ++ last)) (length : Nat) :
    RestAt source (offset + width (tokens.take length)) (unscan (tokens.drop length) ++ last) := by
  rw [← List.take_append_drop length tokens] at h
  exact restAt_piece h

/-- The span of a piece follows the offset that it was read from. -/
theorem pieceSpan_follows (h : RestAt source offset (unscan (piece ++ rest) ++ last)) :
    (pieceSpan offset piece).Follows source offset := by
  have hstop := (restAt_piece h).isPlace
  cases piece with
  | nil =>
    refine ⟨by simp [pieceSpan], by simp [pieceSpan], ?_, hstop⟩
    simpa [pieceSpan] using h.isPlace
  | cons token piece =>
    refine ⟨by simp [pieceSpan], by simp [pieceSpan, width], ?_, hstop⟩
    rw [List.cons_append, unscan_cons, List.append_assoc] at h
    simpa [pieceSpan] using h.advance.isPlace

/-- The tokens after a piece come in place of those before it. -/
theorem Cut.restAt {left : List Token} (hcut : Cut tokens left piece rest)
    (h : RestAt source offset (unscan tokens ++ last)) :
    (pieceSpan offset piece).Follows source offset ∧
      RestAt source (offset + width piece) (unscan rest ++ last) := by
  rw [← hcut.append_eq] at h
  exact ⟨pieceSpan_follows h, restAt_piece h⟩

theorem Cut.suffix {left : List Token} (hcut : Cut tokens left piece rest) : rest <:+ tokens :=
  ⟨piece, hcut.append_eq⟩

end

/-! ### Bodies -/

section

variable {source last : List Char} {offset : Nat} {tokens rest : List Token}

/-- **The statements of a body are in order**, and a closing brace comes after them. -/
theorem StmtsRead.inOrder {close : Nat} {spans : List Span}
    (h : StmtsRead offset tokens spans close rest)
    (hrest : RestAt source offset (unscan tokens ++ last)) :
    ∃ brace after, rest = brace :: after ∧ brace.lexeme = .mark .closeBrace ∧
      rest <:+ tokens ∧ RestAt source close (unscan rest ++ last) ∧
      StmtsInOrder source (close + byteLength brace.gap) offset (spans.map .verbatim) := by
  induction h with
  | @done offset token tokens hbrace =>
    exact ⟨token, tokens, rfl, hbrace, List.suffix_rfl, hrest, Nat.le_add_right ..⟩
  | @step _ length _ _ _ _ _ _ _ _ _ _ hcut _ _ _ ih =>
    obtain ⟨hspan, hstop⟩ := hcut.restAt hrest
    obtain ⟨brace, after, rfl, hbrace, hsuffix, hclose, hin⟩ := ih (restAt_drop hstop length)
    refine ⟨brace, after, rfl, hbrace, ?_, hclose, hspan, hin.mono (Nat.le_add_right ..)⟩
    exact (hsuffix.trans (List.drop_suffix ..)).trans hcut.suffix
  | @last offset tokens left piece rest _ _ _ hcut _ _ hbrace =>
    obtain ⟨hspan, hstop⟩ := hcut.restAt hrest
    cases rest with
    | nil => cases hbrace
    | cons brace after =>
      refine ⟨brace, after, rfl, by simpa using hbrace, hcut.suffix, hstop, hspan, ?_⟩
      exact Nat.le_add_right ..

/-- Behind the closing brace stands what follows the body. -/
theorem StmtsRead.restAt_behind {close : Nat} {spans : List Span} {brace : Token}
    (h : StmtsRead offset tokens spans close (brace :: rest))
    (hrest : RestAt source offset (unscan tokens ++ last)) :
    RestAt source (close + byteLength brace.full) (unscan rest ++ last) := by
  obtain ⟨_, _, hend, -, -, hclose, -⟩ := h.inOrder hrest
  cases hend
  exact restAt_token hclose

/-- **A body is in order**, and every statement of it was read. -/
theorem readBody_inOrder {body : Body} {stop : Nat}
    (h : readBody offset tokens = .ok (body, stop, rest))
    (hrest : RestAt source offset (unscan tokens ++ last))
    (hspelled : ∀ token ∈ tokens, token.Spelled) :
    ∃ span, body.span = some span ∧ offset ≤ span.start ∧ span.stop = stop ∧
      rest <:+ tokens ∧ RestAt source stop (unscan rest ++ last) ∧
      BodyInOrder source body.stmts span ∧ ∀ stmt ∈ body.stmts, stmt.span?.isSome := by
  cases tokens with
  | nil => cases h
  | cons first inner =>
    simp only [readBody] at h
    split at h
    · next hopen =>
      obtain ⟨⟨spans, close, rest'⟩, hread, h⟩ := bind_eq_ok.mp h
      have hbraceText := (hspelled first (by simp)).text_openBrace hopen
      rw [unscan_cons, List.append_assoc, List.append_assoc] at hrest
      have hopened := hrest.advance
      have hinner := hopened.advance
      rw [hbraceText] at hopened hinner
      have hfull : offset + byteLength first.gap + byteLength ['\x7b'] =
          offset + byteLength first.full := by
        simp [Token.full, hbraceText, Nat.add_assoc]
      rw [hfull] at hinner
      obtain ⟨brace, after, rfl, hclose, hsuffix, hlast, hin⟩ :=
        (stmtsRead_of_readStatements hread).inOrder hinner
      cases h
      have hcloseText := (hspelled brace
        (List.mem_cons_of_mem _ (hsuffix.subset (by simp)))).text_closeBrace hclose
      rw [unscan_cons, List.append_assoc, List.append_assoc] at hlast
      have hclosed := hlast.advance
      have hafter := hclosed.advance
      rw [hcloseText] at hclosed hafter
      have hstop : close + byteLength brace.gap + byteLength ['\x7d'] =
          close + byteLength brace.full := by
        simp [Token.full, hcloseText, Nat.add_assoc]
      rw [hstop] at hafter
      refine ⟨_, rfl, Nat.le_add_right .., rfl, ?_, hafter, ⟨⟨_, hopened⟩, ?_⟩, ?_⟩
      · exact ((List.suffix_cons ..).trans hsuffix).trans (List.suffix_cons ..)
      · refine ⟨close + byteLength brace.gap, _, hstop.symm, hclosed, ?_⟩
        rw [← hfull] at hin
        exact hin
      · intro stmt hstmt
        obtain ⟨span, _, rfl⟩ := List.mem_map.mp hstmt
        rfl
    · cases h

end

/-! ### Items -/

theorem Reader.bind_eq_ok {α β : Type} {first : Reader α} {next : α → Reader β} {b : β}
    {tokens rest : List Token} :
    (first >>= next) tokens = .ok (b, rest) ↔
      ∃ a mid, first tokens = .ok (a, mid) ∧ next a mid = .ok (b, rest) := by
  change (first tokens >>= fun p => next p.1 p.2) = _ ↔ _
  rw [Go.bind_eq_ok]
  exact ⟨fun ⟨⟨a, mid⟩, h⟩ => ⟨a, mid, h⟩, fun ⟨a, mid, h⟩ => ⟨(a, mid), h⟩⟩

/-- A signature has no body. -/
theorem readSignature_body {tokens rest : List Token} {signature : FuncDecl}
    (h : readSignature tokens = .ok (signature, rest)) : signature.body = none := by
  unfold readSignature at h
  obtain ⟨receiver, _, -, h⟩ := Reader.bind_eq_ok.mp h
  obtain ⟨name, _, -, h⟩ := Reader.bind_eq_ok.mp h
  obtain ⟨_, _, -, h⟩ := Reader.bind_eq_ok.mp h
  obtain ⟨params, _, -, h⟩ := Reader.bind_eq_ok.mp h
  obtain ⟨result, _, -, h⟩ := Reader.bind_eq_ok.mp h
  cases h
  rfl

/-- An item stands at `span`. The body of a declaration is in order, and all of it was
read. -/
def Item.Fits (source : List Char) (item : Item) (span : Span) : Prop :=
  match item with
  | .package clause => clause.span = span
  | .decl _ node => node.span? = some span ∧ node.BodyFits source span ∧ node.BodyWasRead

/-- Items stand behind `cursor`, in order and apart from one another. -/
def ItemsInOrder (source : List Char) : Nat → List Item → Prop
  | _, [] => True
  | cursor, item :: rest =>
    ∃ span : Span, item.Fits source span ∧ span.Follows source cursor ∧
      ItemsInOrder source span.stop rest

section

variable {source last : List Char} {offset : Nat} {tokens rest : List Token}

/-- **An item stands behind the offset that it was read from**, and the source goes on
after it with the tokens that are left. -/
theorem ItemRead.inOrder {item : Item} (h : ItemRead offset tokens item rest)
    (hrest : RestAt source offset (unscan tokens ++ last))
    (hspelled : ∀ token ∈ tokens, token.Spelled) :
    ∃ span : Span, item.Fits source span ∧ span.Follows source offset ∧ rest <:+ tokens ∧
      RestAt source span.stop (unscan rest ++ last) := by
  cases h with
  | package _ _ hcut =>
    obtain ⟨hspan, hstop⟩ := hcut.restAt hrest
    exact ⟨_, rfl, hspan, hcut.suffix, hstop⟩
  | imports _ _ hcut =>
    obtain ⟨hspan, hstop⟩ := hcut.restAt hrest
    exact ⟨_, ⟨rfl, trivial, trivial⟩, hspan, hcut.suffix, hstop⟩
  | @func first inner left head middle after signature body stop _ _ hread hcut _ hbody =>
    obtain ⟨hhead, hmiddle⟩ := hcut.restAt hrest
    have hspelled' : ∀ token ∈ middle, token.Spelled := fun token hmem =>
      hspelled token (hcut.suffix.subset hmem)
    obtain ⟨span, hspan, hle, rfl, hsuffix, hafter, hin, hstmts⟩ :=
      readBody_inOrder hbody hmiddle hspelled'
    have hstart : (pieceSpan offset head).start ≤ span.start :=
      Nat.le_trans hhead.forward hle
    have hstop : span.start ≤ span.stop := by
      obtain ⟨close, _, hclose, _, hin⟩ := hin.closes
      have := hin.le_close
      omega
    obtain ⟨stmts, bodySpan⟩ := body
    obtain rfl : bodySpan = some span := hspan
    refine ⟨⟨(pieceSpan offset head).start, span.stop⟩, ⟨rfl, ?_, ?_⟩, ?_, ?_, hafter⟩
    · exact ⟨hstart, Nat.le_refl _, hin⟩
    · exact ⟨rfl, hstmts⟩
    · exact ⟨hhead.after, Nat.le_trans hstart hstop, hhead.isPlace_start, hafter.isPlace⟩
    · exact hsuffix.trans hcut.suffix
  | @stub first inner left head rest signature _ _ hread hcut _ =>
    obtain ⟨hspan, hstop⟩ := hcut.restAt hrest
    have hbody := readSignature_body hread
    refine ⟨_, ⟨rfl, ?_, ?_⟩, hspan, hcut.suffix, hstop⟩
    · simp [Decl.BodyFits, hbody]
    · simp [Decl.BodyWasRead, hbody]
  | other _ _ _ _ hcut _ =>
    obtain ⟨hspan, hstop⟩ := hcut.restAt hrest
    exact ⟨_, ⟨rfl, trivial, trivial⟩, hspan, hcut.suffix, hstop⟩

theorem ItemsInOrder.mono {cursor cursor' : Nat} {items : List Item}
    (h : ItemsInOrder source cursor items) (hle : cursor' ≤ cursor) :
    ItemsInOrder source cursor' items := by
  cases items with
  | nil => trivial
  | cons item items =>
    obtain ⟨span, hfits, hspan, hin⟩ := h
    exact ⟨span, hfits, hspan.mono hle, hin⟩

/-- **The items of a file are in order.** -/
theorem ItemsRead.inOrder {items : List Item} (h : ItemsRead offset tokens items)
    (hrest : RestAt source offset (unscan tokens ++ last))
    (hspelled : ∀ token ∈ tokens, token.Spelled) : ItemsInOrder source offset items := by
  induction h with
  | done => trivial
  | @step offset length tokens rest item items hitem _ _ ih =>
    obtain ⟨span, hfits, hspan, hsuffix, hstop⟩ := hitem.inOrder hrest hspelled
    obtain ⟨piece, rfl⟩ := hsuffix
    -- the offset that is counted and the end of the span are the same place
    have hoffset : offset + width (taken (piece ++ rest) rest) = span.stop := by
      have hcounted := restAt_piece hrest
      have := hcounted.add_byteLength
      have := hstop.add_byteLength
      rw [taken_append]
      omega
    rw [hoffset] at ih
    refine ⟨span, hfits, hspan, (ih (restAt_drop hstop length) ?_).mono (Nat.le_add_right ..)⟩
    intro token hmem
    exact hspelled token (List.mem_append_right _ (List.mem_of_mem_drop hmem))
  | last hitem =>
    obtain ⟨span, hfits, hspan, -, -⟩ := hitem.inOrder hrest hspelled
    exact ⟨span, hfits, hspan, trivial⟩

end

/-! ### Files -/

section

variable {source : List Char} {cursor : Nat}

theorem ItemsInOrder.declsInOrder {items : List Item} (h : ItemsInOrder source cursor items) :
    DeclsInOrder source cursor (items.filterMap Item.decl?) := by
  induction items generalizing cursor with
  | nil => trivial
  | cons item items ih =>
    obtain ⟨span, hfits, hspan, hin⟩ := h
    cases item with
    | package clause => exact (ih hin).mono hspan.le_stop
    | decl kind node =>
      obtain ⟨hs, hbody, -⟩ := hfits
      rw [List.filterMap_cons_some (by rfl)]
      simp only [DeclsInOrder, hs]
      exact ⟨hspan, hbody, ih hin⟩

theorem ItemsInOrder.wasRead {items : List Item} (h : ItemsInOrder source cursor items)
    {decl : Decl} (hmem : decl ∈ items.filterMap Item.decl?) :
    decl.span?.isSome ∧ decl.BodyWasRead := by
  induction items generalizing cursor with
  | nil => cases hmem
  | cons item items ih =>
    obtain ⟨span, hfits, hspan, hin⟩ := h
    cases item with
    | package clause => exact ih hin hmem
    | decl kind node =>
      rw [List.filterMap_cons_some (by rfl)] at hmem
      rcases List.mem_cons.mp hmem with rfl | hmem
      · exact ⟨by rw [hfits.1]; rfl, hfits.2.2⟩
      · exact ih hin hmem

theorem ItemsInOrder.isPlace_stop {items : List Item} (h : ItemsInOrder source cursor items)
    {clause : PackageClause} (hmem : .package clause ∈ items) :
    IsPlace source clause.span.stop := by
  induction items generalizing cursor with
  | nil => cases hmem
  | cons item items ih =>
    obtain ⟨span, hfits, hspan, hin⟩ := h
    rcases List.mem_cons.mp hmem with rfl | hmem
    · obtain rfl : clause.span = span := hfits
      exact hspan.isPlace_stop
    · exact ih hin hmem

theorem exists_lastClause {items : List Item} {clause : PackageClause}
    (h : (items.filterMap Item.clause?).getLast? = some clause) :
    ∃ front back, items = front ++ .package clause :: back ∧ back.filterMap Item.clause? = [] := by
  induction items with
  | nil => cases h
  | cons item items ih =>
    by_cases hlater : items.filterMap Item.clause? = []
    · cases item with
      | package first =>
        rw [List.filterMap_cons_some (by rfl), hlater] at h
        cases h
        exact ⟨[], items, rfl, hlater⟩
      | decl kind decl =>
        rw [List.filterMap_cons_none (by rfl), hlater] at h
        cases h
    · have hlast : (items.filterMap Item.clause?).getLast? = some clause := by
        cases item with
        | package first =>
          rwa [List.filterMap_cons_some (by rfl), List.getLast?_cons_of_ne_nil hlater] at h
        | decl kind decl => rwa [List.filterMap_cons_none (by rfl)] at h
      obtain ⟨front, back, rfl, hback⟩ := ih hlast
      exact ⟨item :: front, back, rfl, hback⟩

/-- A file starts with a package clause. -/
theorem exists_cons_of_packageOf? {items : List Item} {clause : PackageClause}
    (h : packageOf? items = .ok clause) : ∃ first rest, items = .package first :: rest := by
  match items with
  | [] => cases h
  | .decl _ _ :: _ => cases h
  | .package first :: rest => exact ⟨first, rest, rfl⟩

/-- **The package clause that counts** is the last one. -/
theorem exists_of_packageOf? {items : List Item} {clause : PackageClause}
    (h : packageOf? items = .ok clause) :
    ∃ front back, items = front ++ .package clause :: back ∧ back.filterMap Item.clause? = [] := by
  refine exists_lastClause ?_
  obtain ⟨first, rest, rfl⟩ := exists_cons_of_packageOf? h
  simp only [packageOf?, Except.ok.injEq] at h
  rw [List.filterMap_cons_some (by rfl), List.getLast?_cons]
  exact congrArg some h

/-- Declarations in order cannot be printed from a place that one of them starts
before. -/
theorem DeclsInOrder.printDecls_eq_none {decls : List Decl} {n : Nat}
    (h : DeclsInOrder source n decls)
    (hearly : ∃ decl ∈ decls, ∃ span, decl.span? = some span ∧ span.start < cursor)
    (run : List Char) : printDecls source cursor run decls = none := by
  induction decls generalizing run with
  | nil =>
    obtain ⟨_, hmem, _⟩ := hearly
    cases hmem
  | cons first rest ih =>
    obtain ⟨decl, hmem, span, hspan, hlt⟩ := hearly
    rcases hs : first.span? with _ | firstSpan
    · simp only [DeclsInOrder, hs] at h
      simp only [printDecls, hs]
      rcases List.mem_cons.mp hmem with rfl | hmem
      · rw [hs] at hspan
        cases hspan
      · exact ih h ⟨decl, hmem, span, hspan, hlt⟩ _
    · -- the first of the declarations that were read comes too early if any does
      have hfirst : firstSpan.start < cursor := by
        simp only [DeclsInOrder, hs] at h
        rcases List.mem_cons.mp hmem with rfl | hmem
        · rw [hs] at hspan
          cases hspan
          exact hlt
        · have hle := h.2.2.le_start hmem hspan
          have := h.1.forward
          omega
      have hcut := @Span.cut?_eq_none ⟨cursor, firstSpan.start⟩ hfirst source
      simp [printDecls, hs, hcut]

end

/-- A file in order cannot be printed if a declaration comes too early. -/
theorem SourceFile.InOrder.print_eq_none {file : SourceFile} (h : file.InOrder)
    (hearly : file.HasEarlyDecl) : file.print = none := by
  simp [SourceFile.print, h.inOrder.printDecls_eq_none hearly]

/-- What a file that was read consists of. -/
theorem itemsRead_of_parse {source : String} {file : SourceFile} (h : parse source = .ok file) :
    ∃ items, ItemsRead 0 (scan source.toList).1 items ∧ packageOf? items = .ok file.package ∧
      file.source = source ∧ file.decls = items.filterMap Item.decl? := by
  simp only [parse] at h
  obtain ⟨items, hitems, h⟩ := bind_eq_ok.mp h
  obtain ⟨package, hpackage, h⟩ := bind_eq_ok.mp h
  cases h
  refine ⟨items, ?_, hpackage, rfl, rfl⟩
  rcases hread : readItems ((scan source.toList).1.length + 1) 0 (scan source.toList).1 with
    halt | items'
  · rw [hread] at hitems
    cases hitems
  · rw [hread] at hitems
    cases hitems
    exact itemsRead_of_readItems hread

/-- The items of a file that was read are in order. -/
theorem itemsInOrder_of_parse {source : String} {file : SourceFile}
    (h : parse source = .ok file) :
    ∃ items, ItemsInOrder source.toList 0 items ∧ packageOf? items = .ok file.package ∧
      file.source = source ∧ file.decls = items.filterMap Item.decl? := by
  obtain ⟨items, hitems, hfile⟩ := itemsRead_of_parse h
  have hstart := RestAt.start source.toList
  nth_rewrite 2 [← scan_append source.toList] at hstart
  exact ⟨items, hitems.inOrder hstart (scan_spelled _), hfile⟩

/-- **A file that was read is in order.** -/
theorem parse_inOrder {source : String} {file : SourceFile} (h : parse source = .ok file) :
    file.InOrder := by
  obtain ⟨items, hin, hpackage, rfl, hdecls⟩ := itemsInOrder_of_parse h
  obtain ⟨front, back, rfl, -⟩ := exists_of_packageOf? hpackage
  refine ⟨hin.isPlace_stop (List.mem_append_right front List.mem_cons_self), ?_⟩
  rw [hdecls]
  exact hin.declsInOrder

/-- Every part of a file that was read was read. -/
theorem parse_wasRead {source : String} {file : SourceFile} (h : parse source = .ok file)
    {decl : Decl} (hmem : decl ∈ file.decls) : decl.span?.isSome ∧ decl.BodyWasRead := by
  obtain ⟨items, hin, -, -, hdecls⟩ := itemsInOrder_of_parse h
  rw [hdecls] at hmem
  exact hin.wasRead hmem

theorem declRuns_eq_nil {decls : List Decl}
    (h : ∀ decl ∈ decls, decl.span?.isSome ∧ decl.BodyWasRead) : declRuns [] decls = [] := by
  induction decls with
  | nil => rfl
  | cons decl decls ih =>
    obtain ⟨hspan, hbody⟩ := h decl (by simp)
    obtain ⟨span, hs⟩ := Option.isSome_iff_exists.mp hspan
    have hrest := ih fun decl hmem => h decl (by simp [hmem])
    simp [declRuns, hs, hbody.runs_eq_nil, hrest]

/-- **Printing a file that was read gives its source back**, unless some declaration
starts before the package clause that counts has ended; then it cannot be printed. -/
theorem print_of_parse {source : String} {file : SourceFile} (h : parse source = .ok file) :
    (¬ file.HasEarlyDecl → file.print = some source) ∧
      (file.HasEarlyDecl → file.print = none) := by
  have hin := parse_inOrder h
  have hruns : file.runs = [] := declRuns_eq_nil fun _ => parse_wasRead h
  refine ⟨fun hearly => ?_, hin.print_eq_none⟩
  obtain ⟨out, hout, hwoven⟩ := (hin.wellFormed hearly).exists_print
  rw [hruns] at hwoven
  obtain ⟨items, -, -, rfl, -⟩ := itemsRead_of_parse h
  rw [hout, String.toList_inj.mp hwoven.eq_of_nil]

theorem print_of_parse_both :
    (∃ file, parse "package main; func main() \x7b f() \x7d" = .ok file ∧
      file.print = some "package main; func main() \x7b f() \x7d") ∧
    (∃ file, parse "package main; func main() \x7b\x7d; package main" = .ok file ∧
      file.print = none) := by
  constructor
  · have hcheck : (parse "package main; func main() \x7b f() \x7d").toOption.any
        (fun file => !decide file.HasEarlyDecl) = true := by
      decide +kernel
    obtain ⟨file, hparse, hearly⟩ := exists_ok_of_any hcheck
    exact ⟨file, hparse, (print_of_parse hparse).1 (by simpa using hearly)⟩
  · have hcheck : (parse "package main; func main() \x7b\x7d; package main").toOption.any
        (fun file => decide file.HasEarlyDecl) = true := by
      decide +kernel
    obtain ⟨file, hparse, hearly⟩ := exists_ok_of_any hcheck
    exact ⟨file, hparse, (print_of_parse hparse).2 (by simpa using hearly)⟩

end EntryProbe.Go
