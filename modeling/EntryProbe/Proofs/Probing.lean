import EntryProbe.Proofs.Contents
import EntryProbe.Proofs.Grammar.EntrySignature
import EntryProbe.Proofs.Instrumenting
import EntryProbe.Proofs.Splicing

/-!
# Declarations with the block put in

What the printer makes of instrumented declarations, as text, and what the parser makes of
the same declarations, as tokens with the tokens of the block among them, go together: the
tokens spell the text, and they are read as the declarations were, with one more statement
in front of each body that takes the block (`EntryProbe.Go.Instrumented`).

* `EntryProbe.Go.StmtsRead.probed` – the statements of one body;
* `EntryProbe.Go.ItemRead.exists_probed` – one declaration;
* `EntryProbe.Go.ItemsRead.exists_probed` – all of them.

The declarations are taken from the last one to the first one, because how a declaration is
read depends on the tokens behind it.
-/

namespace EntryProbe.Go

open Profiling

section

variable {source last : List Char} {offset close : Nat} {tokens after rest : List Token}
  {spans : List Span} {brace : Token}

/-- A statement and those after it are printed with a run spliced into the gap in front of
it. -/
theorem print_piece {first : Token} {piece : List Token} {tail : List Char}
    (hin : StmtsInOrder source close (offset + width (first :: piece)) (spans.map .verbatim))
    (hrest : RestAt source offset (unscan (first :: piece ++ rest) ++ last))
    (hclose : RestAt source close tail) :
    ∃ text, unscan (first :: piece ++ rest) ++ last = first.gap ++ (text ++ tail) ∧
      ∀ run, printStatements source close offset run
        (.verbatim (pieceSpan offset (first :: piece)) :: spans.map .verbatim) =
          some (splice first.gap run ['\t'] ++ text) := by
  obtain ⟨inner, out, hinner, hout, hwoven⟩ := hin.exists_print (restAt_piece hrest) hclose []
  rw [stmtRuns_eq_nil (by simp [Stmt.span?])] at hwoven
  obtain rfl := hwoven.eq_of_nil
  refine ⟨spelling (first :: piece) ++ out, ?_, fun run => ?_⟩
  · rw [unscan_append, List.append_assoc, hinner, spelling]
    simp
  · have hgap : RestAt source offset (first.gap ++ (first.text ++ (unscan piece ++
        (unscan rest ++ last)))) := by
      simpa using hrest
    have hcut : Span.cut? ⟨offset, (pieceSpan offset (first :: piece)).start⟩ source =
        some first.gap := hgap.cut?
    have hstop : (pieceSpan offset (first :: piece)).stop = offset + width (first :: piece) := rfl
    simp [printStatements, Stmt.span?, hcut, cut?_pieceSpan hrest, hstop, hout]

/-- The statements of a body are printed with a run spliced into the first gap. -/
theorem StmtsRead.exists_print (h : StmtsRead offset tokens spans close (brace :: after))
    (hrest : RestAt source offset (unscan tokens ++ last)) :
    ∃ first tokens' tabs text, tokens = first :: tokens' ∧
      unscan tokens ++ last = first.gap ++ (text ++ (brace.text ++ (unscan after ++ last))) ∧
      ∀ run, printStatements source (close + byteLength brace.gap) offset run
        (spans.map Stmt.verbatim) =
          some (splice first.gap run (List.replicate tabs '\t') ++ text) := by
  obtain ⟨_, _, hend, -, -, hclose, hin⟩ := h.inOrder hrest
  cases hend
  rw [unscan_cons, List.append_assoc, List.append_assoc] at hclose
  have hmore : ∀ {piece rest : List Token} {spans' : List Span}, piece ≠ [] →
      spans = pieceSpan offset piece :: spans' → piece ++ rest = tokens →
      ∃ first tokens' tabs text, tokens = first :: tokens' ∧
        unscan tokens ++ last = first.gap ++ (text ++ (brace.text ++ (unscan after ++ last))) ∧
        ∀ run, printStatements source (close + byteLength brace.gap) offset run
          (spans.map Stmt.verbatim) =
            some (splice first.gap run (List.replicate tabs '\t') ++ text) := by
    rintro piece rest spans' hpiece rfl rfl
    obtain ⟨first, piece, rfl⟩ := List.exists_cons_of_ne_nil hpiece
    obtain ⟨text, htext, hprint⟩ := print_piece hin.2 hrest hclose.advance
    exact ⟨first, piece ++ rest, 1, text, rfl, htext, hprint⟩
  generalize hend : brace :: after = rest at h
  cases h with
  | done hbrace =>
    cases hend
    refine ⟨brace, after, 0, [], rfl, by simp, fun run => ?_⟩
    simp [printStatements, hclose.cut?]
  | step _ _ hcut hpiece _ _ => exact hmore hpiece rfl hcut.append_eq
  | last _ _ hcut hpiece _ _ => exact hmore hpiece rfl hcut.append_eq

/-- A body with the block in front of it is printed with the run of the block spliced into
its first gap. -/
theorem exists_print_probed {first : Token} {inner : List Token} (profile : String)
    (hstmts : StmtsRead (offset + byteLength first.full) inner spans close (brace :: after))
    (hrest : RestAt source offset (unscan (first :: inner) ++ last))
    (hfirst : first.text = ['\x7b']) (hbrace : brace.text = ['\x7d']) :
    ∃ token inner' tabs text, inner = token :: inner' ∧
      unscan inner ++ last = token.gap ++ (text ++ ('\x7d' :: (unscan after ++ last))) ∧
      printBody source
        { stmts := preamble profile :: spans.map .verbatim
          span := some ⟨offset + byteLength first.gap, close + byteLength brace.full⟩ }
        ⟨offset + byteLength first.gap, close + byteLength brace.full⟩ =
      some ('\x7b' :: (splice token.gap (blockRun profile) (List.replicate tabs '\t') ++ text) ++
        ['\x7d']) := by
  obtain ⟨token, inner', tabs, text, hcons, htext, hprint⟩ :=
    hstmts.exists_print (restAt_token hrest)
  rw [hbrace] at htext
  refine ⟨token, inner', tabs, text, hcons, htext, ?_⟩
  have hstart : offset + byteLength first.gap + 1 = offset + byteLength first.full := by
    rw [first.byteLength_full_eq hfirst rfl, ← Nat.add_assoc]
  have hstop : close + byteLength brace.full = close + byteLength brace.gap + 1 := by
    rw [brace.byteLength_full_eq hbrace rfl, ← Nat.add_assoc]
  obtain ⟨line, hline, hrendered⟩ := renderStmt_of_isFresh (isFresh_preamble profile) source
  have hrun : '\n' :: '\t' :: line.toList = blockRun profile := by
    rw [hrendered]
    rfl
  have hprint' : printStatements source (close + byteLength brace.gap)
      (offset + byteLength first.full) [] (preamble profile :: spans.map .verbatim) =
        some (splice token.gap (blockRun profile) (List.replicate tabs '\t') ++ text) := by
    have hspan : (preamble profile).span? = none := rfl
    rw [← hprint, ← hrun]
    simp only [printStatements, hspan, hline]
    rfl
  rw [printBody, if_neg (by simp [hstop])]
  simp only [hstop, hstart, Nat.add_sub_cancel, hprint']
  rfl

end

/-! ### One declaration -/

/-- **What becomes of a declaration** that is instrumented: it says the same as before, but
an entry function with a body has the block in front of it. The block may have the other
line breaks. -/
def Instrumented (profile : String) (source source' : List Char) (decl decl' : Decl) : Prop :=
  if takesPreamble decl then
    ∃ text, PlacedAs (preamble profile).rendered text ∧
      decl'.content source' = (decl.content source).withFirst text
  else
    decl'.content source' = decl.content source

/-- A declaration was read from `tokens` and left `rest` over. `tokens'` are its tokens with
the block put in, and `rest'` after them. -/
structure Probed (profile : String) (source : List Char) (kind : TopLevelKind) (decl : Decl)
    (span : Span) (tokens tokens' rest' : List Token) : Prop where
  /-- The blocks are fenced off. -/
  fenced : Fenced (Probes profile) tokens tokens'
  /-- The tokens spell what is printed. -/
  print : ∃ text, printDecl source (addPreamble profile decl) span = some text ∧
    spelling tokens' = text ++ unscan rest'
  /-- The declaration is read again, whatever the gap in front of it. -/
  reread (gap source' last' : List Char) (offset' : Nat) :
    RestAt source' offset' (unscan (regap gap tokens') ++ last') →
    ∃ decl', ItemRead offset' (regap gap tokens') (.decl kind decl') rest' ∧
      Instrumented profile source source' decl decl'

section

variable {source last : List Char} {offset : Nat} {tokens rest rest' : List Token} {span : Span}
  {kind : TopLevelKind} {decl : Decl}

theorem addPreamble_eq_self (profile : String) (h : takesPreamble decl = false) :
    addPreamble profile decl = decl := by
  cases decl with
  | imports decl => rfl
  | other span => rfl
  | func decl =>
    rw [takesPreamble, Bool.and_eq_false_iff] at h
    obtain ⟨name, receiver, params, result, body, span⟩ := decl
    simp only [addPreamble]
    split
    · next hentry =>
      obtain rfl : body = none := by
        rcases h with h | h
        · rw [hentry] at h
          cases h
        · simpa using h
      rfl
    · rfl

/-- A declaration starts behind the gap of its first token. -/
theorem ItemRead.start_eq (h : ItemRead offset tokens (.decl kind decl) rest)
    (hspan : decl.span? = some span) :
    span.start = offset + byteLength ((tokens.head?.map Token.gap).getD []) := by
  generalize hitem : Item.decl kind decl = item at h
  cases h with
  | package => cases hitem
  | @imports first inner left piece rest specs hfirst hread hcut =>
    cases hitem
    cases hspan
    obtain ⟨used, rfl, rfl, rfl, -⟩ := steady_readImports.exists_piece hread hcut
    rfl
  | @func first inner left head middle rest signature body stop hfirst hdeclares hread hcut hbody
      hreadBody =>
    cases hitem
    cases hspan
    obtain ⟨used, rfl, rfl, rfl, -⟩ := steady_readSignature.exists_piece hread hcut
    rfl
  | @stub first inner left head rest signature hfirst hdeclares hread hcut hbody =>
    cases hitem
    cases hspan
    obtain ⟨used, rfl, rfl, rfl, -⟩ := steady_readSignature.exists_piece hread hcut
    rfl
  | @other tokens left piece rest kind hpackage himport hfunc hread hcut hpiece =>
    cases hitem
    cases hspan
    obtain ⟨first, piece, rfl⟩ := List.exists_cons_of_ne_nil hpiece
    rw [← hcut.append_eq]
    rfl

theorem spelling_append {used : List Token} (hused : used ≠ []) (rest : List Token) :
    spelling (used ++ rest) = spelling used ++ unscan rest := by
  obtain ⟨first, used, rfl⟩ := List.exists_cons_of_ne_nil hused
  simp [spelling]

/-- A declaration that takes no block is printed as it was read. -/
theorem ItemRead.printDecl_same {used : List Token} (profile : String)
    (h : ItemRead offset (used ++ rest) (.decl kind decl) rest) (hused : used ≠ [])
    (hrest : RestAt source offset (unscan (used ++ rest) ++ last))
    (hspelled : ∀ token ∈ used ++ rest, token.Spelled) (hspan : decl.span? = some span)
    (htakes : takesPreamble decl = false) :
    printDecl source (addPreamble profile decl) span = some (spelling used) := by
  have hstart := h.start_eq hspan
  obtain ⟨span', ⟨hspan', hfits, hwasRead⟩, hfollows, -, hstop⟩ := h.inOrder hrest hspelled
  rw [hspan] at hspan'
  cases hspan'
  obtain ⟨first, used, rfl⟩ := List.exists_cons_of_ne_nil hused
  have hgap : RestAt source offset (first.gap ++ (first.text ++ unscan used ++
      (unscan rest ++ last))) := by
    simpa using hrest
  have hbegin := hgap.advance
  replace hstart : span.start = offset + byteLength first.gap := hstart
  rw [← hstart] at hbegin
  obtain ⟨inner, out, tail, hinner, htail, hprint, hwoven⟩ := hfits.exists_print hfollows hbegin
  rw [hwasRead.runs_eq_nil] at hwoven
  obtain rfl := hwoven.eq_of_nil
  obtain rfl := htail.unique hstop
  obtain rfl := List.append_cancel_right hinner
  rwa [addPreamble_eq_self profile htakes]

/-- A declaration that takes no block stays as it is. -/
theorem ItemRead.probed_same {profile : String} (h : ItemRead offset tokens (.decl kind decl) rest)
    (hrest : RestAt source offset (unscan tokens ++ last))
    (hspelled : ∀ token ∈ tokens, token.Spelled) (hfenced : Fenced (Probes profile) rest rest')
    (hspan : decl.span? = some span) (htakes : takesPreamble decl = false) :
    ∃ tokens', Probed profile source kind decl span tokens tokens' rest' := by
  obtain ⟨used, rfl, hused, hagain⟩ := h.reread (insertion_probes profile) hrest hfenced
  refine ⟨used ++ rest', hfenced.keepAll used,
    ⟨_, h.printDecl_same profile hused hrest hspelled hspan htakes,
      spelling_append hused rest'⟩, ?_⟩
  intro gap source' last' offset' hplace
  obtain ⟨decl', hread, hcontent⟩ := hagain gap source' last' offset' hplace
  refine ⟨decl', hread, ?_⟩
  rw [Instrumented, if_neg (by simp [htakes])]
  exact hcontent

/-! #### Entry functions -/

theorem spelling_blockTokens (gap line : List Char) (profile : String) :
    spelling (blockTokens gap line profile) = unscan (blockTokens [] line profile) := by
  simp [blockTokens, blockStart, Token.mark, spelling]

theorem placedAs_withBreaks (withReturn : Bool) (text : List Char) :
    PlacedAs text (withBreaks withReturn text) := by
  cases withReturn with
  | false => exact .inl rfl
  | true => exact .inr rfl

/-- **The statements of a body are read with the block in front of them.** -/
theorem StmtsRead.probed {profile : String} {close : Nat} {spans : List Span}
    {brace token token' : Token} {inner inserted : List Token}
    (h : StmtsRead offset (token :: inner) spans close (brace :: rest))
    (hrest : RestAt source offset (unscan (token :: inner) ++ last))
    (hfenced : Fenced (Probes profile) rest rest') (hput : Probes profile token inserted token') :
    ∃ used inner', token :: inner = used ++ brace :: rest ∧
      token :: inner' = used ++ brace :: rest' ∧ Grown (Probes profile) inner inner' ∧
      ∀ source' last' offset',
        RestAt source' offset' (unscan (inserted ++ token' :: inner') ++ last') →
        ∃ spans' close' brace' text,
          StmtsRead offset' (inserted ++ token' :: inner') spans' close' (brace' :: rest') ∧
          PlacedAs (preamble profile).rendered text ∧
          spans'.map (·.cut? source') = some text :: spans.map (·.cut? source) := by
  obtain ⟨used, hused, hagain⟩ := h.reread (insertion_probes profile) hrest hfenced
  obtain ⟨inner', hinner', hgrown⟩ : ∃ inner', token :: inner' = used ++ brace :: rest' ∧
      Grown (Probes profile) inner inner' := by
    cases used with
    | nil =>
      cases hused
      exact ⟨rest', rfl, hfenced.grown⟩
    | cons first used =>
      cases hused
      exact ⟨used ++ brace :: rest', rfl, ((hfenced.keep brace).keepAll used).grown⟩
  refine ⟨used, inner', hused, hinner', hgrown, fun source' last' offset' hplace => ?_⟩
  obtain ⟨tabs, front, gap', withReturn, hspliced, rfl, rfl⟩ := hput
  rw [← hinner'] at hagain
  obtain ⟨spans', close', brace', hread, htexts⟩ :=
    hagain gap' source' last' _ (restAt_piece hplace)
  -- the token behind the block starts a line, which ends the block
  have hterm : terminatorLength? (regap gap' (token :: inner')) = some 0 :=
    terminatorLength?_of_onNewLine hspliced.onNewLine
  refine ⟨pieceSpan offset' _ :: spans', close', brace', _,
    .step ?_ (recognize_blockTokens _ withReturn profile _) (cut_append _ _) ?_ hterm hread,
    placedAs_withBreaks withReturn _, ?_⟩
  · simp [blockTokens, blockStart, Token.mark]
  · simp [blockTokens, blockStart]
  · rw [List.map_cons, htexts, cut?_pieceSpan hplace, spelling_blockTokens, withBreaks_rendered]

/-- A token that was scanned takes a block in front of it. -/
theorem exists_probes (profile : String) {token : Token} {tail : List Char}
    (h : token.Starts tail) (tabs : Nat) :
    ∃ inserted token', Probes profile token inserted token' ∧
      token'.text = token.text ∧ unscan inserted ++ token'.gap =
        splice token.gap (blockRun profile) (List.replicate tabs '\t') := by
  obtain ⟨mode, hmode, htrivia, -⟩ := trivia_of_splitTrivia h.gap_eq
  obtain ⟨front, gap', withReturn, hspliced⟩ :=
    exists_spliced htrivia hmode (List.cons_ne_nil _ _) tabs
  exact ⟨_, _, ⟨tabs, front, gap', withReturn, hspliced, rfl, rfl⟩, rfl, hspliced.unscan_eq⟩

/-- A function that was read from its first word, its signature and its body. -/
def funcOf (offset : Nat) (head : List Token) (signature : FuncDecl) (brace : Token)
    (spans : List Span) (close : Nat) (closing : Token) : FuncDecl :=
  { signature with
    body := some (bodyOf (offset + width head) brace spans close closing)
    span := some ⟨(pieceSpan offset head).start, close + byteLength closing.full⟩ }

section

variable {profile : String} {first brace closing : Token} {used inner : List Token}
  {signature : FuncDecl} {spans : List Span} {close : Nat}

/-- What stands in front of a body is printed as it is. -/
theorem printDecl_addPreamble {text : List Char} (hentry : signature.isEntry = true)
    (hrest : RestAt source offset (unscan (first :: used ++ brace :: inner) ++ last))
    (hafter : RestAt source (close + byteLength closing.full) (unscan rest ++ last))
    (hprint : printBody source
        { stmts := preamble profile :: spans.map .verbatim
          span := some ⟨offset + width (first :: used) + byteLength brace.gap,
            close + byteLength closing.full⟩ }
        ⟨offset + width (first :: used) + byteLength brace.gap, close + byteLength closing.full⟩ =
      some text) :
    printDecl source
        (addPreamble profile
          (.func (funcOf offset (first :: used) signature brace spans close closing)))
        ⟨(pieceSpan offset (first :: used)).start, close + byteLength closing.full⟩ =
      some (spelling (first :: used) ++ brace.gap ++ text) := by
  have hadd : addPreamble profile
      (.func (funcOf offset (first :: used) signature brace spans close closing)) =
      .func { signature with
        body := some
          { stmts := preamble profile :: spans.map .verbatim
            span := some ⟨offset + width (first :: used) + byteLength brace.gap,
              close + byteLength closing.full⟩ }
        span := some ⟨(pieceSpan offset (first :: used)).start,
          close + byteLength closing.full⟩ } :=
    if_pos hentry
  have hgap : RestAt source offset (first.gap ++ ((spelling (first :: used) ++ brace.gap) ++
      (brace.text ++ (unscan inner ++ last)))) := by
    simpa [spelling] using hrest
  have hhead := hgap.advance.cut?
  have hlength : offset + byteLength first.gap +
      byteLength (spelling (first :: used) ++ brace.gap) =
        offset + width (first :: used) + byteLength brace.gap := by
    simp [spelling, width, Nat.add_assoc]
  rw [hlength] at hhead
  have htail : RestAt source (close + byteLength closing.full) ([] ++ (unscan rest ++ last)) :=
    hafter
  have hcut := htail.cut?
  simp only [byteLength_nil, Nat.add_zero] at hcut
  have hstart : (pieceSpan offset (first :: used)).start = offset + byteLength first.gap := rfl
  rw [hadd]
  simp [printDecl, hstart, hhead, hprint, hcut]

/-- **An entry function is printed with the run of the block spliced into the first gap of its
body.** -/
theorem exists_printDecl_entry (profile : String) (hentry : signature.isEntry = true)
    (hbrace : brace.lexeme = .mark .openBrace)
    (hstmts : StmtsRead (offset + width (first :: used) + byteLength brace.full) inner spans close
      (closing :: rest))
    (hrest : RestAt source offset (unscan (first :: used ++ brace :: inner) ++ last))
    (hspelled : ∀ token ∈ first :: used ++ brace :: inner, token.Spelled) :
    ∃ token inner' tabs text, inner = token :: inner' ∧
      unscan inner ++ last = token.gap ++ (text ++ ('\x7d' :: (unscan rest ++ last))) ∧
      printDecl source
          (addPreamble profile
            (.func (funcOf offset (first :: used) signature brace spans close closing)))
          ⟨(pieceSpan offset (first :: used)).start, close + byteLength closing.full⟩ =
        some (spelling (first :: used) ++ brace.gap ++
          ('\x7b' :: (splice token.gap (blockRun profile) (List.replicate tabs '\t') ++ text) ++
            ['\x7d'])) := by
  have hopened : brace.text = ['\x7b'] := (hspelled brace (by simp)).text_openBrace hbrace
  have hclosed : closing.text = ['\x7d'] :=
    hstmts.text_closing fun token hmem => hspelled token (by simp [hmem])
  have hplace := restAt_piece hrest
  have hafter : RestAt source (close + byteLength closing.full) (unscan rest ++ last) :=
    hstmts.restAt_behind (restAt_token hplace)
  obtain ⟨token, inner', tabs, text, hcons, htext, hprint⟩ :=
    exists_print_probed profile hstmts hplace hopened hclosed
  exact ⟨token, inner', tabs, text, hcons, htext, printDecl_addPreamble hentry hrest hafter hprint⟩

/-- The text up to the closing brace of a body does not depend on what follows the brace. -/
theorem unscan_closing {gap text : List Char} (hclosed : closing.text = ['\x7d'])
    (htext : unscan (used ++ closing :: rest) ++ last =
      gap ++ (text ++ '\x7d' :: (unscan rest ++ last))) (rest' : List Token) :
    unscan (used ++ closing :: rest') = gap ++ (text ++ '\x7d' :: unscan rest') := by
  have hbefore : (unscan used ++ closing.gap) ++ '\x7d' :: (unscan rest ++ last) =
      (gap ++ text) ++ '\x7d' :: (unscan rest ++ last) := by
    simpa [hclosed] using htext
  rw [unscan_append, unscan_cons, hclosed, ← List.append_assoc, List.append_cancel_right hbefore,
    List.append_assoc]
  rfl

/-- **The tokens of an entry function with the block in its body** are read and printed as
instrumenting wants it. -/
theorem exists_probed_func (hfirst : first.lexeme = .keyword .funcWord)
    (hread : readSignature (used ++ brace :: inner) = .ok (signature, brace :: inner))
    (hentry : signature.isEntry = true) (hbrace : brace.lexeme = .mark .openBrace)
    (hbody : bodyFollows (brace :: inner) = true)
    (hstmts : StmtsRead (offset + width (first :: used) + byteLength brace.full) inner spans close
      (closing :: rest))
    (hrest : RestAt source offset (unscan (first :: used ++ brace :: inner) ++ last))
    (hscanned : Scanned (first :: used ++ brace :: inner) last)
    (hspelled : ∀ token ∈ first :: used ++ brace :: inner, token.Spelled)
    (hfenced : Fenced (Probes profile) rest rest') :
    ∃ tokens', Probed profile source (if signature.receiver.isSome then .method else .function)
      (.func (funcOf offset (first :: used) signature brace spans close closing))
      ⟨(pieceSpan offset (first :: used)).start, close + byteLength closing.full⟩
      (first :: used ++ brace :: inner) tokens' rest' := by
  have hopened : brace.text = ['\x7b'] := (hspelled brace (by simp)).text_openBrace hbrace
  have hclosed : closing.text = ['\x7d'] :=
    hstmts.text_closing fun token hmem => hspelled token (by simp [hmem])
  have hinner := restAt_token (restAt_piece hrest)
  -- the block goes in front of the first token behind the brace
  obtain ⟨token, inner, tabs, text, rfl, htext, hprint⟩ :=
    exists_printDecl_entry profile hentry hbrace hstmts hrest hspelled
  have hstarts : token.Starts (unscan inner ++ last) := hscanned.append_right.2.1
  obtain ⟨inserted, token', hput, htext', hsplice⟩ := exists_probes profile hstarts tabs
  obtain ⟨used', inner', hused, hused', hgrown, hagain⟩ := hstmts.probed hinner hfenced hput
  have hleft : Grown (Probes profile) (brace :: token :: inner)
      (brace :: (inserted ++ token' :: inner')) := .put hbrace hput hgrown
  obtain ⟨name, sig, hsig, hname, hread'⟩ :=
    exists_entrySignature (insertion_probes profile) hread hentry (by simp [hbrace]) hleft
  obtain rfl : used = name :: sig := List.append_cancel_right hsig
  refine ⟨first :: name :: (sig ++ brace :: (inserted ++ token' :: inner')),
    .fence hfirst hname (hleft.keepAll sig),
    ⟨_, hprint, ?_⟩, ?_⟩
  · rw [hused] at htext
    have hbody := unscan_closing hclosed htext rest'
    rw [← hused', unscan_cons] at hbody
    have htail : token.text ++ unscan inner' = text ++ '\x7d' :: unscan rest' :=
      List.append_cancel_left hbody
    simp [spelling, hopened, ← hsplice, htext', htail]
  · intro gap source' last' offset' hplace'
    have hinner' : RestAt source'
        (offset' + width ({ first with gap } :: name :: sig) + byteLength brace.full)
        (unscan (inserted ++ token' :: inner') ++ last') :=
      restAt_token (@restAt_piece _ _ _ ({ first with gap } :: name :: sig) _ hplace')
    obtain ⟨spans', close', closing', text', hstmts', hplaced, htexts⟩ :=
      hagain source' last' _ hinner'
    refine ⟨_, .func hfirst ?_ hread' (cut_append ({ first with gap } :: name :: sig) _) hbody
      (readBody_eq_ok.mpr ⟨brace, _, spans', close', closing', rfl, hbrace, hstmts', rfl, rfl⟩), ?_⟩
    · simp [declaresFunction, hname]
    · have htakes : takesPreamble (.func
          (funcOf offset (first :: name :: sig) signature brace spans close closing)) = true := by
        change (signature.isEntry && true) = true
        rw [hentry, Bool.and_true]
      rw [Instrumented, if_pos htakes]
      refine ⟨text', hplaced, ?_⟩
      simp [Decl.content, funcOf, Content.withFirst, texts_bodyOf, htexts]

end

/-- **An entry function with a body takes the block.** -/
theorem ItemRead.probed_entry {profile : String}
    (h : ItemRead offset tokens (.decl kind decl) rest)
    (hrest : RestAt source offset (unscan tokens ++ last)) (hscanned : Scanned tokens last)
    (hspelled : ∀ token ∈ tokens, token.Spelled) (hfenced : Fenced (Probes profile) rest rest')
    (hspan : decl.span? = some span) (htakes : takesPreamble decl = true) :
    ∃ tokens', Probed profile source kind decl span tokens tokens' rest' := by
  generalize hitem : Item.decl kind decl = item at h
  cases h with
  | package => cases hitem
  | imports =>
    cases hitem
    cases htakes
  | other =>
    cases hitem
    cases htakes
  | stub _ _ hread _ _ =>
    cases hitem
    simp [takesPreamble, readSignature_body hread] at htakes
  | @func first inner left head middle rest signature body stop hfirst hdeclares hread hcut hbody
      hreadBody =>
    cases hitem
    cases hspan
    have hentry : signature.isEntry = true := (Bool.and_eq_true_iff.mp htakes).1
    obtain ⟨used, rfl, rfl, rfl, -⟩ := steady_readSignature.exists_piece hread hcut
    obtain ⟨brace, inner, spans, close, closing, rfl, hbrace, hstmts, rfl, rfl⟩ :=
      readBody_eq_ok.mp hreadBody
    exact exists_probed_func hfirst hread hentry hbrace hbody hstmts hrest hscanned hspelled hfenced

theorem ItemRead.exists_probed {profile : String}
    (h : ItemRead offset tokens (.decl kind decl) rest)
    (hrest : RestAt source offset (unscan tokens ++ last)) (hscanned : Scanned tokens last)
    (hspelled : ∀ token ∈ tokens, token.Spelled) (hfenced : Fenced (Probes profile) rest rest')
    (hspan : decl.span? = some span) :
    ∃ tokens', Probed profile source kind decl span tokens tokens' rest' := by
  cases htakes : takesPreamble decl with
  | false => exact h.probed_same hrest hspelled hfenced hspan htakes
  | true => exact h.probed_entry hrest hscanned hspelled hfenced hspan htakes

/-! ### All declarations -/

/-- Declarations were read from `tokens`. `tokens'` are their tokens with the blocks put in. -/
structure AllProbed (profile : String) (source last : List Char) (decls : List Decl)
    (tokens tokens' : List Token) : Prop where
  /-- The blocks are fenced off. -/
  fenced : Fenced (Probes profile) tokens tokens'
  /-- The tokens spell what is printed. -/
  print (cursor : Nat) (before : List Char) :
    RestAt source cursor (before ++ (unscan tokens ++ last)) →
    printDecls source cursor [] (decls.map (addPreamble profile)) =
      some (before ++ (unscan tokens' ++ last))
  /-- The declarations are read again, whatever the gap in front of them. -/
  reread (gap source' last' : List Char) (offset' : Nat) : 0 < offset' →
    RestAt source' offset' (unscan (regap gap tokens') ++ last') →
    ∃ items, ItemsRead offset' (regap gap tokens') items ∧ items.filterMap Item.clause? = [] ∧
      List.Forall₂ (Instrumented profile source source') decls (items.filterMap Item.decl?)

/-- A declaration is printed behind the gap in front of it. -/
theorem ItemRead.printDecls_cons {profile : String} {decls : List Decl} {cursor : Nat}
    {before text out : List Char} (h : ItemRead offset tokens (.decl kind decl) rest)
    (hrest : RestAt source offset (unscan tokens ++ last)) (hspan : decl.span? = some span)
    (hplace : RestAt source cursor (before ++ (unscan tokens ++ last)))
    (htext : printDecl source (addPreamble profile decl) span = some text)
    (hout : printDecls source span.stop [] decls = some out) :
    printDecls source cursor [] (addPreamble profile decl :: decls) =
      some (before ++ ((tokens.head?.map Token.gap).getD [] ++ (text ++ out))) := by
  have hstart := h.start_eq hspan
  obtain ⟨used, rfl, hused, -⟩ := h.exists_taken
  obtain ⟨first, used, rfl⟩ := List.exists_cons_of_ne_nil hused
  have hcut : Span.cut? ⟨cursor, span.start⟩ source = some (before ++ first.gap) := by
    have hlength := hplace.add_byteLength
    have hlength' := hrest.add_byteLength
    have hgap : RestAt source cursor
        ((before ++ first.gap) ++ (first.text ++ unscan (used ++ rest) ++ last)) := by
      simpa using hplace
    replace hstart : span.start = cursor + byteLength (before ++ first.gap) := by
      replace hstart : span.start = offset + byteLength first.gap := hstart
      rw [byteLength_append] at hlength ⊢
      omega
    rw [hstart]
    exact hgap.cut?
  have hspan' : (addPreamble profile decl).span? = some span := by
    rw [span?_addPreamble]
    exact hspan
  simp [printDecls, hspan', hcut, htext, hout]

/-- A declaration and what follows it are printed as their tokens spell them. -/
theorem Probed.printDecls_eq {profile : String} {decls : List Decl} {tokens' : List Token}
    {cursor : Nat} {before : List Char}
    (hprobed : Probed profile source kind decl span tokens tokens' rest')
    (h : ItemRead offset tokens (.decl kind decl) rest)
    (hrest : RestAt source offset (unscan tokens ++ last)) (hspan : decl.span? = some span)
    (hplace : RestAt source cursor (before ++ (unscan tokens ++ last)))
    (hafter : printDecls source span.stop [] decls = some (unscan rest' ++ last)) :
    printDecls source cursor [] (addPreamble profile decl :: decls) =
      some (before ++ (unscan tokens' ++ last)) := by
  obtain ⟨text, htext, hspelling⟩ := hprobed.print
  have hhead := hprobed.fenced.grown.head_eq
  have hprint := h.printDecls_cons hrest hspan hplace htext hafter
  obtain ⟨used, rfl, hused, -⟩ := h.exists_taken
  obtain ⟨first, used, rfl⟩ := List.exists_cons_of_ne_nil hused
  obtain ⟨tokens', rfl⟩ := List.head?_eq_some_iff.mp hhead.symm
  replace hspelling : first.text ++ unscan tokens' = text ++ unscan rest' := hspelling
  rw [hprint]
  simp [hspelling]

theorem exists_decl_of_clauses {item : Item} {items : List Item}
    (h : (item :: items).filterMap Item.clause? = []) : ∃ kind decl, item = .decl kind decl := by
  cases item with
  | package clause => cases h
  | decl kind decl => exact ⟨kind, decl, rfl⟩

/-- **Declarations that were read are read again with the blocks put in.** -/
theorem ItemsRead.exists_probed {profile : String} {items : List Item}
    (h : ItemsRead offset tokens items) (hdecls : items.filterMap Item.clause? = [])
    (hrest : RestAt source offset (unscan tokens ++ last)) (hscanned : Scanned tokens last)
    (hspelled : ∀ token ∈ tokens, token.Spelled) :
    ∃ tokens', AllProbed profile source last (items.filterMap Item.decl?) tokens tokens' := by
  induction h with
  | done =>
    refine ⟨[], .same [], fun cursor before hplace => ?_, fun gap source' last' offset' _ _ => ?_⟩
    · simp [printDecls, hplace.cut?_end]
    · exact ⟨[], .done, rfl, .nil⟩
  | @step offset length tokens rest item items hitem hend _ ih =>
    obtain ⟨kind, decl, rfl⟩ := exists_decl_of_clauses hdecls
    obtain ⟨span, ⟨hspan, -⟩, -, -, hstop⟩ := hitem.inOrder hrest hspelled
    obtain ⟨used, rfl, hused, -⟩ := hitem.exists_taken
    obtain ⟨terminator, tokens, rfl, rfl, -⟩ := exists_itemEnd hend
    rw [taken_append, List.drop_left, List.take_left] at ih
    have hspelled' : ∀ token ∈ tokens, token.Spelled := fun token hmem =>
      hspelled token (by simp [hmem])
    obtain ⟨tokens', hall⟩ := ih (by simpa [Item.clause?] using hdecls)
      (restAt_piece (restAt_piece hrest)) hscanned.append_right.append_right hspelled'
    have hfenced := hall.fenced.keepAll terminator
    obtain ⟨probed, hprobed⟩ := hitem.exists_probed hrest hscanned hspelled hfenced hspan
    refine ⟨probed, hprobed.fenced, fun cursor before hplace => ?_,
      fun gap source' last' offset' hoffset hplace => ?_⟩
    · refine hprobed.printDecls_eq hitem hrest hspan hplace ?_
      rw [hall.print span.stop (unscan terminator) (by simpa using hstop), unscan_append,
        List.append_assoc]
    · obtain ⟨decl', hread, hinstrumented⟩ := hprobed.reread gap source' last' offset' hplace
      obtain ⟨used', hused', -⟩ := hread.exists_taken
      rw [hused'] at hplace
      obtain ⟨gap', hgap'⟩ := exists_regap_eq tokens'
      have hnext := hall.reread gap' source' last'
      rw [hgap'] at hnext
      obtain ⟨items', hread', hclauses, hdecls'⟩ := hnext (offset' + width used' + width terminator)
        (by omega) (restAt_piece (restAt_piece hplace))
      refine ⟨.decl kind decl' :: items', .step hread
        (itemEnd?_congr hend hoffset rfl hfenced.grown.head_eq) ?_, hclauses,
        .cons hinstrumented hdecls'⟩
      rw [hused', taken_append, List.drop_left, List.take_left]
      exact hread'
  | @last offset tokens item hitem =>
    obtain ⟨kind, decl, rfl⟩ := exists_decl_of_clauses hdecls
    obtain ⟨span, ⟨hspan, -⟩, -, -, hstop⟩ := hitem.inOrder hrest hspelled
    obtain ⟨probed, hprobed⟩ := hitem.exists_probed hrest hscanned hspelled (.same []) hspan
    refine ⟨probed, hprobed.fenced, fun cursor before hplace => ?_,
      fun gap source' last' offset' _ hplace => ?_⟩
    · refine hprobed.printDecls_eq hitem hrest hspan hplace ?_
      simpa [printDecls] using hstop.cut?_end
    · obtain ⟨decl', hread, hinstrumented⟩ := hprobed.reread gap source' last' offset' hplace
      exact ⟨[.decl kind decl'], .last hread, rfl, .cons hinstrumented .nil⟩

end

end EntryProbe.Go
