import EntryProbe.Proofs.Rereading
import EntryProbe.Proofs.Scanning

/-!
# What stands between the pieces of a file

The printer copies what stands between two pieces of a source without looking at it, and
it puts new text in there. Both are sound because nothing of the program stands there:
between two pieces there is only `EntryProbe.Go.Filler`, which is white space, complete
comments and terminators.

So the pieces of a file that was read, together with filler, tile its source: after the
package clause that counts, a declaration and filler take turns up to the end of the
file, and between the braces of a body, a statement and filler
(`EntryProbe.Go.GapsFilled`). The tokens are again the place to start from. The gap in
front of a token is trivia (`EntryProbe.Go.Token.Starts.filler`), and between two pieces
there is at most one token, a terminator (`EntryProbe.Go.onlyFiller_terminator`).

* `EntryProbe.Go.StmtsRead.gapsFilled` – the statements of a body;
* `EntryProbe.Go.ItemsRead.tiled` – the items of a file;
* `EntryProbe.Go.parse_tiled` – a file that was read.
-/

namespace EntryProbe.Go

/-! ### Filler -/

/-- **Filler**: a text of white space, complete comments and terminators, where `after` is
what comes behind it. A line comment is complete if the line, the source or a null
character ends it; a block comment ends with the first star and slash in it. -/
inductive Filler (after : List Char) : List Char → Prop
  /-- Nothing. -/
  | nil : Filler after []
  /-- White space. -/
  | space {c : Char} {rest : List Char} : isSpace c = true → Filler after rest →
      Filler after (c :: rest)
  /-- A terminator. -/
  | terminator {c : Char} {rest : List Char} : c = ';' ∨ c = nullChar → Filler after rest →
      Filler after (c :: rest)
  /-- A line comment. -/
  | lineComment {body rest : List Char} : (∀ c ∈ body, c ≠ '\n' ∧ c ≠ nullChar) →
      (rest ++ after).head? ∈ [none, some '\n', some nullChar] → Filler after rest →
      Filler after ('/' :: '/' :: (body ++ rest))
  /-- A block comment. -/
  | blockComment {body rest : List Char} : ¬ commentEnd <:+: body → Filler after rest →
      Filler after ('/' :: '*' :: (body ++ (commentEnd ++ rest)))

theorem Filler.append {text rest after : List Char} (h : Filler (rest ++ after) text)
    (h' : Filler after rest) : Filler after (text ++ rest) := by
  induction h with
  | nil => exact h'
  | space hc _ ih => exact .space hc ih
  | terminator hc _ ih => exact .terminator hc ih
  | @lineComment body rest' hbody hend _ ih =>
    rw [List.cons_append, List.cons_append, List.append_assoc]
    exact .lineComment hbody (by rwa [List.append_assoc]) ih
  | @blockComment body rest' hbody _ ih =>
    rw [List.cons_append, List.cons_append, List.append_assoc, List.append_assoc]
    exact .blockComment hbody ih

/-- What trivia are, when they start in a given mode: filler, the rest of a line comment and
filler, or the rest of a block comment and filler. -/
def FillerFrom (after : List Char) : CommentMode → List Char → Prop
  | .outside, text => Filler after text
  | .line, text => ∃ body rest, text = body ++ rest ∧ (∀ c ∈ body, c ≠ '\n' ∧ c ≠ nullChar) ∧
      (rest ++ after).head? ∈ [none, some '\n', some nullChar] ∧ Filler after rest
  | .block, text => ∃ body rest, text = body ++ (commentEnd ++ rest) ∧
      ¬ commentEnd <:+: body ∧ Filler after rest

/-- **Trivia are filler**, if nothing that follows belongs to a comment at their end. -/
theorem Trivia.fillerFrom {mode mode' : CommentMode} {text after : List Char}
    (h : Trivia mode text mode') (hmode : mode' ≠ .block)
    (hafter : mode' = .line → after.head? ∈ [none, some nullChar]) :
    FillerFrom after mode text := by
  induction h with
  | nil mode =>
    cases mode with
    | outside => exact .nil
    | block => exact absurd rfl hmode
    | line =>
      refine ⟨[], [], rfl, nofun, ?_, .nil⟩
      rcases List.mem_pair.mp (hafter rfl) with hhead | hhead
      · simp [hhead]
      · simp [hhead]
  | openLine _ ih =>
    obtain ⟨body, rest, rfl, hbody, hend, hrest⟩ := ih hmode hafter
    exact .lineComment hbody hend hrest
  | openBlock _ ih =>
    obtain ⟨body, rest, rfl, hbody, hrest⟩ := ih hmode hafter
    exact .blockComment hbody hrest
  | space hc _ ih => exact .space hc (ih hmode hafter)
  | @closeLine text _ _ ih =>
    exact ⟨[], '\n' :: text, rfl, nofun, by simp, .space rfl (ih hmode hafter)⟩
  | @inLine c _ _ hline hnull _ ih =>
    obtain ⟨body, rest, rfl, hbody, hend, hrest⟩ := ih hmode hafter
    refine ⟨c :: body, rest, rfl, ?_, hend, hrest⟩
    exact List.forall_mem_cons.mpr ⟨⟨hline, hnull⟩, hbody⟩
  | @closeBlock text _ _ ih => exact ⟨[], text, rfl, by simp [commentEnd], ih hmode hafter⟩
  | @inBlock c _ _ _ hstar _ ih =>
    obtain ⟨body, rest, rfl, hbody, hrest⟩ := ih hmode hafter
    refine ⟨c :: body, rest, rfl, ?_, hrest⟩
    rw [List.infix_cons_iff, not_or]
    refine ⟨?_, hbody⟩
    -- a star in front of a slash would have ended the comment
    intro hprefix
    obtain ⟨hc, hslash⟩ := List.cons_prefix_cons.mp hprefix
    obtain ⟨body, rfl⟩ := hslash
    exact hstar hc.symm rfl

/-- **The gap in front of a token is filler.** -/
theorem Token.Starts.filler {token : Token} {tail : List Char} (h : token.Starts tail) :
    Filler (token.text ++ tail) token.gap := by
  obtain ⟨mode, hmode, htrivia, hstop⟩ := trivia_of_splitTrivia h.gap_eq
  refine htrivia.fillerFrom hmode fun hline => ?_
  subst hline
  cases htext : token.text ++ tail with
  | nil => simp
  | cons c rest =>
    rw [htext] at hstop
    simp [splitTriviaFrom_line_iff.mp hstop]

theorem filler_of_scanned_nil {last : List Char} (h : Scanned [] last) : Filler [] last := by
  obtain ⟨mode, hmode, htrivia, -⟩ := trivia_of_splitTrivia h
  exact htrivia.fillerFrom hmode fun _ => by simp

/-! ### Places with only filler between them -/

/-- From one place of a source to another one there is only filler. -/
def OnlyFiller (source : List Char) (start stop : Nat) : Prop :=
  ∃ gap after, RestAt source start (gap ++ after) ∧ stop = start + byteLength gap ∧
    Filler after gap

/-- **Spans with only filler around them**: from `start` to the first span, from each span to
the next one, and from the last one to `stop`. -/
def GapsFilled (source : List Char) (stop : Nat) : (start : Nat) → List Span → Prop
  | start, [] => OnlyFiller source start stop
  | start, span :: rest =>
    OnlyFiller source start span.start ∧ GapsFilled source stop span.stop rest

section

variable {source last : List Char} {start mid stop offset : Nat} {spans : List Span}

theorem OnlyFiller.le (h : OnlyFiller source start stop) : start ≤ stop := by
  obtain ⟨gap, after, -, rfl, -⟩ := h
  exact Nat.le_add_right ..

theorem OnlyFiller.trans (h : OnlyFiller source start mid) (h' : OnlyFiller source mid stop) :
    OnlyFiller source start stop := by
  obtain ⟨gap, after, hstart, rfl, hgap⟩ := h
  obtain ⟨gap', after', hmid, rfl, hgap'⟩ := h'
  obtain rfl := hstart.advance.unique hmid
  refine ⟨gap ++ gap', after', by rwa [List.append_assoc], ?_, hgap.append hgap'⟩
  rw [byteLength_append, Nat.add_assoc]

/-- Filler in front of the first span may be longer. -/
theorem OnlyFiller.gapsFilled (h : OnlyFiller source start mid)
    (h' : GapsFilled source stop mid spans) : GapsFilled source stop start spans := by
  cases spans with
  | nil => exact h.trans h'
  | cons span spans => exact ⟨h.trans h'.1, h'.2⟩

/-- Spans with only filler around them are in order and apart from one another. -/
theorem GapsFilled.inOrder (h : GapsFilled source stop start spans)
    (hcovers : ∀ span ∈ spans, span.Covers source) :
    start ≤ stop ∧ (∀ span ∈ spans, start ≤ span.start ∧ span.stop ≤ stop) ∧
      spans.Pairwise fun span later => span.stop ≤ later.start := by
  induction spans generalizing start with
  | nil => exact ⟨h.le, nofun, .nil⟩
  | cons span spans ih =>
    obtain ⟨hgap, hrest⟩ := h
    have hlt := (hcovers span (by simp)).start_lt_stop
    obtain ⟨hle, hbounds, hpairwise⟩ := ih hrest fun span hmem => hcovers span (by simp [hmem])
    have hstart := hgap.le
    refine ⟨by omega, ?_, .cons (fun later hlater => (hbounds later hlater).1) hpairwise⟩
    intro later hlater
    rcases List.mem_cons.mp hlater with rfl | hlater
    · exact ⟨hstart, hle⟩
    · have := hbounds later hlater
      omega

/-! ### Pieces -/

/-- A piece that was read covers its text. -/
theorem pieceSpan_covers {first : Token} {piece rest : List Token} (hfirst : first.text ≠ [])
    (hrest : RestAt source offset (unscan (first :: piece ++ rest) ++ last)) :
    (pieceSpan offset (first :: piece)).Covers source := by
  have hfollows := pieceSpan_follows hrest
  refine ⟨hfollows.isPlace_start, hfollows.isPlace_stop, ?_⟩
  obtain ⟨c, text, htext⟩ := List.exists_cons_of_ne_nil hfirst
  have := c.utf8Size_pos
  simp only [pieceSpan, width, unscan_cons, htext, byteLength_append, byteLength_cons,
    List.head?_cons, Option.map_some, Option.getD_some]
  omega

/-- A piece that was read stands behind filler. -/
theorem pieceSpan_tiled {piece rest : List Token} (hpiece : piece ≠ [])
    (hrest : RestAt source offset (unscan (piece ++ rest) ++ last))
    (hscanned : Scanned (piece ++ rest) last) :
    OnlyFiller source offset (pieceSpan offset piece).start ∧
      (pieceSpan offset piece).Covers source := by
  obtain ⟨first, piece, rfl⟩ := List.exists_cons_of_ne_nil hpiece
  have hstarts : first.Starts (unscan (piece ++ rest) ++ last) := hscanned.1
  refine ⟨⟨first.gap, _, ?_, rfl, hstarts.filler⟩, pieceSpan_covers hstarts.text_ne hrest⟩
  simpa using hrest

/-- **A terminator is filler.** -/
theorem onlyFiller_terminator {rest : List Token} {length : Nat}
    (h : terminatorLength? rest = some length)
    (hrest : RestAt source offset (unscan rest ++ last)) (hscanned : Scanned rest last)
    (hspelled : ∀ token ∈ rest, token.Spelled) :
    OnlyFiller source offset (offset + width (rest.take length)) := by
  cases rest with
  | nil => cases h
  | cons token rest =>
    simp only [terminatorLength?] at h
    split at h
    · cases h
      exact ⟨[], _, hrest, rfl, .nil⟩
    split at h
    · next hmark =>
      cases h
      obtain ⟨c, htext, hc⟩ := (hspelled token (by simp)).text_terminator hmark
      refine ⟨token.gap ++ token.text, unscan rest ++ last, by simpa using hrest, ?_, ?_⟩
      · simp [width]
      · have hgap := hscanned.1.filler
        refine hgap.append ?_
        rw [htext]
        exact .terminator hc .nil
    · cases h

/-- **What ends an item is filler.** -/
theorem onlyFiller_itemEnd {item : Item} {start : Nat} {rest : List Token} {length : Nat}
    (h : itemEnd? start item rest = some length)
    (hrest : RestAt source offset (unscan rest ++ last)) (hscanned : Scanned rest last)
    (hspelled : ∀ token ∈ rest, token.Spelled) :
    OnlyFiller source offset (offset + width (rest.take length)) := by
  rcases itemEnd?_cases h with hterm | ⟨rfl, -⟩
  · exact onlyFiller_terminator hterm hrest hscanned hspelled
  · exact ⟨[], _, hrest, rfl, .nil⟩

/-- Behind the last token there is only filler. -/
theorem onlyFiller_last (hrest : RestAt source offset (unscan [] ++ last))
    (hscanned : Scanned [] last) : OnlyFiller source offset (byteLength source) :=
  ⟨last, [], by simpa using hrest, hrest.add_byteLength.symm, filler_of_scanned_nil hscanned⟩

/-! ### Statements -/

/-- **Between the statements of a body there is only filler**, and so there is in front of the
first one and behind the last one. -/
theorem StmtsRead.gapsFilled {tokens after : List Token} {close : Nat} {brace : Token}
    (h : StmtsRead offset tokens spans close (brace :: after))
    (hrest : RestAt source offset (unscan tokens ++ last)) (hscanned : Scanned tokens last)
    (hspelled : ∀ token ∈ tokens, token.Spelled) :
    GapsFilled source (close + byteLength brace.gap) offset spans ∧
      ∀ span ∈ spans, span.Covers source := by
  have hclosing : ∀ {offset : Nat}, RestAt source offset (unscan (brace :: after) ++ last) →
      Scanned (brace :: after) last → OnlyFiller source offset (offset + byteLength brace.gap) := by
    intro offset hrest hscanned
    exact ⟨brace.gap, _, by simpa using hrest, rfl, hscanned.1.filler⟩
  generalize hend : brace :: after = rest at h
  -- a statement stands behind filler; so does its terminator, which is filler itself and
  -- makes the gap in front of the next statement longer
  induction h with
  | done _ =>
    cases hend
    exact ⟨hclosing hrest hscanned, nofun⟩
  | @step offset length close tokens left piece rest after kind spans _ hread hcut hpiece hterm _
      ih =>
    obtain ⟨rfl, rfl, -⟩ := hcut.of_recognize hread
    have hspelled' : ∀ token ∈ rest, token.Spelled := fun token hmem =>
      hspelled token (by simp [hmem])
    obtain ⟨hgap, hcovers⟩ := pieceSpan_tiled hpiece hrest hscanned
    have hmid := restAt_piece hrest
    have hfiller := onlyFiller_terminator hterm hmid hscanned.append_right hspelled'
    obtain ⟨hgaps, hall⟩ := ih (restAt_drop hmid length) (hscanned.append_right.drop length)
      (fun token hmem => hspelled' token (List.mem_of_mem_drop hmem)) hend
    exact ⟨⟨hgap, hfiller.gapsFilled hgaps⟩, List.forall_mem_cons.mpr ⟨hcovers, hall⟩⟩
  | last _ hread hcut hpiece _ _ =>
    subst hend
    obtain ⟨rfl, rfl, -⟩ := hcut.of_recognize hread
    obtain ⟨hgap, hcovers⟩ := pieceSpan_tiled hpiece hrest hscanned
    refine ⟨⟨hgap, hclosing (restAt_piece hrest) hscanned.append_right⟩, ?_⟩
    exact List.forall_mem_cons.mpr ⟨hcovers, nofun⟩

end

/-! ### Declarations -/

/-- **A body tiled by its statements.** -/
structure BodyTiled (source : List Char) (outer : Span) (body : Body) (span : Span) (close : Nat)
    (spans : List Span) : Prop where
  /-- The body was read, -/
  span_eq : body.span = some span
  /-- and so were its statements. -/
  stmts_eq : body.stmts = spans.map .verbatim
  /-- The body lies inside its declaration. -/
  inside : outer.start ≤ span.start ∧ span.stop ≤ outer.stop
  /-- It starts with an opening brace. -/
  opens : ∃ rest, RestAt source span.start ('\x7b' :: rest)
  /-- It ends with a closing brace, -/
  closes : ∃ rest, RestAt source close ('\x7d' :: rest)
  /-- which is its last byte, -/
  stop_eq : span.stop = close + 1
  /-- and not the first one. -/
  apart : span.start < close
  /-- The statements stand between the braces, -/
  covers : ∀ stmt ∈ spans, stmt.Covers source ∧ span.start < stmt.start ∧ stmt.stop ≤ close
  /-- in order and apart from one another. -/
  ordered : spans.Pairwise fun stmt later => stmt.stop ≤ later.start
  /-- All else between the braces is filler. -/
  gaps : GapsFilled source close (span.start + 1) spans

/-- A declaration covers a part of the source, and its body, if it has one, is tiled. -/
def DeclTiled (source : List Char) (decl : Decl) (span : Span) : Prop :=
  decl.span? = some span ∧ span.Covers source ∧
    ∀ func body, decl = .func func → func.body = some body →
      ∃ bodySpan close spans, BodyTiled source span body bodySpan close spans

/-- An item covers a part of the source. -/
def ItemTiled (source : List Char) (item : Item) (span : Span) : Prop :=
  match item with
  | .package clause => clause.span = span ∧ span.Covers source
  | .decl _ decl => DeclTiled source decl span

section

variable {source last : List Char} {offset : Nat} {tokens rest : List Token}

/-- A body that was read is tiled. -/
theorem bodyTiled_bodyOf {first brace : Token} {inner after : List Token} {spans : List Span}
    {close : Nat} {outer : Span} (hfirst : first.lexeme = .mark .openBrace)
    (hstmts : StmtsRead (offset + byteLength first.full) inner spans close (brace :: after))
    (hrest : RestAt source offset (unscan (first :: inner) ++ last))
    (hscanned : Scanned inner last) (hspelled : ∀ token ∈ first :: inner, token.Spelled)
    (hstart : outer.start ≤ offset) (hstop : close + byteLength brace.full ≤ outer.stop) :
    BodyTiled source outer (bodyOf offset first spans close brace)
      ⟨offset + byteLength first.gap, close + byteLength brace.full⟩ (close + byteLength brace.gap)
      spans := by
  have hopened : first.text = ['\x7b'] := (hspelled first (by simp)).text_openBrace hfirst
  have hinner := restAt_token hrest
  obtain ⟨_, _, hend, -, -, hclose, -⟩ := hstmts.inOrder hinner
  cases hend
  have hclosed : brace.text = ['\x7d'] :=
    hstmts.text_closing fun token hmem => hspelled token (by simp [hmem])
  have hwidth := first.byteLength_full_eq hopened rfl
  have hwidth' := brace.byteLength_full_eq hclosed rfl
  obtain ⟨hgaps, hcovers⟩ := hstmts.gapsFilled hinner hscanned fun token hmem =>
    hspelled token (by simp [hmem])
  obtain ⟨hle, hbounds, hordered⟩ := hgaps.inOrder hcovers
  refine ⟨rfl, rfl, ⟨by simp only; omega, hstop⟩, ?_, ?_, ?_, ?_, ?_, hordered, ?_⟩
  · rw [unscan_cons, List.append_assoc, List.append_assoc, hopened] at hrest
    exact ⟨_, hrest.advance⟩
  · rw [unscan_cons, List.append_assoc, List.append_assoc, hclosed] at hclose
    exact ⟨_, hclose.advance⟩
  · simp only
    omega
  · simp only
    omega
  · intro stmt hmem
    have hbound := hbounds stmt hmem
    refine ⟨hcovers stmt hmem, ?_, hbound.2⟩
    simp only
    omega
  · rwa [hwidth, ← Nat.add_assoc] at hgaps

theorem declTiled_of_no_body {decl : Decl} {span : Span} (hspan : decl.span? = some span)
    (hcovers : span.Covers source) (hbody : ∀ func, decl = .func func → func.body = none) :
    DeclTiled source decl span := by
  refine ⟨hspan, hcovers, fun func body hfunc hsome => ?_⟩
  rw [hbody func hfunc] at hsome
  cases hsome

/-- **An item is tiled**, and in front of it there is only filler. -/
theorem ItemRead.tiled {item : Item} (h : ItemRead offset tokens item rest)
    (hrest : RestAt source offset (unscan tokens ++ last)) (hscanned : Scanned tokens last)
    (hspelled : ∀ token ∈ tokens, token.Spelled) :
    ∃ span, ItemTiled source item span ∧ OnlyFiller source offset span.start ∧
      RestAt source span.stop (unscan rest ++ last) := by
  cases h with
  | @package first inner left piece rest name hfirst hread hcut =>
    obtain ⟨used, rfl, rfl, rfl, -⟩ := steady_readWord.exists_piece hread hcut
    obtain ⟨hgap, hcovers⟩ := pieceSpan_tiled (List.cons_ne_nil first used) hrest hscanned
    exact ⟨_, ⟨rfl, hcovers⟩, hgap, restAt_piece hrest⟩
  | @imports first inner left piece rest specs hfirst hread hcut =>
    obtain ⟨used, rfl, rfl, rfl, -⟩ := steady_readImports.exists_piece hread hcut
    obtain ⟨hgap, hcovers⟩ := pieceSpan_tiled (List.cons_ne_nil first used) hrest hscanned
    exact ⟨_, declTiled_of_no_body rfl hcovers (by simp), hgap, restAt_piece hrest⟩
  | @func first inner left head middle rest signature body stop hfirst hdeclares hread hcut hbody
      hreadBody =>
    obtain ⟨used, rfl, rfl, rfl, -⟩ := steady_readSignature.exists_piece hread hcut
    obtain ⟨brace, inner, spans, close, closing, rfl, hbrace, hstmts, rfl, rfl⟩ :=
      readBody_eq_ok.mp hreadBody
    obtain ⟨hgap, hcovers⟩ := pieceSpan_tiled (List.cons_ne_nil first used) hrest hscanned
    have hmiddle : RestAt source (offset + width (first :: used))
        (unscan (brace :: inner) ++ last) :=
      restAt_piece hrest
    have hscanned' : Scanned (brace :: inner) last :=
      Scanned.append_right (show Scanned ((first :: used) ++ brace :: inner) last from hscanned)
    have hstart : (pieceSpan offset (first :: used)).start ≤ offset + width (first :: used) :=
      Nat.le_of_lt hcovers.start_lt_stop
    have htiled := @bodyTiled_bodyOf _ _ _ _ _ _ _ _ _
      ⟨(pieceSpan offset (first :: used)).start, close + byteLength closing.full⟩ hbrace hstmts
      hmiddle hscanned'.2 (fun token hmem => hspelled token (by simp_all)) hstart (Nat.le_refl _)
    have hafter : RestAt source (close + byteLength closing.full) (unscan rest ++ last) :=
      hstmts.restAt_behind (restAt_token hmiddle)
    -- the span goes on behind the signature, up to the brace that closes the body
    refine ⟨⟨(pieceSpan offset (first :: used)).start, close + byteLength closing.full⟩,
      ⟨rfl, ⟨hcovers.isPlace_start, hafter.isPlace, ?_⟩, ?_⟩, hgap, hafter⟩
    · have hbegin := htiled.inside.1
      have hapart := htiled.apart
      have hend := htiled.stop_eq
      simp only at hbegin hapart hend ⊢
      omega
    · rintro func body hfunc hsome
      cases hfunc
      cases hsome
      exact ⟨_, _, _, htiled⟩
  | @stub first inner left head rest signature hfirst hdeclares hread hcut hbody =>
    obtain ⟨used, rfl, rfl, rfl, -⟩ := steady_readSignature.exists_piece hread hcut
    obtain ⟨hgap, hcovers⟩ := pieceSpan_tiled (List.cons_ne_nil first used) hrest hscanned
    refine ⟨_, declTiled_of_no_body rfl hcovers ?_, hgap, restAt_piece hrest⟩
    intro func hfunc
    cases hfunc
    simpa using readSignature_body hread
  | @other tokens left piece rest kind _ _ _ hread hcut hpiece =>
    obtain ⟨rfl, rfl, -⟩ := hcut.of_recognize hread
    obtain ⟨hgap, hcovers⟩ := pieceSpan_tiled hpiece hrest hscanned
    exact ⟨_, declTiled_of_no_body rfl hcovers (by simp), hgap, restAt_piece hrest⟩

/-! ### Items -/

/-- **The items of a file and filler take turns**, up to the end of the source. -/
theorem ItemsRead.tiled {items : List Item} (h : ItemsRead offset tokens items)
    (hrest : RestAt source offset (unscan tokens ++ last)) (hscanned : Scanned tokens last)
    (hspelled : ∀ token ∈ tokens, token.Spelled) :
    ∃ spans, List.Forall₂ (ItemTiled source) items spans ∧
      GapsFilled source (byteLength source) offset spans := by
  induction h with
  | done => exact ⟨[], .nil, onlyFiller_last hrest hscanned⟩
  | @step offset length tokens rest item items hitem hend _ ih =>
    obtain ⟨span, htiled, hgap, hstop⟩ := hitem.tiled hrest hscanned hspelled
    obtain ⟨used, rfl, -, -⟩ := hitem.exists_taken
    -- the offset that is counted and the end of the span are the same place
    have hoffset : offset + width (taken (used ++ rest) rest) = span.stop := by
      have hcounted := (restAt_piece hrest).add_byteLength
      have hplace := hstop.add_byteLength
      rw [taken_append]
      omega
    rw [hoffset] at ih
    have hspelled' : ∀ token ∈ rest, token.Spelled := fun token hmem =>
      hspelled token (by simp [hmem])
    have hfiller := onlyFiller_itemEnd hend hstop hscanned.append_right hspelled'
    obtain ⟨spans, hall, hgaps⟩ := ih (restAt_drop hstop length)
      (hscanned.append_right.drop length)
      fun token hmem => hspelled' token (List.mem_of_mem_drop hmem)
    exact ⟨span :: spans, .cons htiled hall, hgap, hfiller.gapsFilled hgaps⟩
  | last hitem =>
    obtain ⟨span, htiled, hgap, hstop⟩ := hitem.tiled hrest hscanned hspelled
    obtain ⟨used, rfl, -, -⟩ := hitem.exists_taken
    exact ⟨[span], .cons htiled .nil, hgap, onlyFiller_last hstop hscanned.append_right⟩

/-- **A package clause at the start of a file.** A byte order mark may stand in front of it,
so that only what comes behind it is known to be filler. -/
theorem ItemsRead.tiled_behind_first {first : Token} {inner : List Token} {clause : PackageClause}
    {items : List Item} (h : ItemsRead offset (first :: inner) (.package clause :: items))
    (hrest : RestAt source offset (unscan (first :: inner) ++ last)) (hfirst : first.text ≠ [])
    (hscanned : Scanned inner last) (hspelled : ∀ token ∈ first :: inner, token.Spelled) :
    clause.span.Covers source ∧ ∃ spans, List.Forall₂ (ItemTiled source) items spans ∧
      GapsFilled source (byteLength source) clause.span.stop spans := by
  cases h with
  | @step _ length _ rest _ _ hitem hend hitems =>
    cases hitem with
    | @package first inner left piece rest name hword hread hcut =>
      obtain ⟨used, rfl, rfl, rfl, -⟩ := steady_readWord.exists_piece hread hcut
      have hstop : RestAt source (offset + width (first :: used)) (unscan rest ++ last) :=
        restAt_piece hrest
      have hspelled' : ∀ token ∈ rest, token.Spelled := fun token hmem =>
        hspelled token (by simp [hmem])
      have htaken : taken (first :: (used ++ rest)) rest = first :: used :=
        taken_append (first :: used) rest
      rw [htaken] at hitems
      have hfiller := onlyFiller_itemEnd hend hstop hscanned.append_right hspelled'
      obtain ⟨spans, hall, hgaps⟩ := hitems.tiled (restAt_drop hstop length)
        (hscanned.append_right.drop length)
        fun token hmem => hspelled' token (List.mem_of_mem_drop hmem)
      exact ⟨pieceSpan_covers hfirst hrest, spans, hall, hfiller.gapsFilled hgaps⟩
  | last hitem =>
    cases hitem with
    | @package first inner left piece rest name hword hread hcut =>
      obtain ⟨used, rfl, rfl, rfl, -⟩ := steady_readWord.exists_piece hread hcut
      refine ⟨pieceSpan_covers hfirst hrest, [], .nil, ?_⟩
      exact onlyFiller_last (restAt_piece hrest) hscanned.append_right

end

/-! ### Whole files -/

section

variable {source : List Char} {spans : List Span} {items : List Item}

/-- Behind one of the spans there is only filler between the others. -/
theorem GapsFilled.behind {start stop : Nat} {front back : List Span} {span : Span}
    (h : GapsFilled source stop start (front ++ span :: back)) :
    GapsFilled source stop span.stop back := by
  induction front generalizing start with
  | nil => exact h.2
  | cons first front ih => exact ih h.2

theorem ItemTiled.covers {item : Item} {span : Span} (h : ItemTiled source item span) :
    span.Covers source := by
  cases item with
  | package clause => exact h.2
  | decl kind decl => exact h.2.1

theorem forall_covers (h : List.Forall₂ (ItemTiled source) items spans) :
    ∀ span ∈ spans, span.Covers source := by
  induction h with
  | nil => exact nofun
  | cons hitem _ ih => exact List.forall_mem_cons.mpr ⟨hitem.covers, ih⟩

theorem exists_split_of_forall₂ {front back : List Item} {clause : PackageClause}
    (h : List.Forall₂ (ItemTiled source) (front ++ .package clause :: back) spans) :
    ∃ frontSpans backSpans, spans = frontSpans ++ clause.span :: backSpans ∧
      List.Forall₂ (ItemTiled source) front frontSpans ∧
      List.Forall₂ (ItemTiled source) back backSpans := by
  induction front generalizing spans with
  | nil =>
    obtain ⟨⟩ | ⟨⟨rfl, -⟩, hback⟩ := h
    exact ⟨[], _, rfl, .nil, hback⟩
  | cons item front ih =>
    obtain ⟨⟩ | ⟨hitem, hrest⟩ := h
    obtain ⟨frontSpans, backSpans, rfl, hfront, hback⟩ := ih hrest
    exact ⟨_ :: frontSpans, backSpans, rfl, .cons hitem hfront, hback⟩

/-- The declarations among the items cover some of the parts that the items cover. -/
theorem exists_declTiled (h : List.Forall₂ (ItemTiled source) items spans) :
    ∃ declSpans, List.Forall₂ (DeclTiled source) (items.filterMap Item.decl?) declSpans ∧
      declSpans.Sublist spans ∧ (items.filterMap Item.clause? = [] → declSpans = spans) := by
  induction h with
  | nil => exact ⟨[], .nil, .slnil, fun _ => rfl⟩
  | @cons item span items spans hitem _ ih =>
    obtain ⟨declSpans, hdecls, hsublist, hall⟩ := ih
    cases item with
    | package clause => exact ⟨declSpans, hdecls, hsublist.cons span, nofun⟩
    | decl kind decl =>
      refine ⟨span :: declSpans, .cons hitem hdecls, hsublist.cons_cons span, fun hnone => ?_⟩
      rw [hall hnone]

end

/-- **The items of a file that was read** cover parts of the source that are in order and
apart from one another, and behind each of these parts the others and filler take turns. -/
theorem exists_itemsTiled {source : String} {file : SourceFile} (h : parse source = .ok file) :
    ∃ items spans, packageOf? items = .ok file.package ∧
      file.decls = items.filterMap Item.decl? ∧
      List.Forall₂ (ItemTiled source.toList) items spans ∧
      spans.Pairwise (fun span later => span.stop ≤ later.start) ∧
      ∀ front span back, spans = front ++ span :: back →
        GapsFilled source.toList (byteLength source.toList) span.stop back := by
  obtain ⟨items, hitems, hpackage, -, hdecls⟩ := itemsRead_of_parse h
  obtain ⟨clause, items, rfl⟩ := exists_cons_of_packageOf? hpackage
  have hspelled := scan_spelled source.toList
  have hstart := RestAt.start source.toList
  nth_rewrite 2 [← scan_append source.toList] at hstart
  rcases hscan : scan source.toList with ⟨tokens, last⟩
  rw [hscan] at hitems hspelled hstart
  obtain ⟨first, tokens, rfl⟩ := List.exists_cons_of_ne_nil hitems.tokens_ne_nil
  obtain ⟨_, hfirst, hscanned, -⟩ := scanned_of_scan hscan
  obtain ⟨hcovers, spans, htiled, hgaps⟩ :=
    hitems.tiled_behind_first hstart hfirst.text_ne hscanned hspelled
  obtain ⟨-, hbounds, hordered⟩ := hgaps.inOrder (forall_covers htiled)
  refine ⟨_, clause.span :: spans, hpackage, hdecls, .cons ⟨rfl, hcovers⟩ htiled, ?_, ?_⟩
  · exact .cons (fun later hlater => (hbounds later hlater).1) hordered
  · intro front span back hsplit
    cases front with
    | nil =>
      cases hsplit
      exact hgaps
    | cons _ front =>
      cases hsplit
      exact hgaps.behind

/-- **A file that was read tiles its source.** The package clause that counts and the
declarations cover parts of the source, the declarations are in order and apart from one
another, and each body lies in its declaration and is tiled by its statements. All that
stands behind the package clause, between the declarations that follow it and behind the
last one is filler. -/
theorem parse_tiled {source : String} {file : SourceFile} (h : parse source = .ok file) :
    file.package.span.Covers source.toList ∧
      ∃ spans, List.Forall₂ (DeclTiled source.toList) file.decls spans ∧
        spans.Pairwise (fun span later => span.stop ≤ later.start) ∧
        GapsFilled source.toList (byteLength source.toList) file.package.span.stop
          (spans.filter fun span => file.package.span.stop ≤ span.start) := by
  obtain ⟨items, spans, hpackage, hdecls, htiled, hordered, hgaps⟩ := exists_itemsTiled h
  obtain ⟨front, back, rfl, hclauses⟩ := exists_of_packageOf? hpackage
  obtain ⟨frontSpans, backSpans, rfl, hfront, hback⟩ := exists_split_of_forall₂ htiled
  obtain ⟨early, hearly, hsublist, -⟩ := exists_declTiled hfront
  obtain ⟨late, hlate, -, hall⟩ := exists_declTiled hback
  obtain rfl := hall hclauses
  have hcovers := forall_covers htiled
  obtain ⟨-, hordered', hcross⟩ := List.pairwise_append.mp hordered
  obtain ⟨hbehind, -⟩ := List.pairwise_cons.mp hordered'
  refine ⟨hcovers _ (by simp), early ++ late, ?_, ?_, ?_⟩
  · rw [hdecls, List.filterMap_append, List.filterMap_cons_none (by rfl)]
    exact List.rel_append hearly hlate
  · exact hordered.sublist (hsublist.append (List.sublist_cons_self ..))
  · have hkept :
        (early ++ late).filter (fun span => file.package.span.stop ≤ span.start) = late := by
      rw [List.filter_append, List.filter_eq_nil_iff.mpr, List.nil_append, List.filter_eq_self.mpr]
      · intro span hmem
        simpa using hbehind span hmem
      · -- an early declaration ends in front of the clause, and so it starts there
        intro span hmem
        have hbefore := hcross span (hsublist.subset hmem) _ List.mem_cons_self
        have hlt := (hcovers span (List.mem_append_left _ (hsublist.subset hmem))).start_lt_stop
        have hlt' := (hcovers file.package.span (by simp)).start_lt_stop
        simp only [decide_eq_true_eq]
        omega
    -- what is between the late declarations is what is between the items behind the clause
    rw [hkept]
    exact hgaps _ _ _ rfl

/-- A file with comments and terminators between its pieces. -/
def commentedSource : String :=
  "package main /* c */ ; // d\nfunc main() \x7b f() ; /* e */ \x7d // g"

theorem parse_tiled_commented :
    ∃ file, parse commentedSource = .ok file ∧ file.decls.length = 1 ∧
      file.package.span.Covers commentedSource.toList ∧
      ∃ spans, List.Forall₂ (DeclTiled commentedSource.toList) file.decls spans ∧
        spans.Pairwise (fun span later => span.stop ≤ later.start) ∧
        GapsFilled commentedSource.toList (byteLength commentedSource.toList)
          file.package.span.stop
          (spans.filter fun span => file.package.span.stop ≤ span.start) := by
  have hcheck : (parse commentedSource).toOption.any (fun file => file.decls.length == 1) =
      true := by
    decide +kernel
  obtain ⟨file, hparse, hlength⟩ := exists_ok_of_any hcheck
  exact ⟨file, hparse, by simpa using hlength, parse_tiled hparse⟩

end EntryProbe.Go
