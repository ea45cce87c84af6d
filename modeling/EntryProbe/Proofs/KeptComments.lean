import EntryProbe.Go.Comments
import EntryProbe.Proofs.Gaps
import EntryProbe.Proofs.Weaving

/-!
# Runs stay outside comments

A run is spliced into a gap that may be full of comments. It has to stay outside all of
them, it must not open or close one, and what follows the run must not end up on its last
line. The first line break outside block comments is where all this holds: the line before
it consists of comments that are complete and, perhaps, of one that ends with the line
(`EntryProbe.Go.LineParts`). The blanks at the end of the line may go, but no more
(`EntryProbe.Go.LineParts.shorten`).

* `EntryProbe.Go.IsGap` – white space, statement terminators and comments;
* `EntryProbe.Go.OpensNothing` – what is asked of a run;
* `EntryProbe.Go.splice_comments` – the comments of a gap with a run in it, the place of the
  run, and what comes right after it.
-/

namespace EntryProbe.Go

open TextMode (code)

/-! ### Gaps and runs -/

/-- A comment that ends with its line, without the line break. -/
def IsLineComment (text : List Char) : Prop :=
  ∃ inside, text = '/' :: '/' :: inside ∧ '\n' ∉ inside

/-- A piece of a gap. -/
inductive GapPiece : List Char → Prop
  /-- White space. -/
  | blank {c : Char} : isBlank c = true → GapPiece [c]
  /-- The end of a statement. -/
  | terminator {c : Char} : c = ';' ∨ c = nullChar → GapPiece [c]
  /-- A block comment, up to its first end. -/
  | block {inside : List Char} : ¬ commentEnd <:+: inside ++ ['*'] →
      GapPiece ('/' :: '*' :: inside ++ commentEnd)
  /-- A line comment with its line break. -/
  | line {comment : List Char} : IsLineComment comment → GapPiece (comment ++ ['\n'])

/-- **White space, statement terminators and comments.** The last line comment may run up
to the end of the gap. -/
def IsGap (gap : List Char) : Prop :=
  ∃ (pieces : List (List Char)) (last : List Char), gap = pieces.flatten ++ last ∧
    (∀ piece ∈ pieces, GapPiece piece) ∧ (last = [] ∨ IsLineComment last)

/-- Outside its literals the text opens no comment, and it does not end inside a literal. -/
structure OpensNothing (text : List Char) : Prop where
  /-- There are no comments. -/
  comments_eq : (commentsFrom .code text).2 = []
  /-- No literal is open at the end. -/
  isClear : (code.after text).isClear = true

/-- A comment as it was, or a line comment without blanks at its end. -/
def KeptComment (old new : List Char) : Prop :=
  new = old ∨ IsLineComment old ∧ ∃ blanks, old = new ++ blanks ∧ ∀ c ∈ blanks, isLineBlank c = true

/-- The text starts with a line break, or with white space and a semicolon. -/
def EndsLine (text : List Char) : Prop :=
  startsLine text = true ∨
    ∃ blanks rest, text = blanks ++ ';' :: rest ∧ ∀ c ∈ blanks, isBlank c = true

/-- **A run stands apart from the comments of a gap** in a text that is made of both. -/
structure KeepsApart (gap run text : List Char) : Prop where
  /-- The comments are those of the gap, in order. -/
  comments : List.Forall₂ KeptComment (comments gap) (comments text)
  /-- The run has one place, no place in it is inside a comment, and its last line ends where
  it ends. -/
  place : ∃ front placed back, text = front ++ placed ++ back ∧ PlacedAs run placed ∧
    (∀ left right, placed = left ++ right →
      insideComment (front ++ left) (right ++ back) = false) ∧
    EndsLine back

/-! ### Steps outside comments -/

section

variable {mode : TextMode}

theorem step_code_of_isBlank {c : Char} (h : isBlank c = true) : code.step c = code := by
  have hne : ∀ d : Char, isBlank d = false → c ≠ d := by
    rintro d hd rfl
    rw [h] at hd
    cases hd
  simp [TextMode.step, TextMode.ofCode, hne '/' rfl, hne rawQuote rfl, hne Quote.double.mark rfl,
    hne Quote.single.mark rfl]

theorem inComment_of_isClear (h : mode.isClear = true) : mode.inComment = false := by
  cases mode <;> first | rfl | cases h

/-- A slash that is not followed by what opens a comment is like any other character. -/
theorem step_of_isClear (h : mode.isClear = true) {c : Char} (hslash : c ≠ '/') (hstar : c ≠ '*') :
    mode.step c = code.step c := by
  cases mode with
  | code => rfl
  | slash => simp [TextMode.step, hslash, hstar]
  | _ => cases h

/-- A text that opens no comment at its start is read alike in both modes outside
comments. -/
theorem commentsFrom_of_isClear (h : mode.isClear = true) {text : List Char}
    (hslash : text.head? ≠ some '/') (hstar : text.head? ≠ some '*') :
    commentsFrom mode text = commentsFrom code text := by
  cases text with
  | nil => rfl
  | cons c text =>
    have hstep : mode.step c = code.step c :=
      step_of_isClear h (fun hc => hslash (congrArg some hc)) fun hc => hstar (congrArg some hc)
    have hmode := inComment_of_isClear h
    have hcode : code.inComment = false := rfl
    rw [commentsFrom, commentsFrom, hstep, hmode, hcode]
    cases (code.step c).inComment <;> rfl

/-- A line break leads to the same with a carriage return in front. -/
theorem step_return_newline (mode : TextMode) : (mode.step '\r').step '\n' = mode.step '\n' := by
  cases mode with
  | quoted quote | escaped quote => cases quote <;> rfl
  | _ => rfl

/-- A carriage return opens no comment. -/
theorem inComment_step_return {mode : TextMode} (h : mode.inComment = false) :
    (mode.step '\r').inComment = false := by
  cases mode with
  | quoted quote => cases quote <;> rfl
  | line | block | star => cases h
  | _ => rfl

theorem withCarriageReturns_cons (c : Char) (text : List Char) :
    withCarriageReturns (c :: text) =
      (if c = '\n' then ['\r', '\n'] else [c]) ++ withCarriageReturns text :=
  rfl

/-- **The other line breaks** lead to the same. -/
theorem after_withCarriageReturns (mode : TextMode) (text : List Char) :
    mode.after (withCarriageReturns text) = mode.after text := by
  induction text generalizing mode with
  | nil => rfl
  | cons c text ih =>
    rw [withCarriageReturns_cons, TextMode.after_append, ih, TextMode.after_cons]
    split
    · next hc => rw [hc, TextMode.after_cons, TextMode.after_cons, step_return_newline]; rfl
    · rfl

/-- The other line breaks open no comments. -/
theorem commentsFrom_withCarriageReturns {text : List Char} (hmode : mode.inComment = false)
    (h : (commentsFrom mode text).2 = []) :
    (commentsFrom mode (withCarriageReturns text)).2 = [] := by
  induction text generalizing mode with
  | nil => rfl
  | cons c text ih =>
    obtain ⟨hstep, h⟩ := (commentsFrom_cons_eq_nil hmode).mp h
    rw [withCarriageReturns_cons]
    split
    · next hc =>
      subst hc
      have hreturn := inComment_step_return hmode
      rw [List.cons_append, List.cons_append, List.nil_append, commentsFrom_cons_eq_nil hmode,
        commentsFrom_cons_eq_nil hreturn, step_return_newline]
      exact ⟨hreturn, hstep, ih hstep h⟩
    · exact (commentsFrom_cons_eq_nil hmode).mpr ⟨hstep, ih hstep h⟩

theorem OpensNothing.withReturns {run : List Char} (h : OpensNothing run) :
    OpensNothing (withCarriageReturns run) where
  comments_eq := commentsFrom_withCarriageReturns rfl h.comments_eq
  isClear := by rw [after_withCarriageReturns]; exact h.isClear

end

/-! ### The line before the first line break -/

section

variable {line kept lost closed tail : List Char}

/-- The splitting of a text behind others that are passed over. -/
theorem splitAtLineBreakFrom?_line {inside : List Char} (h : '\n' ∉ inside) (rest : List Char) :
    splitAtLineBreakFrom? .line (inside ++ rest) =
      (splitAtLineBreakFrom? .line rest).map fun (line, after) => (inside ++ line, after) := by
  induction inside with
  | nil => simp
  | cons c inside ih =>
    rw [List.mem_cons, not_or] at h
    simp only [List.cons_append, splitAtLineBreakFrom?, Ne.symm h.1, if_false, ih h.2,
      Option.map_map]
    rfl

/-- A block comment goes on up to its first end. -/
theorem no_end_cons {c : Char} {inside : List Char} (h : ¬ commentEnd <:+: c :: inside ++ ['*']) :
    (c = '*' → (inside ++ commentEnd).head? ≠ some '/') ∧ ¬ commentEnd <:+: inside ++ ['*'] := by
  refine ⟨?_, fun hfound => h (hfound.trans (List.infix_cons List.infix_rfl))⟩
  rintro rfl hhead
  cases inside with
  | nil => cases hhead
  | cons d inside =>
    obtain rfl : d = '/' := Option.some.inj hhead
    exact h ⟨[], inside ++ ['*'], rfl⟩

theorem splitAtLineBreakFrom?_blockEnd {inside : List Char}
    (h : ¬ commentEnd <:+: inside ++ ['*']) (rest : List Char) :
    splitAtLineBreakFrom? .block (inside ++ commentEnd ++ rest) =
      (splitAtLineBreakFrom? .outside rest).map fun (line, after) =>
        (inside ++ commentEnd ++ line, after) := by
  induction inside with
  | nil => rfl
  | cons c inside ih =>
    obtain ⟨hstar, hrest⟩ := no_end_cons h
    have hstar' : c = '*' → (inside ++ commentEnd ++ rest).head? ≠ some '/' := by
      intro hc
      cases inside with
      | nil => nofun
      | cons d inside => exact hstar hc
    simp only [List.cons_append]
    rw [splitAtLineBreakFrom?_block hstar', ih hrest, Option.map_map]
    rfl

/-- A block comment is over after its first end. -/
theorem after_blockEnd {inside : List Char} (h : ¬ commentEnd <:+: inside ++ ['*']) :
    TextMode.block.after (inside ++ commentEnd) = code ∧
      (inside.head? ≠ some '/' → TextMode.star.after (inside ++ commentEnd) = code) := by
  induction inside with
  | nil => exact ⟨rfl, fun _ => rfl⟩
  | cons c inside ih =>
    obtain ⟨hstar, hrest⟩ := no_end_cons h
    obtain ⟨hblock, hstarred⟩ := ih hrest
    have hhead : c = '*' → inside.head? ≠ some '/' := by
      intro hc hhead
      obtain ⟨rest, rfl⟩ := List.head?_eq_some_iff.mp hhead
      exact hstar hc rfl
    -- both modes go on alike, but for a slash after a star
    have hnext :
        (if c = '*' then TextMode.star else .block).after (inside ++ commentEnd) = code := by
      split
      · next hc => exact hstarred (hhead hc)
      · exact hblock
    refine ⟨hnext, fun hslash => ?_⟩
    have hc : c ≠ '/' := fun hc => hslash (congrArg some hc)
    simpa [TextMode.step, hc] using hnext

/-- **The end of a line of a gap**: comments that are complete, and then perhaps one that
ends with the line. -/
structure LineParts (line closed tail : List Char) : Prop where
  /-- The two parts. -/
  line_eq : line = closed ++ tail
  /-- The comments of the first part are complete. -/
  isClear : (code.after closed).isClear = true
  /-- The second part is a comment, or there is none. -/
  tail_eq : tail = [] ∨ IsLineComment tail ∧ code.after closed = code

/-- What a piece does to the search for a line break: it is passed over, or it ends with the
first one. -/
theorem GapPiece.passed_or_ends {piece : List Char} (h : GapPiece piece) :
    (code.after piece = code ∧ ∀ rest, splitAtLineBreakFrom? .outside (piece ++ rest) =
      (splitAtLineBreakFrom? .outside rest).map fun (found, after) => (piece ++ found, after)) ∨
    (∃ tail, (tail = [] ∨ IsLineComment tail) ∧
      ∀ rest, splitAtLineBreakFrom? .outside (piece ++ rest) = some (tail, '\n' :: rest)) := by
  have hchar : ∀ c : Char, c ≠ '/' → c ≠ '\n' → ∀ rest, splitAtLineBreakFrom? .outside (c :: rest) =
      (splitAtLineBreakFrom? .outside rest).map fun (found, after) => (c :: found, after) := by
    intro c hslash hc rest
    rw [splitAtLineBreakFrom?_outside hslash, if_neg hc]
  cases h with
  | @blank c hblank =>
    by_cases hc : c = '\n'
    · subst hc
      exact .inr ⟨[], .inl rfl, fun rest => splitAtLineBreakFrom?_outside (by decide) rest⟩
    · refine .inl ⟨step_code_of_isBlank hblank, hchar c ?_ hc⟩
      rintro rfl
      cases hblank
  | @terminator c hc =>
    rcases hc with rfl | rfl
    · exact .inl ⟨rfl, hchar ';' (by decide) (by decide)⟩
    · exact .inl ⟨rfl, hchar nullChar (by decide) (by decide)⟩
  | @block inside hinside =>
    refine .inl ⟨(after_blockEnd hinside).1, fun rest => ?_⟩
    have hsplit := splitAtLineBreakFrom?_blockEnd hinside rest
    simp only [List.cons_append, List.append_assoc] at hsplit ⊢
    rw [splitAtLineBreakFrom?, hsplit, Option.map_map]
    rfl
  | @line comment hcomment =>
    refine .inr ⟨comment, .inr hcomment, fun rest => ?_⟩
    obtain ⟨inside, rfl, hinside⟩ := hcomment
    have hsplit := splitAtLineBreakFrom?_line hinside ('\n' :: rest)
    simp only [List.cons_append, List.append_assoc, List.nil_append]
    rw [splitAtLineBreakFrom?, hsplit]
    simp [splitAtLineBreakFrom?]

/-- **The first line break of a gap** ends a line of this kind. -/
theorem exists_lineParts {pieces : List (List Char)} {last rest : List Char}
    (hpieces : ∀ piece ∈ pieces, GapPiece piece) (hlast : last = [] ∨ IsLineComment last)
    (h : splitAtLineBreakFrom? .outside (pieces.flatten ++ last) = some (line, rest)) :
    ∃ closed tail after, LineParts line closed tail ∧ code.after closed = code ∧
      rest = '\n' :: after := by
  induction pieces generalizing line with
  | nil =>
    rcases hlast with rfl | ⟨inside, rfl, hinside⟩
    · cases h
    · have hnone := splitAtLineBreakFrom?_line hinside []
      rw [List.append_nil] at hnone
      simp [splitAtLineBreakFrom?, hnone] at h
  | cons piece pieces ih =>
    rw [List.flatten_cons, List.append_assoc] at h
    rcases (hpieces piece (by simp)).passed_or_ends with ⟨hcode, hsplit⟩ | ⟨tail, htail, hsplit⟩
    · rw [hsplit, Option.map_eq_some_iff] at h
      obtain ⟨⟨found, _⟩, hfound, heq⟩ := h
      cases heq
      obtain ⟨closed, tail, after, hparts, hclosed, hrest⟩ :=
        ih (fun piece hpiece => hpieces piece (by simp [hpiece])) hfound
      have hboth : code.after (piece ++ closed) = code := by
        rw [TextMode.after_append, hcode, hclosed]
      refine ⟨piece ++ closed, tail, after, ⟨?_, by rw [hboth]; rfl, ?_⟩, hboth, hrest⟩
      · rw [hparts.line_eq, List.append_assoc]
      · exact hparts.tail_eq.imp_right fun htail => ⟨htail.1, hboth⟩
    · rw [hsplit] at h
      cases h
      exact ⟨[], _, _, ⟨rfl, rfl, htail.imp_right fun htail => ⟨htail, rfl⟩⟩, rfl, rfl⟩

/-- A blank leads out of no comment and no literal. -/
theorem isClear_of_step {mode : TextMode} {c : Char} (hc : isLineBlank c = true)
    (h : (mode.step c).isClear = true) : mode.isClear = true := by
  simp only [isLineBlank, Bool.or_eq_true, beq_iff_eq] at hc
  rcases hc with (rfl | rfl) | rfl
  all_goals
    cases mode with
    | code => rfl
    | slash => rfl
    | quoted quote => cases quote <;> cases h
    | _ => cases h

theorem isClear_of_append {blanks text : List Char} {mode : TextMode}
    (hblanks : ∀ c ∈ blanks, isLineBlank c = true)
    (h : (mode.after (text ++ blanks)).isClear = true) : (mode.after text).isClear = true := by
  rw [TextMode.after_append] at h
  generalize mode.after text = mid at h ⊢
  induction blanks generalizing mid with
  | nil => exact h
  | cons c blanks ih =>
    exact isClear_of_step (hblanks c (by simp)) (ih (fun c hc => hblanks c (by simp [hc])) _ h)

theorem isBlank_of_isLineBlank {c : Char} (h : isLineBlank c = true) : isBlank c = true := by
  simp only [isLineBlank, Bool.or_eq_true, beq_iff_eq] at h
  rcases h with (rfl | rfl) | rfl <;> rfl

/-- There are no comments in blanks. -/
theorem commentsFrom_blanks {mode : TextMode} (hmode : mode.isClear = true) {blanks : List Char}
    (hblanks : ∀ c ∈ blanks, isLineBlank c = true) : commentsFrom mode blanks = ([], []) := by
  have hne : ∀ c : Char, isLineBlank c = false → blanks.head? ≠ some c := by
    intro c hc hhead
    rw [hblanks c (List.mem_of_mem_head? hhead)] at hc
    cases hc
  have hstays : commentsFrom code (blanks ++ []) = commentsFrom code [] :=
    (commentsFrom_of_stays rfl
      (fun c hc => step_code_of_isBlank (isBlank_of_isLineBlank (hblanks c hc))) []).1
  rw [List.append_nil] at hstays
  rw [commentsFrom_of_isClear hmode (hne '/' rfl) (hne '*' rfl), hstays, commentsFrom_nil]

/-- **A line without the blanks at its end** has the same comments, and a line comment at its
end loses the blanks. -/
theorem LineParts.shorten (h : LineParts line closed tail) (hline : line = kept ++ lost)
    (hlost : ∀ c ∈ lost, isLineBlank c = true) :
    ∃ closed' tail', LineParts kept closed' tail' ∧
      (commentsFrom .code closed').2 = (commentsFrom .code closed).2 ∧
      (tail = [] ∧ tail' = [] ∨ IsLineComment tail ∧ tail' ≠ [] ∧ tail = tail' ++ lost) := by
  have hslash : '/' ∉ lost := fun hmem => by cases hlost '/' hmem
  have hparts := h.line_eq
  rw [hline] at hparts
  rcases h.tail_eq with rfl | ⟨hcomment, hcode⟩
  · rw [List.append_nil] at hparts
    have hclear := h.isClear
    rw [← hparts] at hclear
    have hkept := isClear_of_append hlost hclear
    have hblanks := commentsFrom_blanks hkept hlost
    refine ⟨kept, [], ⟨by simp, hkept, .inl rfl⟩, ?_, .inl ⟨rfl, rfl⟩⟩
    rw [← hparts, commentsFrom_append (by rw [hblanks]), hblanks, List.append_nil]
  · obtain ⟨inside, rfl, hinside⟩ := hcomment
    -- the two slashes are not among the blanks
    rcases List.append_eq_append_iff.mp hparts with ⟨more, rfl, hlost'⟩ | ⟨tail', rfl, htail⟩
    · exact absurd (by rw [hlost']; simp) hslash
    · match tail', htail with
      | [], htail =>
        have hlost' : '/' :: '/' :: inside = lost := htail
        exact absurd (by rw [← hlost']; simp) hslash
      | [c], htail =>
        have hlost' : '/' :: inside = lost := (List.cons.inj htail).2
        exact absurd (by rw [← hlost']; simp) hslash
      | c :: d :: inside', htail =>
        injection htail with hc htail
        injection htail with hd htail
        subst hc hd htail
        refine ⟨closed, _, ⟨rfl, h.isClear, .inr ⟨⟨inside', rfl, ?_⟩, hcode⟩⟩, rfl,
          .inr ⟨⟨_, rfl, hinside⟩, by simp, rfl⟩⟩
        exact fun hmem => hinside (List.mem_append_left _ hmem)

/-- A line comment goes on up to the end of its line. -/
theorem commentsFrom_line {inside : List Char} (h : '\n' ∉ inside) (rest : List Char) :
    commentsFrom .line (inside ++ rest) =
      (inside ++ (commentsFrom .line rest).1, (commentsFrom .line rest).2) := by
  induction inside with
  | nil => rfl
  | cons c inside ih =>
    rw [List.mem_cons, not_or] at h
    have hstep : TextMode.line.step c = .line := if_neg (Ne.symm h.1)
    rw [List.cons_append, commentsFrom_cons_inside rfl (by rw [hstep]; rfl), hstep, ih h.2]
    rfl

theorem exists_of_startsLine {text : List Char} (h : startsLine text = true) :
    ∃ rest, text = '\n' :: rest ∨ text = '\r' :: '\n' :: rest := by
  unfold startsLine at h
  split at h
  · exact ⟨_, .inl rfl⟩
  · exact ⟨_, .inr rfl⟩
  · cases h

/-- **The comments of a line and of what comes after its end.** -/
theorem LineParts.comments_append (h : LineParts line closed tail) {rest : List Char}
    (hrest : startsLine rest = true) :
    comments (line ++ rest) = (commentsFrom .code closed).2.map withoutReturn ++
      (if tail = [] then [] else [withoutReturn (tail ++ (commentsFrom .line rest).1)]) ++
      comments rest := by
  have hfirst : (commentsFrom (code.after closed) (tail ++ rest)).1 = [] :=
    commentsFrom_fst (inComment_of_isClear h.isClear) _
  have hlater : (commentsFrom .line rest).2 = (commentsFrom .code rest).2 := by
    obtain ⟨rest, rfl | rfl⟩ := exists_of_startsLine hrest
    · rfl
    · rfl
  rw [h.line_eq, comments, List.append_assoc, commentsFrom_append hfirst, List.map_append,
    List.append_assoc]
  congr 1
  rcases h.tail_eq with rfl | ⟨⟨inside, rfl, hinside⟩, hcode⟩
  · have hhead : rest.head? ≠ some '/' ∧ rest.head? ≠ some '*' := by
      obtain ⟨rest, rfl | rfl⟩ := exists_of_startsLine hrest
      · simp
      · simp
    rw [List.nil_append, commentsFrom_of_isClear h.isClear hhead.1 hhead.2]
    rfl
  · rw [hcode, List.cons_append, List.cons_append, commentsFrom_cons rfl rfl]
    have hopen : commentsFrom (code.step '/') ('/' :: (inside ++ rest)) =
        ([], ('/' :: '/' :: (commentsFrom .line (inside ++ rest)).1) ::
          (commentsFrom .line (inside ++ rest)).2) :=
      commentsFrom_cons_open rfl rfl _
    rw [hopen, commentsFrom_line hinside rest, hlater]
    rfl

/-- At the end of such a line no comment is open but one that ends with the line. -/
theorem LineParts.after_eq (h : LineParts line closed tail) :
    (code.after line).isClear = true ∨ code.after line = .line := by
  rcases h.tail_eq with rfl | ⟨⟨inside, rfl, hinside⟩, hcode⟩
  · left
    rw [h.line_eq, List.append_nil]
    exact h.isClear
  · right
    have hstays : TextMode.line.after inside = .line := by
      clear h
      induction inside with
      | nil => rfl
      | cons c inside ih =>
        rw [List.mem_cons, not_or] at hinside
        rw [TextMode.after_cons, show TextMode.line.step c = .line from if_neg (Ne.symm hinside.1)]
        exact ih hinside.2
    rw [h.line_eq, TextMode.after_append, hcode]
    exact hstays

end

/-! ### The place of a run -/

section

variable {run placed front back : List Char}

/-- What comes after a run opens no comment together with its end. -/
theorem EndsLine.head?_ne (h : EndsLine back) : back.head? ≠ some '/' ∧ back.head? ≠ some '*' := by
  rcases h with hline | ⟨blanks, rest, rfl, hblanks⟩
  · obtain ⟨rest, rfl | rfl⟩ := exists_of_startsLine hline
    · simp
    · simp
  · cases blanks with
    | nil => simp
    | cons c blanks =>
      have hc := hblanks c (by simp)
      constructor
      all_goals
        rintro heq
        cases heq
        cases hc

/-- A run adds no comments to those of what comes after it. -/
theorem OpensNothing.comments_append (h : OpensNothing placed) (hback : EndsLine back) :
    comments (placed ++ back) = comments back := by
  have hclear := commentsFrom_of_isClear h.isClear hback.head?_ne.1 hback.head?_ne.2
  have hfirst := commentsFrom_fst (inComment_of_isClear h.isClear) back
  rw [comments, commentsFrom_append hfirst, h.comments_eq, hclear]
  rfl

/-- No place in a run is inside a comment, whatever comes before. -/
theorem OpensNothing.insideComment_eq (h : OpensNothing placed) (hback : EndsLine back)
    {left right : List Char} (hplaced : placed = left ++ right)
    (hafter : code.after (front ++ left) = code.after left) :
    insideComment (front ++ left) (right ++ back) = false := by
  have hnone := h.comments_eq
  rw [hplaced] at hnone
  obtain ⟨houtside, hright⟩ := inComment_after_of_append (rfl : code.inComment = false) hnone
  rw [insideComment, hafter]
  cases hmode : code.after left with
  | slash =>
    -- a slash at the end of the first part has nothing to open a comment behind it
    rw [hmode] at hright
    cases right with
    | nil =>
      have hhead := hback.head?_ne
      simp [hhead.1, hhead.2]
    | cons c right =>
      have hstep := ((commentsFrom_cons_eq_nil rfl).mp hright).1
      have hslash : c ≠ '/' := by
        rintro rfl
        cases hstep
      have hstar : c ≠ '*' := by
        rintro rfl
        cases hstep
      simp [hslash, hstar]
  | line | block | star =>
    rw [hmode] at houtside
    cases houtside
  | _ => rfl

/-- Right before a line break no comment is open but a block comment. -/
theorem insideComment_of_startsLine {before after : List Char}
    (hbefore : (code.after before).isClear = true ∨ code.after before = .line)
    (hafter : startsLine after = true) : insideComment before after = false := by
  rw [insideComment]
  generalize code.after before = mode at hbefore
  cases mode with
  | code => rfl
  | slash =>
    obtain ⟨rest, rfl | rfl⟩ := exists_of_startsLine hafter
    · rfl
    · rfl
  | line => simp [hafter]
  | _ => rcases hbefore with hbefore | hbefore <;> cases hbefore

/-- **A run lies outside all comments**, if it starts with a line break and no comment but one
that ends with its line is open before it. -/
theorem OpensNothing.outside (h : OpensNothing placed) (hstart : startsLine placed = true)
    (hfront : (code.after front).isClear = true ∨ code.after front = .line) (hback : EndsLine back)
    {left right : List Char} (hplaced : placed = left ++ right) :
    insideComment (front ++ left) (right ++ back) = false := by
  have hstep : ((code.after front).step '\r').isClear = true ∨
      (code.after front).step '\r' = .line := by
    generalize code.after front = mode at hfront
    cases mode with
    | code | slash | line => decide
    | _ => rcases hfront with hfront | hfront <;> cases hfront
  have hnewline : (code.after front).step '\n' = code := by
    generalize code.after front = mode at hfront
    cases mode with
    | code | slash | line => rfl
    | _ => rcases hfront with hfront | hfront <;> cases hfront
  obtain ⟨rest, rfl | rfl⟩ := exists_of_startsLine hstart
  · match left, hplaced with
    | [], hplaced =>
      obtain rfl : _ = right := hplaced
      rw [List.append_nil]
      exact insideComment_of_startsLine hfront rfl
    | c :: left, hplaced =>
      obtain ⟨rfl, -⟩ := List.cons.inj hplaced
      refine h.insideComment_eq hback hplaced ?_
      rw [TextMode.after_append, TextMode.after_cons, hnewline]
      rfl
  · match left, hplaced with
    | [], hplaced =>
      obtain rfl : _ = right := hplaced
      rw [List.append_nil]
      exact insideComment_of_startsLine hfront rfl
    | [c], hplaced =>
      -- between the carriage return and the line feed
      obtain ⟨rfl, hright⟩ := List.cons.inj hplaced
      obtain rfl : _ = right := hright
      refine insideComment_of_startsLine ?_ rfl
      rw [TextMode.after_append]
      exact hstep
    | c :: d :: left, hplaced =>
      obtain ⟨rfl, hright⟩ := List.cons.inj hplaced
      obtain ⟨rfl, -⟩ := List.cons.inj hright
      refine h.insideComment_eq hback hplaced ?_
      rw [TextMode.after_append, TextMode.after_cons, TextMode.after_cons, step_return_newline,
        hnewline]
      rfl

/-- A run that starts with a line feed is placed with a line break at its start. -/
theorem startsLine_placed (hrun : run.head? = some '\n') (hplaced : PlacedAs run placed) :
    startsLine placed = true := by
  obtain ⟨rest, rfl⟩ := List.head?_eq_some_iff.mp hrun
  rcases hplaced with rfl | rfl
  · rfl
  · rfl

theorem OpensNothing.of_placedAs (h : OpensNothing run) (hplaced : PlacedAs run placed) :
    OpensNothing placed := by
  rcases hplaced with rfl | rfl
  · exact h
  · exact h.withReturns

end

/-! ### The comments of a gap with a run in it -/

section

variable {line closed tail front blanks rest : List Char}

theorem keptComments_refl (found : List (List Char)) : List.Forall₂ KeptComment found found :=
  List.forall₂_same.mpr fun _ _ => .inl rfl

@[simp] theorem withoutReturn_append_return (comment : List Char) :
    withoutReturn (comment ++ ['\r']) = comment := by
  simp [withoutReturn]

/-- What a line comment takes of the line break is a carriage return, which does not count. -/
theorem exists_withoutReturn (comment : List Char) (hrest : startsLine rest = true) :
    ∃ lost, comment = withoutReturn (comment ++ (commentsFrom .line rest).1) ++ lost ∧
      ∀ c ∈ lost, isLineBlank c = true := by
  obtain ⟨rest, rfl | rfl⟩ := exists_of_startsLine hrest
  · rw [commentsFrom_line_newline, List.append_nil, withoutReturn]
    split
    · next hlast =>
      obtain ⟨comment, rfl⟩ := List.getLast?_eq_some_iff.mp hlast
      exact ⟨['\r'], by simp, by simp [isLineBlank]⟩
    · exact ⟨[], by simp, by simp⟩
  · refine ⟨[], ?_, by simp⟩
    rw [show (commentsFrom .line ('\r' :: '\n' :: rest)).1 = ['\r'] from rfl,
      withoutReturn_append_return, List.append_nil]

/-- **The comments of a line that loses blanks at its end**, with a run after it that starts
with the same kind of line break as what follows. -/
theorem LineParts.kept (h : LineParts line closed tail) (hline : line = front ++ blanks)
    (hblanks : ∀ c ∈ blanks, c = ' ' ∨ c = '\t') {placed : List Char}
    (hplaced : OpensNothing placed) (hstart : startsLine placed = true)
    (hrest : startsLine rest = true)
    (hreturn : (commentsFrom .line (placed ++ rest)).1 = (commentsFrom .line rest).1)
    (hwhole : tail ≠ [] → withoutReturn (tail ++ (commentsFrom .line rest).1) = tail) :
    List.Forall₂ KeptComment (comments (line ++ rest)) (comments (front ++ placed ++ rest)) ∧
      ((code.after front).isClear = true ∨ code.after front = .line) := by
  have hisBlank : ∀ c ∈ blanks, isLineBlank c = true := by
    intro c hc
    rcases hblanks c hc with rfl | rfl <;> rfl
  have hrest' : startsLine (placed ++ rest) = true := by
    obtain ⟨more, rfl | rfl⟩ := exists_of_startsLine hstart
    · rfl
    · rfl
  obtain ⟨closed', tail', hparts, hclosed, htail⟩ := h.shorten hline hisBlank
  refine ⟨?_, hparts.after_eq⟩
  rw [h.comments_append hrest, List.append_assoc front, hparts.comments_append hrest', hclosed,
    hplaced.comments_append (.inl hrest), hreturn]
  refine List.rel_append (List.rel_append (keptComments_refl _) ?_) (keptComments_refl _)
  rcases htail with ⟨rfl, rfl⟩ | ⟨hcomment, htail', htail⟩
  · exact .nil
  · have hne : tail ≠ [] := by simp [htail, htail']
    obtain ⟨lost, hlost, hlostBlank⟩ := exists_withoutReturn tail' hrest
    rw [if_neg hne, if_neg htail', hwhole hne]
    refine .cons (.inr ⟨hcomment, lost ++ blanks, ?_, ?_⟩) .nil
    · rw [← List.append_assoc, ← hlost, htail]
    · intro c hc
      rcases List.mem_append.mp hc with hc | hc
      · exact hlostBlank c hc
      · exact hisBlank c hc

/-- White space in front of a text has no comments. -/
theorem comments_blanks_append (hblanks : ∀ c ∈ blanks, isBlank c = true) (rest : List Char) :
    comments (blanks ++ rest) = comments rest := by
  have hstays := commentsFrom_of_stays rfl (fun c hc => step_code_of_isBlank (hblanks c hc)) rest
  rw [comments, hstays.1]
  rfl

end

section

variable {gap run : List Char}

/-- A run is put where no block comment is open, in front of the end of a line. -/
theorem OpensNothing.keepsApart (h : OpensNothing run) (hstart : run.head? = some '\n')
    {front placed back : List Char} (hplaced : PlacedAs run placed)
    (hfront : (code.after front).isClear = true ∨ code.after front = .line) (hback : EndsLine back)
    (hcomments : List.Forall₂ KeptComment (comments gap) (comments (front ++ placed ++ back))) :
    KeepsApart gap run (front ++ placed ++ back) where
  comments := hcomments
  place := ⟨front, placed, back, rfl, hplaced, fun _ _ heq =>
    (h.of_placedAs hplaced).outside (startsLine_placed hstart hplaced) hfront hback heq, hback⟩

/-- A gap without a line break, with a run at its start. -/
theorem OpensNothing.keepsApart_start (h : OpensNothing run) (hstart : run.head? = some '\n')
    (tabs : Nat) :
    KeepsApart gap run
      (if (trimStart gap).head? = some ';' then run ++ gap
        else run ++ '\n' :: List.replicate tabs '\t' ++ trimStart gap) := by
  obtain ⟨blanks, hblanks, hisBlank⟩ := exists_trimStart gap
  split
  · next hsemicolon =>
    obtain ⟨more, hmore⟩ := List.head?_eq_some_iff.mp hsemicolon
    have hback : EndsLine gap := .inr ⟨blanks, more, by rw [← hmore, ← hblanks], hisBlank⟩
    change KeepsApart gap run ([] ++ run ++ gap)
    refine h.keepsApart hstart (.inl rfl) (.inl rfl) hback ?_
    rw [List.nil_append, h.comments_append hback]
    exact keptComments_refl _
  · have hback : EndsLine ('\n' :: List.replicate tabs '\t' ++ trimStart gap) := .inl rfl
    have hindent : ∀ c ∈ '\n' :: List.replicate tabs '\t', isBlank c = true := by
      intro c hc
      rcases List.mem_cons.mp hc with rfl | hc
      · rfl
      · rw [List.eq_of_mem_replicate hc]
        rfl
    have hcomments : comments gap = comments (trimStart gap) := by
      conv_lhs => rw [hblanks]
      exact comments_blanks_append hisBlank _
    rw [List.append_assoc]
    change KeepsApart gap run ([] ++ run ++ ('\n' :: List.replicate tabs '\t' ++ trimStart gap))
    refine h.keepsApart hstart (.inl rfl) (.inl rfl) hback ?_
    rw [List.nil_append, h.comments_append hback, comments_blanks_append hindent, hcomments]
    exact keptComments_refl _

/-- A run in front of the first line break of a gap. -/
theorem OpensNothing.keepsApart_break (h : OpensNothing run) (hstart : run.head? = some '\n')
    {line closed tail after : List Char} (hparts : LineParts line closed tail) :
    KeepsApart (line ++ '\n' :: after) run
      (if line.getLast? = some '\r' then
        trimLineEnd line.dropLast ++ withCarriageReturns run ++ '\r' :: '\n' :: after
      else trimLineEnd line ++ run ++ '\n' :: after) := by
  obtain ⟨more, rfl⟩ := List.head?_eq_some_iff.mp hstart
  split
  · next hreturn =>
    -- the carriage return at the end of the line belongs to the line break
    obtain ⟨kept, rfl⟩ := List.getLast?_eq_some_iff.mp hreturn
    obtain ⟨closed', tail', hkept, -, -⟩ := hparts.shorten rfl (by simp [isLineBlank])
    obtain ⟨blanks, hblanks, hisBlank⟩ := exists_trimLineEnd kept
    have hback : EndsLine ('\r' :: '\n' :: after) := .inl rfl
    have hplaced : PlacedAs ('\n' :: more) (withCarriageReturns ('\n' :: more)) := .inr rfl
    obtain ⟨hcomments, hfront⟩ := hkept.kept hblanks hisBlank (h.of_placedAs hplaced) rfl
      (rfl : startsLine ('\r' :: '\n' :: after) = true) rfl fun _ => withoutReturn_append_return _
    rw [List.dropLast_concat]
    refine h.keepsApart rfl hplaced hfront hback ?_
    rw [List.append_assoc kept]
    exact hcomments
  · next hreturn =>
    obtain ⟨blanks, hblanks, hisBlank⟩ := exists_trimLineEnd line
    have hwhole : tail ≠ [] → withoutReturn (tail ++ []) = tail := by
      intro htail
      have hlast : tail.getLast? ≠ some '\r' := by
        rw [← List.getLast?_append_of_ne_nil closed htail, ← hparts.line_eq]
        exact hreturn
      rw [List.append_nil, withoutReturn, if_neg hlast]
    obtain ⟨hcomments, hfront⟩ := hparts.kept hblanks hisBlank h rfl
      (rfl : startsLine ('\n' :: after) = true) rfl hwhole
    exact h.keepsApart rfl (.inl rfl) hfront (.inl rfl) hcomments

/-- **Splicing keeps a run apart from comments.** The comments are those of the gap, in order,
where a line comment may lose blanks at its end. The run is placed at one place, with line
breaks of one kind; no place in it is inside a comment, and right after it there is a line
break, or white space and a semicolon. -/
theorem splice_comments (hgap : IsGap gap) (hstart : run.head? = some '\n')
    (hrun : OpensNothing run) (tabs : Nat) :
    KeepsApart gap run (splice gap run (List.replicate tabs '\t')) := by
  have hne : run ≠ [] := by
    rintro rfl
    cases hstart
  rw [splice, cutAtLineBreak?_eq, if_neg hne]
  rcases hsplit : splitAtLineBreak? gap with _ | ⟨line, rest⟩
  · exact hrun.keepsApart_start hstart tabs
  · obtain ⟨pieces, last, rfl, hpieces, hlast⟩ := hgap
    obtain ⟨closed, tail, after, hparts, -, rfl⟩ := exists_lineParts hpieces hlast hsplit
    rw [← splitAtLineBreakFrom?_append hsplit]
    exact hrun.keepsApart_break hstart hparts

end

/-- A line comment that loses a blank, in front of a block comment over two lines. -/
theorem splice_comments_commented :
    KeepsApart " // note \n/* a\n */;".toList "\n\tf(\"//\")".toList
        (splice " // note \n/* a\n */;".toList "\n\tf(\"//\")".toList ['\t']) ∧
      comments (splice " // note \n/* a\n */;".toList "\n\tf(\"//\")".toList ['\t']) =
        ["// note".toList, "/* a\n */".toList] := by
  refine ⟨splice_comments ⟨[[' '], "// note \n".toList, "/* a\n */".toList, [';']], [], rfl, ?_,
    .inl rfl⟩ rfl ⟨rfl, rfl⟩ 1, by decide +kernel⟩
  intro piece hpiece
  simp only [List.mem_cons, List.not_mem_nil, or_false] at hpiece
  rcases hpiece with rfl | rfl | rfl | rfl
  · exact .blank rfl
  · exact @GapPiece.line "// note ".toList ⟨" note ".toList, rfl, by decide⟩
  · exact @GapPiece.block " a\n ".toList (by decide)
  · exact .terminator (.inl rfl)

end EntryProbe.Go
