import EntryProbe.Proofs.BlockTokens
import EntryProbe.Proofs.Weaving

/-!
# Splicing a block in front of a token

The profiling block is spliced into the gap in front of the first token behind an opening
brace. The gap falls into two parts, one in front of the block and one behind it that starts
with a line break (`EntryProbe.Go.Spliced`, `EntryProbe.Go.exists_spliced`), so that the
tokens of the source stay what they are and those of the block come between them
(`EntryProbe.Go.Grown.scanned`).

There is one way for this to go wrong. A slash and a star of the source that start no
comment, because it is not closed, start one if it is closed in the block
(`EntryProbe.Go.OpensComment`). The block itself has no star, so only the name of the profile
can close a comment (`EntryProbe.Go.safeRun_blockRun`).
-/

namespace EntryProbe.Go

open Profiling

/-! ### Splicing into trivia -/

/-- **What splicing does to a gap**: the run comes behind `front`, and `gap'` is left in
front of the token that follows. -/
structure Spliced (gap run indent front gap' : List Char) (withReturn : Bool) : Prop where
  /-- The gap with the run in it. -/
  splice_eq : splice gap run indent = front ++ (withBreaks withReturn run ++ gap')
  /-- What stands before the run is trivia. -/
  front_trivia : ∃ mode, mode ≠ .block ∧ Trivia .outside front mode
  /-- What is left may take the place of the gap. -/
  mayReplace : MayReplace gap' gap
  /-- What is left starts with a line break. -/
  starts_line : gap'.head? = some '\n' ∨ ∃ rest, gap' = '\r' :: '\n' :: rest

theorem head_trimStart_ne {gap : List Char} {mode : CommentMode} (h : Trivia .outside gap mode) :
    (trimStart gap).head? ≠ some ';' := by
  intro hhead
  obtain ⟨rest, hrest⟩ := List.head?_eq_some_iff.mp hhead
  have htrivia := h.trimStart
  rw [hrest] at htrivia
  cases htrivia with
  | space hspace => cases hspace

theorem trivia_tabs {gap : List Char} {mode : CommentMode} (h : Trivia .outside gap mode)
    (tabs : Nat) : Trivia .outside (List.replicate tabs '\t' ++ gap) mode := by
  induction tabs with
  | zero => exact h
  | succ tabs ih => exact .space rfl ih

/-- **A run is spliced into trivia** in front of a line break, or with a line break after
it. -/
theorem exists_spliced {gap run : List Char} {mode : CommentMode}
    (h : Trivia .outside gap mode) (hmode : mode ≠ .block) (hrun : run ≠ []) (tabs : Nat) :
    ∃ front gap' withReturn, Spliced gap run (List.replicate tabs '\t') front gap' withReturn := by
  cases hsplit : splitAtLineBreak? gap with
  | none =>
    refine ⟨[], '\n' :: (List.replicate tabs '\t' ++ trimStart gap), false, ?_, ?_, ?_, .inl rfl⟩
    · have hsemicolon := head_trimStart_ne h
      simp [splice, cutAtLineBreak?_eq, hrun, hsplit, hsemicolon, withBreaks]
    · exact ⟨.outside, by decide, .nil _⟩
    · intro mode _ htrivia
      exact .space rfl (trivia_tabs htrivia.trimStart tabs)
  | some parts =>
    obtain ⟨line, rest⟩ := parts
    obtain ⟨mid, rest', hmid, hline, rfl, -⟩ := h.exists_lineBreak hmode hsplit
    have hreplace : MayReplace ('\n' :: rest') gap := by
      intro mode hmode htrivia
      obtain ⟨-, rest'', -, -, hrest, htrivia'⟩ := htrivia.exists_lineBreak hmode hsplit
      obtain ⟨-, rfl⟩ := List.cons.inj hrest
      exact .space rfl htrivia'
    by_cases hreturn : line.getLast? = some '\r'
    · obtain ⟨line, rfl⟩ := List.getLast?_eq_some_iff.mp hreturn
      obtain ⟨blanks, htrim, hblanks⟩ := exists_trimLineEnd line
      refine ⟨trimLineEnd line, '\r' :: '\n' :: rest', true, ?_, ?_, ?_, .inr ⟨rest', rfl⟩⟩
      · simp [splice, cutAtLineBreak?_eq, hrun, hsplit, withBreaks]
      · rw [htrim, List.append_assoc] at hline
        refine hline.trim hmid fun c hc => ?_
        rcases List.mem_append.mp hc with hc | hc
        · rcases hblanks c hc with rfl | rfl
          · rfl
          · rfl
        · rw [List.mem_singleton.mp hc]
          rfl
      · intro mode hmode htrivia
        exact .space rfl (hreplace mode hmode htrivia)
    · obtain ⟨blanks, htrim, hblanks⟩ := exists_trimLineEnd line
      refine ⟨trimLineEnd line, '\n' :: rest', false, ?_, ?_, hreplace, .inl rfl⟩
      · simp [splice, cutAtLineBreak?_eq, hrun, hsplit, hreturn, withBreaks]
      · rw [htrim] at hline
        refine hline.trim hmid fun c hc => ?_
        rcases hblanks c hc with rfl | rfl
        · rfl
        · rfl

theorem Spliced.onNewLine {gap run indent front gap' : List Char} {withReturn : Bool}
    (h : Spliced gap run indent front gap' withReturn) : (splitAtLineBreak? gap').isSome := by
  rcases h.starts_line with hhead | ⟨rest, rfl⟩
  · obtain ⟨rest, rfl⟩ := List.head?_eq_some_iff.mp hhead
    rfl
  · rfl

theorem Spliced.head_mem_stops {gap run indent front gap' : List Char} {withReturn : Bool}
    (h : Spliced gap run indent front gap' withReturn) :
    ∃ c, gap'.head? = some c ∧ c ∈ stops ∧ c ≠ '/' := by
  rcases h.starts_line with hhead | ⟨rest, rfl⟩
  · exact ⟨'\n', hhead, by decide, by decide⟩
  · exact ⟨'\r', rfl, by decide, by decide⟩

/-- A line break leads out of line comments. -/
theorem trivia_lineBreak {mode : CommentMode} (hmode : mode ≠ .block) (withReturn : Bool)
    {rest : List Char} (h : Trivia .outside rest .outside) :
    Trivia mode (lineBreak withReturn ++ rest) .outside := by
  cases withReturn with
  | false => exact h.newline hmode
  | true => exact (h.newline hmode).carriageReturn hmode

/-! ### The block in front of a token -/

/-- The run that puts the profiling block into a body. -/
def blockRun (profile : String) : List Char :=
  '\n' :: '\t' :: (preamble profile).rendered

/-- **The block in front of a token.** It is spliced into the gap of the token. -/
def Probes (profile : String) (token : Token) (inserted : List Token) (token' : Token) : Prop :=
  ∃ tabs front gap' withReturn,
    Spliced token.gap (blockRun profile) (List.replicate tabs '\t') front gap' withReturn ∧
    inserted = blockTokens (front ++ (lineBreak withReturn ++ ['\t'])) (lineBreak withReturn)
      profile ∧
    token' = { token with gap := gap' }

theorem insertion_probes (profile : String) : Insertion (Probes profile) where
  balanced := by
    rintro token token' inserted ⟨tabs, front, gap', withReturn, -, rfl, -⟩
    exact balanced_blockTokens _ withReturn profile
  lexeme_eq := by
    rintro token token' inserted ⟨tabs, front, gap', withReturn, -, -, rfl⟩
    rfl

theorem withBreaks_blockRun (withReturn : Bool) (profile : String) :
    withBreaks withReturn (blockRun profile) =
      lineBreak withReturn ++ '\t' :: withBreaks withReturn (preamble profile).rendered := by
  cases withReturn with
  | false => rfl
  | true => simp [withBreaks, blockRun, lineBreak, withCarriageReturns]

/-- The text of the block and of the gap that is left is the gap with the run in it. -/
theorem Spliced.unscan_eq {profile : String} {gap indent front gap' : List Char}
    {withReturn : Bool} (h : Spliced gap (blockRun profile) indent front gap' withReturn) :
    unscan (blockTokens (front ++ (lineBreak withReturn ++ ['\t'])) (lineBreak withReturn)
      profile) ++ gap' = splice gap (blockRun profile) indent := by
  rw [h.splice_eq, unscan_blockTokens, withBreaks_blockRun, withBreaks_rendered]
  simp

theorem Probes.exists_splice {profile : String} {token token' : Token} {inserted : List Token}
    (h : Probes profile token inserted token') :
    ∃ tabs, unscan inserted ++ token'.gap =
      splice token.gap (blockRun profile) (List.replicate tabs '\t') := by
  obtain ⟨tabs, front, gap', withReturn, hspliced, rfl, rfl⟩ := h
  exact ⟨tabs, hspliced.unscan_eq⟩

/-! ### Comments that are not closed -/

/-- No block comment ends in a text. -/
def NoCommentEnd (text : List Char) : Prop :=
  ∀ rest, closesComment (text ++ rest) = true → closesComment rest = true

theorem closesComment_of_cons {c : Char} {rest : List Char} (hc : c ≠ '*')
    (h : closesComment (c :: rest) = true) : closesComment rest = true := by
  rw [closesComment_cons fun hstar => absurd hstar hc, Bool.and_eq_true] at h
  exact h.2

theorem NoCommentEnd.append {text text' : List Char} (h : NoCommentEnd text)
    (h' : NoCommentEnd text') : NoCommentEnd (text ++ text') := by
  intro rest hcloses
  rw [List.append_assoc] at hcloses
  exact h' rest (h _ hcloses)

theorem noCommentEnd_of_noStar {text : List Char} (h : '*' ∉ text) : NoCommentEnd text := by
  intro rest hcloses
  induction text with
  | nil => exact hcloses
  | cons c text ih =>
    rw [List.mem_cons, not_or] at h
    exact ih h.2 (closesComment_of_cons (Ne.symm h.1) hcloses)

/-- A character other than a star. -/
def isNoStar (c : Char) : Bool := c != '*'

theorem isNoStar_hexDigit : ∀ n < 16, isNoStar (Quoted.hexDigit n) = true := by
  decide

/-- A character is written as it is, or as an escape without a star. -/
theorem encodeChar_cases (c : Char) :
    Quoted.encodeChar c = [c] ∨ ∃ rest, Quoted.encodeChar c = '\\' :: rest ∧ '*' ∉ rest := by
  have hdigits : ∀ width n, '*' ∉ Quoted.hexDigits width n := by
    intro width n hmem
    have hall := Quoted.hexDigits_all isNoStar_hexDigit width n
    rw [List.all_eq_true] at hall
    cases hall '*' hmem
  unfold Quoted.encodeChar
  split
  · next hc => exact .inr ⟨[c], rfl, by rcases hc with rfl | rfl <;> decide⟩
  split
  · exact .inl rfl
  split
  · next letter hletter =>
    have hmem := Quoted.escapeLetter?_mem hletter
    refine .inr ⟨[letter], rfl, ?_⟩
    rintro hstar
    obtain rfl := List.mem_singleton.mp hstar
    revert hmem
    decide
  split
  · exact .inr ⟨_, rfl, by simp [hdigits]⟩
  split
  · exact .inr ⟨_, rfl, by simp [hdigits]⟩
  · exact .inr ⟨_, rfl, by simp [hdigits]⟩

theorem encodeChar_noStar {c : Char} (hc : c ≠ '*') : '*' ∉ Quoted.encodeChar c := by
  rcases encodeChar_cases c with h | ⟨rest, h, hrest⟩
  · simpa [h] using Ne.symm hc
  · simp [h, hrest]

/-- What is written starts with a slash only if it should. -/
theorem head_flatMap_ne {text rest : List Char} (htext : text.head? ≠ some '/')
    (hrest : rest.head? ≠ some '/') :
    (text.flatMap Quoted.encodeChar ++ rest).head? ≠ some '/' := by
  cases text with
  | nil => exact hrest
  | cons c text =>
    rw [List.flatMap_cons, List.append_assoc]
    rcases encodeChar_cases c with h | ⟨rest', h, -⟩
    · simpa [h] using htext
    · simp [h]

theorem closesComment_flatMap {text rest : List Char} (h : ¬ commentEnd <:+: text)
    (hrest : rest.head? ≠ some '/')
    (hcloses : closesComment (text.flatMap Quoted.encodeChar ++ rest) = true) :
    closesComment rest = true := by
  induction text with
  | nil => exact hcloses
  | cons c text ih =>
    rw [List.infix_cons_iff, not_or] at h
    rw [List.flatMap_cons, List.append_assoc] at hcloses
    by_cases hc : c = '*'
    · subst hc
      have hstar : Quoted.encodeChar '*' = ['*'] := by decide
      have hslash : text.head? ≠ some '/' := by
        intro hhead
        obtain ⟨text, rfl⟩ := List.head?_eq_some_iff.mp hhead
        exact h.1 ⟨text, rfl⟩
      rw [hstar, List.singleton_append, closesComment_cons fun _ => head_flatMap_ne hslash hrest,
        Bool.and_eq_true] at hcloses
      exact ih h.2 hcloses.2
    · exact ih h.2 (noCommentEnd_of_noStar (encodeChar_noStar hc) _ hcloses)

/-- A quoted text ends a block comment only if the text does. -/
theorem noCommentEnd_encode {front text back : List Char} (h : ¬ commentEnd <:+: text)
    (hfront : '*' ∉ front.flatMap Quoted.encodeChar)
    (hback : '*' ∉ back.flatMap Quoted.encodeChar) (hslash : back.head? ≠ some '/') :
    NoCommentEnd (Quoted.encode (front ++ (text ++ back))) := by
  intro rest hcloses
  have htail : (back.flatMap Quoted.encodeChar ++ '"' :: rest).head? ≠ some '/' :=
    head_flatMap_ne hslash (by simp)
  have hopened : closesComment (front.flatMap Quoted.encodeChar ++
      (text.flatMap Quoted.encodeChar ++
        (back.flatMap Quoted.encodeChar ++ '"' :: rest))) = true := by
    have := closesComment_of_cons (by decide) hcloses
    simpa using this
  have hpassed := closesComment_flatMap h htail (noCommentEnd_of_noStar hfront _ hopened)
  exact closesComment_of_cons (by decide) (noCommentEnd_of_noStar hback _ hpassed)

theorem noCommentEnd_name {profile : String} (h : ¬ commentEnd <:+: profile.toList) :
    NoCommentEnd (Quoted.encode profile.toList) := by
  have hencode := @noCommentEnd_encode [] profile.toList [] h (by decide) (by decide) (by decide)
  simpa using hencode

theorem noCommentEnd_message {profile : String} (h : ¬ commentEnd <:+: profile.toList) :
    NoCommentEnd (Quoted.encode (openMessage profile).toList) := by
  have hencode := @noCommentEnd_encode "Couldn't open ".toList profile.toList ": ".toList h
    (by decide) (by decide) (by decide)
  simpa only [openMessage, String.toList_append, List.append_assoc] using hencode

theorem noCommentEnd_blockRun {profile : String} (h : ¬ commentEnd <:+: profile.toList)
    (withReturn : Bool) : NoCommentEnd (withBreaks withReturn (blockRun profile)) := by
  have hlead : NoCommentEnd (lineBreak withReturn ++ ['\t']) :=
    noCommentEnd_of_noStar (by cases withReturn <;> decide)
  have hstart : NoCommentEnd (unscan (blockStart [] (lineBreak withReturn))) :=
    noCommentEnd_of_noStar (by cases withReturn <;> decide)
  have hmiddle : NoCommentEnd (unscan (blockMiddle (lineBreak withReturn))) :=
    noCommentEnd_of_noStar (by cases withReturn <;> decide)
  have hend : NoCommentEnd (unscan (blockEnd (lineBreak withReturn))) :=
    noCommentEnd_of_noStar (by cases withReturn <;> decide)
  have hall := hlead.append (hstart.append ((noCommentEnd_name h).append
    (hmiddle.append ((noCommentEnd_message h).append hend))))
  rw [withBreaks_blockRun, withBreaks_rendered]
  simpa [blockTokens, Token.quoted] using hall

/-- A run that closes no comment, and starts with a line break. -/
structure SafeRun (run : List Char) : Prop where
  /-- No comment ends in it, whatever its line breaks. -/
  noCommentEnd {placed : List Char} : PlacedAs run placed → NoCommentEnd placed
  /-- It starts with a line break. -/
  head {placed : List Char} : PlacedAs run placed →
    placed.head? = some '\n' ∨ placed.head? = some '\r'

theorem closesComment_blanks {blanks text : List Char} (h : ∀ c ∈ blanks, isBlank c = true)
    (hcloses : closesComment text = true) : closesComment (blanks ++ text) = true := by
  induction blanks with
  | nil => exact hcloses
  | cons c blanks ih =>
    have hblank := h c (by simp)
    have hstar : c ≠ '*' := by
      rintro rfl
      revert hblank
      decide
    have hnull : c ≠ nullChar := by
      rintro rfl
      revert hblank
      decide
    rw [List.cons_append, closesComment_cons fun hc => absurd hc hstar,
      ih fun c hc => h c (by simp [hc])]
    simpa using hnull

/-- What is woven starts with a character other than a line break only if the text
does. -/
theorem Woven.head_eq {text out : List Char} {runs : List (List Char)} (h : Woven text runs out)
    (hruns : ∀ run ∈ runs, SafeRun run) {c : Char} (hhead : out.head? = some c)
    (hline : c ≠ '\n') (hreturn : c ≠ '\r') : ∃ text' out', text = c :: text' ∧ out = c :: out' ∧
      Woven text' runs out' := by
  have hplaced : ∀ run ∈ runs, ∀ placed, PlacedAs run placed → ∀ rest,
      (placed ++ rest).head? ≠ some c := by
    intro run hrun placed hplaced rest
    rcases (hruns run hrun).head hplaced with h | h
    · obtain ⟨placed, rfl⟩ := List.head?_eq_some_iff.mp h
      simpa using Ne.symm hline
    · obtain ⟨placed, rfl⟩ := List.head?_eq_some_iff.mp h
      simpa using Ne.symm hreturn
  cases h with
  | nil => cases hhead
  | keep d h =>
    obtain rfl : d = c := by simpa using hhead
    exact ⟨_, _, rfl, rfl, h⟩
  | run _ hplace _ => exact absurd hhead (hplaced _ (by simp) _ hplace _)
  | runBreak _ _ hplace _ =>
    rw [List.append_assoc] at hhead
    exact absurd hhead (hplaced _ (by simp) _ hplace _)

/-- **Runs close no comment** that was not closed before. -/
theorem Woven.closesComment {text out : List Char} {runs : List (List Char)}
    (h : Woven text runs out) (hruns : ∀ run ∈ runs, SafeRun run)
    (hcloses : closesComment out = true) : closesComment text = true := by
  induction h with
  | nil => exact hcloses
  | @keep c text out runs h ih =>
    by_cases hend : c = '*' ∧ out.head? = some '/'
    · obtain ⟨rfl, hhead⟩ := hend
      obtain ⟨text, out, rfl, rfl, -⟩ := h.head_eq hruns hhead (by decide) (by decide)
      rfl
    · rw [closesComment_cons fun hc hhead => hend ⟨hc, hhead⟩, Bool.and_eq_true] at hcloses
      have htext := ih hruns hcloses.2
      by_cases hend' : c = '*' ∧ text.head? = some '/'
      · obtain ⟨rfl, hhead⟩ := hend'
        obtain ⟨text, rfl⟩ := List.head?_eq_some_iff.mp hhead
        rfl
      · rw [closesComment_cons fun hc hhead => hend' ⟨hc, hhead⟩, htext, hcloses.1]
        rfl
  | run hblanks hplaced _ ih =>
    have hrest := (hruns _ (by simp)).noCommentEnd hplaced _ hcloses
    exact closesComment_blanks hblanks (ih (fun run hrun => hruns run (by simp [hrun])) hrest)
  | @runBreak blanks run placed text out runs tabs hblanks hplaced _ ih =>
    rw [List.append_assoc] at hcloses
    have hrest := (hruns _ (by simp)).noCommentEnd hplaced _ hcloses
    have hbreak : NoCommentEnd ('\n' :: List.replicate tabs '\t') :=
      noCommentEnd_of_noStar (by simp)
    exact closesComment_blanks hblanks
      (ih (fun run hrun => hruns run (by simp [hrun])) (hbreak _ hrest))

theorem safeRun_blockRun {profile : String} (h : ¬ commentEnd <:+: profile.toList) :
    SafeRun (blockRun profile) where
  noCommentEnd := by
    rintro placed (rfl | rfl)
    · exact noCommentEnd_blockRun h false
    · exact noCommentEnd_blockRun h true
  head := by
    rintro placed (rfl | rfl)
    · exact .inl rfl
    · exact .inr rfl

/-! ### Scanning with the block put in -/

section

variable {profile : String} {s s' : List Token} {last : List Char}

/-- The text of tokens with the block put in is their text with its run woven in. -/
theorem Grown.exists_woven (h : Grown (Probes profile) s s') (last : List Char) :
    ∃ runs, (∀ run ∈ runs, run = blockRun profile) ∧
      Woven (unscan s ++ last) runs (unscan s' ++ last) := by
  induction h with
  | nil => exact ⟨[], by simp, .refl last⟩
  | keep token _ ih =>
    obtain ⟨runs, hruns, hwoven⟩ := ih
    refine ⟨runs, hruns, ?_⟩
    simpa [Token.full] using hwoven.keepAll token.full
  | @put brace token token' inserted s s' _ hput _ ih =>
    obtain ⟨runs, hruns, hwoven⟩ := ih
    obtain ⟨tabs, hsplice⟩ := hput.exists_splice
    obtain ⟨_, _, _, _, _, _, rfl⟩ := hput
    have hgap := woven_splice token.gap (blockRun profile) tabs
    rw [← hsplice] at hgap
    refine ⟨pending (blockRun profile) ++ runs, ?_, ?_⟩
    · intro run hrun
      rcases List.mem_append.mp hrun with hrun | hrun
      · exact List.mem_singleton.mp hrun
      · exact hruns run hrun
    · have hall := (hgap.append (hwoven.keepAll token.text)).keepAll brace.full
      simpa [Token.full] using hall

/-- What follows a token changes only behind a brace. -/
theorem Grown.meets (h : Grown (Probes profile) s s') (hspelled : ∀ token ∈ s, token.Spelled)
    (last : List Char) : Meets (unscan s ++ last) (unscan s' ++ last) := by
  induction h with
  | nil => exact .inl rfl
  | keep token _ ih =>
    have hmeets := ih fun token hmem => hspelled token (by simp [hmem])
    simpa [Token.full] using hmeets.append token.full
  | @put brace token token' inserted s s' hbrace _ _ _ =>
    have htext := (hspelled brace (by simp)).text_openBrace hbrace
    refine .inr ⟨brace.gap, '\x7b', '\x7b', unscan (token :: s) ++ last,
      unscan (inserted ++ token' :: s') ++ last, by decide, by decide, by decide, ?_, ?_⟩
    · simp [htext]
    · simp [htext]

theorem Token.Starts.of_openBrace {token : Token} {tail : List Char} (h : token.Starts tail)
    (htext : token.text = ['\x7b']) (hlexeme : token.lexeme = .mark .openBrace)
    (tail' : List Char) : token.Starts tail' where
  gap_eq := by
    obtain ⟨mode, hmode, htrivia, hstop⟩ := trivia_of_splitTrivia h.gap_eq
    refine htrivia.split hmode ?_
    rw [htext] at hstop ⊢
    cases mode with
    | block => exact absurd rfl hmode
    | line => exact absurd (splitTriviaFrom_line_iff.mp hstop) (by decide)
    | outside => exact splitTriviaFrom_outside_iff.mpr ⟨by decide, fun hslash => nomatch hslash⟩
  text_ne := h.text_ne
  lexeme_eq := by
    rw [htext, hlexeme]
    exact lexeme_openBrace tail'

/-- Somewhere among the tokens a slash and a star stand side by side. They are no start
of a comment, because it is not closed. -/
def OpensComment (tokens : List Token) (last : List Char) : Prop :=
  ∃ before slash after, tokens = before ++ slash :: after ∧ slash.text = ['/'] ∧
    (unscan after ++ last).head? = some '*'

theorem OpensComment.cons {tokens : List Token} (h : OpensComment tokens last) (token : Token) :
    OpensComment (token :: tokens) last := by
  obtain ⟨before, slash, after, rfl, hslash⟩ := h
  exact ⟨token :: before, slash, after, rfl, hslash⟩

theorem OpensComment.append {tokens : List Token} (h : OpensComment tokens last)
    (front : List Token) : OpensComment (front ++ tokens) last := by
  induction front with
  | nil => exact h
  | cons token front ih => exact ih.cons token

/-- A token in front of tokens that the block is put into stays a token. -/
theorem Token.Starts.of_grown {token : Token} (h : token.Starts (unscan s ++ last))
    (hgrown : Grown (Probes profile) s s') (hspelled : ∀ token ∈ s, token.Spelled)
    (hstray : token.lexeme ≠ .stray)
    (hcomment : OpensComment (token :: s) last → ¬ commentEnd <:+: profile.toList) :
    token.Starts (unscan s' ++ last) := by
  refine h.of_meets (hgrown.meets hspelled last) hstray fun hslash z hz => ?_
  -- if a comment were closed now, it would have been closed before
  by_contra hcloses
  rw [Bool.not_eq_false] at hcloses
  obtain ⟨rest, hrest⟩ := (hgrown.meets hspelled last).head (by decide) hz
  have hopens : OpensComment (token :: s) last := ⟨[], token, s, rfl, hslash, by rw [hrest]; rfl⟩
  obtain ⟨runs, hruns, hwoven⟩ := hgrown.exists_woven last
  have hsafe : ∀ run ∈ runs, SafeRun run := by
    intro run hrun
    rw [hruns run hrun]
    exact safeRun_blockRun (hcomment hopens)
  rw [hz] at hwoven
  obtain ⟨text, out, htext, hout, hwoven⟩ := hwoven.head_eq hsafe rfl (by decide) (by decide)
  obtain ⟨-, rfl⟩ := List.cons.inj hout
  have hclosed := hwoven.closesComment hsafe hcloses
  obtain ⟨mode, hmode, -, hstop⟩ := trivia_of_splitTrivia h.gap_eq
  rw [hslash, htext] at hstop
  cases mode with
  | block => exact hmode rfl
  | line => exact absurd (splitTriviaFrom_line_iff.mp hstop) (by decide)
  | outside =>
    have hopen := ((splitTriviaFrom_outside_iff.mp hstop).2 rfl).2 text rfl
    rw [hclosed] at hopen
    cases hopen

/-- **Tokens with the block put in are scanned.** -/
theorem Grown.scanned (h : Grown (Probes profile) s s') (hscanned : Scanned s last)
    (hspelled : ∀ token ∈ s, token.Spelled) (hstray : ∀ token ∈ s, token.lexeme ≠ .stray)
    (hcomment : OpensComment s last → ¬ commentEnd <:+: profile.toList) : Scanned s' last := by
  induction h with
  | nil => exact hscanned
  | @keep token s s' hgrown ih =>
    obtain ⟨hfirst, hrest⟩ := hscanned
    have hspelled' : ∀ token ∈ s, token.Spelled := fun t hmem => hspelled t (by simp [hmem])
    refine ⟨hfirst.of_grown hgrown hspelled' (hstray token (by simp)) hcomment, ?_⟩
    exact ih hrest hspelled' (fun t hmem => hstray t (by simp [hmem]))
      fun hopens => hcomment (hopens.cons token)
  | @put brace token token' inserted s s' hbrace hput hgrown ih =>
    obtain ⟨hbraceStarts, hfirst, hrest⟩ := hscanned
    have hspelled' : ∀ token ∈ s, token.Spelled := fun t hmem => hspelled t (by simp [hmem])
    have htokens := ih hrest hspelled' (fun t hmem => hstray t (by simp [hmem]))
      fun hopens => hcomment ((hopens.cons token).cons brace)
    have htoken := hfirst.of_grown hgrown hspelled' (hstray token (by simp))
      fun hopens => hcomment (hopens.cons brace)
    refine ⟨hbraceStarts.of_openBrace ((hspelled brace (by simp)).text_openBrace hbrace) hbrace _,
      ?_⟩
    obtain ⟨tabs, front, gap', withReturn, hspliced, rfl, rfl⟩ := hput
    obtain ⟨c, hc, hstop, hslash⟩ := hspliced.head_mem_stops
    refine scanned_blockTokens withReturn profile ?_ ⟨htoken.regap hspliced.mayReplace, htokens⟩ ?_
      hstop hslash
    · obtain ⟨mode, hmode, hfront⟩ := hspliced.front_trivia
      exact hfront.append hmode (trivia_lineBreak hmode withReturn (.space rfl (.nil _)))
    · obtain ⟨rest, rfl⟩ := List.head?_eq_some_iff.mp hc
      simp

end

end EntryProbe.Go
