import EntryProbe.Proofs.ImportRun
import EntryProbe.Proofs.Semicolons

/-!
# The text behind the package clause

The imports that a file lacks are spliced into the text between its package clause and its
first declaration. This text is more than the gap of a token: a semicolon or another
terminator may stand in it.

| the text | where the imports come | what follows them |
| --- | --- | --- |
| with a line break | behind the terminator | the first declaration |
| with a semicolon first | in front of it | the same terminator |
| with a comment and then a semicolon | in front of both | a semicolon of its own |

In the last case the imports end with their lines, and the semicolon that ended the package
clause is left behind without anything to end (`EntryProbe.Go.StrandsTerminator`).

* `EntryProbe.Go.HasRoom` – what has to be known of the text. Only null characters can be in
  the way of imports.
* `EntryProbe.Go.Placed` – imports in the gap of a token.
* `EntryProbe.Go.Joined` – the tokens that take the place of the terminator, and those behind
  them. They spell what is printed, are scanned as they are written, and are read as the end
  of the package clause and the imports.
* `EntryProbe.Go.exists_joined` – where there is room, there are such tokens.
-/

namespace EntryProbe.Go

open Profiling

/-! ### Splicing behind a terminator -/

section

variable {mode mode' : CommentMode} {text gap run : List Char}

/-- Text that ends in a character other than white space is no line end. -/
theorem trimLineEnd_behind (front line : List Char) {c : Char} (hc : c ≠ ' ') (hc' : c ≠ '\t') :
    trimLineEnd (front ++ c :: line) = front ++ c :: trimLineEnd line := by
  have hreverse : (front ++ c :: line).reverse = line.reverse ++ c :: front.reverse := by simp
  rw [trimLineEnd, trimLineEnd, hreverse, List.dropWhile_append]
  split
  · next hempty =>
    rw [List.isEmpty_iff.mp hempty]
    simp [hc, hc']
  · simp

/-- **The first line break behind a terminator** is found behind the trivia in front of it. -/
theorem splitAtLineBreak?_terminator {front : List Char} {c : Char}
    (hfront : Trivia .outside front mode) (hmode : mode ≠ .block)
    (hnone : splitAtLineBreak? front = none) (hc : c = ';' ∨ c = nullChar)
    (hsame : splitAtLineBreakFrom? mode gap = splitAtLineBreak? gap) :
    splitAtLineBreak? (front ++ c :: gap) =
      (splitAtLineBreak? gap).map fun (line, rest) => (front ++ c :: line, rest) := by
  -- a line does not break at a terminator
  have hstep : splitAtLineBreakFrom? mode (c :: gap) =
      (splitAtLineBreakFrom? mode gap).map fun (line, rest) => (c :: line, rest) := by
    cases mode with
    | block => exact absurd rfl hmode
    | outside => rcases hc with rfl | rfl <;> simp [splitAtLineBreakFrom?, nullChar]
    | line => rcases hc with rfl | rfl <;> simp [splitAtLineBreakFrom?, nullChar]
  rw [splitAtLineBreak?, hfront.splitAtLineBreak?_append hmode hnone, hstep, hsame, Option.map_map]
  rfl

/-- **A run is spliced in behind a terminator** if the first line break is found there. -/
theorem splice_behind {front line rest : List Char} {c : Char} (hc : c = ';' ∨ c = nullChar)
    (hwhole : splitAtLineBreak? (front ++ c :: gap) = some (front ++ c :: line, rest))
    (hsplit : splitAtLineBreak? gap = some (line, rest)) (hrun : run ≠ []) :
    splice (front ++ c :: gap) run [] = front ++ c :: splice gap run [] := by
  have hreturn : (front ++ c :: line).getLast? = some '\r' ↔ line.getLast? = some '\r' := by
    cases line with
    | nil => rcases hc with rfl | rfl <;> simp [nullChar]
    | cons d line => simp
  have htrim := fun line => @trimLineEnd_behind front line c
    (by rcases hc with rfl | rfl <;> decide) (by rcases hc with rfl | rfl <;> decide)
  simp only [splice, cutAtLineBreak?_eq, if_neg hrun, hwhole, hsplit]
  by_cases hlast : line.getLast? = some '\r'
  · have hne : line ≠ [] := by
      rintro rfl
      cases hlast
    rw [if_pos (hreturn.mpr hlast), if_pos hlast, List.dropLast_append_of_ne_nil (by simp),
      List.dropLast_cons_of_ne_nil hne, htrim]
    simp
  · rw [if_neg (mt hreturn.mp hlast), if_neg hlast, htrim]
    simp

/-- A text without the blanks at its end goes on with a stop. -/
theorem meets_trimLineEnd {line rest placed : List Char} {c c' : Char} (hrest : rest.head? = some c)
    (hplaced : placed.head? = some c') (hc : c ∈ stops) (hc' : c' ∈ stops) (hslash : c' ≠ '/') :
    Meets (line ++ rest) (trimLineEnd line ++ placed) := by
  obtain ⟨blanks, hline, hblanks⟩ := exists_trimLineEnd line
  nth_rewrite 1 [hline]
  rw [List.append_assoc]
  refine Meets.append ?_ _
  cases blanks with
  | nil => exact meets_of_stops hrest hplaced hc hc' hslash
  | cons d blanks =>
    refine meets_of_stops rfl hplaced ?_ hc' hslash
    rcases hblanks d (by simp) with rfl | rfl <;> decide

/-- **What follows a token changes only behind a stop** if a run is spliced in there. -/
theorem meets_splice (hrun : run.head? = some '\n')
    (hgap : (splitAtLineBreak? gap).isSome ∨ ∃ c ∈ stops, gap.head? = some c)
    (tail tail' : List Char) : Meets (gap ++ tail) (splice gap run [] ++ tail') := by
  obtain ⟨run, rfl⟩ := List.head?_eq_some_iff.mp hrun
  have hline : '\n' ∈ stops := by decide
  cases hsplit : splitAtLineBreak? gap with
  | none =>
    rw [hsplit] at hgap
    obtain ⟨c, hc, hhead⟩ := hgap.resolve_left nofun
    obtain ⟨gap, rfl⟩ := List.head?_eq_some_iff.mp hhead
    refine meets_of_stops rfl ?_ hc hline (by decide)
    simp only [splice, cutAtLineBreak?_eq, List.cons_ne_nil, ↓reduceIte, hsplit]
    split
    · rfl
    · rfl
  | some parts =>
    obtain ⟨line, rest⟩ := parts
    have happend : line ++ rest = gap := splitAtLineBreakFrom?_append hsplit
    obtain ⟨rest, rfl⟩ := List.head?_eq_some_iff.mp (head_of_splitAtLineBreakFrom? hsplit)
    have hreturn : '\r' ∈ stops := by decide
    simp only [splice, cutAtLineBreak?_eq, List.cons_ne_nil, ↓reduceIte, hsplit]
    split
    · next hlast =>
      obtain ⟨line, rfl⟩ := List.getLast?_eq_some_iff.mp hlast
      rw [← happend, List.dropLast_concat]
      simp only [List.append_assoc, List.singleton_append]
      exact meets_trimLineEnd rfl rfl hreturn hreturn (by decide)
    · rw [← happend]
      simp only [List.append_assoc]
      exact meets_trimLineEnd rfl rfl hline hline (by decide)

end

/-! ### Leaving a terminator behind -/

/-- **Imports that are put in here leave the terminator behind**: there is no line break that
they could be put at, and the terminator does not come first. -/
def StrandsTerminator (gap : List Char) : Prop :=
  splitAtLineBreak? gap = none ∧ (trimStart gap).head? ≠ some ';'

instance (gap : List Char) : Decidable (StrandsTerminator gap) :=
  inferInstanceAs (Decidable (_ ∧ _))

theorem trimStart_append_cons (gap rest : List Char) {c : Char} (hc : isBlank c = false) :
    trimStart (gap ++ c :: rest) = trimStart gap ++ c :: rest := by
  rw [trimStart, trimStart, List.dropWhile_append]
  split
  · next hempty =>
    rw [List.isEmpty_iff.mp hempty, List.dropWhile_cons_of_neg (by simp [hc])]
    rfl
  · rfl

section

variable {gap back run : List Char} {mode : CommentMode}

/-- Trivia and a semicolon start with a stop. -/
theorem head_mem_stops (h : Trivia .outside gap mode) (back : List Char) :
    ∃ c ∈ stops, (gap ++ ';' :: back).head? = some c := by
  cases h with
  | nil => exact ⟨';', by decide, rfl⟩
  | openLine _ => exact ⟨'/', by decide, rfl⟩
  | openBlock _ => exact ⟨'/', by decide, rfl⟩
  | @space c _ _ hspace _ =>
    refine ⟨c, ?_, rfl⟩
    simp only [isSpace, Bool.or_eq_true, beq_iff_eq] at hspace
    rcases hspace with ((((rfl | rfl) | rfl) | rfl) | rfl) | rfl <;> decide

/-- A semicolon that comes first is the one behind the trivia. -/
theorem eq_of_head_trimStart {c : Char} (h : Trivia .outside gap mode) (hc : isBlank c = false)
    (hhead : (trimStart (gap ++ c :: back)).head? = some ';') : c = ';' := by
  rw [trimStart_append_cons gap back hc] at hhead
  cases htrim : trimStart gap with
  | nil =>
    rw [htrim] at hhead
    exact Option.some.inj hhead
  | cons d trimmed =>
    rw [htrim] at hhead
    exact absurd (by rw [htrim]; exact hhead) (head_trimStart_ne h)

/-- **A run is spliced in front of a semicolon** that is left behind. -/
theorem splice_stranded (h : Trivia .outside gap mode)
    (hstrands : StrandsTerminator (gap ++ ';' :: back)) (hnone : splitAtLineBreak? gap = none)
    (hrun : run ≠ []) :
    splice (gap ++ ';' :: back) run [] = splice gap run [] ++ ';' :: back := by
  obtain ⟨hsplit, hhead⟩ := hstrands
  simp only [splice, cutAtLineBreak?_eq, if_neg hrun, hsplit, hnone, if_neg hhead,
    if_neg (head_trimStart_ne h)]
  rw [trimStart_append_cons gap back rfl]
  simp

end

/-- **There is room for imports** in the text between the package clause and the first
declaration of a file, where `tokens` are those behind the package clause. -/
structure HasRoom (tokens : List Token) (gap : List Char) : Prop where
  /-- Where a null character ends a line comment, the next line break is the same one inside and
  outside of the comment. -/
  closed (before after : List Char) : gap = before ++ nullChar :: after →
    Trivia .outside before .line → splitAtLineBreakFrom? .line after = splitAtLineBreak? after
  /-- A terminator that is left behind is no null character, and leads to none. -/
  ended : StrandsTerminator gap → ¬ ReachesNull tokens

/-- A terminator stands behind a line comment only if it ends it, and there the text goes on as
outside of comments if there is room for imports. -/
theorem HasRoom.exists_mode {tokens : List Token} {gap rest tail : List Char} {c : Char}
    (h : HasRoom tokens (gap ++ c :: rest))
    (hsplit : splitTrivia (gap ++ c :: tail) = (gap, c :: tail)) :
    ∃ mode, mode ≠ .block ∧ Trivia .outside gap mode ∧
      splitAtLineBreakFrom? mode rest = splitAtLineBreak? rest := by
  obtain ⟨mode, hmode, htrivia, hstop⟩ := trivia_of_splitTrivia hsplit
  refine ⟨mode, hmode, htrivia, ?_⟩
  cases mode with
  | outside => rfl
  | block => exact absurd rfl hmode
  | line =>
    obtain rfl := splitTriviaFrom_line_iff.mp hstop
    exact h.closed _ _ rfl htrivia

/-- What is put in behind braces takes no room. -/
theorem HasRoom.grown {Put : Token → List Token → Token → Prop} {tokens tokens' : List Token}
    {gap : List Char} (h : HasRoom tokens gap) (hgrown : Grown Put tokens tokens') :
    HasRoom tokens' gap where
  closed := h.closed
  ended hstrands hreaches := h.ended hstrands (hgrown.reachesNull hreaches)

/-- No null character is behind a terminator that is left behind where there is room. -/
theorem HasRoom.not_reachesNull {terminator rest : List Token} {first : Token}
    (h : HasRoom (terminator ++ first :: rest) (unscan terminator ++ first.gap))
    (hterm : terminatorLength? (terminator ++ first :: rest) = some terminator.length)
    (hstrands : StrandsTerminator (unscan terminator ++ first.gap)) :
    ¬ ReachesNull (first :: rest) := by
  rcases terminator_cases hterm with ⟨rfl, _, _, hfirst, hbreak⟩ | ⟨token, rfl, hline, hmark⟩
  · obtain ⟨rfl, -⟩ := List.cons.inj hfirst
    have hnone : splitAtLineBreak? first.gap = none := hstrands.1
    rw [Token.onNewLine, hnone] at hbreak
    cases hbreak
  · exact (eq_semicolon_of_not_reachesNull (h.ended hstrands) hline hmark).2

/-! ### Imports in the gap of a token -/

theorem exists_importTokens_cons (gap line : List Char) {paths : List String} (h : paths ≠ []) :
    ∃ token after, importTokens gap line paths = token :: after ∧ token.gap = gap := by
  obtain ⟨path, paths, rfl⟩ := List.exists_cons_of_ne_nil h
  exact ⟨_, _, rfl, rfl⟩

theorem isSome_splitAtLineBreak?_lineBreak {mode : CommentMode} (hmode : mode ≠ .block)
    (withReturn : Bool) (rest : List Char) :
    (splitAtLineBreakFrom? mode (lineBreak withReturn ++ rest)).isSome := by
  cases mode with
  | block => exact absurd rfl hmode
  | outside => cases withReturn <;> rfl
  | line => cases withReturn <;> rfl

/-- Items are read behind imports, as they are without them. -/
def ReadsImports (paths : List String) (offset : Nat) (tokens : List Token) (items : List Item) :
    Prop :=
  ∃ imports, ItemsRead offset tokens (imports ++ items) ∧
    imports.filterMap Item.clause? = [] ∧
    ∀ source, contents source imports = paths.map fun path => .imports [⟨none, path⟩]

/-- **Imports in the gap of a token**: `inserted` are their tokens, and `gap'` is left in front
of the token. -/
structure Placed (paths : List String) (token : Token) (tokens : List Token) (last : List Char)
    (inserted : List Token) (gap' : List Char) : Prop where
  /-- The tokens spell what is printed. -/
  splice_eq : unscan inserted ++ gap' = splice token.gap (importRun paths) []
  /-- They start a line. -/
  starts_line : ∃ first after, inserted = first :: after ∧ first.onNewLine = true
  /-- They are scanned. -/
  scanned : Scanned (inserted ++ { token with gap := gap' } :: tokens) last
  /-- They are read as the imports. -/
  reread (offset : Nat) (items : List Item) :
    ItemsRead (offset + width inserted) ({ token with gap := gap' } :: tokens) items →
    ReadsImports paths offset (inserted ++ { token with gap := gap' } :: tokens) items

/-- **Imports can be put into any gap.** -/
theorem exists_placed {paths : List String} {token : Token} {tokens : List Token}
    {last : List Char} (hpaths : paths ≠ []) (hquoted : ∀ path ∈ paths, IsQuoted path)
    (hscanned : Scanned (token :: tokens) last) :
    ∃ inserted gap', Placed paths token tokens last inserted gap' := by
  have hrun := importRun_eq hpaths
  obtain ⟨mode, hmode, htrivia, -⟩ := trivia_of_splitTrivia hscanned.1.gap_eq
  obtain ⟨front, gap', withReturn, hspliced⟩ :=
    @exists_spliced _ (importRun paths) _ htrivia hmode (by simp [hrun]) 0
  obtain ⟨mode', hmode', hfront⟩ := hspliced.front_trivia
  -- the run takes the line breaks of the gap, a blank line first
  generalize hblank : front ++ (lineBreak withReturn ++ (lineBreak withReturn ++ [])) = gap
  refine ⟨importTokens gap (lineBreak withReturn) paths, gap', ?_, ?_, ?_, ?_⟩
  · rw [← List.replicate_zero, hspliced.splice_eq, withBreaks_importRun withReturn hpaths hquoted,
      unscan_importTokens _ _ hpaths, unscan_importTokens (lineBreak withReturn) _ hpaths, ← hblank]
    simp
  · obtain ⟨first, after, htokens, hgap⟩ :=
      exists_importTokens_cons gap (lineBreak withReturn) hpaths
    refine ⟨first, after, htokens, ?_⟩
    rw [Token.onNewLine, hgap, ← hblank]
    exact hfront.isSome_splitAtLineBreak? hmode'
      (isSome_splitAtLineBreak?_lineBreak hmode' withReturn _)
  · refine scanned_importTokens withReturn hquoted ?_ (hscanned.regap hspliced.mayReplace)
    rw [← hblank]
    exact hfront.append hmode' (trivia_lineBreak hmode' withReturn
      (@trivia_lineBreak .outside nofun withReturn _ (.nil _)))
  · intro offset items hitems
    have hline : (splitAtLineBreak? (lineBreak withReturn)).isSome := by
      cases withReturn <;> rfl
    have hterm : terminatorLength? ([] ++ { token with gap := gap' } :: tokens) = some 0 :=
      terminatorLength?_of_onNewLine hspliced.onNewLine
    exact @ItemsRead.exists_imports _ _ _ _ _ _ [] hpaths hline hterm hitems

/-! ### Imports behind the package clause -/

/-- **Imports put in front of a declaration**: `inserted` takes the place of the terminator
behind the package clause, and `behind` are the tokens that follow it now. -/
structure Joined (paths : List String) (terminator : List Token) (first : Token)
    (rest : List Token) (last : List Char) (inserted behind : List Token) : Prop where
  /-- The tokens spell what is printed. -/
  splice_eq : unscan (inserted ++ behind) =
    splice (unscan terminator ++ first.gap) (importRun paths) [] ++ (first.text ++ unscan rest)
  /-- They are scanned. -/
  scanned : Scanned (inserted ++ behind) last
  /-- They end the package clause, and are read as the imports. -/
  reread (offset : Nat) (items : List Item) : ItemsRead (offset + width inserted) behind items →
    ∃ front back, inserted ++ behind = front ++ back ∧
      terminatorLength? (front ++ back) = some front.length ∧
      ReadsImports paths (offset + width front) back items
  /-- The tokens of the declarations follow, -/
  kept : (paths = [] ∨ ¬ StrandsTerminator (unscan terminator ++ first.gap)) →
    ∃ gap', behind = { first with gap := gap' } :: rest
  /-- or a semicolon that was left behind and these tokens. -/
  stranded : paths ≠ [] → StrandsTerminator (unscan terminator ++ first.gap) →
    ∃ semicolon, behind = semicolon :: first :: rest ∧ semicolon.lexeme = .mark .semicolon

section

variable {paths : List String} {terminator rest : List Token} {first : Token} {last : List Char}
  {mode : CommentMode}

/-- Without imports all stays as it is. -/
theorem joined_nil
    (hterm : terminatorLength? (terminator ++ first :: rest) = some terminator.length)
    (hscanned : Scanned (terminator ++ first :: rest) last) :
    Joined [] terminator first rest last terminator (first :: rest) where
  splice_eq := by simp [importRun]
  scanned := hscanned
  reread _ _ hitems := ⟨terminator, first :: rest, rfl, hterm, [], hitems, rfl, fun _ => rfl⟩
  kept _ := ⟨first.gap, rfl⟩
  stranded hpaths _ := absurd rfl hpaths

/-- **Imports are put behind the terminator** if there is a line break behind it. -/
theorem exists_joined_behind (hpaths : paths ≠ []) (hquoted : ∀ path ∈ paths, IsQuoted path)
    (hterm : ∀ token after, token.onNewLine = true →
      terminatorLength? (terminator ++ token :: after) = some terminator.length)
    (hsolid : terminator.all Token.isSolid = true)
    (hscanned : Scanned (terminator ++ first :: rest) last) (hbreak : first.onNewLine = true)
    (hfound : (splitAtLineBreak? (unscan terminator ++ first.gap)).isSome)
    (hsplice : splice (unscan terminator ++ first.gap) (importRun paths) [] =
      unscan terminator ++ splice first.gap (importRun paths) []) :
    ∃ inserted behind, Joined paths terminator first rest last inserted behind := by
  have hkept : ¬ StrandsTerminator (unscan terminator ++ first.gap) := fun hstrands => by
    rw [hstrands.1] at hfound
    cases hfound
  obtain ⟨inserted, gap', hplaced⟩ := exists_placed hpaths hquoted hscanned.append_right
  refine ⟨terminator ++ inserted, { first with gap := gap' } :: rest, ?_, ?_, ?_,
    fun _ => ⟨gap', rfl⟩, fun _ hstrands => absurd hstrands hkept⟩
  · rw [hsplice, ← hplaced.splice_eq]
    simp
  · rw [List.append_assoc]
    refine hscanned.of_meets hsolid ?_ hplaced.scanned
    have hmeets := meets_splice (head_importRun hpaths) (.inl hbreak)
      (first.text ++ (unscan rest ++ last)) (first.text ++ (unscan rest ++ last))
    rw [← hplaced.splice_eq] at hmeets
    simpa using hmeets
  · intro offset items hitems
    rw [width_append, ← Nat.add_assoc] at hitems
    refine ⟨terminator, _, List.append_assoc .., ?_, hplaced.reread _ _ hitems⟩
    obtain ⟨token, after, rfl, hline⟩ := hplaced.starts_line
    exact hterm token _ hline

/-- **Imports are put in front of the terminator** if it comes first and no line break follows
it. -/
theorem exists_joined_before (hpaths : paths ≠ []) (hquoted : ∀ path ∈ paths, IsQuoted path)
    (hterm : terminatorLength? (terminator ++ first :: rest) = some terminator.length)
    (hscanned : Scanned (terminator ++ first :: rest) last)
    (hnone : splitAtLineBreak? (unscan terminator ++ first.gap) = none)
    (hfirst : (trimStart (unscan terminator ++ first.gap)).head? = some ';') :
    ∃ inserted behind, Joined paths terminator first rest last inserted behind := by
  have hne : importRun paths ≠ [] := by simp [importRun_eq hpaths]
  refine ⟨importTokens ['\n', '\n'] ['\n'] paths ++ terminator, first :: rest, ?_, ?_, ?_,
    fun _ => ⟨first.gap, rfl⟩, fun _ hstrands => absurd hfirst hstrands.2⟩
  · rw [splice, cutAtLineBreak?_eq, if_neg hne, hnone]
    simp only [if_pos hfirst, importRun_eq hpaths, unscan_append]
    rw [unscan_importTokens _ _ hpaths, unscan_importTokens ['\n'] _ hpaths]
    simp
  · rw [List.append_assoc]
    exact scanned_importTokens false hquoted (.space rfl (.space rfl (.nil _))) hscanned
  · intro offset items hitems
    rw [width_append, ← Nat.add_assoc] at hitems
    refine ⟨[], _, List.append_assoc .., ?_, ItemsRead.exists_imports hpaths rfl hterm hitems⟩
    obtain ⟨token, after, htokens, hgap⟩ := exists_importTokens_cons ['\n', '\n'] ['\n'] hpaths
    rw [htokens]
    refine terminatorLength?_of_onNewLine ?_
    rw [Token.onNewLine, hgap]
    rfl

/-- **Imports leave a semicolon behind** that neither comes first nor stands in front of a line
break. -/
theorem exists_joined_stranded {semicolon : Token} (hpaths : paths ≠ [])
    (hquoted : ∀ path ∈ paths, IsQuoted path) (hlexeme : semicolon.lexeme = .mark .semicolon)
    (hspelled : semicolon.Spelled) (hscanned : Scanned (semicolon :: first :: rest) last)
    (hgap : Trivia .outside semicolon.gap mode) (hline : semicolon.onNewLine = false)
    (hstrands : StrandsTerminator (unscan [semicolon] ++ first.gap)) :
    ∃ inserted behind, Joined paths [semicolon] first rest last inserted behind := by
  have hne : importRun paths ≠ [] := by simp [importRun_eq hpaths]
  have htext : semicolon.text = [';'] := by simpa [marks] using hspelled _ hlexeme
  have hwhole : unscan [semicolon] ++ first.gap = semicolon.gap ++ ';' :: first.gap := by
    simp [htext]
  rw [hwhole] at hstrands
  have hsplice := splice_stranded hgap hstrands (by simpa [Token.onNewLine] using hline) hne
  obtain ⟨inserted, gap', hplaced⟩ := exists_placed hpaths hquoted hscanned
  refine ⟨inserted, { semicolon with gap := gap' } :: first :: rest, ?_, hplaced.scanned, ?_, ?_,
    fun _ _ => ⟨_, rfl, hlexeme⟩⟩
  · rw [hwhole, hsplice, ← hplaced.splice_eq]
    simp [htext]
  · intro offset items hitems
    refine ⟨[], _, rfl, ?_, hplaced.reread _ _ hitems⟩
    obtain ⟨token, after, rfl, hline⟩ := hplaced.starts_line
    exact terminatorLength?_of_onNewLine hline
  · rw [hwhole]
    exact fun hkept => absurd hstrands (hkept.resolve_left hpaths)

/-- How the token of a terminator is spelled. -/
theorem Token.Spelled.exists_terminator {token : Token} (h : token.Spelled)
    (hmark : token.lexeme = .mark .semicolon ∨ token.lexeme = .mark .null) :
    ∃ c, token.text = [c] ∧ (c = ';' ∨ c = nullChar) ∧ token.isSolid = true := by
  obtain ⟨c, htext, hc⟩ := h.text_terminator hmark
  refine ⟨c, htext, hc, ?_⟩
  have hslash : c ≠ '/' := by rcases hc with rfl | rfl <;> decide
  rcases hmark with hmark | hmark <;> simp [Token.isSolid, hmark, htext, hslash]

/-- **Imports are put in front of a declaration** where there is room for them. In front of
the place the text is the same up to a stop. -/
theorem exists_joined (hpaths : paths ≠ []) (hquoted : ∀ path ∈ paths, IsQuoted path)
    (hterm : terminatorLength? (terminator ++ first :: rest) = some terminator.length)
    (hspelled : ∀ token ∈ terminator, token.Spelled)
    (hscanned : Scanned (terminator ++ first :: rest) last)
    (hroom : HasRoom (terminator ++ first :: rest) (unscan terminator ++ first.gap)) :
    (∃ inserted behind, Joined paths terminator first rest last inserted behind) ∧
      ∀ tail tail', Meets (unscan terminator ++ first.gap ++ tail)
        (splice (unscan terminator ++ first.gap) (importRun paths) [] ++ tail') := by
  have hrun := head_importRun hpaths
  rcases terminator_cases hterm with ⟨rfl, token, _, hfirst, hbreak⟩ | ⟨token, rfl, hline, hmark⟩
  · -- the line break that ends the clause is the one the imports are put at
    obtain ⟨rfl, -⟩ := List.cons.inj hfirst
    refine ⟨exists_joined_behind hpaths hquoted
      (fun token after hline => terminatorLength?_of_onNewLine hline) rfl hscanned hbreak hbreak
      rfl, ?_⟩
    exact meets_splice hrun (.inl hbreak)
  have hspelled := hspelled token (by simp)
  obtain ⟨c, htext, hc, hsolid⟩ := hspelled.exists_terminator hmark
  have hnone : splitAtLineBreak? token.gap = none := by simpa [Token.onNewLine] using hline
  have hwhole : unscan [token] ++ first.gap = token.gap ++ c :: first.gap := by simp [htext]
  obtain ⟨mode, hmode, hgap, hsame⟩ : ∃ mode, mode ≠ .block ∧ Trivia .outside token.gap mode ∧
      splitAtLineBreakFrom? mode first.gap = splitAtLineBreak? first.gap := by
    rw [hwhole] at hroom
    have hsplit := hscanned.1.gap_eq
    rw [htext] at hsplit
    exact hroom.exists_mode hsplit
  have hfound := splitAtLineBreak?_terminator hgap hmode hnone hc hsame
  rw [← hwhole] at hfound
  -- the first line break of the text stands behind the terminator, if anywhere
  cases hbreak : splitAtLineBreak? first.gap with
  | some parts =>
    rw [hbreak] at hfound
    have hline : first.onNewLine = true := by rw [Token.onNewLine, hbreak, Option.isSome_some]
    have hsome : (splitAtLineBreak? (unscan [token] ++ first.gap)).isSome := by
      rw [hfound]
      rfl
    refine ⟨exists_joined_behind hpaths hquoted ?_ ?_ hscanned hline hsome ?_,
      meets_splice hrun (.inl hsome)⟩
    · intro next after _
      exact hterm
    · simp [hsolid]
    · rw [hwhole] at hfound ⊢
      rw [splice_behind hc hfound hbreak (by simp [importRun_eq hpaths])]
      simp [htext]
  | none =>
    have hmissed : splitAtLineBreak? (unscan [token] ++ first.gap) = none := by
      rw [hfound, hbreak]
      rfl
    by_cases hstrands : StrandsTerminator (unscan [token] ++ first.gap)
    · obtain ⟨hlexeme, -⟩ :=
        eq_semicolon_of_not_reachesNull (hroom.ended hstrands) hline hmark
      have htext : token.text = [';'] := by simpa [marks] using hspelled _ hlexeme
      refine ⟨exists_joined_stranded hpaths hquoted hlexeme hspelled hscanned hgap hline hstrands,
        meets_splice hrun (.inr ?_)⟩
      have hstop := head_mem_stops hgap first.gap
      simpa [htext] using hstop
    · have hhead : (trimStart (unscan [token] ++ first.gap)).head? = some ';' := by
        by_contra hne
        exact hstrands ⟨hmissed, hne⟩
      refine ⟨exists_joined_before hpaths hquoted hterm hscanned hmissed hhead,
        meets_splice hrun (.inr ?_)⟩
      rw [hwhole] at hhead ⊢
      obtain rfl := eq_of_head_trimStart hgap (by rcases hc with rfl | rfl <;> rfl) hhead
      exact head_mem_stops hgap first.gap

end

end EntryProbe.Go
