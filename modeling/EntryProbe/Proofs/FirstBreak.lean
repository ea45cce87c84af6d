import EntryProbe.Go.LineBreak
import EntryProbe.Go.Trivia
import EntryProbe.Proofs.Places

/-!
# The first line break of a text

The search for a line break (`EntryProbe.Go.searchLineBreak`) counts bytes and leaps over
comments. It finds the same as a reader that goes through the text from left to right and
keeps nothing in mind but the comment that is open – in any text, whatever marks overlap in it
or are left without an end.

* `EntryProbe.Go.searchBehind_eq` – the search agrees with the splitting of a text at its
  line break, which goes one character at a time and looks one ahead. What the search comes
  to behind a piece of the text is written down for each mode (`EntryProbe.Go.searchBehind`),
  and each character moves it on. Outside comments, a character takes as many turns as it has
  bytes;
* `EntryProbe.Go.CommentState` – the reader that does not look ahead, and
  `EntryProbe.Go.FirstBreak`, the first line feed that it meets outside block comments;
* `EntryProbe.Go.searchLineBreak_exact` – the search finds this one.
-/

namespace EntryProbe.Go

section

variable {text front rest pattern : List Char} {offset skip : Nat} {c : Char}

theorem head?_ne_some (h : ∀ rest', rest = c :: rest' → False) : rest.head? ≠ some c := by
  intro hhead
  obtain ⟨rest', rfl⟩ := List.head?_eq_some_iff.mp hhead
  exact h rest' rfl

/-! ### Inside comments -/

/-- The search from an offset on, if there is one. -/
def resume (text : List Char) : Option Nat → Option (Option Nat)
  | some offset => searchLineBreak text offset
  | none => some none

/-- The search behind `front`, inside a comment that ends where a pattern occurs. It goes on
`skip` bytes behind that. -/
def searchInside (pattern : List Char) (skip : Nat) (front rest : List Char) :
    Option (Option Nat) :=
  resume (front ++ rest) ((offsetOf? pattern rest).map (byteLength front + · + skip))

theorem searchLineBreak_of_leap {stop? : Option Nat}
    (h : lineBreakTurn text offset = some (.leap stop?)) :
    searchLineBreak text offset = resume text stop? := by
  cases stop? with
  | none => exact searchLineBreak_of_absent h
  | some stop => exact searchLineBreak_of_goOn h

/-- A comment is opened by two characters. -/
theorem searchLineBreak_open (hc : c.utf8Size = 1)
    (h : lineBreakTurn (front ++ '/' :: c :: rest) (byteLength front) =
      some (.leap ((offsetOf? pattern rest).map (byteLength front + · + (skip + 2))))) :
    searchLineBreak (front ++ '/' :: c :: rest) (byteLength front) =
      searchInside pattern skip (front ++ ['/', c]) rest := by
  have hlength : byteLength (front ++ ['/', c]) = byteLength front + 2 := by
    rw [byteLength_append, byteLength_cons, byteLength_cons, hc]
    rfl
  rw [searchLineBreak_of_leap h, searchInside, List.append_assoc, hlength]
  congr 2
  funext stop
  omega

/-- A character of the comment. -/
theorem searchInside_cons (h : pattern.isPrefixOf (c :: rest) = false) :
    searchInside pattern skip front (c :: rest) =
      searchInside pattern skip (front ++ [c]) rest := by
  rw [searchInside, offsetOf?, if_neg (by simp [h]), Option.map_map, searchInside,
    List.append_assoc]
  congr 2
  funext stop
  simp only [byteLength_append, byteLength_cons, byteLength_nil, Function.comp]
  omega

/-- The end of the comment. -/
theorem searchInside_end (h : pattern.isPrefixOf (c :: rest) = true) :
    searchInside pattern skip front (c :: rest) =
      searchLineBreak (front ++ c :: rest) (byteLength front + skip) := by
  rw [searchInside, offsetOf?, if_pos h]
  rfl

/-! ### One character after the other -/

/-- The search behind `front`, where a comment may be open, in a text that goes on with
`rest`. -/
def searchBehind : CommentMode → List Char → List Char → Option (Option Nat)
  | .outside, front, rest => searchLineBreak (front ++ rest) (byteLength front)
  | .line, front, rest => searchInside ['\n'] 0 front rest
  | .block, front, rest => searchInside ['*', '/'] 2 front rest

theorem searchBehind_nil (mode : CommentMode) (front : List Char) :
    searchBehind mode front [] = some none := by
  cases mode with
  | outside => exact searchLineBreak_of_absent (lineBreakTurn_end (by simp))
  | line => rfl
  | block => rfl

theorem searchBehind_openBlock (front rest : List Char) :
    searchBehind .outside front ('/' :: '*' :: rest) =
      searchBehind .block (front ++ ['/', '*']) rest :=
  searchLineBreak_open rfl (lineBreakTurn_block front rest)

theorem searchBehind_openLine (front rest : List Char) :
    searchBehind .outside front ('/' :: '/' :: rest) =
      searchBehind .line (front ++ ['/', '/']) rest :=
  searchLineBreak_open rfl (lineBreakTurn_line front rest)

theorem searchBehind_closeBlock (front rest : List Char) :
    searchBehind .block front ('*' :: '/' :: rest) =
      searchBehind .outside (front ++ ['*', '/']) rest := by
  refine (searchInside_end rfl).trans ?_
  rw [searchBehind, List.append_assoc, byteLength_append]
  rfl

theorem searchBehind_inBlock (h : c = '*' → rest.head? ≠ some '/') :
    searchBehind .block front (c :: rest) = searchBehind .block (front ++ [c]) rest := by
  refine searchInside_cons ?_
  cases rest with
  | nil => simp [List.isPrefixOf]
  | cons d rest =>
    have hnot : ¬('*' = c ∧ '/' = d) := fun ⟨hc, hd⟩ => h hc.symm (congrArg some hd.symm)
    simpa [List.isPrefixOf] using hnot

theorem searchBehind_inLine (h : c ≠ '\n') :
    searchBehind .line front (c :: rest) = searchBehind .line (front ++ [c]) rest :=
  searchInside_cons (by simpa [List.isPrefixOf] using h.symm)

theorem searchBehind_newline {mode : CommentMode} (h : mode ≠ .block) (front rest : List Char) :
    searchBehind mode front ('\n' :: rest) = some (some (byteLength front)) := by
  have hfound := searchLineBreak_of_found (lineBreakTurn_newline front rest)
  cases mode with
  | outside => exact hfound
  | line => exact hfound
  | block => exact absurd rfl h

/-- Of the offsets in front of a character and inside it, only the first one is a place. -/
theorem rest_eq_of_lt_utf8Size {rest' : List Char} {n : Nat} (hn : n < c.utf8Size)
    (h : RestAt (front ++ c :: rest) (byteLength front + n) rest') : rest' = c :: rest := by
  have hfront : RestAt (front ++ c :: rest) (byteLength front) (c :: rest) := ⟨front, rfl, rfl⟩
  obtain ⟨piece, rest'', hpiece, hrest, hlength⟩ :=
    IsPlace.exists_between hfront h.isPlace (Nat.le_add_right _ n)
  cases piece with
  | nil => exact (h.unique hrest).trans hpiece.symm
  | cons d piece =>
    obtain rfl := (List.cons.inj hpiece).1
    rw [byteLength_cons] at hlength
    omega

/-- The search goes on from byte to byte. -/
theorem searchLineBreak_add {count : Nat}
    (h : ∀ n < count, lineBreakTurn text (offset + n) = some (.goOn (offset + n + 1))) :
    searchLineBreak text offset = searchLineBreak text (offset + count) := by
  induction count with
  | zero => rfl
  | succ count ih =>
    rw [ih fun n hn => h n (Nat.lt_succ_of_lt hn),
      searchLineBreak_of_goOn (h count (Nat.lt_succ_self count))]
    rfl

/-- **A character that opens no comment is passed over**, byte by byte. -/
theorem searchBehind_outside (hbreak : c ≠ '\n')
    (hopen : c = '/' → rest.head? ≠ some '*' ∧ rest.head? ≠ some '/') :
    searchBehind .outside front (c :: rest) = searchBehind .outside (front ++ [c]) rest := by
  have hplain : ∀ n < c.utf8Size, lineBreakTurn (front ++ c :: rest) (byteLength front + n) =
      some (.goOn (byteLength front + n + 1)) := by
    intro n hn
    -- a turn that does something else stands at a place, hence in front of the character
    rcases lineBreakTurn_cases (front ++ c :: rest) (byteLength front + n) with
      ⟨before, rest', h⟩ | ⟨before, rest', h⟩ | ⟨before, rest', h⟩ | hle | ⟨-, h⟩
    · cases rest_eq_of_lt_utf8Size hn ⟨before, h⟩
      exact absurd rfl hbreak
    · cases rest_eq_of_lt_utf8Size hn ⟨before, h⟩
      exact absurd rfl (hopen rfl).1
    · cases rest_eq_of_lt_utf8Size hn ⟨before, h⟩
      exact absurd rfl (hopen rfl).2
    · rw [byteLength_append, byteLength_cons] at hle
      omega
    · exact h
  rw [searchBehind, searchLineBreak_add hplain, searchBehind, List.append_assoc, byteLength_append]
  rfl

/-- **The search finds the line break that a text is split at.** -/
theorem searchBehind_eq (mode : CommentMode) (front rest : List Char) :
    searchBehind mode front rest =
      some ((splitAtLineBreakFrom? mode rest).map fun (line, _) => byteLength (front ++ line)) := by
  fun_induction splitAtLineBreakFrom? mode rest generalizing front with
  | case1 mode => exact searchBehind_nil mode front
  | case2 rest ih =>
    rw [searchBehind_openBlock, ih, Option.map_map]
    simp [Function.comp_def]
  | case3 rest ih =>
    rw [searchBehind_openLine, ih, Option.map_map]
    simp [Function.comp_def]
  | case4 rest ih =>
    rw [searchBehind_closeBlock, ih, Option.map_map]
    simp [Function.comp_def]
  | case5 c rest hclose ih =>
    rw [searchBehind_inBlock fun hc => head?_ne_some fun rest => hclose rest hc, ih,
      Option.map_map]
    simp [Function.comp_def]
  | case6 mode rest hblock =>
    rw [searchBehind_newline hblock]
    simp
  | case7 mode c rest hopenBlock hopenLine _ hblock hbreak ih =>
    cases mode with
    | outside =>
      have hopen : c = '/' → rest.head? ≠ some '*' ∧ rest.head? ≠ some '/' := fun hc =>
        ⟨head?_ne_some fun rest => hopenBlock rest rfl hc,
          head?_ne_some fun rest => hopenLine rest rfl hc⟩
      rw [searchBehind_outside hbreak hopen, ih, Option.map_map]
      simp [Function.comp_def]
    | line =>
      rw [searchBehind_inLine hbreak, ih, Option.map_map]
      simp [Function.comp_def]
    | block => exact absurd rfl hblock

theorem searchLineBreak_eq (text : List Char) :
    searchLineBreak text 0 =
      some ((splitAtLineBreak? text).map fun (line, _) => byteLength line) :=
  searchBehind_eq .outside [] text

/-- **The printer cuts a text where it is split.** -/
theorem cutAtLineBreak?_eq (text : List Char) : cutAtLineBreak? text = splitAtLineBreak? text := by
  have hoffset : lineBreakOffset? text =
      (splitAtLineBreak? text).map fun (line, _) => byteLength line :=
    Option.get_of_eq_some _ (searchLineBreak_eq text)
  rw [cutAtLineBreak?, hoffset]
  cases hsplit : splitAtLineBreak? text with
  | none => rfl
  | some parts =>
    obtain ⟨line, after⟩ := parts
    rw [← splitAtLineBreakFrom?_append hsplit]
    exact splitAtByte?_byteLength line after

end

/-! ### Reading without looking ahead -/

/-- How far the comments of a text have been read. Literals are not known: in a gap there are
none. -/
structure CommentState where
  /-- The comment that is open. -/
  mode : CommentMode
  /-- The last character may be the first half of a mark: a slash outside comments, or a star
  in a block comment. -/
  half : Bool
  deriving Repr, DecidableEq

namespace CommentState

/-- No comment is open. -/
def start : CommentState :=
  ⟨.outside, false⟩

/-- What a character leads to. The second half of a mark is the first half of none. -/
def step : CommentState → Char → CommentState
  | ⟨.outside, half⟩, c =>
    if half = true ∧ c = '/' then ⟨.line, false⟩
    else if half = true ∧ c = '*' then ⟨.block, false⟩
    else ⟨.outside, c == '/'⟩
  | ⟨.line, _⟩, c => ⟨if c = '\n' then .outside else .line, false⟩
  | ⟨.block, half⟩, c =>
    if half = true ∧ c = '/' then ⟨.outside, false⟩
    else ⟨.block, c == '*'⟩

/-- What a text leads to. -/
def after (state : CommentState) (text : List Char) : CommentState :=
  text.foldl step state

end CommentState

/-- **The first line feed outside block comments** stands behind `line`. One that ends a line
comment is outside. -/
structure FirstBreak (state : CommentState) (text line : List Char) : Prop where
  /-- There is a line feed behind `line`. -/
  feed : line ++ ['\n'] <+: text
  /-- It is not inside a block comment. -/
  outside : (state.after line).mode ≠ .block
  /-- All line feeds in front of it are. -/
  earlier : ∀ before, before ++ ['\n'] <+: line → (state.after before).mode = .block

/-- A text is split in front of its first line feed outside block comments, or it has none. -/
def SplitAtFirst (state : CommentState) (text : List Char) : Option (List Char × List Char) → Prop
  | some (line, _) => FirstBreak state text line
  | none => ∀ line, line ++ ['\n'] <+: text → (state.after line).mode = .block

section

variable {state next : CommentState} {text line line' : List Char} {c : Char}

theorem FirstBreak.length_le (h : FirstBreak state text line) (h' : FirstBreak state text line') :
    line'.length ≤ line.length := by
  refine Nat.le_of_not_lt fun hlt => h.outside (h'.earlier line ?_)
  have hline' : line' <+: text := (List.prefix_append line' ['\n']).trans h'.feed
  exact List.prefix_of_prefix_length_le h.feed hline' (by rw [List.length_append]; exact hlt)

/-- There is only one first line feed. -/
theorem FirstBreak.unique (h : FirstBreak state text line) (h' : FirstBreak state text line') :
    line = line' := by
  have hline : line <+: text := (List.prefix_append line ['\n']).trans h.feed
  have hline' : line' <+: text := (List.prefix_append line' ['\n']).trans h'.feed
  have hprefix : line <+: line' := List.prefix_of_prefix_length_le hline hline' (h'.length_le h)
  exact hprefix.eq_of_length_le (h.length_le h')

/-- The line feeds of a text with one more character in front. -/
theorem inside_cons (hc : c ≠ '\n' ∨ state.mode = .block)
    (h : ∀ line, line ++ ['\n'] <+: text → ((state.step c).after line).mode = .block) :
    ∀ line, line ++ ['\n'] <+: c :: text → (state.after line).mode = .block := by
  intro line hline
  cases line with
  | nil => exact hc.resolve_left fun hne => hne (List.cons_prefix_cons.mp hline).1.symm
  | cons d line =>
    obtain ⟨rfl, hrest⟩ := List.cons_prefix_cons.mp hline
    exact h line hrest

/-- A text with one more character in front, which is no line feed or inside a block
comment. -/
theorem SplitAtFirst.cons {found : Option (List Char × List Char)}
    (h : SplitAtFirst next text found) (hstep : state.step c = next)
    (hc : c ≠ '\n' ∨ state.mode = .block) :
    SplitAtFirst state (c :: text) (found.map fun (line, after) => (c :: line, after)) := by
  subst hstep
  cases found with
  | none => exact inside_cons hc h
  | some parts =>
    exact ⟨List.cons_prefix_cons.mpr ⟨rfl, h.feed⟩, h.outside, inside_cons hc h.earlier⟩

/-- No mark goes on into the text: the last character is not the first half of one, or the
text does not start with the second half. -/
def BetweenMarks (state : CommentState) (text : List Char) : Prop :=
  state.half = true → text.head? ≠ some '/' ∧ (state.mode = .outside → text.head? ≠ some '*')

theorem betweenMarks_of_whole (mode : CommentMode) (text : List Char) :
    BetweenMarks ⟨mode, false⟩ text :=
  nofun

theorem BetweenMarks.step_eq {mode : CommentMode} (h : BetweenMarks state (c :: text))
    (hmode : state.mode = mode) : state.step c = CommentState.step ⟨mode, false⟩ c := by
  subst hmode
  obtain ⟨mode, half⟩ := state
  cases half with
  | false => rfl
  | true =>
    obtain ⟨hslash, hstar⟩ := h rfl
    have hc : c ≠ '/' := fun hc => hslash (congrArg some hc)
    cases mode with
    | outside =>
      have hc' : c ≠ '*' := fun hc => hstar rfl (congrArg some hc)
      simp [CommentState.step, hc, hc']
    | line => rfl
    | block => simp [CommentState.step, hc]

/-- **A text is split at its first line feed outside block comments.** The splitting takes a
mark at once, and the reader takes it in two steps; the induction is from one place between
marks to the next. -/
theorem splitAtFirst_splitAtLineBreakFrom? {mode : CommentMode} (hmode : state.mode = mode)
    (hmarks : BetweenMarks state text) :
    SplitAtFirst state text (splitAtLineBreakFrom? mode text) := by
  fun_induction splitAtLineBreakFrom? mode text generalizing state with
  | case1 mode =>
    intro line hline
    simpa using hline.length_le
  | case2 rest ih =>
    have hrest : SplitAtFirst ⟨.block, false⟩ rest _ := ih rfl (betweenMarks_of_whole _ rest)
    have hsecond : SplitAtFirst ⟨.outside, true⟩ ('*' :: rest) _ :=
      hrest.cons rfl (.inl (by decide))
    have hfirst := hsecond.cons (hmarks.step_eq hmode) (.inl (by decide))
    rwa [Option.map_map] at hfirst
  | case3 rest ih =>
    have hrest : SplitAtFirst ⟨.line, false⟩ rest _ := ih rfl (betweenMarks_of_whole _ rest)
    have hsecond : SplitAtFirst ⟨.outside, true⟩ ('/' :: rest) _ :=
      hrest.cons rfl (.inl (by decide))
    have hfirst := hsecond.cons (hmarks.step_eq hmode) (.inl (by decide))
    rwa [Option.map_map] at hfirst
  | case4 rest ih =>
    have hrest : SplitAtFirst ⟨.outside, false⟩ rest _ := ih rfl (betweenMarks_of_whole _ rest)
    have hsecond : SplitAtFirst ⟨.block, true⟩ ('/' :: rest) _ :=
      hrest.cons rfl (.inl (by decide))
    have hfirst := hsecond.cons (hmarks.step_eq hmode) (.inl (by decide))
    rwa [Option.map_map] at hfirst
  | case5 c rest hclose ih =>
    have hmark : BetweenMarks ⟨.block, c == '*'⟩ rest := fun hhalf =>
      ⟨head?_ne_some fun rest => hclose rest (beq_iff_eq.mp hhalf),
        fun houtside => by cases houtside⟩
    have hrest : SplitAtFirst ⟨.block, c == '*'⟩ rest _ := ih rfl hmark
    exact hrest.cons (hmarks.step_eq hmode) (.inr hmode)
  | case6 mode rest hblock =>
    subst hmode
    exact ⟨by simp, hblock, by simp⟩
  | case7 mode c rest hopenBlock hopenLine _ hblock hbreak ih =>
    cases mode with
    | outside =>
      have hmark : BetweenMarks ⟨.outside, c == '/'⟩ rest := fun hhalf =>
        ⟨head?_ne_some fun rest => hopenLine rest rfl (beq_iff_eq.mp hhalf),
          fun _ => head?_ne_some fun rest => hopenBlock rest rfl (beq_iff_eq.mp hhalf)⟩
      have hrest : SplitAtFirst ⟨.outside, c == '/'⟩ rest _ := ih rfl hmark
      exact hrest.cons (hmarks.step_eq hmode) (.inl hbreak)
    | line =>
      have hrest : SplitAtFirst ⟨.line, false⟩ rest _ := ih rfl (betweenMarks_of_whole _ rest)
      have hstep : CommentState.step ⟨.line, false⟩ c = ⟨.line, false⟩ := by
        simp [CommentState.step, hbreak]
      exact hrest.cons ((hmarks.step_eq hmode).trans hstep) (.inl hbreak)
    | block => exact absurd rfl hblock

/-- **The search is total and exact.** In any text it comes to an end and does not fail: the
text is never cut inside a character or past its end. It finds the offset of the first line
feed outside block comments, and nothing exactly if there is none. -/
theorem searchLineBreak_exact (text : List Char) :
    ∃ found, searchLineBreak text 0 = some found ∧ lineBreakOffset? text = found ∧
      (∀ offset, found = some offset ↔
        ∃ line, FirstBreak .start text line ∧ byteLength line = offset) ∧
      (found = none ↔
        ∀ line, line ++ ['\n'] <+: text → (CommentState.start.after line).mode = .block) := by
  have hsearch := searchLineBreak_eq text
  refine ⟨_, hsearch, Option.get_of_eq_some _ hsearch, ?_⟩
  have hsplit : SplitAtFirst .start text (splitAtLineBreak? text) :=
    splitAtFirst_splitAtLineBreakFrom? rfl nofun
  cases hparts : splitAtLineBreak? text with
  | none =>
    rw [hparts] at hsplit
    refine ⟨fun offset => ⟨nofun, ?_⟩, fun _ => hsplit, fun _ => rfl⟩
    rintro ⟨line, hfirst, -⟩
    exact absurd (hsplit line hfirst.feed) hfirst.outside
  | some parts =>
    obtain ⟨line, after⟩ := parts
    rw [hparts] at hsplit
    refine ⟨fun offset => ⟨fun hoffset => ?_, ?_⟩, nofun, fun hinside => ?_⟩
    · exact ⟨line, hsplit, Option.some.inj hoffset⟩
    · rintro ⟨line', hfirst, rfl⟩
      rw [hfirst.unique hsplit]
      rfl
    · exact absurd (hinside line hsplit.feed) hsplit.outside

/-- A comment is not ended by the star that opens it, and a character of two bytes is passed
over. -/
example : searchLineBreak "é/*/\n*/ // /*\n".toList 0 = some (some 14) := by decide +kernel

end

end EntryProbe.Go
