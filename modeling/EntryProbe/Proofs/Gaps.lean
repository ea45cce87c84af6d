import EntryProbe.Go.Printer
import EntryProbe.Go.Trivia

/-!
# Gaps

The gap in front of a token is white space and comments. `EntryProbe.Go.Trivia` says so one
character at a time, with the comment that is open before and behind; it is a relation and
not a function, so that a gap can be taken apart and put together.

* `EntryProbe.Go.trivia_of_splitTrivia`, `EntryProbe.Go.Trivia.split` – what is split off the
  front of a text is trivia, and trivia are split off where nothing goes on with them;
* `EntryProbe.Go.Trivia.exists_lineBreak` – on either side of the first line break outside
  block comments there are trivia.
-/

namespace EntryProbe.Go

/-- **White space and comments**: a text that is passed over as trivia, from one mode to
another. A block comment that is open at its end has no end inside it. -/
inductive Trivia : CommentMode → List Char → CommentMode → Prop
  /-- Nothing is left. -/
  | nil (mode : CommentMode) : Trivia mode [] mode
  /-- A line comment starts. -/
  | openLine {text : List Char} {mode : CommentMode} : Trivia .line text mode →
      Trivia .outside ('/' :: '/' :: text) mode
  /-- A block comment starts. -/
  | openBlock {text : List Char} {mode : CommentMode} : Trivia .block text mode →
      Trivia .outside ('/' :: '*' :: text) mode
  /-- White space. -/
  | space {c : Char} {text : List Char} {mode : CommentMode} : isSpace c = true →
      Trivia .outside text mode → Trivia .outside (c :: text) mode
  /-- A line comment ends. -/
  | closeLine {text : List Char} {mode : CommentMode} : Trivia .outside text mode →
      Trivia .line ('\n' :: text) mode
  /-- A line comment goes on. -/
  | inLine {c : Char} {text : List Char} {mode : CommentMode} : c ≠ '\n' → c ≠ nullChar →
      Trivia .line text mode → Trivia .line (c :: text) mode
  /-- A block comment ends. -/
  | closeBlock {text : List Char} {mode : CommentMode} : Trivia .outside text mode →
      Trivia .block ('*' :: '/' :: text) mode
  /-- A block comment goes on. -/
  | inBlock {c : Char} {text : List Char} {mode : CommentMode} : c ≠ nullChar →
      (c = '*' → text.head? ≠ some '/') → Trivia .block text mode → Trivia .block (c :: text) mode

/-- The characters that end a block comment. -/
def commentEnd : List Char := ['*', '/']

theorem ne_slash_of_isSpace {c : Char} (h : isSpace c = true) : c ≠ '/' := by
  rintro rfl
  cases h

theorem closesComment_cons {c : Char} {rest : List Char} (h : c = '*' → rest.head? ≠ some '/') :
    closesComment (c :: rest) = (c != nullChar && closesComment rest) := by
  rw [closesComment]
  rintro rest' rfl rfl
  exact h rfl rfl

/-- Where a block comment goes on, it goes on whatever follows the trivia. -/
theorem Trivia.head?_append_ne {text : List Char} {mode : CommentMode} {c : Char}
    (h : Trivia .block text mode) (hmode : mode ≠ .block)
    (hstar : c = '*' → text.head? ≠ some '/') (rest : List Char) :
    c = '*' → (text ++ rest).head? ≠ some '/' := by
  intro hc
  cases text with
  | nil =>
    cases h
    exact absurd rfl hmode
  | cons d text => exact hstar hc

/-- A block comment that ends is closed. -/
theorem Trivia.closesComment {text : List Char} {mode : CommentMode}
    (h : Trivia .block text mode) (hmode : mode ≠ .block) (rest : List Char) :
    closesComment (text ++ rest) = true := by
  generalize hstart : CommentMode.block = start at h
  induction h with
  | nil => exact absurd hstart.symm hmode
  | closeBlock => rfl
  | @inBlock c text mode hnull hstar h ih =>
    rw [List.cons_append, closesComment_cons (h.head?_append_ne hmode hstar rest), ih hmode rfl]
    simpa using hnull
  | _ => cases hstart

section

variable {text gap rest : List Char} {mode mode' : CommentMode}

theorem splitTriviaFrom_block_cons {c : Char} {rest : List Char}
    (h : c = '*' → rest.head? ≠ some '/') :
    splitTriviaFrom .block (c :: rest) =
      (c :: (splitTriviaFrom .block rest).1, (splitTriviaFrom .block rest).2) := by
  rw [splitTriviaFrom]
  rintro rest' rfl rfl
  exact h rfl rfl

/-- **Trivia are split off** where nothing goes on with them. -/
theorem Trivia.split (h : Trivia mode text mode') (hmode : mode' ≠ .block)
    (hrest : splitTriviaFrom mode' rest = ([], rest)) :
    splitTriviaFrom mode (text ++ rest) = (text, rest) := by
  induction h with
  | nil => exact hrest
  | openLine h ih => simp [splitTriviaFrom, ih hmode hrest]
  | openBlock h ih => simp [splitTriviaFrom, h.closesComment hmode, ih hmode hrest]
  | @space c text mode hc h ih =>
    have hne := ne_slash_of_isSpace hc
    rw [List.cons_append, splitTriviaFrom]
    · simp [hc, ih hmode hrest]
    · rintro rest' rfl
      exact absurd rfl hne
    · rintro rest' rfl
      exact absurd rfl hne
  | closeLine h ih =>
    simp [splitTriviaFrom, ih hmode hrest, nullChar]
  | inLine hline hnull h ih => simp [splitTriviaFrom, hline, hnull, ih hmode hrest]
  | closeBlock h ih => simp [splitTriviaFrom, ih hmode hrest]
  | @inBlock c text mode hnull hstar h ih =>
    rw [List.cons_append, splitTriviaFrom_block_cons (h.head?_append_ne hmode hstar rest),
      ih hmode hrest]

/-- **What is split off is trivia**, and nothing goes on with them. -/
theorem exists_trivia (h : mode = .block → closesComment text = true) :
    ∃ mode', mode' ≠ .block ∧ Trivia mode (splitTriviaFrom mode text).1 mode' ∧
      splitTriviaFrom mode' (splitTriviaFrom mode text).2 =
        ([], (splitTriviaFrom mode text).2) := by
  fun_induction splitTriviaFrom mode text with
  | case1 mode =>
    refine ⟨mode, fun hmode => ?_, .nil mode, by simp [splitTriviaFrom]⟩
    cases h hmode
  | case2 rest trivia after heq ih =>
    rw [heq] at ih
    obtain ⟨mode', hmode, htrivia, hstop⟩ := ih nofun
    exact ⟨mode', hmode, .openLine htrivia, hstop⟩
  | case3 rest hcloses trivia after heq ih =>
    rw [heq] at ih
    obtain ⟨mode', hmode, htrivia, hstop⟩ := ih fun _ => hcloses
    exact ⟨mode', hmode, .openBlock htrivia, hstop⟩
  | case4 rest hcloses => exact ⟨.outside, nofun, .nil _, by simp [splitTriviaFrom, hcloses]⟩
  | case5 c rest _ _ hc trivia after heq ih =>
    rw [heq] at ih
    obtain ⟨mode', hmode, htrivia, hstop⟩ := ih nofun
    exact ⟨mode', hmode, .space hc htrivia, hstop⟩
  | case6 c rest hline hblock hc =>
    refine ⟨.outside, nofun, .nil _, ?_⟩
    rw [splitTriviaFrom]
    · simp [hc]
    · exact hline
    · exact hblock
  | case7 rest => exact ⟨.line, nofun, .nil _, by simp [splitTriviaFrom]⟩
  | case8 c rest hc trivia after heq ih =>
    rw [heq] at ih
    obtain ⟨mode', hmode, htrivia, hstop⟩ := ih (by split <;> exact nofun)
    refine ⟨mode', hmode, ?_, hstop⟩
    by_cases hline : c = '\n'
    · rw [if_pos hline] at htrivia
      rw [hline]
      exact .closeLine htrivia
    · rw [if_neg hline] at htrivia
      exact .inLine hline hc htrivia
  | case9 rest trivia after heq ih =>
    rw [heq] at ih
    obtain ⟨mode', hmode, htrivia, hstop⟩ := ih nofun
    exact ⟨mode', hmode, .closeBlock htrivia, hstop⟩
  | case10 c rest hno trivia after heq ih =>
    have happend := splitTriviaFrom_append .block rest
    rw [heq] at ih happend
    have hcloses := h rfl
    rw [closesComment_cons fun hc hhead => ?_, Bool.and_eq_true] at hcloses
    · obtain ⟨mode', hmode, htrivia, hstop⟩ := ih fun _ => hcloses.2
      refine ⟨mode', hmode, .inBlock (by simpa using hcloses.1) (fun hc hhead => ?_) htrivia, hstop⟩
      obtain ⟨trivia', rfl⟩ := List.head?_eq_some_iff.mp hhead
      exact hno _ hc happend.symm
    · obtain ⟨rest', rfl⟩ := List.head?_eq_some_iff.mp hhead
      exact hno _ hc rfl

/-- **The gap in front of a token is trivia**, and nothing goes on with it. -/
theorem trivia_of_splitTrivia (h : splitTrivia text = (gap, rest)) :
    ∃ mode, mode ≠ .block ∧ Trivia .outside gap mode ∧
      splitTriviaFrom mode rest = ([], rest) := by
  have hexists := @exists_trivia text .outside nofun
  rwa [show splitTriviaFrom .outside text = (gap, rest) from h] at hexists

end

/-! ### Line breaks -/

section

variable {text rest line : List Char} {mode mode' : CommentMode}

/-- A line break leads out of a line comment, and is white space outside. -/
theorem Trivia.newline (h : Trivia .outside text mode') (hmode : mode ≠ .block) :
    Trivia mode ('\n' :: text) mode' := by
  cases mode with
  | outside => exact .space rfl h
  | line => exact .closeLine h
  | block => exact absurd rfl hmode

theorem Trivia.carriageReturn (h : Trivia mode text mode') (hmode : mode ≠ .block) :
    Trivia mode ('\r' :: text) mode' := by
  cases mode with
  | outside => exact .space rfl h
  | line => exact .inLine (by decide) (by decide) h
  | block => exact absurd rfl hmode

/-- Trivia may be followed by trivia. -/
theorem Trivia.append {mid : CommentMode} (h : Trivia mode text mid) (hmid : mid ≠ .block)
    (h' : Trivia mid rest mode') : Trivia mode (text ++ rest) mode' := by
  induction h with
  | nil => exact h'
  | openLine _ ih => exact .openLine (ih hmid h')
  | openBlock _ ih => exact .openBlock (ih hmid h')
  | space hc _ ih => exact .space hc (ih hmid h')
  | closeLine _ ih => exact .closeLine (ih hmid h')
  | inLine hline hnull _ ih => exact .inLine hline hnull (ih hmid h')
  | closeBlock _ ih => exact .closeBlock (ih hmid h')
  | inBlock hnull hstar h ih =>
    exact .inBlock hnull (h.head?_append_ne hmid hstar rest) (ih hmid h')

/-- White space at the end of a line, the line break apart. -/
def isLineBlank (c : Char) : Bool := c == ' ' || c == '\t' || c == '\r'

theorem Trivia.block_of_blank {blanks : List Char} (h : Trivia .block blanks mode)
    (hblanks : ∀ c ∈ blanks, isLineBlank c = true) : mode = .block := by
  generalize hstart : CommentMode.block = start at h
  induction h with
  | nil => rfl
  | closeBlock => cases hblanks '*' (by simp)
  | inBlock _ _ _ ih => exact ih (fun c hc => hblanks c (by simp [hc])) hstart
  | _ => cases hstart

/-- A character that is no white space is in front of the white space at the end. -/
theorem exists_cons_of_append_blanks {c : Char} {blanks : List Char}
    (hblanks : ∀ c ∈ blanks, isLineBlank c = true) (hc : isLineBlank c = false)
    (h : text ++ blanks = c :: rest) : ∃ text', text = c :: text' ∧ text' ++ blanks = rest := by
  cases text with
  | nil =>
    obtain rfl : blanks = c :: rest := h
    rw [hblanks c List.mem_cons_self] at hc
    cases hc
  | cons d text =>
    obtain ⟨rfl, htext⟩ := List.cons.inj h
    exact ⟨text, rfl, htext⟩

/-- Trivia stay trivia without the white space at their end. -/
theorem Trivia.trim {blanks : List Char} (h : Trivia mode (text ++ blanks) mode')
    (hmode : mode' ≠ .block) (hblanks : ∀ c ∈ blanks, isLineBlank c = true) :
    ∃ mid, mid ≠ .block ∧ Trivia mode text mid := by
  generalize htext : text ++ blanks = whole at h
  induction h generalizing text with
  | nil mode => exact ⟨mode, hmode, by rw [(List.append_eq_nil_iff.mp htext).1]; exact .nil mode⟩
  | openLine h ih =>
    obtain ⟨_, rfl, hbehind⟩ := exists_cons_of_append_blanks hblanks rfl htext
    obtain ⟨_, rfl, hinside⟩ := exists_cons_of_append_blanks hblanks rfl hbehind
    obtain ⟨mid, hmid, htrivia⟩ := ih hmode hinside
    exact ⟨mid, hmid, .openLine htrivia⟩
  | openBlock h ih =>
    obtain ⟨_, rfl, hbehind⟩ := exists_cons_of_append_blanks hblanks rfl htext
    obtain ⟨_, rfl, hinside⟩ := exists_cons_of_append_blanks hblanks rfl hbehind
    obtain ⟨mid, hmid, htrivia⟩ := ih hmode hinside
    exact ⟨mid, hmid, .openBlock htrivia⟩
  | space hspace h ih =>
    cases text with
    | nil => exact ⟨.outside, nofun, .nil _⟩
    | cons c text =>
      obtain ⟨rfl, hbehind⟩ := List.cons.inj htext
      obtain ⟨mid, hmid, htrivia⟩ := ih hmode hbehind
      exact ⟨mid, hmid, .space hspace htrivia⟩
  | closeLine h ih =>
    obtain ⟨_, rfl, hbehind⟩ := exists_cons_of_append_blanks hblanks rfl htext
    obtain ⟨mid, hmid, htrivia⟩ := ih hmode hbehind
    exact ⟨mid, hmid, .closeLine htrivia⟩
  | inLine hline hnull h ih =>
    cases text with
    | nil => exact ⟨.line, nofun, .nil _⟩
    | cons c text =>
      obtain ⟨rfl, hbehind⟩ := List.cons.inj htext
      obtain ⟨mid, hmid, htrivia⟩ := ih hmode hbehind
      exact ⟨mid, hmid, .inLine hline hnull htrivia⟩
  | closeBlock h ih =>
    obtain ⟨_, rfl, hbehind⟩ := exists_cons_of_append_blanks hblanks rfl htext
    obtain ⟨_, rfl, hinside⟩ := exists_cons_of_append_blanks hblanks rfl hbehind
    obtain ⟨mid, hmid, htrivia⟩ := ih hmode hinside
    exact ⟨mid, hmid, .closeBlock htrivia⟩
  | inBlock hnull hstar h ih =>
    cases text with
    | nil =>
      -- white space does not lead out of a block comment
      obtain rfl : blanks = _ := htext
      exact absurd ((Trivia.inBlock hnull hstar h).block_of_blank hblanks) hmode
    | cons c text =>
      obtain ⟨rfl, hbehind⟩ := List.cons.inj htext
      obtain ⟨mid, hmid, htrivia⟩ := ih hmode hbehind
      refine ⟨mid, hmid, .inBlock hnull (fun hc hhead => hstar hc ?_) htrivia⟩
      obtain ⟨text, rfl⟩ := List.head?_eq_some_iff.mp hhead
      rw [← hbehind]
      rfl

theorem splitAtLineBreakFrom?_outside {c : Char} (h : c ≠ '/') (text : List Char) :
    splitAtLineBreakFrom? .outside (c :: text) =
      if c = '\n' then some ([], c :: text) else
        (splitAtLineBreakFrom? .outside text).map fun (line, after) => (c :: line, after) := by
  rw [splitAtLineBreakFrom?]
  all_goals simp [h]

theorem splitAtLineBreakFrom?_block {c : Char} {text : List Char}
    (h : c = '*' → text.head? ≠ some '/') :
    splitAtLineBreakFrom? .block (c :: text) =
      (splitAtLineBreakFrom? .block text).map fun (line, after) => (c :: line, after) := by
  rw [splitAtLineBreakFrom?]
  rintro text rfl rfl
  exact h rfl rfl

/-- **The first line break of trivia** stands outside block comments. Before it and
behind it are trivia. -/
theorem Trivia.exists_lineBreak (h : Trivia mode text mode') (hmode : mode' ≠ .block)
    (hsplit : splitAtLineBreakFrom? mode text = some (line, rest)) :
    ∃ mid rest', mid ≠ .block ∧ Trivia mode line mid ∧ rest = '\n' :: rest' ∧
      Trivia .outside rest' mode' := by
  induction h generalizing line with
  | nil => simp [splitAtLineBreakFrom?] at hsplit
  | openLine h ih =>
    simp only [splitAtLineBreakFrom?, Option.map_eq_some_iff, Prod.exists, Prod.mk.injEq] at hsplit
    obtain ⟨line, _, hsplit, rfl, rfl⟩ := hsplit
    obtain ⟨mid, rest', hmid, hline, hrest⟩ := ih hmode hsplit
    exact ⟨mid, rest', hmid, .openLine hline, hrest⟩
  | openBlock h ih =>
    simp only [splitAtLineBreakFrom?, Option.map_eq_some_iff, Prod.exists, Prod.mk.injEq] at hsplit
    obtain ⟨line, _, hsplit, rfl, rfl⟩ := hsplit
    obtain ⟨mid, rest', hmid, hline, hrest⟩ := ih hmode hsplit
    exact ⟨mid, rest', hmid, .openBlock hline, hrest⟩
  | @space c text _ hspace h ih =>
    rw [splitAtLineBreakFrom?_outside (ne_slash_of_isSpace hspace)] at hsplit
    split at hsplit
    · next hc =>
      cases hsplit
      exact ⟨.outside, text, nofun, .nil _, by rw [hc], h⟩
    · simp only [Option.map_eq_some_iff, Prod.exists, Prod.mk.injEq] at hsplit
      obtain ⟨line, _, hsplit, rfl, rfl⟩ := hsplit
      obtain ⟨mid, rest', hmid, hline, hrest⟩ := ih hmode hsplit
      exact ⟨mid, rest', hmid, .space hspace hline, hrest⟩
  | @closeLine text _ h ih =>
    simp only [splitAtLineBreakFrom?, ↓reduceIte, Option.some.injEq, Prod.mk.injEq] at hsplit
    obtain ⟨rfl, rfl⟩ := hsplit
    exact ⟨.line, text, nofun, .nil _, rfl, h⟩
  | inLine hline hnull h ih =>
    simp only [splitAtLineBreakFrom?, hline, ↓reduceIte, Option.map_eq_some_iff, Prod.exists,
      Prod.mk.injEq] at hsplit
    obtain ⟨line, _, hsplit, rfl, rfl⟩ := hsplit
    obtain ⟨mid, rest', hmid, htrivia, hrest⟩ := ih hmode hsplit
    exact ⟨mid, rest', hmid, .inLine hline hnull htrivia, hrest⟩
  | closeBlock h ih =>
    simp only [splitAtLineBreakFrom?, Option.map_eq_some_iff, Prod.exists, Prod.mk.injEq] at hsplit
    obtain ⟨line, _, hsplit, rfl, rfl⟩ := hsplit
    obtain ⟨mid, rest', hmid, hline, hrest⟩ := ih hmode hsplit
    exact ⟨mid, rest', hmid, .closeBlock hline, hrest⟩
  | @inBlock c text _ hnull hstar h ih =>
    rw [splitAtLineBreakFrom?_block hstar] at hsplit
    simp only [Option.map_eq_some_iff, Prod.exists, Prod.mk.injEq] at hsplit
    obtain ⟨line, _, hsplit, rfl, rfl⟩ := hsplit
    have happend := splitAtLineBreakFrom?_append hsplit
    obtain ⟨mid, rest', hmid, hline, hrest⟩ := ih hmode hsplit
    refine ⟨mid, rest', hmid, .inBlock hnull (fun hc hhead => hstar hc ?_) hline, hrest⟩
    obtain ⟨line, rfl⟩ := List.head?_eq_some_iff.mp hhead
    rw [← happend]
    rfl

/-- Behind trivia without a line break the search for one goes on. -/
theorem Trivia.splitAtLineBreak?_append (h : Trivia mode text mode') (hmode : mode' ≠ .block)
    (hnone : splitAtLineBreakFrom? mode text = none) (rest : List Char) :
    splitAtLineBreakFrom? mode (text ++ rest) =
      (splitAtLineBreakFrom? mode' rest).map fun (line, after) => (text ++ line, after) := by
  induction h with
  | nil => simp
  | openLine h ih =>
    simp only [splitAtLineBreakFrom?, Option.map_eq_none_iff] at hnone
    simp only [List.cons_append, splitAtLineBreakFrom?, ih hmode hnone, Option.map_map]
    rfl
  | openBlock h ih =>
    simp only [splitAtLineBreakFrom?, Option.map_eq_none_iff] at hnone
    simp only [List.cons_append, splitAtLineBreakFrom?, ih hmode hnone, Option.map_map]
    rfl
  | @space c text _ hspace h ih =>
    rw [splitAtLineBreakFrom?_outside (ne_slash_of_isSpace hspace)] at hnone
    split at hnone
    · cases hnone
    · next hc =>
      rw [Option.map_eq_none_iff] at hnone
      rw [List.cons_append, splitAtLineBreakFrom?_outside (ne_slash_of_isSpace hspace), if_neg hc,
        ih hmode hnone, Option.map_map]
      rfl
  | closeLine h ih => simp [splitAtLineBreakFrom?] at hnone
  | inLine hline hnull h ih =>
    simp only [splitAtLineBreakFrom?, hline, ↓reduceIte, Option.map_eq_none_iff] at hnone
    simp only [List.cons_append, splitAtLineBreakFrom?, hline, ↓reduceIte, ih hmode hnone,
      Option.map_map]
    rfl
  | closeBlock h ih =>
    simp only [splitAtLineBreakFrom?, Option.map_eq_none_iff] at hnone
    simp only [List.cons_append, splitAtLineBreakFrom?, ih hmode hnone, Option.map_map]
    rfl
  | @inBlock c text _ hnull hstar h ih =>
    rw [splitAtLineBreakFrom?_block hstar, Option.map_eq_none_iff] at hnone
    rw [List.cons_append, splitAtLineBreakFrom?_block (h.head?_append_ne hmode hstar rest),
      ih hmode hnone, Option.map_map]
    rfl

/-- A line break behind trivia is found, or one before it. -/
theorem Trivia.isSome_splitAtLineBreak? (h : Trivia mode text mode') (hmode : mode' ≠ .block)
    {rest : List Char} (hrest : (splitAtLineBreakFrom? mode' rest).isSome) :
    (splitAtLineBreakFrom? mode (text ++ rest)).isSome := by
  induction h with
  | nil => exact hrest
  | openLine h ih => simpa [splitAtLineBreakFrom?] using ih hmode hrest
  | openBlock h ih => simpa [splitAtLineBreakFrom?] using ih hmode hrest
  | space hspace h ih =>
    rw [List.cons_append, splitAtLineBreakFrom?_outside (ne_slash_of_isSpace hspace)]
    split
    · rfl
    · simpa using ih hmode hrest
  | closeLine h ih => simp [splitAtLineBreakFrom?]
  | inLine hline hnull h ih => simpa [splitAtLineBreakFrom?, hline] using ih hmode hrest
  | closeBlock h ih => simpa [splitAtLineBreakFrom?] using ih hmode hrest
  | inBlock hnull hstar h ih =>
    rw [List.cons_append, splitAtLineBreakFrom?_block (h.head?_append_ne hmode hstar rest)]
    simpa using ih hmode hrest

/-- The second part starts with the line break. -/
theorem head_of_splitAtLineBreakFrom? {line rest : List Char}
    (h : splitAtLineBreakFrom? mode text = some (line, rest)) : rest.head? = some '\n' := by
  fun_induction splitAtLineBreakFrom? mode text generalizing line <;>
    grind [Option.map_eq_some_iff]

theorem isBlank_of_isSpace {c : Char} (h : isSpace c = true) : isBlank c = true := by
  simp only [isSpace, Bool.or_eq_true, beq_iff_eq] at h
  rcases h with ((((rfl | rfl) | rfl) | rfl) | rfl) | rfl <;> rfl

/-- Trivia stay trivia without the white space at their start. -/
theorem Trivia.trimStart (h : Trivia .outside text mode) :
    Trivia .outside (trimStart text) mode := by
  generalize hstart : CommentMode.outside = start at h
  induction h with
  | nil => exact .nil _
  | openLine h _ =>
    cases hstart
    exact .openLine h
  | openBlock h _ =>
    cases hstart
    exact .openBlock h
  | @space c text _ hspace h ih =>
    rw [EntryProbe.trimStart, List.dropWhile_cons_of_pos (isBlank_of_isSpace hspace)]
    exact ih rfl
  | _ => cases hstart

end

end EntryProbe.Go
