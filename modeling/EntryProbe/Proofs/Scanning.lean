import EntryProbe.Proofs.Gaps
import EntryProbe.Proofs.Lexemes
import EntryProbe.Proofs.Grammar.FirstGap
import EntryProbe.Proofs.SpanOrder

/-!
# Tokens that are scanned

A sequence of tokens is scanned if each of them is the first token of what is left of the
text (`EntryProbe.Go.Scanned`). That is a condition on one token after the other, each with
the text behind it (`EntryProbe.Go.Token.Starts`), so that a sequence can be changed in one
place and the others looked at one by one.

A token stays a token if what follows it changes only behind a stop
(`EntryProbe.Go.Meets`, `EntryProbe.Go.Token.Starts.of_meets`), with one exception: a slash
may become the start of a comment.

* `EntryProbe.Go.scanned_of_scan`, `EntryProbe.Go.scan_of_scanned` – the tokens of a source
  are scanned, and tokens that are scanned are those of their text. A byte order mark in
  front of the first one makes no difference.
-/

namespace EntryProbe.Go

/-- A text that starts with a token and goes on with `tail` is scanned as that token and
then `tail`. -/
structure Token.Starts (token : Token) (tail : List Char) : Prop where
  /-- The gap is the trivia at the start. -/
  gap_eq : splitTrivia (token.gap ++ (token.text ++ tail)) = (token.gap, token.text ++ tail)
  /-- A token is not empty. -/
  text_ne : token.text ≠ []
  /-- The text of the token is the longest token at its place. -/
  lexeme_eq : Go.lexeme (token.text ++ tail) = (token.lexeme, token.text.length)

/-- **These are the tokens of their own text**, with `last` behind them. -/
def Scanned : List Token → List Char → Prop
  | [], last => splitTrivia last = (last, [])
  | token :: tokens, last => token.Starts (unscan tokens ++ last) ∧ Scanned tokens last

theorem scanned_scanFrom {fuel : Nat} {text : List Char} (h : text.length ≤ fuel) :
    Scanned (scanFrom fuel text).1 (scanFrom fuel text).2 := by
  induction fuel generalizing text with
  | zero =>
    obtain rfl := List.eq_nil_of_length_eq_zero (Nat.le_zero.mp h)
    rfl
  | succ fuel ih =>
    have happend := splitTriviaFrom_append .outside text
    have hidem := @trivia_of_splitTrivia text _ _ rfl
    simp only [scanFrom, splitTrivia] at happend hidem ⊢
    generalize splitTriviaFrom .outside text = parts at happend hidem
    obtain ⟨gap, rest⟩ := parts
    obtain ⟨mode, hmode, htrivia, hstop⟩ := hidem
    cases rest with
    | nil =>
      have := htrivia.split hmode hstop
      rwa [List.append_nil] at this
    | cons c rest =>
      obtain ⟨hpos, hle⟩ := @lexeme_length c rest
      have hlength : ((c :: rest).drop (lexeme (c :: rest)).2).length ≤ fuel := by
        have := congrArg List.length happend
        rw [List.length_append] at this
        rw [List.length_drop]
        simp only at this ⊢
        omega
      have hscanned := ih hlength
      have htail := scanFrom_append fuel ((c :: rest).drop (lexeme (c :: rest)).2)
      refine ⟨?_, hscanned⟩
      simp only
      rw [htail]
      refine ⟨?_, ?_, ?_⟩
      · rw [List.take_append_drop]
        exact htrivia.split hmode hstop
      · intro hnil
        have := congrArg List.length hnil
        rw [List.length_take] at this
        simp only [List.length_nil] at this
        omega
      · simp only
        rw [List.take_append_drop, List.length_take, Nat.min_eq_left hle]

theorem length_lt_unscan {token : Token} {tail : List Char} (h : token.Starts tail)
    (tokens : List Token) (last : List Char) :
    (unscan tokens ++ last).length < (unscan (token :: tokens) ++ last).length := by
  have := List.length_pos_iff.mpr h.text_ne
  simp only [unscan_cons, List.length_append]
  omega

theorem scanFrom_of_scanned {fuel : Nat} {tokens : List Token} {last : List Char}
    (h : Scanned tokens last) (hfuel : (unscan tokens ++ last).length ≤ fuel) :
    scanFrom fuel (unscan tokens ++ last) = (tokens, last) := by
  induction tokens generalizing fuel with
  | nil =>
    cases fuel with
    | zero =>
      obtain rfl := List.eq_nil_of_length_eq_zero (Nat.le_zero.mp hfuel)
      rfl
    | succ fuel =>
      rw [unscan_nil, List.nil_append, scanFrom, show splitTrivia last = (last, []) from h]
  | cons token tokens ih =>
    obtain ⟨hstarts, hscanned⟩ := h
    have hlt := length_lt_unscan hstarts tokens last
    cases fuel with
    | zero => omega
    | succ fuel =>
      have hrest := ih hscanned (Nat.le_of_lt_succ (Nat.lt_of_lt_of_le hlt hfuel))
      rw [scanFrom, unscan_cons, List.append_assoc, List.append_assoc, hstarts.gap_eq]
      obtain ⟨c, text, htext⟩ := List.exists_cons_of_ne_nil hstarts.text_ne
      simp only
      rw [htext, List.cons_append]
      simp only
      rw [← List.cons_append, ← htext, hstarts.lexeme_eq]
      simp only [List.drop_left, List.take_left, hrest]

/-! ### What follows a token -/

/-- Two texts are the same, or the same up to stops. The second one does not go on with a
slash there, which might start a comment. -/
def Meets (tail tail' : List Char) : Prop :=
  tail = tail' ∨ ∃ shared c c' rest rest', c ∈ stops ∧ c' ∈ stops ∧ c' ≠ '/' ∧
    tail = shared ++ c :: rest ∧ tail' = shared ++ c' :: rest'

theorem Meets.append {tail tail' : List Char} (h : Meets tail tail') (text : List Char) :
    Meets (text ++ tail) (text ++ tail') := by
  rcases h with rfl | ⟨shared, c, c', rest, rest', hc, hc', hslash, rfl, rfl⟩
  · exact .inl rfl
  · exact .inr ⟨text ++ shared, c, c', rest, rest', hc, hc', hslash, by simp, by simp⟩

/-- What starts with a slash, or with a character that is no stop, does so on either side. -/
theorem Meets.head {tail tail' rest' : List Char} {c : Char} (h : Meets tail tail')
    (hc : c ∈ stops → c = '/') (htail' : tail' = c :: rest') : ∃ rest, tail = c :: rest := by
  rcases h with rfl | ⟨shared, d, d', rest, rest'', hd, hd', hslash, rfl, rfl⟩
  · exact ⟨rest', htail'⟩
  · cases shared with
    | nil =>
      obtain ⟨rfl, -⟩ := List.cons.inj htail'
      exact absurd (hc hd') hslash
    | cons e shared =>
      obtain ⟨rfl, -⟩ := List.cons.inj htail'
      exact ⟨_, rfl⟩

/-- Nothing that starts with a character is trivia: it is no white space, and no comment
starts. -/
theorem splitTriviaFrom_outside_iff {c : Char} {rest : List Char} :
    splitTriviaFrom .outside (c :: rest) = ([], c :: rest) ↔
      isSpace c = false ∧ (c = '/' → (∀ z, rest ≠ '/' :: z) ∧
        ∀ z, rest = '*' :: z → closesComment z = false) := by
  have hspace : isSpace '/' = false := by decide
  have hplain : (c = '/' → (∀ z, rest ≠ '/' :: z) ∧ ∀ z, rest ≠ '*' :: z) →
      splitTriviaFrom .outside (c :: rest) =
        if isSpace c then (c :: (splitTriviaFrom .outside rest).1,
          (splitTriviaFrom .outside rest).2) else ([], c :: rest) := by
    intro hno
    rw [splitTriviaFrom]
    · exact fun z hc => (hno hc).1 z
    · exact fun z hc => (hno hc).2 z
  by_cases hc : c = '/'
  · subst hc
    cases rest with
    | nil => simp [splitTriviaFrom, hspace]
    | cons d rest =>
      by_cases hd : d = '/'
      · subst hd
        simp [splitTriviaFrom]
      by_cases hd' : d = '*'
      · subst hd'
        simp [splitTriviaFrom, hspace]
      · rw [hplain (by simp [hd, hd'])]
        simp [hspace, hd, hd']
  · rw [hplain (by simp [hc])]
    simp [hc]

theorem splitTriviaFrom_line_iff {c : Char} {rest : List Char} :
    splitTriviaFrom .line (c :: rest) = ([], c :: rest) ↔ c = nullChar := by
  simp [splitTriviaFrom]

variable {token : Token} {tail tail' : List Char}

/-- **A token stays a token** if what follows it changes only behind a stop. A slash must
not become the start of a comment. -/
theorem Token.Starts.of_meets (h : token.Starts tail) (hmeets : Meets tail tail')
    (hstray : token.lexeme ≠ .stray)
    (hslash : token.text = ['/'] → ∀ z, tail' = '*' :: z → closesComment z = false) :
    token.Starts tail' := by
  obtain ⟨c, text, htext⟩ := List.exists_cons_of_ne_nil h.text_ne
  refine ⟨?_, h.text_ne, ?_⟩
  · -- the gap is followed by the same character as before
    obtain ⟨mode, hmode, htrivia, hstop⟩ := trivia_of_splitTrivia h.gap_eq
    refine htrivia.split hmode ?_
    rw [htext, List.cons_append] at hstop ⊢
    cases mode with
    | block => exact absurd rfl hmode
    | line => rwa [splitTriviaFrom_line_iff] at hstop ⊢
    | outside =>
      rw [splitTriviaFrom_outside_iff] at hstop ⊢
      obtain ⟨hspace, hcomment⟩ := hstop
      refine ⟨hspace, fun hc => ?_⟩
      obtain ⟨hline, -⟩ := hcomment hc
      subst hc
      cases text with
      | nil =>
        refine ⟨fun z hz => ?_, hslash htext⟩
        obtain ⟨rest, hrest⟩ := hmeets.head (by decide) hz
        exact hline rest hrest
      | cons d text =>
        refine ⟨fun z hz => ?_, fun z hz => ?_⟩
        · obtain ⟨rfl, -⟩ := List.cons.inj hz
          exact hline _ rfl
        · -- no token starts with a slash and a star
          obtain ⟨rfl, -⟩ := List.cons.inj hz
          have hlexeme := h.lexeme_eq
          rw [htext] at hlexeme
          simp only [List.cons_append, lexeme_slashStar, Prod.mk.injEq, List.length_cons] at hlexeme
          omega
  · rcases hmeets with rfl | ⟨shared, d, d', rest, rest', hd, hd', -, rfl, rfl⟩
    · exact h.lexeme_eq
    · have hlexeme := h.lexeme_eq
      rw [← List.append_assoc] at hlexeme ⊢
      refine lexeme_local hd hd' hlexeme hstray (by simp) ?_
      rw [htext]
      simp

/-- A token that is scanned is spelled as what it is. -/
theorem Token.Starts.spelled (h : token.Starts tail) : token.Spelled := by
  intro mark hmark
  have hspelled := @lexeme_spelled (token.text ++ tail) mark
  rw [h.lexeme_eq, List.take_left] at hspelled
  exact hspelled hmark

/-- A gap may take the place of another one: what follows is outside comments, or in a
line comment, as before. -/
def MayReplace (gap' gap : List Char) : Prop :=
  ∀ mode, mode ≠ .block → Trivia .outside gap mode → Trivia .outside gap' mode

/-- **A token stays a token behind another gap.** -/
theorem Token.Starts.regap (h : token.Starts tail) {gap : List Char}
    (hgap : MayReplace gap token.gap) : ({ token with gap } : Token).Starts tail := by
  obtain ⟨mode, hmode, htrivia, hstop⟩ := trivia_of_splitTrivia h.gap_eq
  exact ⟨(hgap mode hmode htrivia).split hmode hstop, h.text_ne, h.lexeme_eq⟩

theorem Scanned.regap {tokens : List Token} {last gap : List Char}
    (h : Scanned (token :: tokens) last)
    (hgap : MayReplace gap token.gap) : Scanned (Go.regap gap (token :: tokens)) last :=
  ⟨h.1.regap hgap, h.2⟩

theorem Scanned.append_right {front tokens : List Token} {last : List Char}
    (h : Scanned (front ++ tokens) last) : Scanned tokens last := by
  induction front with
  | nil => exact h
  | cons token front ih => exact ih h.2

theorem Scanned.drop {tokens : List Token} {last : List Char} (h : Scanned tokens last)
    (length : Nat) : Scanned (tokens.drop length) last := by
  rw [← List.take_append_drop length tokens] at h
  exact h.append_right

theorem Scanned.spelled {tokens : List Token} {last : List Char} (h : Scanned tokens last) :
    ∀ token ∈ tokens, token.Spelled := by
  induction tokens with
  | nil => exact nofun
  | cons token tokens ih => exact List.forall_mem_cons.mpr ⟨h.1.spelled, ih h.2⟩

theorem Scanned.exists_starts {tokens : List Token} {last : List Char} (h : Scanned tokens last) :
    ∀ token ∈ tokens, ∃ tail, token.Starts tail := by
  induction tokens with
  | nil => exact nofun
  | cons token tokens ih => exact List.forall_mem_cons.mpr ⟨⟨_, h.1⟩, ih h.2⟩

/-! ### Whole files -/

section

variable {source : List Char} {first : Token} {tokens tokens' : List Token} {last last' : List Char}

/-- The tokens of a source behind the first one are scanned. The first one may have a byte
order mark in front of it. -/
theorem scanned_of_scan (h : scan source = (first :: tokens, last)) :
    ∃ gap, ({ first with gap } : Token).Starts (unscan tokens ++ last) ∧ Scanned tokens last ∧
      (first.gap = gap ∧ (first.full ++ (unscan tokens ++ last)).head? ≠ some byteOrderMark ∨
        first.gap = byteOrderMark :: gap) := by
  cases source with
  | nil => cases h
  | cons c rest =>
    have hsource := scan_append (c :: rest)
    rw [h] at hsource
    simp only [scan] at h
    split at h
    · next hc =>
      have hscanned := scanned_scanFrom (Nat.le_refl rest.length)
      generalize scanFrom rest.length rest = parts at h hscanned
      obtain ⟨_ | ⟨token, tokens⟩, last⟩ := parts
      · cases h
      · cases h
        exact ⟨token.gap, hscanned.1, hscanned.2, .inr (by rw [hc])⟩
    · next hc =>
      have hscanned := scanned_scanFrom (Nat.le_refl (c :: rest).length)
      rw [h] at hscanned
      refine ⟨first.gap, hscanned.1, hscanned.2, .inl ⟨rfl, ?_⟩⟩
      have hhead : first.full ++ (unscan tokens ++ last) = c :: rest := by
        rw [← hsource]
        simp [Token.full]
      rw [hhead]
      simpa using hc

/-- Every token of a source is scanned at its place, but for the gap in front of it. -/
theorem exists_starts_of_scan (h : scan source = (tokens, last)) :
    ∀ token ∈ tokens, ∃ gap tail, ({ token with gap } : Token).Starts tail := by
  cases tokens with
  | nil => exact nofun
  | cons first tokens =>
    obtain ⟨gap, hfirst, hscanned, -⟩ := scanned_of_scan h
    refine List.forall_mem_cons.mpr ⟨⟨gap, _, hfirst⟩, fun token hmem => ?_⟩
    obtain ⟨tail, hstarts⟩ := hscanned.exists_starts token hmem
    exact ⟨token.gap, tail, hstarts⟩

theorem scan_of_scanned {gap : List Char}
    (hfirst : ({ first with gap } : Token).Starts (unscan tokens ++ last))
    (htokens : Scanned tokens last)
    (hmark : first.gap = gap ∧ (first.full ++ (unscan tokens ++ last)).head? ≠ some byteOrderMark ∨
      first.gap = byteOrderMark :: gap) :
    scan (unscan (first :: tokens) ++ last) = (first :: tokens, last) := by
  have hscan := @scanFrom_of_scanned _ ({ first with gap } :: tokens) _ ⟨hfirst, htokens⟩
    (Nat.le_refl _)
  rcases hmark with ⟨rfl, hhead⟩ | hgap
  · replace hscan : scanFrom (unscan (first :: tokens) ++ last).length
        (unscan (first :: tokens) ++ last) = (first :: tokens, last) := hscan
    have htext : first.full ++ (unscan tokens ++ last) = unscan (first :: tokens) ++ last := by
      simp [Token.full]
    rw [htext] at hhead
    generalize unscan (first :: tokens) ++ last = source at hscan hhead
    cases source with
    | nil => cases hscan
    | cons c rest =>
      have hc : c ≠ byteOrderMark := by simpa using hhead
      rw [scan, if_neg hc]
      exact hscan
  · have htext : unscan (first :: tokens) ++ last =
        byteOrderMark :: (unscan ({ first with gap } :: tokens) ++ last) := by
      simp [hgap]
    rw [htext]
    simp only [scan, ↓reduceIte, hscan]
    rw [← hgap]

/-- **A source may go on differently behind its first token.** -/
theorem scan_keep (h : scan source = (first :: tokens, last))
    (hmeets : Meets (unscan tokens ++ last) (unscan tokens' ++ last'))
    (hstray : first.lexeme ≠ .stray) (hslash : first.text ≠ ['/'])
    (hscanned : Scanned tokens' last') :
    scan (unscan (first :: tokens') ++ last') = (first :: tokens', last') := by
  obtain ⟨gap, hfirst, -, hmark⟩ := scanned_of_scan h
  refine scan_of_scanned (hfirst.of_meets hmeets hstray fun htext => absurd htext hslash)
    hscanned ?_
  have hne : first.full ≠ [] := by
    simp [Token.full, show first.text ≠ [] from hfirst.text_ne]
  rwa [List.head?_append_of_ne_nil _ hne] at hmark ⊢

end

end EntryProbe.Go
