import EntryProbe.Proofs.RenderedTokens

/-!
# Well-formed trees are read back

The tokens of a well-formed tree are the tokens of the text it is rendered as, so that the
text is read back as the tree.

* `EntryProbe.Go.Stmt.scanned_tokens` – the tokens are scanned as they are written, because a
  name is always followed by something that does not go on with it;
* `EntryProbe.Go.Stmt.exists_spelled` – they spell the rendered text, with line breaks of
  either form;
* `EntryProbe.Go.readText?_render` – reading back.
-/

namespace EntryProbe.Go

/-! ### Single tokens -/

/-- The text does not go on with a word. -/
def EndsWord (text : List Char) : Prop :=
  ∀ c, text.head? = some c → isWordContinue c = false

theorem endsWord_cons {c : Char} (h : isWordContinue c = false) (rest : List Char) :
    EndsWord (c :: rest) := by
  intro d hd
  cases hd
  exact h

section

variable {text tail : List Char} {kind : Lexeme}

theorem takeWhile_of_endsWord (htail : EndsWord tail) : tail.takeWhile isWordContinue = [] := by
  cases tail with
  | nil => rfl
  | cons c tail => simp [htail c rfl]

/-- A whole word is made of what words start and go on with. -/
theorem exists_of_whole_word (h : lexeme text = (kind, text.length))
    (hkind : kind = .word ∨ ∃ keyword, kind = .keyword keyword) :
    ∃ c rest, text = c :: rest ∧ isWordStart c = true ∧ ∀ d ∈ rest, isWordContinue d = true :=
  @exists_of_lexeme_word text [] kind (by rwa [List.append_nil]) hkind

/-- **A word stays the word** in front of anything that does not go on with it. -/
theorem lexeme_append_of_endsWord (h : lexeme text = (kind, text.length))
    (hkind : kind = .word ∨ ∃ keyword, kind = .keyword keyword) (htail : EndsWord tail) :
    lexeme (text ++ tail) = (kind, text.length) := by
  obtain ⟨c, rest, rfl, hstart, hall⟩ := exists_of_whole_word h hkind
  have hrest : rest.takeWhile isWordContinue = rest := List.takeWhile_eq_self_iff.mpr hall
  have hwhile : (rest ++ tail).takeWhile isWordContinue = rest := by
    rw [List.takeWhile_append, hrest, if_pos rfl, takeWhile_of_endsWord htail, List.append_nil]
  have htake : (c :: (rest ++ tail)).take (1 + rest.length) =
      (c :: rest).take (1 + rest.length) := by
    rw [Nat.add_comm, ← List.length_cons, ← List.cons_append, List.take_left', List.take_length]
    rfl
  rw [← h]
  simp only [List.cons_append, lexeme, hstart, if_true, hwhile, hrest, htake]

end

/-- A character that starts no word, number or literal starts the first mark that fits. -/
theorem lexeme_eq_of_find? (c : Char) {rest spelled : List Char} {sign : Mark}
    (hword : isWordStart c = false) (hdigit : c.isDigit = false)
    (hplain : c ∉ ['.', '"', rawQuote, runeQuote])
    (hfind : (marks.find? fun entry => entry.1.isPrefixOf (c :: rest)) = some (spelled, sign)) :
    lexeme (c :: rest) = (.mark sign, spelled.length) := by
  simp only [List.mem_cons, List.not_mem_nil, or_false, not_or] at hplain
  obtain ⟨hdot, hquote, hraw, hrune⟩ := hplain
  simp [lexeme, hword, numberLength_eq_zero hdigit hdot rest, hquote, hraw, hrune, hfind]

/-- What starts words is no white space, no slash and no digit. -/
theorem not_gap_of_isWordStart {c : Char} (hc : isWordStart c = true) :
    isSpace c = false ∧ c ≠ '/' ∧ c.isDigit = false := by
  refine ⟨?_, ?_, ?_⟩
  · by_contra hspace
    simp only [isSpace, Bool.not_eq_false, Bool.or_eq_true, beq_iff_eq] at hspace
    rcases hspace with ((((rfl | rfl) | rfl) | rfl) | rfl) | rfl <;> exact absurd hc (by decide)
  · rintro rfl
    exact absurd hc (by decide)
  · by_contra hdigit
    have hrange : 48 ≤ c.toNat ∧ c.toNat ≤ 57 := by
      simpa [Char.isDigit, UInt32.le_iff_toNat_le] using hdigit
    have hdigits : ∀ n < 58, 48 ≤ n → isWordStart (Char.ofNat n) = false := by decide
    have hnone := hdigits c.toNat (by omega) hrange.1
    rw [Char.ofNat_toNat, hc] at hnone
    cases hnone

/-- A dot in front of a name is a mark. -/
theorem lexeme_dot {c : Char} (hc : isWordStart c = true) (hdigit : c.isDigit = false)
    (rest : List Char) : lexeme ('.' :: c :: rest) = (.mark .dot, 1) := by
  have hnumber : numberLength ('.' :: c :: rest) = 0 := by
    simp [numberLength, hexadecimal, integers, decimals, basedInteger, digitRun, oneOf, hdigit,
      andPerhaps, followedBy]
  have hdot : c ≠ '.' := by
    rintro rfl
    cases hc
  have hfind : (marks.find? fun entry => entry.1.isPrefixOf ('.' :: c :: rest)) =
      some (['.'], .dot) := by
    have hbeq : ('.' == c) = false := by simpa using Ne.symm hdot
    simp [marks, List.find?, List.isPrefixOf, hbeq]
  have hword : isWordStart '.' = false := by decide
  simp [lexeme, hword, hnumber, hfind, rawQuote, runeQuote]

/-- **A token starts behind a gap** if its text does not continue the gap. -/
theorem starts_of_lexeme {token : Token} {tail text : List Char} {c : Char}
    (htext : token.text = c :: text) (hgap : Trivia .outside token.gap .outside)
    (hspace : isSpace c = false) (hslash : c ≠ '/')
    (hlexeme : lexeme (token.text ++ tail) = (token.lexeme, token.text.length)) :
    token.Starts tail where
  gap_eq := by
    refine hgap.split nofun ?_
    rw [htext, List.cons_append]
    exact splitTriviaFrom_outside_iff.mpr ⟨hspace, fun hc => absurd hc hslash⟩
  text_ne := by
    rw [htext]
    simp
  lexeme_eq := hlexeme

/-! ### The tokens of a tree are scanned -/

/-- A word starts behind a gap and in front of what does not go on with it. -/
theorem starts_word {token : Token} {tail : List Char}
    (h : lexeme token.text = (token.lexeme, token.text.length))
    (hkind : token.lexeme = .word ∨ ∃ keyword, token.lexeme = .keyword keyword)
    (hgap : Trivia .outside token.gap .outside) (htail : EndsWord tail) : token.Starts tail := by
  obtain ⟨c, text, htext, hstart, -⟩ := exists_of_whole_word h hkind
  obtain ⟨hspace, hslash, -⟩ := not_gap_of_isWordStart hstart
  exact starts_of_lexeme htext hgap hspace hslash (lexeme_append_of_endsWord h hkind htail)

/-- A name starts behind a gap and in front of what does not go on with it. -/
theorem starts_name {gap tail : List Char} {name : String} (h : IsIdentifier name)
    (hgap : Trivia .outside gap .outside) (htail : EndsWord tail) :
    (Token.word gap name).Starts tail :=
  starts_word h (.inl rfl) hgap htail

/-- A dot starts in front of a name. -/
theorem starts_dot {tail : List Char} {name : String} (h : IsIdentifier name) :
    (Token.mark [] "." .dot).Starts (name.toList ++ tail) := by
  obtain ⟨c, text, htext, hstart, -⟩ := exists_of_whole_word h (.inl rfl)
  obtain ⟨-, -, hdigit⟩ := not_gap_of_isWordStart hstart
  refine starts_of_lexeme rfl (.nil _) (by decide) (by decide) ?_
  rw [htext]
  exact lexeme_dot hstart hdigit _

/-- A quoted text is a token behind any gap. -/
theorem starts_literal {gap tail : List Char} (value : String)
    (hgap : Trivia .outside gap .outside) :
    (Token.mk gap (quote value).toList .string).Starts tail := by
  have hquote : (quote value).toList = Quoted.encode value.toList := String.toList_ofList
  rw [hquote]
  exact starts_of_lexeme rfl hgap (by decide) (by decide) (Quoted.lexeme_encode _ _)

/-- The marks that are the same whatever follows. -/
theorem starts_mark {gap tail : List Char} {text : String} {sign : Mark}
    (hgap : Trivia .outside gap .outside) (hmark : (text, sign) ∈
      [("(", .openParen), (")", .closeParen), (",", .comma), ("\x7b", .openBrace),
        ("\x7d", .closeBrace), ("!=", .notEqual), (":=", .define)]) :
    (Token.mark gap text sign).Starts tail := by
  simp only [List.mem_cons, Prod.mk.injEq, List.not_mem_nil, or_false] at hmark
  rcases hmark with ⟨rfl, rfl⟩ | ⟨rfl, rfl⟩ | ⟨rfl, rfl⟩ | ⟨rfl, rfl⟩ | ⟨rfl, rfl⟩ | ⟨rfl, rfl⟩ |
    ⟨rfl, rfl⟩ <;>
  exact starts_of_lexeme rfl hgap (by decide) (by decide)
    (lexeme_eq_of_find? _ (by decide) (by decide) (by decide) rfl)

/-- The marks that are the same in front of a blank. -/
theorem starts_mark_blank {gap tail : List Char} {text : String} {sign : Mark}
    (hgap : Trivia .outside gap .outside) (hmark : (text, sign) ∈ [("+", .plus), ("=", .assign)]) :
    (Token.mark gap text sign).Starts (' ' :: tail) := by
  simp only [List.mem_cons, Prod.mk.injEq, List.not_mem_nil, or_false] at hmark
  rcases hmark with ⟨rfl, rfl⟩ | ⟨rfl, rfl⟩ <;>
  exact starts_of_lexeme rfl hgap (by decide) (by decide)
    (lexeme_eq_of_find? _ (by decide) (by decide) (by decide) rfl)

/-- A reserved word starts behind a gap and in front of what does not go on with it. -/
theorem starts_reserved {gap tail : List Char} {text : String} {keyword : Keyword}
    (h : lexeme text.toList = (.keyword keyword, text.toList.length))
    (hgap : Trivia .outside gap .outside) (htail : EndsWord tail) :
    (Token.reserved gap text keyword).Starts tail :=
  starts_word h (.inr ⟨keyword, rfl⟩) hgap htail

theorem trivia_blank : Trivia .outside [' '] .outside :=
  .space rfl (.nil _)

variable {last : List Char}

/-- The text of an expression behind a blank. -/
theorem Expr.exists_unscan_blank (value : Expr) (tokens : List Token) (last : List Char) :
    ∃ tail, unscan (value.tokens [' '] ++ tokens) ++ last = ' ' :: tail := by
  obtain ⟨token, rest, hhead, hblank, -⟩ := value.exists_head_tokens [' ']
  exact ⟨token.text ++ (unscan (rest ++ tokens) ++ last), by simp [hhead, hblank]⟩

/-- The text of expressions behind a blank. -/
theorem exists_unscan_exprsTokens {values : List Expr} (hne : values ≠ []) (tokens : List Token)
    (last : List Char) :
    ∃ tail, unscan (exprsTokens [' '] values ++ tokens) ++ last = ' ' :: tail := by
  obtain ⟨token, rest, hhead, hblank, -⟩ := exists_head_exprsTokens hne [' ']
  exact ⟨token.text ++ (unscan (rest ++ tokens) ++ last), by simp [hhead, hblank]⟩

mutual

/-- **The tokens of an expression are scanned as they are written**, in front of anything that
does not go on with a word. -/
theorem Expr.scanned_tokens (value : Expr) {level : Nat} (h : value.WellFormed level)
    {gap : List Char} (hgap : Trivia .outside gap .outside) {tokens : List Token}
    (htokens : Scanned tokens last) (hends : EndsWord (unscan tokens ++ last)) :
    Scanned (value.tokens gap ++ tokens) last := by
  match value with
  | .ident name => exact ⟨starts_name h hgap hends, htokens⟩
  | .literal text =>
    obtain ⟨value, rfl⟩ := h
    exact ⟨starts_literal value hgap, htokens⟩
  | .selector operand member =>
    have hmember : Scanned (.word [] member :: tokens) last :=
      ⟨starts_name h.2 (.nil _) hends, htokens⟩
    have hdot : Scanned (.mark [] "." .dot :: .word [] member :: tokens) last := by
      refine ⟨?_, hmember⟩
      rw [unscan_cons, List.append_assoc]
      simpa [Token.word, List.append_assoc] using starts_dot h.2
    rw [Expr.tokens, List.append_assoc]
    refine operand.scanned_tokens h.1 hgap hdot ?_
    exact endsWord_cons (by decide) _
  | .call function arguments =>
    have hclose : Scanned (.mark [] ")" .closeParen :: tokens) last :=
      ⟨starts_mark (.nil _) (by decide), htokens⟩
    have harguments := scanned_exprsTokens arguments h.2 (.nil _) hclose
      (endsWord_cons (by decide) _)
    rw [Expr.tokens, List.append_assoc, List.cons_append, List.append_assoc]
    refine function.scanned_tokens h.1 hgap ⟨starts_mark (.nil _) (by decide), harguments⟩ ?_
    exact endsWord_cons (by decide) _
  | .binary left op right =>
    have hright := right.scanned_tokens h.2.2 trivia_blank htokens hends
    rw [Expr.tokens, List.append_assoc]
    refine left.scanned_tokens h.2.1 hgap ⟨?_, hright⟩ (endsWord_cons (by decide) _)
    obtain ⟨tail, htail⟩ := right.exists_unscan_blank tokens last
    change (Token.mark [' '] op.text op.sign).Starts (unscan (right.tokens [' '] ++ tokens) ++ last)
    rw [htail]
    cases op with
    | add => exact starts_mark_blank trivia_blank (by decide)
    | ne => exact starts_mark trivia_blank (by decide)

theorem scanned_exprsTokens (values : List Expr) (h : AreWellFormed values) {gap : List Char}
    (hgap : Trivia .outside gap .outside) {tokens : List Token}
    (htokens : Scanned tokens last) (hends : EndsWord (unscan tokens ++ last)) :
    Scanned (exprsTokens gap values ++ tokens) last := by
  match values with
  | [] => exact htokens
  | [value] => exact value.scanned_tokens h.1 hgap htokens hends
  | value :: next :: others =>
    have hothers := scanned_exprsTokens (next :: others) h.2 trivia_blank htokens hends
    rw [exprsTokens, List.append_assoc]
    refine value.scanned_tokens h.1 hgap ⟨starts_mark (.nil _) (by decide), hothers⟩ ?_
    exact endsWord_cons (by decide) _

end

/-! ### The tokens of a statement are scanned -/

theorem trivia_of_isSpace {text : List Char} (h : text.all isSpace = true) :
    Trivia .outside text .outside := by
  induction text with
  | nil => exact .nil _
  | cons c text ih =>
    rw [List.all_cons, Bool.and_eq_true] at h
    exact .space h.1 (ih h.2)

theorem isWordContinue_of_isSpace {c : Char} (h : isSpace c = true) : isWordContinue c = false := by
  simp only [isSpace, Bool.or_eq_true, beq_iff_eq] at h
  rcases h with ((((rfl | rfl) | rfl) | rfl) | rfl) | rfl <;> decide

/-- White space ends words. -/
theorem endsWord_of_isSpace {gap tail : List Char} (h : gap.all isSpace = true) (hne : gap ≠ []) :
    EndsWord (gap ++ tail) := by
  obtain ⟨c, gap, rfl⟩ := List.exists_cons_of_ne_nil hne
  rw [List.all_cons, Bool.and_eq_true] at h
  exact endsWord_cons (isWordContinue_of_isSpace h.1) _

mutual

/-- **The tokens of a statement are scanned as they are written**, where lines start with white
space and with nothing else. -/
theorem Stmt.scanned_tokens (stmt : Stmt) (h : stmt.WellFormed) {line indent gap : List Char}
    (hline : line.all isSpace = true) (hbreak : line ≠ []) (hindent : indent.all isSpace = true)
    (hgap : Trivia .outside gap .outside) {tokens : List Token}
    (htokens : Scanned tokens last) (hends : EndsWord (unscan tokens ++ last)) :
    Scanned (stmt.tokens line indent gap ++ tokens) last := by
  match stmt with
  | .block body =>
    exact ⟨starts_mark hgap (by decide),
      scanned_bodyTokens body h hline hbreak hindent htokens hends⟩
  | .assign left op right =>
    have hright := scanned_exprsTokens right h.2.2 trivia_blank htokens hends
    rw [Stmt.tokens, List.append_assoc]
    refine scanned_exprsTokens left h.1.2 hgap ⟨?_, hright⟩ (endsWord_cons (by decide) _)
    obtain ⟨tail, htail⟩ := exists_unscan_exprsTokens h.2.1 tokens last
    change (Token.mark [' '] op.text op.sign).Starts
      (unscan (exprsTokens [' '] right ++ tokens) ++ last)
    rw [htail]
    cases op with
    | define => exact starts_mark trivia_blank (by decide)
    | assign => exact starts_mark_blank trivia_blank (by decide)
  | .ifThen condition body =>
    have hbody := scanned_bodyTokens body h.2 hline hbreak hindent htokens hends
    have hbrace : Scanned (.mark [' '] "\x7b" .openBrace :: (bodyTokens line indent body ++ tokens))
        last := ⟨starts_mark trivia_blank (by decide), hbody⟩
    have hcondition := condition.scanned_tokens h.1 trivia_blank hbrace
      (endsWord_cons (by decide) _)
    rw [Stmt.tokens, List.cons_append, List.append_assoc]
    refine ⟨starts_reserved (by decide) hgap ?_, hcondition⟩
    obtain ⟨tail, htail⟩ := condition.exists_unscan_blank
      (.mark [' '] "\x7b" .openBrace :: bodyTokens line indent body ++ tokens) last
    rw [htail]
    exact endsWord_cons (by decide) _
  | .expr value => exact value.scanned_tokens h hgap htokens hends
  | .return_ results =>
    have hresults := scanned_exprsTokens results h trivia_blank htokens hends
    refine ⟨starts_reserved (by decide) hgap ?_, hresults⟩
    by_cases hne : results = []
    · subst hne
      exact hends
    · obtain ⟨tail, htail⟩ := exists_unscan_exprsTokens hne tokens last
      change EndsWord (unscan (exprsTokens [' '] results ++ tokens) ++ last)
      rw [htail]
      exact endsWord_cons (by decide) _
  | .defer function arguments =>
    have hformed : (Expr.call function arguments).WellFormed 0 := h
    have hcall := (Expr.call function arguments).scanned_tokens hformed trivia_blank htokens hends
    refine ⟨starts_reserved (by decide) hgap ?_, hcall⟩
    obtain ⟨tail, htail⟩ := (Expr.call function arguments).exists_unscan_blank tokens last
    change EndsWord (unscan ((Expr.call function arguments).tokens [' '] ++ tokens) ++ last)
    rw [htail]
    exact endsWord_cons (by decide) _
  | .verbatim span => exact h.elim
termination_by (sizeOf stmt, 0)

theorem scanned_bodyTokens (stmts : List Stmt) (h : AreWellFormedStmts stmts)
    {line indent : List Char} (hline : line.all isSpace = true) (hbreak : line ≠ [])
    (hindent : indent.all isSpace = true) {tokens : List Token}
    (htokens : Scanned tokens last) (hends : EndsWord (unscan tokens ++ last)) :
    Scanned (bodyTokens line indent stmts ++ tokens) last := by
  match stmts with
  | [] =>
    refine ⟨starts_mark (trivia_of_isSpace ?_) (by decide), htokens⟩
    rw [List.all_append, hline, hindent]
    rfl
  | stmt :: others =>
    have hothers := scanned_bodyTokens others h.2 hline hbreak hindent htokens hends
    have hdeeper : (indent ++ ['\t']).all isSpace = true := by
      rw [List.all_append, hindent]
      rfl
    rw [bodyTokens, List.append_assoc]
    refine stmt.scanned_tokens h.1 hline hbreak hdeeper (trivia_of_isSpace ?_) hothers ?_
    · rw [List.all_append, hline, hdeeper]
      rfl
    · obtain ⟨token, rest, blanks, hhead, hstart⟩ := exists_head_bodyTokens h.2 line indent
      rw [hhead, List.cons_append, unscan_cons, hstart]
      simpa using endsWord_of_isSpace hline hbreak
termination_by (sizeOf stmts, 0)

end

/-! ### The tokens of a tree spell the rendered text -/

section

variable (withReturn : Bool)

@[simp] theorem withBreaks_nil : withBreaks withReturn [] = [] := by
  cases withReturn <;> rfl

@[simp] theorem withBreaks_append (text text' : List Char) :
    withBreaks withReturn (text ++ text') =
      withBreaks withReturn text ++ withBreaks withReturn text' := by
  cases withReturn
  · rfl
  · exact withCarriageReturns_append text text'

theorem withBreaks_newline : withBreaks withReturn ['\n'] = lineBreak withReturn := by
  cases withReturn <;> rfl

/-- A text without line breaks is the same with line breaks of either form. -/
theorem withBreaks_eq_self {text : List Char} (h : '\n' ∉ text) :
    withBreaks withReturn text = text := by
  cases withReturn
  · rfl
  · exact withCarriageReturns_eq_self h

end

mutual

/-- **The tokens of an expression spell the rendered expression.** -/
theorem Expr.unscan_tokens (value : Expr) (gap : List Char) :
    unscan (value.tokens gap) = gap ++ (renderExpr value).toList := by
  match value with
  | .ident name => simp [Expr.tokens, renderExpr, Token.word]
  | .literal text => simp [Expr.tokens, renderExpr]
  | .selector operand member =>
    simp [Expr.tokens, renderExpr, operand.unscan_tokens, Token.mark, Token.word]
  | .call function arguments =>
    simp [Expr.tokens, renderExpr, function.unscan_tokens,
      unscan_exprsTokens arguments (.inr rfl), Token.mark]
  | .binary left op right =>
    simp [Expr.tokens, renderExpr, left.unscan_tokens, right.unscan_tokens, Token.mark]

/-- The tokens of expressions spell the rendered expressions. -/
theorem unscan_exprsTokens (values : List Expr) {gap : List Char} (hgap : values ≠ [] ∨ gap = []) :
    unscan (exprsTokens gap values) = gap ++ (renderExprs values).toList := by
  match values with
  | [] => simp_all [exprsTokens, renderExprs]
  | [value] => simp [exprsTokens, renderExprs, value.unscan_tokens]
  | value :: next :: others =>
    have hothers : unscan (exprsTokens [' '] (next :: others)) =
        ' ' :: (renderExprs (next :: others)).toList :=
      unscan_exprsTokens (next :: others) (.inl (List.cons_ne_nil next others))
    rw [exprsTokens, renderExprs, unscan_append, value.unscan_tokens, unscan_cons, hothers]
    simp [Token.mark]

end

/-- A name has no line break. -/
theorem IsIdentifier.newline_not_mem {name : String} (h : IsIdentifier name) :
    '\n' ∉ name.toList := by
  obtain ⟨c, rest, htext, hstart, hall⟩ := exists_of_whole_word h (.inl rfl)
  rw [htext, List.mem_cons, not_or]
  refine ⟨?_, fun hmem => ?_⟩
  · rintro rfl
    cases hstart
  · cases hall '\n' hmem

mutual

/-- A rendered expression is on one line. -/
theorem Expr.newline_not_mem (value : Expr) {level : Nat} (h : value.WellFormed level) :
    '\n' ∉ (renderExpr value).toList := by
  match value with
  | .ident name => exact IsIdentifier.newline_not_mem h
  | .literal text =>
    obtain ⟨value, rfl⟩ := h
    have hquote : (quote value).toList = Quoted.encode value.toList := String.toList_ofList
    rw [renderExpr, hquote]
    exact newline_not_mem_encode _
  | .selector operand member =>
    simp [renderExpr, operand.newline_not_mem h.1, h.2.newline_not_mem]
  | .call function arguments =>
    simp [renderExpr, function.newline_not_mem h.1, newline_not_mem_exprs arguments h.2]
  | .binary left op right =>
    cases op <;>
    simp [renderExpr, left.newline_not_mem h.2.1, right.newline_not_mem h.2.2, BinaryOp.text]

/-- Rendered expressions are on one line. -/
theorem newline_not_mem_exprs (values : List Expr) (h : AreWellFormed values) :
    '\n' ∉ (renderExprs values).toList := by
  match values with
  | [] => simp [renderExprs]
  | [value] => simpa [renderExprs] using value.newline_not_mem h.1
  | value :: next :: others =>
    have hothers := newline_not_mem_exprs (next :: others) h.2
    rw [renderExprs]
    simpa [value.newline_not_mem h.1] using hothers

end

/-- What is in front of the first line break stays as it is. -/
theorem withBreaks_front (withReturn : Bool) {front rest : String} (h : '\n' ∉ front.toList) :
    withBreaks withReturn (front ++ rest).toList =
      front.toList ++ withBreaks withReturn rest.toList := by
  rw [String.toList_append, withBreaks_append, withBreaks_eq_self withReturn h]

theorem newline_not_mem_brace : '\n' ∉ "\x7b".toList := by
  decide

mutual

/-- **A well-formed statement is rendered**, as the text of its tokens, with line breaks of
either form. -/
theorem Stmt.exists_spelled (stmt : Stmt) (h : stmt.WellFormed) (source : List Char)
    (withReturn : Bool) {indent : String} (hindent : '\n' ∉ indent.toList) :
    ∃ text, renderStmt source indent stmt = some text ∧
      ∀ gap, unscan (stmt.tokens (lineBreak withReturn) indent.toList gap) =
        gap ++ withBreaks withReturn text.toList := by
  match stmt with
  | .block body =>
    obtain ⟨lines, hlines, hbody⟩ := exists_spelledLines body h source withReturn hindent
    refine ⟨"\x7b" ++ (lines ++ "\n" ++ indent ++ "\x7d"), ?_, fun gap => ?_⟩
    · simp [renderStmt, renderBlock, hlines, String.append_assoc]
    · rw [withBreaks_front withReturn newline_not_mem_brace, Stmt.tokens, unscan_cons, hbody]
      rfl
  | .assign left op right =>
    have hline :
        '\n' ∉ (renderExprs left ++ " " ++ op.text ++ " " ++ renderExprs right).toList := by
      cases op <;>
      simp [newline_not_mem_exprs left h.1.2, newline_not_mem_exprs right h.2.2, AssignOp.text]
    refine ⟨_, by rw [renderStmt], fun gap => ?_⟩
    rw [withBreaks_eq_self _ hline, Stmt.tokens, unscan_append, unscan_cons,
      unscan_exprsTokens left (.inl h.1.1), unscan_exprsTokens right (.inl h.2.1)]
    simp [Token.mark]
  | .ifThen condition body =>
    obtain ⟨lines, hlines, hbody⟩ := exists_spelledLines body h.2 source withReturn hindent
    have hline : '\n' ∉ ("if " ++ renderExpr condition ++ " " ++ "\x7b").toList := by
      simp [condition.newline_not_mem h.1]
    refine ⟨"if " ++ renderExpr condition ++ " " ++ "\x7b" ++ (lines ++ "\n" ++ indent ++ "\x7d"),
      ?_, fun gap => ?_⟩
    · simp [renderStmt, renderBlock, hlines, ← String.append_assoc]
    · rw [withBreaks_front withReturn hline, Stmt.tokens, unscan_cons, unscan_append, unscan_cons,
        hbody, condition.unscan_tokens]
      simp [Token.reserved, Token.mark]
  | .expr value =>
    refine ⟨_, by rw [renderStmt], fun gap => ?_⟩
    rw [Stmt.tokens, value.unscan_tokens, withBreaks_eq_self _ (value.newline_not_mem h)]
  | .return_ results =>
    refine ⟨_, by rw [renderStmt], fun gap => ?_⟩
    by_cases hne : results = []
    · subst hne
      rw [withBreaks_eq_self _ (by decide)]
      simp [Stmt.tokens, exprsTokens, Token.reserved]
    · have hempty : results.isEmpty = false := by simpa using hne
      have hline : '\n' ∉ ("return " ++ renderExprs results).toList := by
        simp [newline_not_mem_exprs results h]
      simp only [hempty, Bool.false_eq_true, if_false]
      rw [withBreaks_eq_self _ hline, Stmt.tokens, unscan_cons,
        unscan_exprsTokens results (.inl hne)]
      simp [Token.reserved]
  | .defer function arguments =>
    have hformed : (Expr.call function arguments).WellFormed 0 := h
    have hline : '\n' ∉ ("defer " ++ renderExpr (.call function arguments)).toList := by
      simp [(Expr.call function arguments).newline_not_mem hformed]
    refine ⟨"defer " ++ renderExpr (.call function arguments), ?_, fun gap => ?_⟩
    · simp [renderStmt, renderExpr, String.append_assoc]
    · rw [withBreaks_eq_self _ hline, Stmt.tokens, unscan_cons, Expr.unscan_tokens]
      simp [Token.reserved]
  | .verbatim span => exact h.elim
termination_by (sizeOf stmt, 0)

/-- The statements of a block are rendered, and the closing brace behind them. -/
theorem exists_spelledLines (stmts : List Stmt) (h : AreWellFormedStmts stmts) (source : List Char)
    (withReturn : Bool) {indent : String} (hindent : '\n' ∉ indent.toList) :
    ∃ lines, renderLines source (indent ++ "\t") stmts = some lines ∧
      unscan (bodyTokens (lineBreak withReturn) indent.toList stmts) =
        withBreaks withReturn (lines ++ "\n" ++ indent ++ "\x7d").toList := by
  match stmts with
  | [] =>
    have hlast : '\n' ∉ (indent ++ "\x7d").toList := by
      simpa using hindent
    refine ⟨"", by rw [renderLines], ?_⟩
    rw [String.append_assoc, String.toList_append, withBreaks_append, withBreaks_eq_self _ hlast]
    simp [bodyTokens, Token.mark, ← withBreaks_newline]
  | stmt :: others =>
    have hdeeper : '\n' ∉ (indent ++ "\t").toList := by
      simpa using hindent
    have hindents : (indent ++ "\t").toList = indent.toList ++ ['\t'] := by simp
    obtain ⟨line, hline, hstmt⟩ := stmt.exists_spelled h.1 source withReturn hdeeper
    obtain ⟨lines, hlines, hothers⟩ := exists_spelledLines others h.2 source withReturn hindent
    have hself := withBreaks_eq_self withReturn hdeeper
    refine ⟨"\n" ++ (indent ++ "\t") ++ line ++ lines, ?_, ?_⟩
    · simp [renderLines, hline, hlines]
    · rw [hindents] at hstmt hself
      rw [bodyTokens, unscan_append, hstmt, hothers, ← withBreaks_newline, ← hself]
      simp [-withBreaks_append, ← withBreaks_append, List.append_assoc]
termination_by (sizeOf stmts, 0)

end

/-! ### Reading back -/

/-- A token that starts with a byte order mark is a stray character. -/
theorem head_ne_of_starts {token : Token} {tail : List Char} (h : token.Starts tail)
    (hkind : token.lexeme ≠ .stray) : (token.text ++ tail).head? ≠ some byteOrderMark := by
  intro hhead
  obtain ⟨rest, hrest⟩ := List.head?_eq_some_iff.mp hhead
  have hnumber : numberLength (byteOrderMark :: rest) = 0 :=
    numberLength_eq_zero (by decide) (by decide) rest
  have hword : isWordStart byteOrderMark = false := by decide +kernel
  have hplain : byteOrderMark ∉ ['"', rawQuote, runeQuote] := by decide
  have hfind : (marks.find? fun entry => entry.1.isPrefixOf (byteOrderMark :: rest)) = none := rfl
  have hstray : lexeme (byteOrderMark :: rest) = (.stray, 1) := by
    simp only [List.mem_cons, List.not_mem_nil, or_false, not_or] at hplain
    simp [lexeme, hword, hnumber, hfind, hplain]
  have hlexeme := h.lexeme_eq
  rw [hrest, hstray] at hlexeme
  exact hkind (congrArg Prod.fst hlexeme).symm

/-- **The tokens of a statement are those of the text they spell.** -/
theorem Stmt.scan_tokens (stmt : Stmt) (h : stmt.WellFormed) {line indent : List Char}
    (hline : line.all isSpace = true) (hbreak : line ≠ []) (hindent : indent.all isSpace = true) :
    scan (unscan (stmt.tokens line indent [])) = (stmt.tokens line indent [], []) := by
  have hscanned : Scanned (stmt.tokens line indent [] ++ []) [] :=
    stmt.scanned_tokens h hline hbreak hindent (.nil _) rfl fun c hc => by cases hc
  rw [List.append_nil] at hscanned
  obtain ⟨token, rest, hhead, hgap, hkind⟩ := stmt.exists_head_tokens h line indent []
  rw [hhead] at hscanned ⊢
  have hmark : (token.full ++ (unscan rest ++ [])).head? ≠ some byteOrderMark := by
    rw [Token.full, hgap, List.nil_append]
    exact head_ne_of_starts hscanned.1 hkind
  have hscan := scan_of_scanned hscanned.1 hscanned.2 (.inl ⟨rfl, hmark⟩)
  rwa [List.append_nil] at hscan

/-- **A well-formed statement is read back from the text it is rendered as**, with line breaks
of either form and behind any indentation. -/
theorem readText?_render (stmt : Stmt) (h : stmt.WellFormed) (source : List Char)
    (withReturn : Bool) {indent : String} (hindent : indent.toList.all isSpace = true)
    (hline : '\n' ∉ indent.toList) :
    ∃ text, renderStmt source indent stmt = some text ∧
      scan (withBreaks withReturn text.toList) =
        (stmt.tokens (lineBreak withReturn) indent.toList [], []) ∧
      readText? (withBreaks withReturn text.toList) = some stmt := by
  have hspace : (lineBreak withReturn).all isSpace = true := by cases withReturn <;> decide
  have hbreak : '\n' ∈ lineBreak withReturn := by cases withReturn <;> decide
  obtain ⟨text, htext, hspelled⟩ := stmt.exists_spelled h source withReturn hline
  have hscan := stmt.scan_tokens h hspace (List.ne_nil_of_mem hbreak) hindent
  rw [hspelled [], List.nil_append] at hscan
  have hsymbols : symbols (stmt.tokens (lineBreak withReturn) indent.toList [] ++ []) =
      stmt.symbols ++ [lineEnd] := stmt.symbols_tokens h hbreak _ _ rfl
  rw [List.append_nil] at hsymbols
  -- there is enough depth for the symbols and the end of the text
  have hread := readStmt_symbols stmt h []
    (depthPerSymbol * ((stmt.symbols ++ [lineEnd]).length + 1))
    (by rw [List.length_append, List.length_singleton, depthPerSymbol]; omega)
  refine ⟨text, htext, hscan, ?_⟩
  simp only [readText?, hscan, hsymbols, hread]
  rfl

end EntryProbe.Go
