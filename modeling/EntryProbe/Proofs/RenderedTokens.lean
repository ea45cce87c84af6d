import EntryProbe.Proofs.BlockTokens
import EntryProbe.Proofs.ReadBack

/-!
# The tokens of rendered trees

What a tree is rendered as, taken apart into tokens with the gaps between them. A gap has a
line break in it exactly where the renderer starts a new line, and a new line is started
behind every statement and every opening brace.

* `EntryProbe.Go.Stmt.symbols_tokens` – with the semicolons that line breaks stand for, the
  tokens are the symbols of the tree.
-/

namespace EntryProbe.Go

/-! ### Tokens -/

mutual

/-- The tokens of an expression behind a gap. -/
def Expr.tokens : (gap : List Char) → Expr → List Token
  | gap, .ident name => [.word gap name]
  | gap, .literal text => [⟨gap, text.toList, .string⟩]
  | gap, .selector operand member => operand.tokens gap ++ [.mark [] "." .dot, .word [] member]
  | gap, .call function arguments =>
    function.tokens gap ++
      .mark [] "(" .openParen :: (exprsTokens [] arguments ++ [.mark [] ")" .closeParen])
  | gap, .binary left op right =>
    left.tokens gap ++ .mark [' '] op.text op.sign :: right.tokens [' ']

/-- The tokens of expressions behind a gap, with commas between them. -/
def exprsTokens : (gap : List Char) → List Expr → List Token
  | _, [] => []
  | gap, value :: rest =>
    match rest with
    | [] => value.tokens gap
    | _ :: _ => value.tokens gap ++ .mark [] "," .comma :: exprsTokens [' '] rest

end

mutual

/-- The tokens of a statement behind a gap. `line` is a line break and `indent` the white space
at the start of its line. -/
def Stmt.tokens (line : List Char) : (indent gap : List Char) → Stmt → List Token
  | indent, gap, .block body => .mark gap "\x7b" .openBrace :: bodyTokens line indent body
  | _, gap, .assign left op right =>
    exprsTokens gap left ++ .mark [' '] op.text op.sign :: exprsTokens [' '] right
  | indent, gap, .ifThen condition body =>
    .reserved gap "if" .ifWord ::
      (condition.tokens [' '] ++ .mark [' '] "\x7b" .openBrace :: bodyTokens line indent body)
  | _, gap, .expr value => value.tokens gap
  | _, gap, .return_ results => .reserved gap "return" .returnWord :: exprsTokens [' '] results
  | _, gap, .defer function arguments =>
    .reserved gap "defer" .deferWord :: (Expr.call function arguments).tokens [' ']
  | _, _, .verbatim _ => []

/-- The tokens of a block behind its opening brace. -/
def bodyTokens (line : List Char) : (indent : List Char) → List Stmt → List Token
  | indent, [] => [.mark (line ++ indent) "\x7d" .closeBrace]
  | indent, stmt :: rest =>
    stmt.tokens line (indent ++ ['\t']) (line ++ (indent ++ ['\t'])) ++ bodyTokens line indent rest

end

/-- The first token of an expression has the gap, and it is no stray character. -/
theorem Expr.exists_head_tokens (value : Expr) (gap : List Char) :
    ∃ token rest, value.tokens gap = token :: rest ∧ token.gap = gap ∧
      token.lexeme ≠ .stray := by
  match value with
  | .ident name => exact ⟨_, _, rfl, rfl, Lexeme.noConfusion⟩
  | .literal text => exact ⟨_, _, rfl, rfl, Lexeme.noConfusion⟩
  | .selector operand _ | .call operand _ | .binary operand _ _ =>
    obtain ⟨token, rest, h, hgap⟩ := operand.exists_head_tokens gap
    exact ⟨token, _, by rw [Expr.tokens, h]; rfl, hgap⟩

theorem exists_head_exprsTokens {values : List Expr} (hne : values ≠ []) (gap : List Char) :
    ∃ token rest, exprsTokens gap values = token :: rest ∧ token.gap = gap ∧
      token.lexeme ≠ .stray := by
  match values with
  | [] => exact absurd rfl hne
  | [value] => exact value.exists_head_tokens gap
  | value :: next :: others =>
    obtain ⟨token, rest, h, hgap⟩ := value.exists_head_tokens gap
    exact ⟨token, _, by rw [exprsTokens, h]; rfl, hgap⟩

/-- The first token of a statement has the gap, and it is no stray character. -/
theorem Stmt.exists_head_tokens (stmt : Stmt) (h : stmt.WellFormed) (line indent gap : List Char) :
    ∃ token rest, stmt.tokens line indent gap = token :: rest ∧ token.gap = gap ∧
      token.lexeme ≠ .stray := by
  cases stmt with
  | block body => exact ⟨_, _, rfl, rfl, Lexeme.noConfusion⟩
  | assign left op right =>
    obtain ⟨token, rest, hleft, hgap⟩ := exists_head_exprsTokens h.1.1 gap
    exact ⟨token, _, by rw [Stmt.tokens, hleft]; rfl, hgap⟩
  | ifThen condition body => exact ⟨_, _, rfl, rfl, Lexeme.noConfusion⟩
  | expr value => exact value.exists_head_tokens gap
  | return_ results => exact ⟨_, _, rfl, rfl, Lexeme.noConfusion⟩
  | defer function arguments => exact ⟨_, _, rfl, rfl, Lexeme.noConfusion⟩
  | verbatim span => exact h.elim

/-- The first token of a block behind its opening brace is on a new line. -/
theorem exists_head_bodyTokens {stmts : List Stmt} (h : AreWellFormedStmts stmts)
    (line indent : List Char) :
    ∃ token rest blanks, bodyTokens line indent stmts = token :: rest ∧
      token.gap = line ++ blanks := by
  cases stmts with
  | nil => exact ⟨_, _, indent, rfl, rfl⟩
  | cons stmt others =>
    obtain ⟨token, rest, hhead, hgap, -⟩ := stmt.exists_head_tokens h.1 line (indent ++ ['\t'])
      (line ++ (indent ++ ['\t']))
    exact ⟨token, _, _, by rw [bodyTokens, hhead]; rfl, hgap⟩

/-! ### Symbols -/

/-- The semicolon that a line break stands for, if there is one. -/
def lineEndIf (breaks : Bool) : List Symbol :=
  if breaks then [lineEnd] else []

theorem symbols_cons (token : Token) (rest : List Token) :
    symbols (token :: rest) =
      token.symbol ::
        (lineEndIf (token.lexeme.endsStatement && breaksLine rest) ++ symbols rest) := by
  rw [symbols, lineEndIf]
  split <;> rfl

/-- A token on the same line. -/
theorem breaksLine_of_gap {token : Token} {rest : List Token} {gap : List Char}
    (hgap : token.gap = gap) (hline : '\n' ∉ gap) : breaksLine (token :: rest) = false := by
  simpa [breaksLine, hgap] using hline

mutual

/-- **The symbols of the tokens of an expression** are those of the expression. -/
theorem Expr.symbols_tokens (value : Expr) (gap : List Char) (tokens : List Token) :
    Go.symbols (value.tokens gap ++ tokens) =
      value.symbols ++ (lineEndIf (breaksLine tokens) ++ Go.symbols tokens) := by
  match value with
  | .ident name => exact symbols_cons _ _
  | .literal text => exact symbols_cons _ _
  | .selector operand member =>
    rw [Expr.tokens, List.append_assoc, operand.symbols_tokens]
    simp [symbols_cons, Token.mark, Token.word, Token.symbol, Lexeme.endsStatement, breaksLine,
      lineEndIf, Expr.symbols, Symbol.mark]
  | .call function arguments =>
    rw [Expr.tokens, List.append_assoc, function.symbols_tokens]
    simp only [List.cons_append, List.append_assoc, symbols_cons]
    rw [symbols_exprsTokens arguments [] _ rfl]
    simp [symbols_cons, Token.mark, Token.symbol, Lexeme.endsStatement, breaksLine,
      lineEndIf, Expr.symbols, Symbol.mark]
  | .binary left op right =>
    rw [Expr.tokens, List.append_assoc, left.symbols_tokens]
    simp only [List.cons_append, symbols_cons]
    rw [right.symbols_tokens]
    cases op <;> simp [Token.mark, Token.symbol, Lexeme.endsStatement, breaksLine,
      lineEndIf, Expr.symbols, Symbol.mark, BinaryOp.sign]

/-- The symbols of the tokens of expressions on one line. -/
theorem symbols_exprsTokens (values : List Expr) (gap : List Char) (tokens : List Token)
    (hline : breaksLine tokens = false) :
    Go.symbols (exprsTokens gap values ++ tokens) = exprsSymbols values ++ Go.symbols tokens := by
  match values with
  | [] => rfl
  | [value] =>
    rw [exprsTokens, value.symbols_tokens, hline]
    rfl
  | value :: next :: others =>
    rw [exprsTokens, List.append_assoc, value.symbols_tokens]
    simp only [List.cons_append, symbols_cons]
    rw [symbols_exprsTokens (next :: others) [' '] tokens hline]
    simp [Token.mark, Token.symbol, Lexeme.endsStatement, breaksLine,
      lineEndIf, exprsSymbols, Symbol.mark]

end

/-- The symbols of the tokens of expressions at the end of a line. -/
theorem symbols_exprsTokens_break {values : List Expr} (hne : values ≠ []) (gap : List Char)
    {tokens : List Token} (hbreak : breaksLine tokens = true) :
    symbols (exprsTokens gap values ++ tokens) =
      exprsSymbols values ++ lineEnd :: symbols tokens := by
  induction values generalizing gap with
  | nil => exact absurd rfl hne
  | cons value values ih =>
    cases values with
    | nil =>
      rw [exprsTokens, value.symbols_tokens, hbreak]
      rfl
    | cons next others =>
      rw [exprsTokens, List.append_assoc, value.symbols_tokens]
      simp only [List.cons_append, symbols_cons]
      rw [ih (by simp) [' ']]
      simp [Token.mark, Token.symbol, Lexeme.endsStatement, breaksLine, lineEndIf, exprsSymbols,
        Symbol.mark]

mutual

/-- **The symbols of the tokens of a statement**, if its line ends behind it. -/
theorem Stmt.symbols_tokens (stmt : Stmt) (h : stmt.WellFormed) {line : List Char}
    (hline : '\n' ∈ line) (indent gap : List Char) {tokens : List Token}
    (hbreak : breaksLine tokens = true) :
    Go.symbols (stmt.tokens line indent gap ++ tokens) =
      stmt.symbols ++ lineEnd :: Go.symbols tokens := by
  match stmt with
  | .block body =>
    rw [Stmt.tokens, List.cons_append, symbols_cons, symbols_bodyTokens body h hline indent hbreak]
    rfl
  | .assign left op right =>
    rw [Stmt.tokens, List.append_assoc, symbols_exprsTokens left gap _ rfl, List.cons_append,
      symbols_cons, symbols_exprsTokens_break h.2.1 [' '] hbreak]
    cases op <;> simp [Token.mark, Token.symbol, Lexeme.endsStatement, lineEndIf, Stmt.symbols,
      Symbol.mark, AssignOp.sign]
  | .ifThen condition body =>
    rw [Stmt.tokens, List.cons_append, symbols_cons, List.append_assoc, condition.symbols_tokens,
      List.cons_append, symbols_cons, symbols_bodyTokens body h.2 hline indent hbreak]
    simp [Token.reserved, Token.mark, Token.symbol, Lexeme.endsStatement, breaksLine, lineEndIf,
      Stmt.symbols, Symbol.reserved, Symbol.mark]
  | .expr value =>
    rw [Stmt.tokens, value.symbols_tokens, hbreak]
    rfl
  | .return_ results =>
    rw [Stmt.tokens, List.cons_append, symbols_cons]
    by_cases hne : results = []
    · subst hne
      simp [exprsTokens, hbreak, Token.reserved, Token.symbol, Lexeme.endsStatement, lineEndIf,
        Stmt.symbols, Symbol.reserved, exprsSymbols]
    · obtain ⟨token, rest, hresults, hgap, -⟩ := exists_head_exprsTokens hne [' ']
      rw [symbols_exprsTokens_break hne [' '] hbreak, hresults, List.cons_append,
        breaksLine_of_gap hgap (by decide), Bool.and_false]
      rfl
  | .defer function arguments =>
    rw [Stmt.tokens, List.cons_append, symbols_cons,
      (Expr.call function arguments).symbols_tokens, hbreak]
    rfl
  | .verbatim span => exact h.elim
termination_by (sizeOf stmt, 0)

/-- The symbols of the tokens of a block, behind its opening brace and at the end of a line. -/
theorem symbols_bodyTokens (stmts : List Stmt) (h : AreWellFormedStmts stmts) {line : List Char}
    (hline : '\n' ∈ line) (indent : List Char) {tokens : List Token}
    (hbreak : breaksLine tokens = true) :
    Go.symbols (bodyTokens line indent stmts ++ tokens) =
      blockSymbols stmts ++ lineEnd :: Go.symbols tokens := by
  match stmts with
  | [] =>
    rw [bodyTokens, List.cons_append, symbols_cons, List.nil_append, hbreak]
    rfl
  | stmt :: others =>
    have hnext : breaksLine (bodyTokens line indent others ++ tokens) = true := by
      obtain ⟨token, rest, blanks, hhead, hgap⟩ := exists_head_bodyTokens h.2 line indent
      simp [hhead, breaksLine, hgap, hline]
    rw [bodyTokens, List.append_assoc, stmt.symbols_tokens h.1 hline _ _ hnext,
      symbols_bodyTokens others h.2 hline indent hbreak, blockSymbols, List.append_assoc]
    rfl
termination_by (sizeOf stmts, 0)

end

end EntryProbe.Go
