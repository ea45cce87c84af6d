import EntryProbe.Go.TreeReader

/-!
# Trees are read back from their symbols

A tree is written without parentheses, so that not every tree can be told from its symbols.
What has to hold is that the tree is the one that the strengths of its operators give: the
left operand of an operator binds at least as tight as the operator, the right operand
tighter, and what a selector or a call is applied to has no operator outside parentheses
(`EntryProbe.Go.Expr.WellFormed`).

The statement about expressions has to go along with how operations are read. They are
collected from left to right, so that an expression is not only read where it ends, but also
where an operation goes on with it as the left operand. What is read after it is left open
(`EntryProbe.Go.Expr.readExpr_symbols`).

* `EntryProbe.Go.readStmt_symbols` – a well-formed statement is read back from its symbols,
  within a depth that grows with their number.
-/

namespace EntryProbe.Go

/-! ### Well-formed trees -/

/-- Tighter than any operator. -/
def tightest : Nat := 6

/-- A name: a word that is not reserved. -/
def IsIdentifier (name : String) : Prop :=
  lexeme name.toList = (.word, name.toList.length)

mutual

/-- **The tree of an expression is the one that its symbols stand for**, where operators have
to bind at least as tight as `level`. Names are names and literals are quoted texts. -/
def Expr.WellFormed : (level : Nat) → Expr → Prop
  | _, .ident name => IsIdentifier name
  | _, .literal text => ∃ value, text = quote value
  | _, .selector operand member => operand.WellFormed tightest ∧ IsIdentifier member
  | _, .call function arguments => function.WellFormed tightest ∧ AreWellFormed arguments
  | level, .binary left op right =>
    level ≤ op.strength ∧ left.WellFormed op.strength ∧ right.WellFormed (op.strength + 1)

/-- All of some expressions are well formed. -/
def AreWellFormed : List Expr → Prop
  | [] => True
  | value :: rest => value.WellFormed 0 ∧ AreWellFormed rest

end

mutual

/-- The expressions of a statement are well formed, there are some where some are needed, and
no part of it is a piece of the source. -/
def Stmt.WellFormed : Stmt → Prop
  | .block body => AreWellFormedStmts body
  | .assign left _ right =>
    (left ≠ [] ∧ AreWellFormed left) ∧ right ≠ [] ∧ AreWellFormed right
  | .ifThen condition body => condition.WellFormed 0 ∧ AreWellFormedStmts body
  | .expr value => value.WellFormed 0
  | .return_ results => AreWellFormed results
  | .defer function arguments => function.WellFormed tightest ∧ AreWellFormed arguments
  | .verbatim _ => False

/-- All of some statements are well formed. -/
def AreWellFormedStmts : List Stmt → Prop
  | [] => True
  | stmt :: rest => stmt.WellFormed ∧ AreWellFormedStmts rest

end

/-! ### The symbols of a tree -/

/-- A mark as a symbol. -/
def Symbol.mark (text : String) (sign : Mark) : Symbol :=
  ⟨.mark sign, text.toList⟩

/-- A reserved word as a symbol. -/
def Symbol.reserved (text : String) (keyword : Keyword) : Symbol :=
  ⟨.keyword keyword, text.toList⟩

/-- An operator as a mark. -/
def BinaryOp.sign : BinaryOp → Mark
  | .add => .plus
  | .ne => .notEqual

/-- The mark of an assignment. -/
def AssignOp.sign : AssignOp → Mark
  | .define => .define
  | .assign => .assign

mutual

/-- The symbols of an expression. -/
def Expr.symbols : Expr → List Symbol
  | .ident name => [⟨.word, name.toList⟩]
  | .literal text => [⟨.string, text.toList⟩]
  | .selector operand member => operand.symbols ++ [.mark "." .dot, ⟨.word, member.toList⟩]
  | .call function arguments =>
    function.symbols ++ .mark "(" .openParen :: (exprsSymbols arguments ++ [.mark ")" .closeParen])
  | .binary left op right => left.symbols ++ .mark op.text op.sign :: right.symbols

/-- The symbols of expressions with commas between them. -/
def exprsSymbols : List Expr → List Symbol
  | [] => []
  | value :: rest =>
    match rest with
    | [] => value.symbols
    | _ :: _ => value.symbols ++ .mark "," .comma :: exprsSymbols rest

end

mutual

/-- The symbols of a statement. -/
def Stmt.symbols : Stmt → List Symbol
  | .block body => .mark "\x7b" .openBrace :: blockSymbols body
  | .assign left op right => exprsSymbols left ++ .mark op.text op.sign :: exprsSymbols right
  | .ifThen condition body =>
    .reserved "if" .ifWord :: (condition.symbols ++ .mark "\x7b" .openBrace :: blockSymbols body)
  | .expr value => value.symbols
  | .return_ results => .reserved "return" .returnWord :: exprsSymbols results
  | .defer function arguments =>
    .reserved "defer" .deferWord :: (Expr.call function arguments).symbols
  | .verbatim _ => []

/-- The symbols of the statements of a block behind the opening brace. Each statement ends
its line. -/
def blockSymbols : List Stmt → List Symbol
  | [] => [.mark "\x7d" .closeBrace]
  | stmt :: rest => stmt.symbols ++ lineEnd :: blockSymbols rest

end

/-- An expression starts with a name or a literal. -/
theorem Expr.exists_head (value : Expr) :
    ∃ text rest,
      value.symbols = ⟨.word, text⟩ :: rest ∨ value.symbols = ⟨.string, text⟩ :: rest := by
  match value with
  | .ident name => exact ⟨_, _, .inl rfl⟩
  | .literal text => exact ⟨_, _, .inr rfl⟩
  | .selector operand _ | .call operand _ | .binary operand _ _ =>
    obtain ⟨text, rest, h | h⟩ := operand.exists_head
    · exact ⟨text, _, .inl (by rw [Expr.symbols, h]; rfl)⟩
    · exact ⟨text, _, .inr (by rw [Expr.symbols, h]; rfl)⟩

/-! ### Expressions -/

/-- An expression is over: no selector and no call follows, and no operator that binds tighter
than `level`. -/
def Follows (level : Nat) : List Symbol → Prop
  | [] => True
  | symbol :: _ =>
    symbol.lexeme ≠ .mark .dot ∧ symbol.lexeme ≠ .mark .openParen ∧
      ∀ op, binaryOp? symbol.lexeme = some op → op.strength ≤ level

theorem Follows.mono {level level' : Nat} {rest : List Symbol} (h : Follows level rest)
    (hle : level ≤ level') : Follows level' rest := by
  cases rest with
  | nil => trivial
  | cons symbol rest => exact ⟨h.1, h.2.1, fun op hop => Nat.le_trans (h.2.2 op hop) hle⟩

theorem binaryOp?_sign (op : BinaryOp) : binaryOp? (.mark op.sign) = some op := by
  cases op <;> rfl

theorem follows_sign (op : BinaryOp) (rest : List Symbol) :
    Follows op.strength (.mark op.text op.sign :: rest) := by
  refine ⟨by cases op <;> decide, by cases op <;> decide, fun op' hop' => ?_⟩
  rw [show (Symbol.mark op.text op.sign).lexeme = .mark op.sign from rfl, binaryOp?_sign] at hop'
  cases hop'
  exact Nat.le_refl _

/-- What is no operator, dot or opening parenthesis ends an expression. -/
def Symbol.endsExpr (symbol : Symbol) : Bool :=
  (binaryOp? symbol.lexeme).isNone && symbol.lexeme != .mark .dot &&
    symbol.lexeme != .mark .openParen

theorem follows_of_endsExpr {symbol : Symbol} (h : symbol.endsExpr = true) (rest : List Symbol) :
    Follows 0 (symbol :: rest) := by
  simp only [Symbol.endsExpr, Bool.and_eq_true, Option.isNone_iff_eq_none, bne_iff_ne] at h
  exact ⟨h.1.2, h.2, fun op hop => by rw [h.1.1] at hop; cases hop⟩

section

variable {level : Nat} {rest : List Symbol}

theorem readSuffixes_of_follows (h : Follows level rest) (value : Expr) (depth : Nat) :
    readSuffixes (depth + 1) value rest = some (value, rest) := by
  rw [readSuffixes]
  · rintro text name rest rfl
    exact h.1 rfl
  · rintro text rest rfl
    exact h.2.1 rfl

theorem readOperation_of_follows (h : Follows level rest) (value : Expr) (depth : Nat) :
    readOperation (depth + 1) (level + 1) value rest = some (value, rest) := by
  cases rest with
  | nil => rfl
  | cons symbol rest =>
    rcases hop : binaryOp? symbol.lexeme with _ | op
    · simp only [readOperation, hop]
    · have hle := h.2.2 op hop
      simp only [readOperation, hop]
      rw [if_neg (by omega)]

/-- An operator that binds as tight as `level` takes its right operand, and reading goes on
with the operation. -/
theorem readOperation_sign {op : BinaryOp} {depth : Nat} {right : Expr} {symbols : List Symbol}
    (hlevel : level ≤ op.strength)
    (hright : readExpr depth (op.strength + 1) symbols = some (right, rest)) (left : Expr) :
    readOperation (depth + 1) level left (.mark op.text op.sign :: symbols) =
      readOperation depth level (.binary left op right) rest := by
  have hop : binaryOp? (Symbol.mark op.text op.sign).lexeme = some op := binaryOp?_sign op
  simp only [readOperation, hop, if_pos hlevel, hright]
  rfl

end

/-- A selector is read as a suffix. -/
theorem readSuffixes_dot (depth : Nat) (value : Expr) (member : String) (rest : List Symbol) :
    readSuffixes (depth + 1) value (.mark "." .dot :: ⟨.word, member.toList⟩ :: rest) =
      readSuffixes depth (.selector value member) rest := by
  simp [readSuffixes, Symbol.mark]

/-- A call is read as a suffix. -/
theorem readSuffixes_openParen {depth : Nat} {symbols rest : List Symbol} {arguments : List Expr}
    (h : readArguments depth symbols = some (arguments, rest)) (value : Expr) :
    readSuffixes (depth + 1) value (.mark "(" .openParen :: symbols) =
      readSuffixes depth (.call value arguments) rest := by
  simp [readSuffixes, Symbol.mark, h]

/-- A last argument is read with the closing parenthesis. -/
theorem readArguments_last {depth : Nat} {value : Expr} {rest : List Symbol}
    (h : readExpr depth 0 (value.symbols ++ .mark ")" .closeParen :: rest) =
      some (value, .mark ")" .closeParen :: rest)) :
    readArguments (depth + 1) (value.symbols ++ .mark ")" .closeParen :: rest) =
      some ([value], rest) := by
  obtain ⟨text, others, hhead | hhead⟩ := value.exists_head
  all_goals
    rw [hhead] at h ⊢
    simp only [List.cons_append, readArguments] at h ⊢
    rw [h]
    rfl

/-- An argument is read with the comma after it. -/
theorem readArguments_comma {depth : Nat} {value : Expr} {values : List Expr}
    {symbols rest : List Symbol}
    (h : readExpr depth 0 (value.symbols ++ .mark "," .comma :: symbols) =
      some (value, .mark "," .comma :: symbols))
    (hothers : readArguments depth symbols = some (values, rest)) :
    readArguments (depth + 1) (value.symbols ++ .mark "," .comma :: symbols) =
      some (value :: values, rest) := by
  obtain ⟨text, others, hhead | hhead⟩ := value.exists_head
  all_goals
    rw [hhead] at h ⊢
    simp only [List.cons_append, readArguments] at h ⊢
    rw [h]
    simp [Symbol.mark, hothers]

/-- Where an expression ends, no operation goes on with it. -/
theorem readOperation_of_endsExpr {symbol : Symbol} (h : symbol.endsExpr = true) (level : Nat)
    (value : Expr) (rest : List Symbol) :
    ∀ n, 1 ≤ n → readOperation n level value (symbol :: rest) = some (value, symbol :: rest) := by
  intro n hn
  obtain ⟨m, rfl⟩ := Nat.exists_eq_add_of_le' hn
  simp only [Symbol.endsExpr, Bool.and_eq_true, Option.isNone_iff_eq_none] at h
  simp only [readOperation, h.1.1]

mutual

/-- **An expression without operators outside parentheses** is an operand with suffixes, and
what is read after it is read after its symbols. -/
theorem Expr.readSuffixes_symbols (value : Expr) (h : value.WellFormed tightest)
    {rest : List Symbol} {depth : Nat} {result : Option (Expr × List Symbol)}
    (hnext : ∀ n, depth ≤ n → readSuffixes n value rest = result) :
    ∃ operand others, readOperand (value.symbols ++ rest) = some (operand, others) ∧
      ∀ n, depth + depthPerSymbol * value.symbols.length ≤ n →
        readSuffixes n operand others = result := by
  match value with
  | .ident name =>
    refine ⟨.ident name, rest, ?_, fun n hn => hnext n (by omega)⟩
    simp [Expr.symbols, readOperand]
  | .literal text =>
    refine ⟨.literal text, rest, ?_, fun n hn => hnext n (by omega)⟩
    simp [Expr.symbols, readOperand]
  | .selector operand member =>
    have hdot : ∀ n, depth + 1 ≤ n →
        readSuffixes n operand (.mark "." .dot :: ⟨.word, member.toList⟩ :: rest) = result := by
      intro n hn
      obtain ⟨m, rfl⟩ := Nat.exists_eq_add_of_le' hn
      rw [← Nat.add_assoc, readSuffixes_dot]
      exact hnext _ (by omega)
    obtain ⟨first, others, hfirst, hothers⟩ := operand.readSuffixes_symbols h.1 hdot
    refine ⟨first, others, by simpa [Expr.symbols] using hfirst, fun n hn => hothers n ?_⟩
    simp only [Expr.symbols, List.length_append, List.length_cons, List.length_nil,
      depthPerSymbol] at hn ⊢
    omega
  | .call function arguments =>
    have hcall : ∀ n, depth + depthPerSymbol * (exprsSymbols arguments).length + 5 ≤ n →
        readSuffixes n function (.mark "(" .openParen ::
          (exprsSymbols arguments ++ .mark ")" .closeParen :: rest)) = result := by
      intro n hn
      obtain ⟨m, rfl⟩ : ∃ m, n = m + 1 := ⟨n - 1, by omega⟩
      rw [readSuffixes_openParen (readArguments_symbols arguments h.2 rest m (by omega))]
      exact hnext m (by omega)
    obtain ⟨first, others, hfirst, hothers⟩ := function.readSuffixes_symbols h.1 hcall
    refine ⟨first, others, by simpa [Expr.symbols] using hfirst, fun n hn => hothers n ?_⟩
    simp only [Expr.symbols, List.length_append, List.length_cons, List.length_nil,
      depthPerSymbol] at hn ⊢
    omega
  | .binary left op right =>
    -- no operator is that tight
    have hlevel : tightest ≤ op.strength := h.1
    cases op <;> exact absurd hlevel (by decide)
termination_by (sizeOf value, 0)

/-- **A well-formed expression is read from its symbols**, and then what follows is read with
the expression as the left operand. -/
theorem Expr.readExpr_symbols (value : Expr) {level bound : Nat} (hbound : level ≤ bound)
    (h : value.WellFormed bound) {rest : List Symbol} (hrest : Follows bound rest) {depth : Nat}
    {result : Option (Expr × List Symbol)}
    (hnext : ∀ n, depth ≤ n → readOperation n level value rest = result) :
    ∀ n, depth + depthPerSymbol * value.symbols.length + 2 ≤ n →
      readExpr n level (value.symbols ++ rest) = result := by
  -- an expression without operators is read at once
  have hplain : value.WellFormed tightest →
      ∀ n, depth + depthPerSymbol * value.symbols.length + 2 ≤ n →
        readExpr n level (value.symbols ++ rest) = result := by
    intro htightest n hn
    obtain ⟨m, rfl⟩ : ∃ m, n = m + 1 := ⟨n - 1, by omega⟩
    have hsuffixes : ∀ k, 1 ≤ k → readSuffixes k value rest = some (value, rest) := by
      intro k hk
      obtain ⟨k, rfl⟩ := Nat.exists_eq_add_of_le' hk
      exact readSuffixes_of_follows hrest value k
    obtain ⟨operand, others, hoperand, hothers⟩ :=
      value.readSuffixes_symbols htightest hsuffixes
    rw [readExpr, hoperand]
    simp only [Option.bind_eq_bind, Option.bind_some]
    rw [hothers m (by omega)]
    exact hnext m (by omega)
  match value with
  | .ident name => exact hplain h
  | .literal text => exact hplain h
  | .selector operand member => exact hplain h
  | .call function arguments => exact hplain h
  | .binary left op right =>
    obtain ⟨hop, hleft, hright⟩ := h
    -- the right operand ends where the whole expression ends
    have hrightRest : ∀ n, 1 + depthPerSymbol * right.symbols.length + 2 ≤ n →
        readExpr n (op.strength + 1) (right.symbols ++ rest) = some (right, rest) := by
      refine right.readExpr_symbols (Nat.le_refl _) hright (hrest.mono (by omega)) fun n hn => ?_
      obtain ⟨m, rfl⟩ := Nat.exists_eq_add_of_le' hn
      exact readOperation_of_follows (hrest.mono hop) right m
    have hoperation : ∀ n, depth + depthPerSymbol * right.symbols.length + 4 ≤ n →
        readOperation n level left (.mark op.text op.sign :: (right.symbols ++ rest)) = result := by
      intro n hn
      obtain ⟨m, rfl⟩ : ∃ m, n = m + 1 := ⟨n - 1, by omega⟩
      rw [readOperation_sign (Nat.le_trans hbound hop) (hrightRest m (by omega))]
      exact hnext m (by omega)
    intro n hn
    have hread := left.readExpr_symbols (Nat.le_trans hbound hop) hleft (follows_sign op _)
      hoperation n
    simp only [Expr.symbols, List.length_append, List.length_cons, depthPerSymbol] at hn hread ⊢
    rw [List.append_assoc, List.cons_append]
    exact hread (by omega)
termination_by (sizeOf value, 1)

/-- Arguments are read up to the closing parenthesis. -/
theorem readArguments_symbols (values : List Expr) (h : AreWellFormed values) (rest : List Symbol) :
    ∀ n, depthPerSymbol * (exprsSymbols values).length + 4 ≤ n →
      readArguments n (exprsSymbols values ++ .mark ")" .closeParen :: rest) =
        some (values, rest) := by
  match values with
  | [] =>
    intro n hn
    obtain ⟨m, rfl⟩ : ∃ m, n = m + 1 := ⟨n - 1, by omega⟩
    simp [exprsSymbols, readArguments, Symbol.mark]
  | [value] =>
    intro n hn
    obtain ⟨m, rfl⟩ : ∃ m, n = m + 1 := ⟨n - 1, by omega⟩
    have hvalue := value.readExpr_symbols (Nat.le_refl 0) h.1 (follows_of_endsExpr rfl _)
      (readOperation_of_endsExpr (rfl : (Symbol.mark ")" .closeParen).endsExpr = true) 0 value rest)
    rw [exprsSymbols] at hn ⊢
    exact readArguments_last (hvalue m (by omega))
  | value :: next :: others =>
    intro n hn
    obtain ⟨m, rfl⟩ : ∃ m, n = m + 1 := ⟨n - 1, by omega⟩
    have hvalue := value.readExpr_symbols (Nat.le_refl 0) h.1 (follows_of_endsExpr rfl _)
      (readOperation_of_endsExpr (rfl : (Symbol.mark "," .comma).endsExpr = true) 0 value
        (exprsSymbols (next :: others) ++ .mark ")" .closeParen :: rest))
    have hothers := readArguments_symbols (next :: others) h.2 rest
    rw [exprsSymbols, List.length_append, List.length_cons] at hn
    rw [exprsSymbols, List.append_assoc, List.cons_append]
    simp only [depthPerSymbol] at hn hvalue hothers
    exact readArguments_comma (hvalue m (by omega)) (hothers m (by omega))
termination_by (sizeOf values, 2)

end

/-- An expression is read up to what ends it. -/
theorem Expr.readExpr_ended (value : Expr) (h : value.WellFormed 0) {symbol : Symbol}
    (hsymbol : symbol.endsExpr = true) (rest : List Symbol) :
    ∀ n, depthPerSymbol * value.symbols.length + 3 ≤ n →
      readExpr n 0 (value.symbols ++ symbol :: rest) = some (value, symbol :: rest) := by
  intro n hn
  exact value.readExpr_symbols (Nat.le_refl 0) h (follows_of_endsExpr hsymbol rest)
    (readOperation_of_endsExpr hsymbol 0 value rest) n (by omega)

/-- Expressions are read up to what ends the last one. -/
theorem readExprs_symbols {values : List Expr} (hne : values ≠ []) (h : AreWellFormed values)
    {symbol : Symbol} (hsymbol : symbol.endsExpr = true) (hcomma : symbol.lexeme ≠ .mark .comma)
    (rest : List Symbol) :
    ∀ n, depthPerSymbol * (exprsSymbols values).length + 4 ≤ n →
      readExprs n (exprsSymbols values ++ symbol :: rest) = some (values, symbol :: rest) := by
  induction values with
  | nil => exact absurd rfl hne
  | cons value values ih =>
    intro n hn
    obtain ⟨m, rfl⟩ : ∃ m, n = m + 1 := ⟨n - 1, by omega⟩
    cases values with
    | nil =>
      rw [exprsSymbols] at hn ⊢
      rw [readExprs, value.readExpr_ended h.1 hsymbol rest m (by omega)]
      simp only [Option.bind_eq_bind, Option.bind_some]
      split
      · next heq =>
        cases heq
        exact absurd rfl hcomma
      · rfl
    | cons next others =>
      have hvalue := value.readExpr_ended h.1 (rfl : (Symbol.mark "," .comma).endsExpr = true)
        (exprsSymbols (next :: others) ++ symbol :: rest)
      have hothers := ih (by simp) h.2
      rw [exprsSymbols, List.length_append, List.length_cons] at hn
      rw [exprsSymbols, List.append_assoc, List.cons_append]
      simp only [depthPerSymbol] at hn hvalue hothers
      rw [readExprs, hvalue m (by omega)]
      simp [Symbol.mark, hothers m (by omega)]

/-! ### Statements -/

theorem exists_head_exprsSymbols {values : List Expr} (hne : values ≠ []) :
    ∃ text rest, exprsSymbols values = ⟨.word, text⟩ :: rest ∨
      exprsSymbols values = ⟨.string, text⟩ :: rest := by
  match values with
  | [] => exact absurd rfl hne
  | [value] => exact value.exists_head
  | value :: next :: others =>
    obtain ⟨text, rest, h | h⟩ := value.exists_head
    · exact ⟨text, _, .inl (by rw [exprsSymbols, h]; rfl)⟩
    · exact ⟨text, _, .inr (by rw [exprsSymbols, h]; rfl)⟩

/-- What starts with an expression is read as an assignment or an expression. -/
theorem readStmt_of_exprs {values : List Expr} (hne : values ≠ []) (depth : Nat)
    (rest : List Symbol) :
    readStmt (depth + 1) (exprsSymbols values ++ rest) =
      readSimple depth (exprsSymbols values ++ rest) := by
  obtain ⟨text, others, h | h⟩ := exists_head_exprsSymbols hne
  · rw [h]
    rfl
  · rw [h]
    rfl

/-- No statement starts with a closing brace. -/
theorem Stmt.exists_head (stmt : Stmt) (h : stmt.WellFormed) :
    ∃ symbol rest, stmt.symbols = symbol :: rest ∧ symbol.lexeme ≠ .mark .closeBrace := by
  have hexprs : ∀ values : List Expr, values ≠ [] → ∀ rest, ∃ symbol others,
      exprsSymbols values ++ rest = symbol :: others ∧ symbol.lexeme ≠ .mark .closeBrace := by
    intro values hne rest
    obtain ⟨text, others, h | h⟩ := exists_head_exprsSymbols hne
    · exact ⟨⟨.word, text⟩, others ++ rest, by rw [h]; rfl, nofun⟩
    · exact ⟨⟨.string, text⟩, others ++ rest, by rw [h]; rfl, nofun⟩
  match stmt with
  | .block body => exact ⟨_, _, rfl, nofun⟩
  | .assign left op right => exact hexprs left h.1.1 _
  | .ifThen condition body => exact ⟨_, _, rfl, nofun⟩
  | .expr value => simpa [Stmt.symbols, exprsSymbols] using hexprs [value] (by simp) []
  | .return_ results => exact ⟨_, _, rfl, nofun⟩
  | .defer function arguments => exact ⟨_, _, rfl, nofun⟩
  | .verbatim span => exact h.elim

/-- A statement in a block is read with the end of its line. -/
theorem readBlock_cons {depth : Nat} {stmt : Stmt} {stmts : List Stmt} {symbols rest : List Symbol}
    (hwell : stmt.WellFormed)
    (h : readStmt depth (stmt.symbols ++ lineEnd :: symbols) = some (stmt, lineEnd :: symbols))
    (hothers : readBlock depth symbols = some (stmts, rest)) :
    readBlock (depth + 1) (stmt.symbols ++ lineEnd :: symbols) = some (stmt :: stmts, rest) := by
  obtain ⟨symbol, others, hsymbols, hbrace⟩ := stmt.exists_head hwell
  rw [hsymbols] at h ⊢
  rw [List.cons_append] at h ⊢
  rw [readBlock]
  · rw [h]
    simp [lineEnd, hothers]
  · rintro text rest heq
    cases heq
    exact hbrace rfl

mutual

/-- **A well-formed statement is read from its symbols**, if its line ends behind it. -/
theorem readStmt_symbols (stmt : Stmt) (h : stmt.WellFormed) (rest : List Symbol) :
    ∀ n, depthPerSymbol * stmt.symbols.length + 6 ≤ n →
      readStmt n (stmt.symbols ++ lineEnd :: rest) = some (stmt, lineEnd :: rest) := by
  have hend : lineEnd.endsExpr = true := rfl
  have hbrace : (Symbol.mark "\x7b" .openBrace).endsExpr = true := rfl
  match stmt with
  | .block body =>
    intro n hn
    obtain ⟨m, rfl⟩ : ∃ m, n = m + 1 := ⟨n - 1, by omega⟩
    have hbody := readBlock_symbols body h (lineEnd :: rest)
    simp only [Stmt.symbols, List.length_cons, depthPerSymbol] at hn hbody
    simp [Stmt.symbols, readStmt, Symbol.mark, hbody m (by omega)]
  | .assign left op right =>
    intro n hn
    obtain ⟨m, rfl⟩ : ∃ m, n = m + 1 := ⟨n - 1, by omega⟩
    have hop : (Symbol.mark op.text op.sign).endsExpr = true := by cases op <;> rfl
    have hleft := readExprs_symbols h.1.1 h.1.2 hop (by cases op <;> decide)
      (exprsSymbols right ++ lineEnd :: rest)
    have hright := readExprs_symbols h.2.1 h.2.2 hend (by decide) rest
    simp only [Stmt.symbols, List.length_append, List.length_cons, depthPerSymbol]
      at hn hleft hright
    simp only [Stmt.symbols, List.append_assoc, List.cons_append]
    rw [readStmt_of_exprs h.1.1, readSimple, hleft m (by omega)]
    cases op <;> simp [Symbol.mark, AssignOp.sign, hright m (by omega)]
  | .ifThen condition body =>
    intro n hn
    obtain ⟨m, rfl⟩ : ∃ m, n = m + 1 := ⟨n - 1, by omega⟩
    have hcondition := condition.readExpr_ended h.1 hbrace (blockSymbols body ++ lineEnd :: rest)
    have hbody := readBlock_symbols body h.2 (lineEnd :: rest)
    simp only [Stmt.symbols, List.length_append, List.length_cons, depthPerSymbol]
      at hn hcondition hbody
    simp only [Stmt.symbols, List.append_assoc, List.cons_append, Symbol.reserved, readStmt,
      hcondition m (by omega)]
    simp [Symbol.mark, hbody m (by omega)]
  | .expr value =>
    intro n hn
    obtain ⟨m, rfl⟩ : ∃ m, n = m + 1 := ⟨n - 1, by omega⟩
    have hvalue := readExprs_symbols (List.cons_ne_nil value []) ⟨h, trivial⟩ hend (by decide)
      rest m (by simp only [Stmt.symbols, exprsSymbols] at hn ⊢; omega)
    have hsimple := readStmt_of_exprs (List.cons_ne_nil value []) m (lineEnd :: rest)
    simp only [exprsSymbols] at hvalue hsimple
    rw [Stmt.symbols, hsimple, readSimple, hvalue]
    simp [lineEnd]
  | .return_ results =>
    intro n hn
    obtain ⟨m, rfl⟩ : ∃ m, n = m + 1 := ⟨n - 1, by omega⟩
    cases results with
    | nil => rfl
    | cons value others =>
      have hresults := readExprs_symbols (List.cons_ne_nil value others) h hend (by decide) rest
      have hgoes : endsHere (exprsSymbols (value :: others) ++ lineEnd :: rest) = false := by
        obtain ⟨text, more, hhead | hhead⟩ :=
          exists_head_exprsSymbols (List.cons_ne_nil value others)
        · rw [hhead]
          rfl
        · rw [hhead]
          rfl
      simp only [Stmt.symbols, List.length_cons, depthPerSymbol] at hn hresults
      simp only [Stmt.symbols, List.cons_append, Symbol.reserved, readStmt, hgoes,
        hresults m (by omega)]
      rfl
  | .defer function arguments =>
    intro n hn
    obtain ⟨m, rfl⟩ : ∃ m, n = m + 1 := ⟨n - 1, by omega⟩
    have hcall := (Expr.call function arguments).readExpr_ended h hend rest
    simp only [Stmt.symbols, List.length_cons, depthPerSymbol] at hn hcall
    simp [Stmt.symbols, Symbol.reserved, readStmt, hcall m (by omega)]
  | .verbatim span => exact h.elim
termination_by (sizeOf stmt, 0)

/-- The statements of a block are read up to the closing brace. -/
theorem readBlock_symbols (stmts : List Stmt) (h : AreWellFormedStmts stmts) (rest : List Symbol) :
    ∀ n, depthPerSymbol * (blockSymbols stmts).length + 6 ≤ n →
      readBlock n (blockSymbols stmts ++ rest) = some (stmts, rest) := by
  match stmts with
  | [] =>
    intro n hn
    obtain ⟨m, rfl⟩ : ∃ m, n = m + 1 := ⟨n - 1, by omega⟩
    simp [blockSymbols, readBlock, Symbol.mark]
  | stmt :: others =>
    intro n hn
    obtain ⟨m, rfl⟩ : ∃ m, n = m + 1 := ⟨n - 1, by omega⟩
    have hstmt := readStmt_symbols stmt h.1 (blockSymbols others ++ rest)
    have hothers := readBlock_symbols others h.2 rest
    simp only [blockSymbols, List.length_append, List.length_cons, depthPerSymbol]
      at hn hstmt hothers
    rw [blockSymbols, List.append_assoc, List.cons_append]
    exact readBlock_cons h.1 (hstmt m (by omega)) (hothers m (by omega))
termination_by (sizeOf stmts, 0)

end

end EntryProbe.Go
