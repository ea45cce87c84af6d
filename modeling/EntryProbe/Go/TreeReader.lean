import EntryProbe.Go.Token
import EntryProbe.Go.Tree

/-!
# Reading statements as trees

The other direction of the renderer: which statement a text stands for, by the rules of Go.
Only what has a tree is read; any other text gives nothing.

The rules are these. A line break after a token that can end a statement stands for a
semicolon (`EntryProbe.Go.symbols`), and so does the end of the text. Selectors and calls
bind tighter than operators, `+` binds tighter than `!=`, and operators of one strength
associate to the left (`EntryProbe.Go.readOperation`). Semicolons end the statements of a
block, and the last one may be left out.

Reading goes down in a tree, so that its depth is limited by a number that is taken as an
argument. A few times the number of symbols is always enough for a tree that was rendered.

* `EntryProbe.Go.readText?` – the statement that a text stands for.
-/

namespace EntryProbe.Go

/-! ### Symbols -/

/-- A token without the gap in front of it. -/
structure Symbol where
  /-- The kind of the token. -/
  lexeme : Lexeme
  /-- The token as written. -/
  text : List Char
  deriving Repr, DecidableEq, Inhabited

/-- A token as a symbol. -/
def Token.symbol (token : Token) : Symbol :=
  ⟨token.lexeme, token.text⟩

/-- The semicolon that a line break stands for. -/
def lineEnd : Symbol :=
  ⟨.mark .semicolon, ['\n']⟩

/-- A token of this kind can be the last one of a statement, so that a line break after it
is a semicolon. -/
def Lexeme.endsStatement : Lexeme → Bool
  | .word | .number | .rune | .string => true
  | .keyword reserved =>
    [.breakWord, .continueWord, .fallthroughWord, .returnWord].contains reserved
  | .mark sign => [.increment, .decrement, .closeParen, .closeBracket, .closeBrace].contains sign
  | .stray => false

/-- A new line starts between a token and the tokens after it, or the text ends. -/
def breaksLine : List Token → Bool
  | [] => true
  | next :: _ => next.gap.contains '\n'

/-- **The symbols of tokens**, with the semicolons that line breaks stand for. -/
def symbols : List Token → List Symbol
  | [] => []
  | token :: rest =>
    if token.lexeme.endsStatement && breaksLine rest then
      token.symbol :: lineEnd :: symbols rest
    else
      token.symbol :: symbols rest

/-! ### Expressions -/

/-- How tight an operator binds, among the five strengths of the operators of Go. -/
def BinaryOp.strength : BinaryOp → Nat
  | .ne => 3
  | .add => 4

/-- The operator that a mark stands for. -/
def binaryOp? : Lexeme → Option BinaryOp
  | .mark .plus => some .add
  | .mark .notEqual => some .ne
  | _ => none

/-- A name or a literal. -/
def readOperand : List Symbol → Option (Expr × List Symbol)
  | ⟨.word, name⟩ :: rest => some (.ident (String.ofList name), rest)
  | ⟨.string, text⟩ :: rest => some (.literal (String.ofList text), rest)
  | _ => none

mutual

/-- An expression whose operators bind at least as tight as `level`. -/
def readExpr : (depth : Nat) → (level : Nat) → List Symbol → Option (Expr × List Symbol)
  | 0, _, _ => none
  | depth + 1, level, symbols => do
    let (operand, rest) ← readOperand symbols
    let (value, rest) ← readSuffixes depth operand rest
    readOperation depth level value rest

/-- The selectors and calls that follow an operand. -/
def readSuffixes : (depth : Nat) → Expr → List Symbol → Option (Expr × List Symbol)
  | 0, _, _ => none
  | depth + 1, value, symbols =>
    match symbols with
    | ⟨.mark .dot, _⟩ :: ⟨.word, name⟩ :: rest =>
      readSuffixes depth (.selector value (String.ofList name)) rest
    | ⟨.mark .openParen, _⟩ :: rest => do
      let (arguments, rest) ← readArguments depth rest
      readSuffixes depth (.call value arguments) rest
    | rest => some (value, rest)

/-- The arguments of a call, up to the closing parenthesis. There may be a comma after the
last one. -/
def readArguments : (depth : Nat) → List Symbol → Option (List Expr × List Symbol)
  | 0, _ => none
  | depth + 1, symbols =>
    match symbols with
    | ⟨.mark .closeParen, _⟩ :: rest => some ([], rest)
    | symbols => do
      let (value, rest) ← readExpr depth 0 symbols
      match rest with
      | ⟨.mark .comma, _⟩ :: rest => do
        let (values, rest) ← readArguments depth rest
        return (value :: values, rest)
      | ⟨.mark .closeParen, _⟩ :: rest => return ([value], rest)
      | _ => none

/-- The operations whose first operand is there, one after the other. The second operand
takes what binds tighter than the operator in front of it, and nothing else. -/
def readOperation : (depth : Nat) → (level : Nat) → Expr → List Symbol →
    Option (Expr × List Symbol)
  | 0, _, _, _ => none
  | depth + 1, level, left, symbols =>
    match symbols with
    | [] => some (left, [])
    | symbol :: rest =>
      match binaryOp? symbol.lexeme with
      | none => some (left, symbol :: rest)
      | some op =>
        if level ≤ op.strength then do
          let (right, rest) ← readExpr depth (op.strength + 1) rest
          readOperation depth level (.binary left op right) rest
        else
          some (left, symbol :: rest)

end

/-- Expressions with commas between them, at least one. -/
def readExprs : (depth : Nat) → List Symbol → Option (List Expr × List Symbol)
  | 0, _ => none
  | depth + 1, symbols => do
    let (value, rest) ← readExpr depth 0 symbols
    match rest with
    | ⟨.mark .comma, _⟩ :: rest => do
      let (values, rest) ← readExprs depth rest
      return (value :: values, rest)
    | rest => return ([value], rest)

/-! ### Statements -/

/-- A statement is over. -/
def endsHere : List Symbol → Bool
  | [] => true
  | symbol :: _ => symbol.lexeme == .mark .semicolon || symbol.lexeme == .mark .closeBrace

/-- An assignment, or an expression. -/
def readSimple (depth : Nat) (symbols : List Symbol) : Option (Stmt × List Symbol) := do
  let (values, rest) ← readExprs depth symbols
  match rest with
  | ⟨.mark .define, _⟩ :: rest => do
    let (others, rest) ← readExprs depth rest
    return (.assign values .define others, rest)
  | ⟨.mark .assign, _⟩ :: rest => do
    let (others, rest) ← readExprs depth rest
    return (.assign values .assign others, rest)
  | rest =>
    match values with
    | [value] => return (.expr value, rest)
    | _ => none

mutual

/-- A statement. -/
def readStmt : (depth : Nat) → List Symbol → Option (Stmt × List Symbol)
  | 0, _ => none
  | depth + 1, symbols =>
    match symbols with
    | ⟨.mark .openBrace, _⟩ :: rest => do
      let (body, rest) ← readBlock depth rest
      return (.block body, rest)
    | ⟨.keyword .ifWord, _⟩ :: rest => do
      let (condition, rest) ← readExpr depth 0 rest
      match rest with
      | ⟨.mark .openBrace, _⟩ :: rest => do
        let (body, rest) ← readBlock depth rest
        return (.ifThen condition body, rest)
      | _ => none
    | ⟨.keyword .returnWord, _⟩ :: rest =>
      if endsHere rest then
        return (.return_ [], rest)
      else do
        let (results, rest) ← readExprs depth rest
        return (.return_ results, rest)
    | ⟨.keyword .deferWord, _⟩ :: rest => do
      let (value, rest) ← readExpr depth 0 rest
      match value with
      | .call function arguments => return (.defer function arguments, rest)
      | _ => none
    | symbols => readSimple depth symbols

/-- The statements of a block, up to the closing brace. -/
def readBlock : (depth : Nat) → List Symbol → Option (List Stmt × List Symbol)
  | 0, _ => none
  | depth + 1, symbols =>
    match symbols with
    | ⟨.mark .closeBrace, _⟩ :: rest => some ([], rest)
    | symbols => do
      let (stmt, rest) ← readStmt depth symbols
      match rest with
      | ⟨.mark .semicolon, _⟩ :: rest => do
        let (stmts, rest) ← readBlock depth rest
        return (stmt :: stmts, rest)
      | ⟨.mark .closeBrace, _⟩ :: rest => return ([stmt], rest)
      | _ => none

end

/-- How much deeper reading may go with each symbol. -/
def depthPerSymbol : Nat := 4

/-- **The statement that a text stands for.** There is one statement in the text, and nothing
behind it but its end. -/
def readText? (text : List Char) : Option Stmt :=
  let all := symbols (scan text).1
  match readStmt (depthPerSymbol * (all.length + 1)) all with
  | some (stmt, [⟨.mark .semicolon, _⟩]) => some stmt
  | some (stmt, []) => some stmt
  | _ => none

end EntryProbe.Go
