import EntryProbe.Go.Grammar.Types

/-!
# The grammar of expressions

Terms are operands with operators in front of them and between them. The strength
of the operators plays no part here: it says how a term is put together, not which
terms there are.

Where two marks written without a blank between them could be one longer mark, the
longer one counts only if it can stand there. So `f(a--b)` subtracts a negated
operand, since nothing is counted down inside parentheses, and `f(a<-b)` compares.
The rules split such a mark when they meet it.

The words `nil`, `true`, `false` and `iota` are expressions that start no composite
literal, and `new` and `make`, before an opening parenthesis, take a type as their
first argument.
-/

namespace EntryProbe.Go.Grammar

open Reader

/-- A mark that stands between two operands. The bar, which also joins types, is
not among them. -/
def isBinaryOperator : Mark → Bool
  | .star | .slash | .percent | .shiftLeft | .shiftRight | .amp | .ampCaret
  | .plus | .minus | .caret
  | .equal | .notEqual | .less | .lessEqual | .greater | .greaterEqual
  | .andAnd | .orOr => true
  | _ => false

/-- The two marks that a longer one is made of, for the marks that are split. -/
def halves? : Mark → Option (Mark × Mark)
  | .increment => some (.plus, .plus)
  | .decrement => some (.minus, .minus)
  | .andAnd => some (.amp, .amp)
  | .ampCaret => some (.amp, .caret)
  | .arrow => some (.less, .minus)
  | _ => none

/-- The second half of a mark that is split after an operand, because the whole mark
cannot stand there. -/
def splitMark? (context : Context) (mark : Mark) : Option Mark :=
  let splits :=
    match mark with
    | .increment | .decrement => !context.counts
    | .arrow => !context.sends
    | _ => false
  if splits then (halves? mark).map Prod.snd else none

/-- A mark that starts a term. -/
def startsTermMark : Mark → Bool
  | .plus | .minus | .not | .caret | .star | .amp | .arrow | .tilde
  | .increment | .decrement | .andAnd | .ampCaret
  | .openParen | .openBracket => true
  | _ => false

/-- A token that a term may start with. -/
def startsTerm : Lexeme → Bool
  | .word | .number | .rune | .string => true
  | .keyword .funcWord | .keyword .structWord | .keyword .mapWord | .keyword .chanWord
  | .keyword .interfaceWord => true
  | .mark mark => startsTermMark mark
  | _ => false

/-- Replaces the next token by the second half of its mark. -/
def keepHalf (mark : Mark) : Reader Unit :=
  modify fun
    | [] => []
    | token :: rest => ⟨[], token.text.drop 1, .mark mark⟩ :: rest

/-- The words that are expressions of their own kind. -/
def predeclaredWords : List String := ["nil", "true", "false", "iota"]

/-- The words that allocate, and take a type as their first argument. -/
def allocationWords : List String := ["new", "make"]

/-- The text of a token is one of these words. -/
def isOneOf (words : List String) (token : Token) : Bool :=
  words.any fun word => word.toList == token.text

/-- An identifier that is none of the words with a meaning of their own. -/
def isPlainWord (token : Token) : Bool :=
  token.lexeme == .word && !isOneOf predeclaredWords token && !isOneOf allocationWords token

/-- A term: operands with operators between them. -/
def term (self : Rules) (context : Context) : Reader Reading := do
  let left ← self _ (.unary context)
  self _ (.termTail context left)

/-- The tokens start with the guard of a type switch: a dot and the word `type` in
parentheses. -/
def startsGuard : List Token → Bool
  | first :: second :: third :: _ =>
    first.lexeme == .mark .dot && second.lexeme == .mark .openParen &&
      third.lexeme == .keyword .typeWord
  | _ => false

/-- The guard of a type switch follows. -/
def seesGuard : Reader Bool := do
  return startsGuard (← ahead)

/-- The operand after an operator. The guard of a type switch belongs to a whole
term, so it cannot follow such an operand. -/
def laterOperand (self : Rules) (context : Context) : Reader Reading := do
  let reading ← self _ (.unary context)
  require !(← seesGuard)
  return reading

/-- The operand after an operator, which has to be an expression. -/
def valueOperand (self : Rules) (context : Context) : Reader Unit := do
  let reading ← laterOperand self context
  require reading.value

/-- The rest of a term after a first operand. -/
def termTail (self : Rules) (context : Context) (left : Reading) : Reader Reading := do
  if left.value && (← endsLine context.lineEnds) then
    return left
  match ← next? with
  | some (.mark .pipe) =>
    skip
    let right ← laterOperand self context
    let both : Reading :=
      { value := left.value && right.value, element := left.element && right.element }
    require (both.value || both.element)
    self _ (.termTail context both)
  | some (.mark mark) =>
    if !left.value then
      return left
    else if isBinaryOperator mark then
      skip
      valueOperand self context
      self _ (.termTail context .onlyValue)
    else
      match splitMark? context mark with
      | some second =>
        keepHalf second
        valueOperand self context
        self _ (.termTail context .onlyValue)
      | none => return left
  | _ => return left

/-- The arguments of an allocation: a type, and perhaps expressions. -/
def allocationArguments (self : Rules) : Reader Unit := do
  expect (.mark .openParen)
  if !(← accepts (.mark .closeParen)) then
    self _ (.type false)
    self _ .moreArguments

/-- An operand that is not enclosed in anything: a literal or a name. -/
def wordOperand (self : Rules) (context : Context) (token : Token) : Reader Reading := do
  skip
  if isOneOf allocationWords token then
    if (← sees (.mark .openParen)) && !(← endsLine context.lineEnds) then
      allocationArguments self
      return .onlyValue
    else
      return .predeclared
  else if isOneOf predeclaredWords token then
    return .predeclared
  else
    return .name

/-- What follows the opening bracket of an array or slice type. The length of an
array may be left to a literal. -/
def arrayOperand (self : Rules) : Reader Reading := do
  skip
  if ← accepts (.mark .ellipsis) then
    expect (.mark .closeBracket)
    self _ (.type false)
    return { literal := .always }
  if !(← accepts (.mark .closeBracket)) then
    self _ (.expression .enclosed)
    expect (.mark .closeBracket)
  self _ (.type false)
  return .onlyType .always

/-- A function literal, or a function type. -/
def functionOperand (self : Rules) : Reader Reading := do
  skip
  let _ ← self _ .parameters
  let _ ← self _ (.result false)
  if ← sees (.mark .openBrace) then
    self _ .block
    return .onlyValue
  else
    return .onlyType .never

/-- An operand without the operators in front of it and without what follows. -/
def operand (self : Rules) (context : Context) : Reader Reading := do
  match ← ahead with
  | [] => lacksOperand context
  | token :: _ =>
    match token.lexeme with
    | .number | .rune | .string =>
      skip
      return .onlyValue
    | .word => wordOperand self context token
    | .mark .openParen =>
      skip
      let reading ← self _ (.term .enclosed)
      require (reading.value || reading.type)
      expect (.mark .closeParen)
      return { value := reading.value, type := reading.type, element := reading.type }
    | .mark .openBracket => arrayOperand self
    | .keyword .structWord | .keyword .mapWord =>
      self _ (.type false)
      return .onlyType .always
    | .keyword .chanWord | .keyword .interfaceWord =>
      self _ (.type false)
      return .onlyType .never
    | .mark .tilde =>
      self _ (.type false)
      return .onlyType .never
    | .keyword .funcWord => functionOperand self
    | _ => lacksOperand context

/-- An operand behind a mark that is two operators in a row. -/
def doubleOperator (self : Rules) (context : Context) : Reader Reading := do
  match ← next? with
  | some (.mark mark) =>
    match halves? mark with
    | some (_, second) =>
      keepHalf second
      valueOperand self context
      return .onlyValue
    | none => halt
  | _ => halt

/-- An operand with the operators in front of it and what follows it. -/
def unary (self : Rules) (context : Context) : Reader Reading := do
  match ← next? with
  | some (.mark .plus) | some (.mark .minus) | some (.mark .not) | some (.mark .caret)
  | some (.mark .amp) =>
    skip
    valueOperand self context
    return .onlyValue
  | some (.mark .increment) | some (.mark .decrement) | some (.mark .andAnd)
  | some (.mark .ampCaret) =>
    doubleOperator self context
  | some (.mark .star) =>
    skip
    let reading ← laterOperand self context
    require (reading.value || reading.type)
    return { value := reading.value, type := reading.type, element := reading.type }
  | some (.mark .arrow) =>
    skip
    let ofChannel ← sees (.keyword .chanWord)
    let reading ← laterOperand self context
    let type := ofChannel && reading.type
    require (reading.value || type)
    return { value := reading.value, type := type, element := type }
  | _ =>
    let reading ← operand self context
    self _ (.suffixes context reading)

/-- The tokens after a group in braces, given how many braces are open. -/
def afterBraces : Nat → List Token → List Token
  | _, [] => []
  | depth, token :: rest =>
    match token.lexeme with
    | .mark .openBrace => afterBraces (depth + 1) rest
    | .mark .closeBrace => if depth ≤ 1 then rest else afterBraces (depth - 1) rest
    | _ => afterBraces depth rest

/-- The group in braces ahead is the body of a statement and not a literal, because
what follows it can follow a statement. -/
def isBody (tokens : List Token) : Bool :=
  match afterBraces 0 tokens with
  | [] => true
  | token :: _ =>
    token.onNewLine ||
      match token.lexeme with
      | .mark .semicolon | .mark .null | .mark .closeBrace => true
      | .keyword .elseWord | .keyword .caseWord | .keyword .defaultWord => true
      | _ => false

/-- The brace ahead opens a composite literal of the type that was read. -/
def opensLiteral (context : Context) (head : LiteralHead) (tokens : List Token) : Bool :=
  match head with
  | .never => false
  | .plain => !context.bodyFollows
  | .named => !(context.bodyFollows && isBody tokens)
  | .always => true

/-- What brackets make of the term in front of them. -/
def afterBrackets (operand : Reading) (bracketed : Bracketed) : Reading :=
  let isType := operand.typeName && operand.type && bracketed.elements
  { value := (operand.value && bracketed.index) || (operand.type && bracketed.types)
    type := isType
    element := isType
    callable := operand.value && bracketed.elements
    literal := if isType then .named else .never }

/-- The tokens start with a type assertion: a dot and a parenthesis that something
follows. -/
def startsAssertion : List Token → Bool
  | first :: second :: _ :: _ =>
    first.lexeme == .mark .dot && second.lexeme == .mark .openParen
  | _ => false

/-- A selector or a type assertion. The guard of a type switch is neither. -/
def selector (self : Rules) (context : Context) (operand : Reading) : Reader Reading := do
  if ← seesGuard then
    return operand
  else if startsAssertion (← ahead) then
    expect (.mark .dot)
    expect (.mark .openParen)
    self _ (.type false)
    expect (.mark .closeParen)
    self _ (.suffixes context .onlyValue)
  else
    expect (.mark .dot)
    expect .word
    self _ (.suffixes context (if operand.plainName then .qualified else .onlyValue))

/-- A term that can be the name of a type goes on after a line break. As an
expression it could end there, but no type ends a statement, and so the break says
nothing if the term is one. The term is taken for a type if a composite literal
follows, if arguments follow its type arguments, or if brackets follow that do not
start a statement. -/
def crossesLine (self : Rules) (operand : Reading) : Reader Bool := do
  match ← next? with
  | some (.mark .openBrace) =>
    if operand.literal == .named then
      succeeds do
        skip
        self _ .literal
    else
      return false
  | some (.mark .openParen) =>
    if operand.callable then
      succeeds do
        skip
        self _ .arguments
    else
      return false
  | some (.mark .openBracket) =>
    if operand.literal == .named && !(← succeeds (self _ .statement)) then
      succeeds do
        skip
        let bracketed ← self _ .bracketed
        require bracketed.elements
    else
      return false
  | _ => return false

/-- An operand ends with its line. -/
def endsOperand (self : Rules) (context : Context) (operand : Reading) : Reader Bool := do
  if operand.value && (← endsLine context.lineEnds) then
    return !(← crossesLine self operand)
  else
    return false

/-- The selectors, brackets, arguments and literals after an operand. -/
def suffixes (self : Rules) (context : Context) (operand : Reading) : Reader Reading := do
  if ← endsOperand self context operand then
    return operand
  match ← next? with
  | some (.mark .dot) => if operand.value then selector self context operand else return operand
  | some (.mark .openBracket) =>
    if operand.value || operand.type then
      skip
      let reading := afterBrackets operand (← self _ .bracketed)
      require (reading.value || reading.type || reading.callable)
      self _ (.suffixes context reading)
    else
      return operand
  | some (.mark .openParen) =>
    if operand.value || operand.callable then
      skip
      self _ .arguments
      self _ (.suffixes context .onlyValue)
    else if operand.type then
      skip
      self _ (.expression .enclosed)
      let _ ← accepts (.mark .comma)
      expect (.mark .closeParen)
      self _ (.suffixes context .onlyValue)
    else
      return operand
  | some (.mark .openBrace) =>
    if opensLiteral context operand.literal (← ahead) then
      skip
      self _ .literal
      self _ (.suffixes context .onlyValue)
    else
      return operand
  | _ => return operand

/-- An expression: a term that can be one. -/
def expression (self : Rules) (context : Context) : Reader Unit := do
  let reading ← self _ (.term context)
  require reading.value

/-- A list of expressions. -/
def expressions (self : Rules) (context : Context) : Reader Nat := do
  self _ (.expression context)
  if ← endsLine context.lineEnds then
    return 1
  else if ← accepts (.mark .comma) then
    return 1 + (← self _ (.expressions context))
  else
    return 1

/-- The end and the capacity of a slice, and the closing bracket. -/
def sliceTail (self : Rules) : Reader Bracketed := do
  if !(← accepts (.mark .closeBracket)) then
    self _ (.expression .enclosed)
    if ← accepts (.mark .colon) then
      self _ (.expression .enclosed)
    expect (.mark .closeBracket)
  return ⟨true, false, false⟩

/-- What follows an opening bracket after a term: an index, a slice, or types. -/
def bracketed (self : Rules) : Reader Bracketed := do
  if ← accepts (.mark .colon) then
    sliceTail self
  else
    let reading ← self _ (.term .enclosed)
    if ← accepts (.mark .closeBracket) then
      return ⟨reading.value, reading.type, reading.element⟩
    else if ← accepts (.mark .comma) then
      require reading.element
      self _ (.moreElements reading.type)
    else
      require reading.value
      expect (.mark .colon)
      sliceTail self

/-- The rest of a list in brackets of more than one element. The elements after the
first one are types and unions of types. -/
def moreElements (self : Rules) (types : Bool) : Reader Bracketed := do
  if ← accepts (.mark .closeBracket) then
    return ⟨false, types, true⟩
  self _ (.type false)
  let union ← accepts (.mark .pipe)
  if union then
    self _ (.element false)
  if ← accepts (.mark .comma) then
    self _ (.moreElements (types && !union))
  else
    expect (.mark .closeBracket)
    return ⟨false, types && !union, true⟩

/-- The arguments of a call. Any of them may be spread, and a comma may stand at
the end. -/
def arguments (self : Rules) : Reader Unit := do
  if !(← accepts (.mark .closeParen)) then
    self _ (.expression .enclosed)
    let _ ← accepts (.mark .ellipsis)
    if ← accepts (.mark .comma) then
      self _ .arguments
    else
      expect (.mark .closeParen)

/-- The rest of the arguments of an allocation. -/
def moreArguments (self : Rules) : Reader Unit := do
  if ← accepts (.mark .comma) then
    if !(← accepts (.mark .closeParen)) then
      self _ (.expression .enclosed)
      self _ .moreArguments
  else
    expect (.mark .closeParen)

/-- A value in a composite literal, which may be a literal without its type. -/
def literalElement (self : Rules) : Reader Unit := do
  if ← accepts (.mark .openBrace) then
    self _ .literal
  else
    self _ (.expression .enclosed)

/-- The elements of a composite literal, with or without keys. Between the braces
there may be nothing but a comma. -/
def literal (self : Rules) : Reader Unit := do
  if ← accepts (.mark .comma) then
    expect (.mark .closeBrace)
  else if !(← accepts (.mark .closeBrace)) then
    self _ .literalElement
    if ← accepts (.mark .colon) then
      self _ .literalElement
    if ← accepts (.mark .comma) then
      if !(← accepts (.mark .closeBrace)) then
        require !(← sees (.mark .comma))
        self _ .literal
    else
      expect (.mark .closeBrace)

end EntryProbe.Go.Grammar
