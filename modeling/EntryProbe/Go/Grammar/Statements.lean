import EntryProbe.Go.Grammar.Expressions

/-!
# The grammar of statements

Statements of a block are separated by terminators: line breaks, semicolons or null
characters. A semicolon where a statement could start is a statement of its own, the
empty one, and a label may have nothing after it only at the end of a list.

The header of a conditional, a loop or a switch starts with a simple statement whose
role becomes clear only after it has been read: it is an initializer if a semicolon
follows, and the condition or value if it is an expression and a brace follows.
-/

namespace EntryProbe.Go.Grammar

open Reader

/-! ### Declarations -/

/-- A specification of constants: names, and perhaps their values, with or without
a type. -/
def constantSpec (self : Rules) : Reader Unit := do
  self _ (.names true)
  if !(← atLineStart) then
    if ← accepts (.mark .assign) then
      let _ ← self _ (.expressions .value)
    else if ((← next?).map startsType).getD false then
      self _ (.type false)
      expect (.mark .assign)
      let _ ← self _ (.expressions .value)

/-- A specification of variables: names with a type, values, or both. -/
def variableSpec (self : Rules) : Reader Unit := do
  self _ (.names false)
  if ← accepts (.mark .assign) then
    let _ ← self _ (.expressions .value)
  else
    self _ (.type true)
    if !(← atLineStart) then
      if ← accepts (.mark .assign) then
        let _ ← self _ (.expressions .value)

/-- A type, after an equals sign if the name before it is an alias. -/
def typeOrAlias (self : Rules) : Reader Unit := do
  let _ ← accepts (.mark .assign)
  self _ (.type true)

/-- What follows the name of a type with type parameters. The first of them is none of
the words that are expressions of their own kind. -/
def genericType (self : Rules) : Reader Unit := do
  expect (.mark .openBracket)
  require (((← ahead).head?.map isPlainWord).getD false)
  self _ .typeParameters
  typeOrAlias self

/-- The tokens start with a bracket, a word and an arrow. -/
def startsArrowConstraint : List Token → Bool
  | first :: second :: third :: _ =>
    first.lexeme == .mark .openBracket && second.lexeme == .word && third.lexeme == .mark .arrow
  | _ => false

/-- A specification of a type. A bracket after the name opens a list of type
parameters, or else the type of an array or a slice. An arrow after the first word
starts a constraint, and is no part of the length of an array. -/
def typeSpec (self : Rules) : Reader Unit := do
  expect .word
  if ← sees (.mark .openBracket) then
    if startsArrowConstraint (← ahead) then
      genericType self
    else
      (genericType self).orElse (self _ (.type true))
  else
    typeOrAlias self

/-- The specifications of a group of constants, each with a terminator. -/
def constantGroup (self : Rules) : Reader Unit := do
  if !(← accepts (.mark .closeParen)) then
    self _ .constantSpec
    if ← terminator then self _ .constantGroup else halt

/-- The specifications of a group of variables, each with a terminator. -/
def variableGroup (self : Rules) : Reader Unit := do
  if !(← accepts (.mark .closeParen)) then
    self _ .variableSpec
    if ← terminator then self _ .variableGroup else halt

/-- The specifications of a group of types, with terminators between them. -/
def typeGroup (self : Rules) : Reader Unit := do
  if !(← accepts (.mark .closeParen)) then
    self _ .typeSpec
    if ← terminator then self _ .typeGroup else expect (.mark .closeParen)

/-- A declaration after its first word: a group, or a single specification. -/
def declaration (self : Rules) (spec group : Phrase Unit) : Reader Unit := do
  skip
  if ← accepts (.mark .openParen) then self _ group else self _ spec

/-! ### Simple statements -/

/-- Skips the guard of a type switch, if it follows. -/
def acceptsGuard : Reader Bool := do
  if ← seesGuard then
    expect (.mark .dot)
    expect (.mark .openParen)
    expect (.keyword .typeWord)
    expect (.mark .closeParen)
    return true
  else
    return false

/-- The clause of a loop over a range, if it follows and may. -/
def acceptsRange (self : Rules) (place : Place) : Reader Bool := do
  if place == .loop then
    if ← accepts (.keyword .rangeWord) then
      self _ (.expression .lastOfHeader)
      return true
    else
      return false
  else
    return false

/-- The right side of an assignment or a definition. -/
def rightSide (self : Rules) (place : Place) (kind : StatementKind) : Reader SimpleForm := do
  if ← acceptsRange self place then
    return .range
  else
    let count ← self _ (.expressions place.last)
    if place == .switch && kind == .definition && count == 1 then
      return if ← acceptsGuard then .guard else .plain kind
    else
      return .plain kind

/-- An assignment or definition from its operator on. -/
def assignment (self : Rules) (place : Place) : Reader SimpleForm := do
  match ← next? with
  | some (.mark .assign) =>
    skip
    rightSide self place .assignment
  | some (.mark .define) =>
    skip
    rightSide self place .definition
  | some (.mark .updateAssign) =>
    skip
    let _ ← self _ (.expressions place.last)
    return .plain .assignment
  | _ => halt

/-- A simple statement. -/
def simple (self : Rules) (place : Place) : Reader SimpleForm := do
  self _ (.expression place.first)
  if ← endsLine place.first.lineEnds then
    return .plain .expression
  match ← next? with
  | some (.mark .comma) =>
    skip
    let _ ← self _ (.expressions .enclosed)
    assignment self place
  | some (.mark .assign) | some (.mark .define) | some (.mark .updateAssign) =>
    assignment self place
  | some (.mark .arrow) =>
    skip
    self _ (.expression place.last)
    return .plain .send
  | some (.mark .increment) =>
    skip
    return .plain .increment
  | some (.mark .decrement) =>
    skip
    return .plain .decrement
  | some (.mark .dot) =>
    if place == .switch then
      return if ← acceptsGuard then .guard else .plain .expression
    else
      return .plain .expression
  | _ => return .plain .expression

/-! ### Compound statements -/

/-- A block. -/
def block (self : Rules) : Reader Unit := do
  expect (.mark .openBrace)
  self _ .statements
  expect (.mark .closeBrace)

/-- The header of a conditional: a condition, perhaps after an initializer. -/
def conditionalHeader (self : Rules) : Reader Unit := do
  let form ← self _ (.simple .conditional)
  if ← accepts (.mark .semicolon) then
    self _ (.expression .lastOfHeader)
  else
    require (form == .plain .expression)

/-- What is done if the condition does not hold, if there is anything. -/
def alternative (self : Rules) : Reader Unit := do
  if !(← atLineStart) then
    if ← accepts (.keyword .elseWord) then
      if ← accepts (.keyword .ifWord) then
        self _ .conditional
      else
        self _ .block

/-- A conditional after its first word. -/
def conditional (self : Rules) : Reader Unit := do
  conditionalHeader self
  self _ .block
  alternative self

/-- The condition of a loop, if there is one, and the semicolon after it. -/
def loopCondition (self : Rules) : Reader Unit := do
  if !(← accepts (.mark .semicolon)) then
    self _ (.expression .enclosed)
    expect (.mark .semicolon)

/-- The condition and the update of a loop, after the first semicolon. -/
def loopClause (self : Rules) : Reader Unit := do
  loopCondition self
  if !(← sees (.mark .openBrace)) then
    match ← self _ (.simple .update) with
    | .plain _ => return ()
    | _ => halt

/-- The header of a loop. -/
def loopHeader (self : Rules) : Reader Unit := do
  match ← next? with
  | some (.mark .openBrace) => return ()
  | some (.mark .semicolon) =>
    skip
    loopClause self
  | some (.keyword .rangeWord) =>
    skip
    self _ (.expression .lastOfHeader)
  | _ =>
    match ← self _ (.simple .loop) with
    | .range => return ()
    | .plain kind =>
      if ← accepts (.mark .semicolon) then
        loopClause self
      else
        require (kind == .expression)
    | .guard => halt

/-- A loop after its first word. -/
def loop (self : Rules) : Reader Unit := do
  loopHeader self
  self _ .block

/-- The value or guard of a switch after an initializer. The answer says whether it
is a guard. -/
def switchSubject (self : Rules) : Reader Bool := do
  if ← sees (.mark .openBrace) then
    return false
  self _ (.expression .lastOfHeader)
  match ← next? with
  | some (.mark .comma) =>
    skip
    let _ ← self _ (.expressions .enclosed)
    guard
  | some (.mark .define) => guard
  | some (.mark .dot) => if ← acceptsGuard then return true else halt
  | _ => return false
where
  /-- A definition that is a guard. -/
  guard : Reader Bool := do
    expect (.mark .define)
    self _ (.expression .enclosed)
    if ← acceptsGuard then return true else halt

/-- The header of a switch. The answer says whether it ends with a guard. -/
def switchHeader (self : Rules) : Reader Bool := do
  if ← sees (.mark .openBrace) then
    return false
  else
    match ← self _ (.simple .switch) with
    | .guard => return true
    | .range => halt
    | .plain kind =>
      if ← accepts (.mark .semicolon) then
        switchSubject self
      else
        require (kind == .expression)
        return false

/-- A switch after its first word: its header and its cases. -/
def switch (self : Rules) : Reader StatementKind := do
  let isGuard ← switchHeader self
  expect (.mark .openBrace)
  if isGuard then
    self _ .typeCases
    return .typeSwitch
  else
    self _ .valueCases
    return .expressionSwitch

/-- The case for everything else, or the end of the cases. -/
def defaultOrEnd (self : Rules) (cases : Phrase Unit) : Reader Unit := do
  if ← accepts (.keyword .defaultWord) then
    expect (.mark .colon)
    self _ .statements
    self _ cases
  else
    expect (.mark .closeBrace)

/-- The cases of a switch on values. -/
def valueCases (self : Rules) : Reader Unit := do
  if ← accepts (.keyword .caseWord) then
    let _ ← self _ (.expressions .enclosed)
    expect (.mark .colon)
    self _ .statements
    self _ .valueCases
  else
    defaultOrEnd self .valueCases

/-- A list of types and the colon after it. -/
def caseTypes (self : Rules) : Reader Unit := do
  self _ (.type false)
  if ← accepts (.mark .comma) then
    self _ .caseTypes
  else
    expect (.mark .colon)

/-- The cases of a switch on types. -/
def typeCases (self : Rules) : Reader Unit := do
  if ← accepts (.keyword .caseWord) then
    self _ .caseTypes
    self _ .statements
    self _ .typeCases
  else
    defaultOrEnd self .typeCases

/-- What a case of a select statement waits for: a send, or a receive with or
without a place for what is received. -/
def communication (self : Rules) : Reader Unit := do
  self _ (.expression .communication)
  match ← next? with
  | some (.mark .arrow) =>
    skip
    self _ (.expression .enclosed)
  | some (.mark .comma) =>
    skip
    let _ ← self _ (.expressions .enclosed)
    received
  | some (.mark .assign) | some (.mark .define) => received
  | _ => return ()
where
  /-- The operator and what is received. -/
  received : Reader Unit := do
    if !(← accepts (.mark .assign)) then
      expect (.mark .define)
    self _ (.expression .enclosed)

/-- The cases of a select statement. -/
def communications (self : Rules) : Reader Unit := do
  if ← accepts (.keyword .caseWord) then
    communication self
    expect (.mark .colon)
    self _ .statements
    self _ .communications
  else
    defaultOrEnd self .communications

/-! ### Statements -/

/-- A token that ends a list of statements. -/
def closesStatements : Lexeme → Bool
  | .mark .closeBrace | .keyword .caseWord | .keyword .defaultWord => true
  | _ => false

/-- The tokens ahead start with a label: a word and, on the same line, a colon. -/
def startsWithLabel : List Token → Bool
  | first :: second :: _ =>
    isPlainWord first && second.lexeme == .mark .colon && !second.onNewLine
  | _ => false

/-- The label of a jump, if it stands on the same line. -/
def optionalLabel : Reader Unit := do
  if !(← atLineStart) then
    let _ ← accepts .word

/-- The results of a return statement, if there are any. -/
def returnResults (self : Rules) : Reader Unit := do
  if !(← atLineStart) then
    if ((← next?).map startsTerm).getD false then
      let _ ← self _ (.expressions .value)

/-- A statement. -/
def statement (self : Rules) : Reader StatementKind := do
  match ← ahead with
  | [] => halt
  | token :: rest =>
    match token.lexeme with
    | .mark .openBrace =>
      self _ .block
      return .block
    | .mark .semicolon =>
      skip
      return .empty
    | .keyword .constWord =>
      declaration self .constantSpec .constantGroup
      return .constants
    | .keyword .typeWord =>
      declaration self .typeSpec .typeGroup
      return .types
    | .keyword .varWord =>
      declaration self .variableSpec .variableGroup
      return .variables
    | .keyword .returnWord =>
      skip
      returnResults self
      return .returns
    | .keyword .goWord =>
      skip
      self _ (.expression .value)
      return .go
    | .keyword .deferWord =>
      skip
      self _ (.expression .value)
      return .defer
    | .keyword .ifWord =>
      skip
      self _ .conditional
      return .conditional
    | .keyword .forWord =>
      skip
      loop self
      return .loop
    | .keyword .switchWord =>
      skip
      switch self
    | .keyword .selectWord =>
      skip
      expect (.mark .openBrace)
      self _ .communications
      return .select
    | .keyword .fallthroughWord =>
      skip
      return .fallthrough
    | .keyword .breakWord =>
      skip
      optionalLabel
      return .break_
    | .keyword .continueWord =>
      skip
      optionalLabel
      return .continue_
    | .keyword .gotoWord =>
      skip
      expect .word
      return .goto
    | lexeme =>
      if startsWithLabel (token :: rest) then
        expect .word
        expect (.mark .colon)
        let _ ← self _ .statement
        return .labeled
      else if startsTerm lexeme then
        match ← self _ (.simple .body) with
        | .plain kind => return kind
        | _ => halt
      else
        halt

/-- The tokens start with a label at the end of a list of statements. -/
def startsWithLastLabel (tokens : List Token) : Bool :=
  startsWithLabel tokens &&
    ((tokens.drop 2).head?.map fun token => closesStatements token.lexeme).getD false

/-- A statement of a list. At the end of the list it may be a label with nothing
after it. -/
def listStatement (self : Rules) : Reader StatementKind := do
  if startsWithLastLabel (← ahead) then
    expect .word
    expect (.mark .colon)
    return .labeled
  else
    self _ .statement

/-- The statements of a block or a case, up to the token that closes them. -/
def statements (self : Rules) : Reader Unit := do
  match ← next? with
  | none => return ()
  | some lexeme =>
    if closesStatements lexeme then
      return ()
    else
      let _ ← self _ .listStatement
      if ← terminator then
        self _ .statements
      else if !((← next?).map closesStatements).getD true then
        halt

end EntryProbe.Go.Grammar
