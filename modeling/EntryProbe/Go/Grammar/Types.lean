import EntryProbe.Go.Grammar.Basic

/-!
# The grammar of types

The rules for types, for lists of parameters, and for the lists of type parameters
and type arguments. Three points deserve a word.

* A function type takes as its result whatever can be one: in `func() (x)` the
  parentheses hold a result.
* A parameter list mixes names and types, and only what follows a lone name says
  which of the two it is. Lone names that precede a name with a type belong to the
  same declaration; otherwise each is a type of its own.
* In a parameter list and in a struct, a name and a bracket start either an array
  type or a list of type arguments. What is in the brackets is read once, as a term.
-/

namespace EntryProbe.Go.Grammar

open Reader

/-- A token that a type may start with, other than a parenthesis. -/
def startsSimpleType : Lexeme → Bool
  | .word => true
  | .keyword .structWord | .keyword .interfaceWord | .keyword .mapWord | .keyword .chanWord
  | .keyword .funcWord => true
  | .mark .star | .mark .openBracket | .mark .arrow | .mark .tilde => true
  | _ => false

/-- A token that a type may start with. -/
def startsType (lexeme : Lexeme) : Bool :=
  startsSimpleType lexeme || lexeme == .mark .openParen

/-- Type arguments, if they follow. -/
def typeArgumentsTail (self : Rules) (lineEnds : Bool) : Reader Unit := do
  if !(← endsLine lineEnds) then
    if ← accepts (.mark .openBracket) then
      self _ .typeArguments

/-- The rest of the name of a type after its first word: a name in a package, and
type arguments. -/
def typeNameTail (self : Rules) (lineEnds : Bool) : Reader Unit := do
  if !(← endsLine lineEnds) then
    if ← accepts (.mark .dot) then
      expect .word
  typeArgumentsTail self lineEnds

/-- A type. -/
def type (self : Rules) (lineEnds : Bool) : Reader Unit := do
  match ← next? with
  | some .word =>
    skip
    typeNameTail self lineEnds
  | some (.mark .star) =>
    skip
    self _ (.type lineEnds)
  | some (.mark .tilde) =>
    skip
    self _ (.type lineEnds)
    typeArgumentsTail self lineEnds
  | some (.mark .openParen) =>
    skip
    self _ (.type false)
    expect (.mark .closeParen)
  | some (.mark .openBracket) =>
    skip
    if !(← accepts (.mark .closeBracket)) then
      self _ (.expression .enclosed)
      expect (.mark .closeBracket)
    self _ (.type lineEnds)
  | some (.mark .arrow) =>
    skip
    expect (.keyword .chanWord)
    self _ (.type lineEnds)
  | some (.keyword .chanWord) =>
    skip
    let _ ← accepts (.mark .arrow)
    self _ (.type lineEnds)
  | some (.keyword .mapWord) =>
    skip
    expect (.mark .openBracket)
    self _ (.type false)
    expect (.mark .closeBracket)
    self _ (.type lineEnds)
  | some (.keyword .structWord) =>
    skip
    expect (.mark .openBrace)
    self _ .fields
  | some (.keyword .interfaceWord) =>
    skip
    expect (.mark .openBrace)
    self _ .methods
  | some (.keyword .funcWord) =>
    skip
    let _ ← self _ .parameters
    let _ ← self _ (.result lineEnds)
  | _ => halt

/-- A type or a union of types. -/
def element (self : Rules) (lineEnds : Bool) : Reader Unit := do
  self _ (.type lineEnds)
  if !(← endsLine lineEnds) then
    if ← accepts (.mark .pipe) then
      self _ (.element lineEnds)

/-- The elements of a list of type arguments, and its closing bracket. A comma may
stand at the end. -/
def typeArguments (self : Rules) : Reader Unit := do
  self _ (.element false)
  if ← accepts (.mark .comma) then
    if !(← accepts (.mark .closeBracket)) then
      self _ .typeArguments
  else
    expect (.mark .closeBracket)

/-- The declarations of a list of type parameters, and its closing bracket: names
and a constraint, again and again. -/
def typeParameters (self : Rules) : Reader Unit := do
  self _ (.names false)
  self _ (.element false)
  if ← accepts (.mark .comma) then
    if !(← accepts (.mark .closeBracket)) then
      self _ .typeParameters
  else
    expect (.mark .closeBracket)

/-- Names separated by commas. -/
def names (self : Rules) (lineEnds : Bool) : Reader Unit := do
  expect .word
  if !(← endsLine lineEnds) then
    if ← accepts (.mark .comma) then
      self _ (.names lineEnds)

/-- What follows a name and an opening bracket. -/
def arrayOrArguments (self : Rules) (lineEnds : Bool) : Reader ParameterForm := do
  if ← accepts (.mark .closeBracket) then
    self _ (.type lineEnds)
    return .typed
  let reading ← self _ (.term .enclosed)
  if ← accepts (.mark .comma) then
    require reading.element
    let _ ← self _ (.moreElements reading.type)
    return .whole
  expect (.mark .closeBracket)
  let typeFollows := ((← next?).map startsType).getD false
  if typeFollows && !(← endsLine lineEnds) then
    require reading.value
    self _ (.type lineEnds)
    return .typed
  else
    require reading.element
    return .whole

/-- A parameter. -/
def parameter (self : Rules) : Reader ParameterForm := do
  if ← accepts (.mark .ellipsis) then
    self _ (.type false)
    return .whole
  if ← sees .word then
    match (← ahead).tail.head?.map Token.lexeme with
    | some (.mark .comma) | some (.mark .closeParen) =>
      skip
      return .bare
    | some (.mark .ellipsis) =>
      skip
      expect (.mark .ellipsis)
      self _ (.type false)
      return .whole
    | some (.mark .dot) =>
      self _ (.type false)
      return .whole
    | some (.mark .openBracket) =>
      skip
      expect (.mark .openBracket)
      self _ (.arrayOrArguments false)
    | _ =>
      skip
      self _ (.type false)
      return .typed
  else
    self _ (.type false)
    return .whole

/-- What separates a parameter from what follows: a comma, unless the list ends. -/
def parameterEnd : Reader Unit := do
  if !(← accepts (.mark .comma)) then
    if !(← sees (.mark .closeParen)) then halt

/-- The rest of a list of parameters, up to and including the closing
parenthesis. -/
def moreParameters (self : Rules) (run : List Token) (names : List (List Token)) :
    Reader (List (List Token)) := do
  if ← accepts (.mark .closeParen) then
    return names
  let (form, tokens) ← withTokens (self _ .parameter)
  let (_, comma) ← withTokens parameterEnd
  match form with
  | .bare => self _ (.moreParameters (run ++ tokens ++ comma) (names ++ [tokens]))
  | .typed =>
    let rest ← self _ (.moreParameters [] [])
    return (run ++ tokens) :: rest
  | .whole =>
    let rest ← self _ (.moreParameters [] [])
    return names ++ tokens :: rest

/-- A list of parameters in parentheses. Between the parentheses there may be
nothing but a comma. -/
def parameters (self : Rules) : Reader (List (List Token)) := do
  expect (.mark .openParen)
  if ← accepts (.mark .comma) then
    expect (.mark .closeParen)
    return []
  else
    self _ (.moreParameters [] [])

/-- The result of a function: a list in parentheses, or a type without. -/
def result (self : Rules) (lineEnds : Bool) : Reader (Option (List Token)) := do
  if ← endsLine lineEnds then
    return none
  match ← next? with
  | some (.mark .openParen) =>
    let (_, tokens) ← withTokens (self _ .parameters)
    return some tokens
  | some lexeme =>
    if startsSimpleType lexeme then
      let (_, tokens) ← withTokens (self _ (.type lineEnds))
      return some tokens
    else
      return none
  | none => return none

/-- One field of a struct type, without its tag. -/
def field (self : Rules) : Reader Unit := do
  if ← accepts (.mark .star) then
    expect .word
    typeNameTail self true
  else
    expect .word
    if !(← atLineStart) then
      match ← next? with
      | some (.mark .comma) =>
        skip
        self _ (.names false)
        self _ (.type true)
      | some (.mark .dot) => typeNameTail self true
      | some (.mark .openBracket) =>
        skip
        let _ ← self _ (.arrayOrArguments true)
      | some lexeme =>
        if startsType lexeme then
          self _ (.type true)
      | none => return ()

/-- The fields of a struct type, and its closing brace. -/
def fields (self : Rules) : Reader Unit := do
  if !(← accepts (.mark .closeBrace)) then
    field self
    if !(← atLineStart) then
      let _ ← accepts .string
    if ← terminator then
      self _ .fields
    else
      expect (.mark .closeBrace)

/-- The tokens start with a method of an interface: a word and, on the same line, a
list. -/
def startsMethod : List Token → Bool
  | first :: second :: _ =>
    first.lexeme == .word && second.lexeme == .mark .openParen && !second.onNewLine
  | _ => false

/-- The elements of an interface type, and its closing brace: methods, and elements
of constraints. -/
def methods (self : Rules) : Reader Unit := do
  if !(← accepts (.mark .closeBrace)) then
    if startsMethod (← ahead) then
      expect .word
      let _ ← self _ .parameters
      let _ ← self _ (.result true)
    else
      self _ (.element true)
    if ← terminator then
      self _ .methods
    else
      expect (.mark .closeBrace)

end EntryProbe.Go.Grammar
