import EntryProbe.Go.Token

/-!
# Phrases of the grammar

The grammar of Go is given by its *phrases* – type, expression, statement and so
on – and for each phrase a rule that reads it from the front of a sequence of
tokens. The rules are not recursive: a rule that needs another phrase asks for it
through the argument `self`, and `EntryProbe.Go.recognize` ties the knot. So the
rules can stand in separate files, each about one part of the grammar.

Nothing is built for most phrases. A reader of a phrase answers where the phrase
ends, or where and why it broke off.

## Line breaks

A line break ends a statement, a specification or a field – but only where such an
end is possible; everywhere else it is white space. Whether it is possible depends
on what surrounds a phrase, so phrases that can stand at the end of a line carry a
flag `lineEnds`: in parentheses it is off, in a statement of a block it is on.

## Types and values

A name may be a type or a value, and so may what is built from names: in `a[b]`
the brackets hold an index or a type argument. Instead of trying one after the
other, a term is read once, and a `EntryProbe.Go.Reading` says which of the two it
can be.
-/

namespace EntryProbe.Go

/-- Where a phrase broke off. -/
structure Halt where
  /-- The tokens from the offending one on. -/
  rest : List Token
  /-- An operand was missing at a place where the line could have ended. -/
  wantsOperand : Bool
  deriving Repr, DecidableEq, Inhabited

/-- Reads a phrase from the front of a sequence of tokens. -/
abbrev Reader (α : Type) : Type :=
  StateT (List Token) (Except Halt) α

/-- What surrounds an expression. -/
structure Context where
  /-- A line break may end the expression. -/
  lineEnds : Bool := false
  /-- A block may follow, so that a brace does not open a literal. -/
  bodyFollows : Bool := false
  /-- An increment or decrement may follow. -/
  counts : Bool := false
  /-- The arrow of a send statement may follow. -/
  sends : Bool := false
  deriving Repr, DecidableEq, Inhabited

namespace Context

/-- Inside brackets, where an expression ends only with the bracket or a comma. -/
def enclosed : Context := {}

/-- The first expression of a statement. -/
def statement : Context := { lineEnds := true, counts := true, sends := true }

/-- The last expressions of a statement. -/
def value : Context := { lineEnds := true }

/-- The first expression of the header of a conditional or a loop. -/
def header : Context := { bodyFollows := true, counts := true, sends := true }

/-- The last expressions of a header. -/
def lastOfHeader : Context := { bodyFollows := true }

/-- The first expression of a case of a select statement. -/
def communication : Context := { sends := true }

end Context

/-- How a brace goes on after a term. -/
inductive LiteralHead where
  /-- The term is no type of a composite literal. -/
  | never
  /-- The term is a plain name: a brace opens a literal unless a block may
  follow. -/
  | plain
  /-- The term is a qualified or instantiated name: a brace opens a literal unless
  a block follows. -/
  | named
  /-- The term is the type of a composite literal and nothing else. -/
  | always
  deriving Repr, DecidableEq, Inhabited

/-- What a term can be. -/
structure Reading where
  /-- It can be an expression. -/
  value : Bool := false
  /-- It can be a type. -/
  type : Bool := false
  /-- It can be an element of a constraint: a type or a union of types. -/
  element : Bool := false
  /-- Type arguments have been read, and an argument list makes it a call. -/
  callable : Bool := false
  /-- How a brace goes on. -/
  literal : LiteralHead := .never
  /-- It is a single name, to which a selector adds a package. -/
  plainName : Bool := false
  /-- It is the name of a type, to which type arguments can be added. -/
  typeName : Bool := false
  deriving Repr, DecidableEq, Inhabited

namespace Reading

/-- A term that is an expression and nothing else. -/
def onlyValue : Reading := { value := true }

/-- A type that is no expression. -/
def onlyType (literal : LiteralHead) : Reading :=
  { type := true, element := true, literal := literal }

/-- A name. -/
def name : Reading :=
  { value := true, type := true, element := true, literal := .plain,
    plainName := true, typeName := true }

/-- A name with a package in front of it. -/
def qualified : Reading :=
  { value := true, type := true, element := true, literal := .named, typeName := true }

/-- A word with a meaning of its own as an expression. As a type it is a name like
any other, but it starts no composite literal. -/
def predeclared : Reading := { value := true, type := true, element := true }

end Reading

/-- What stands between the brackets after a term. -/
structure Bracketed where
  /-- It can be an index or a slice. -/
  index : Bool
  /-- It can be a list of types. -/
  types : Bool
  /-- It can be a list of elements of constraints. -/
  elements : Bool
  deriving Repr, DecidableEq, Inhabited

/-- The kinds of statements. -/
inductive StatementKind where
  | expression | send | increment | decrement | assignment | definition
  | constants | types | variables
  | returns | go | defer | conditional | loop | expressionSwitch | typeSwitch | select
  | labeled | fallthrough | break_ | continue_ | goto | block | empty
  deriving Repr, DecidableEq, Inhabited

/-- Where a simple statement stands, and what may follow it. -/
inductive Place where
  /-- In a list of statements. -/
  | body
  /-- At the start of the header of a conditional. -/
  | conditional
  /-- At the start of the header of a switch. -/
  | switch
  /-- At the start of the header of a loop. -/
  | loop
  /-- At the end of the header of a loop. -/
  | update
  deriving Repr, DecidableEq, Inhabited

/-- The context of the first expression of a simple statement. -/
def Place.first : Place → Context
  | .body => .statement
  | .conditional | .switch | .loop | .update => .header

/-- The context of the last expressions of a simple statement that is more than an
expression. -/
def Place.last : Place → Context
  | .body => .value
  | .update => .lastOfHeader
  | .conditional | .switch | .loop => .enclosed

/-- A simple statement. -/
inductive SimpleForm where
  /-- A statement of its own. -/
  | plain (kind : StatementKind)
  /-- The clause of a loop over a range. -/
  | range
  /-- The guard of a type switch. -/
  | guard
  deriving Repr, DecidableEq, Inhabited

/-- The part of a parameter list up to a comma. -/
inductive ParameterForm where
  /-- A lone name: a type, or the name of a parameter whose type follows. -/
  | bare
  /-- A name and its type. -/
  | typed
  /-- A type that is not a lone name, or a variadic parameter. -/
  | whole
  deriving Repr, DecidableEq, Inhabited

/-- The phrases of the grammar, by what reading them gives. -/
inductive Phrase : Type → Type where
  /-- A type. -/
  | type (lineEnds : Bool) : Phrase Unit
  /-- A type or a union of types. -/
  | element (lineEnds : Bool) : Phrase Unit
  /-- The elements of a list of type arguments, and its closing bracket. -/
  | typeArguments : Phrase Unit
  /-- The declarations of a list of type parameters, and its closing bracket. -/
  | typeParameters : Phrase Unit
  /-- A list of parameters in parentheses; gives the tokens of each declaration. -/
  | parameters : Phrase (List (List Token))
  /-- The rest of a list of parameters. `run` holds the tokens from the first of
  the lone names just read up to here, and `names` those names. -/
  | moreParameters (run : List Token) (names : List (List Token)) :
      Phrase (List (List Token))
  /-- A parameter. -/
  | parameter : Phrase ParameterForm
  /-- What follows a name and an opening bracket: the rest of an array type, which
  makes it a name and its type, or type arguments. -/
  | arrayOrArguments (lineEnds : Bool) : Phrase ParameterForm
  /-- The result of a function, if there is one; gives its tokens. -/
  | result (lineEnds : Bool) : Phrase (Option (List Token))
  /-- The fields of a struct type, and its closing brace. -/
  | fields : Phrase Unit
  /-- The elements of an interface type, and its closing brace. -/
  | methods : Phrase Unit
  /-- A term: an expression, a type, or a union of types. -/
  | term (context : Context) : Phrase Reading
  /-- The rest of a term after a first operand. -/
  | termTail (context : Context) (left : Reading) : Phrase Reading
  /-- An operand with the operators in front of it. -/
  | unary (context : Context) : Phrase Reading
  /-- The selectors, brackets, arguments and literals after an operand. -/
  | suffixes (context : Context) (operand : Reading) : Phrase Reading
  /-- An expression. -/
  | expression (context : Context) : Phrase Unit
  /-- A list of expressions; gives their number. -/
  | expressions (context : Context) : Phrase Nat
  /-- What follows an opening bracket after a term, and the closing bracket. -/
  | bracketed : Phrase Bracketed
  /-- The rest of a list of terms in brackets, all of which are elements. -/
  | moreElements (types : Bool) : Phrase Bracketed
  /-- The arguments of a call, and the closing parenthesis. -/
  | arguments : Phrase Unit
  /-- The rest of the arguments of an allocation, and the closing parenthesis. -/
  | moreArguments : Phrase Unit
  /-- The elements of a composite literal, and its closing brace. -/
  | literal : Phrase Unit
  /-- A value in a composite literal. -/
  | literalElement : Phrase Unit
  /-- A block. -/
  | block : Phrase Unit
  /-- The statements of a block or a case. -/
  | statements : Phrase Unit
  /-- A statement of a list, which may be a label with nothing after it. -/
  | listStatement : Phrase StatementKind
  /-- A statement. -/
  | statement : Phrase StatementKind
  /-- A simple statement. -/
  | simple (place : Place) : Phrase SimpleForm
  /-- A conditional after its first word. -/
  | conditional : Phrase Unit
  /-- The cases of a switch on values, and the closing brace. -/
  | valueCases : Phrase Unit
  /-- The cases of a switch on types, and the closing brace. -/
  | typeCases : Phrase Unit
  /-- A list of types and the colon after it. -/
  | caseTypes : Phrase Unit
  /-- The cases of a select statement, and the closing brace. -/
  | communications : Phrase Unit
  /-- Names separated by commas. -/
  | names (lineEnds : Bool) : Phrase Unit
  /-- A specification of constants. -/
  | constantSpec : Phrase Unit
  /-- A specification of variables. -/
  | variableSpec : Phrase Unit
  /-- A specification of a type. -/
  | typeSpec : Phrase Unit
  /-- The specifications of a group of constants, and the closing parenthesis. -/
  | constantGroup : Phrase Unit
  /-- The specifications of a group of variables, and the closing parenthesis. -/
  | variableGroup : Phrase Unit
  /-- The specifications of a group of types, and the closing parenthesis. -/
  | typeGroup : Phrase Unit

/-- How the rules of the grammar refer to one another. -/
abbrev Rules : Type 1 :=
  (α : Type) → Phrase α → Reader α

namespace Reader

/-- The tokens ahead. -/
def ahead : Reader (List Token) := get

/-- The kind of the next token, if there is one. -/
def next? : Reader (Option Lexeme) := do
  return (← get).head?.map Token.lexeme

/-- Breaks off at the next token. -/
def halt {α : Type} : Reader α :=
  fun tokens => .error ⟨tokens, false⟩

/-- Breaks off at the next token unless a condition holds. -/
def require (condition : Bool) : Reader Unit :=
  if condition then pure () else halt

/-- Breaks off at the next token, where an operand should stand. -/
def lacksOperand {α : Type} (context : Context) : Reader α :=
  fun tokens => .error ⟨tokens, context.lineEnds⟩

/-- Skips the next token. -/
def skip : Reader Unit := modify List.tail

/-- The next token is of this kind. -/
def sees (lexeme : Lexeme) : Reader Bool := do
  return (← next?) == some lexeme

/-- Skips the next token if it is of this kind, and says whether it was. -/
def accepts (lexeme : Lexeme) : Reader Bool := do
  if ← sees lexeme then
    skip
    return true
  else
    return false

/-- The next token has to be of this kind. -/
def expect (lexeme : Lexeme) : Reader Unit := do
  if ← sees lexeme then skip else halt

/-- The next token starts a line, or there is none. -/
def atLineStart : Reader Bool := do
  match ← get with
  | [] => return false
  | token :: _ => return token.onNewLine

/-- The phrase just read ends here, because a line may end after it and does. -/
def endsLine (lineEnds : Bool) : Reader Bool := do
  return lineEnds && (← atLineStart)

/-- Reads the end of a statement or specification, if there is one: a line break,
a semicolon or a null character. A line break takes no token. -/
def terminator : Reader Bool := do
  if ← atLineStart then
    return true
  else if ← accepts (.mark .semicolon) then
    return true
  else
    accepts (.mark .null)

/-- The tokens that a reader takes, besides its answer. -/
def withTokens {α : Type} (reader : Reader α) : Reader (α × List Token) := do
  let before ← get
  let answer ← reader
  let after ← get
  return (answer, before.take (before.length - after.length))

/-- A reader would not break off here. Nothing is taken. -/
def succeeds {α : Type} (reader : Reader α) : Reader Bool := fun tokens =>
  match reader tokens with
  | .ok _ => .ok (true, tokens)
  | .error _ => .ok (false, tokens)

/-- Tries one reader and, if it breaks off, another one from the same place. If
both break off, the one that came further says where. -/
def orElse {α : Type} (first second : Reader α) : Reader α := fun tokens =>
  match first tokens with
  | .ok answer => .ok answer
  | .error halted =>
    match second tokens with
    | .ok answer => .ok answer
    | .error later => .error (if halted.rest.length < later.rest.length then halted else later)

end Reader

end EntryProbe.Go
