import EntryProbe.Go.Grammar
import EntryProbe.Go.SyntaxError
import EntryProbe.Go.Tree

/-!
# Reading a source file

The outline of a file is the list of what stands at its top level, and for a
function the list of the statements of its body. The grammar says where each piece
ends; this file cuts the tokens there and turns them into spans.

Every piece is cut off the front of the tokens that are left, and what lies between
two pieces is at most a terminator. So the spans of a file are in order and apart from
one another, and the text between them is white space, comments and terminators.

* `EntryProbe.Go.readBody` – the body of a function, statement by statement;
* `EntryProbe.Go.readItem` – one item of the top level;
* `EntryProbe.Go.parse` – a whole file. Several package clauses may stand at the top
  level; the last one counts.
-/

namespace EntryProbe.Go

/-- The front of a sequence of tokens that a reader has taken, given what it has
left. -/
def taken (tokens rest : List Token) : List Token :=
  tokens.take (tokens.length - rest.length)

/-- The span of a piece that starts with the gap at `offset`. -/
def pieceSpan (offset : Nat) (piece : List Token) : Span :=
  ⟨offset + byteLength ((piece.head?.map Token.gap).getD []), offset + width piece⟩

/-- Tokens as the text of a node. -/
def nodeText (tokens : List Token) : String :=
  String.ofList (spelling tokens)

/-- The number of tokens in the terminator ahead, if there is one. A line break is
a terminator without a token. -/
def terminatorLength? : List Token → Option Nat
  | [] => none
  | token :: _ =>
    if token.onNewLine then some 0
    else if token.lexeme = .mark .semicolon ∨ token.lexeme = .mark .null then some 1
    else none

/-! ### Bodies -/

/-- The statements of a body up to the closing brace, as spans, and the tokens from
that brace on with the offset of the gap in front of it. -/
def readStatements : (fuel offset : Nat) → List Token →
    Except Halt (List Span × Nat × List Token)
  | 0, _, tokens => .error ⟨tokens, false⟩
  | fuel + 1, offset, tokens => do
    match tokens with
    | [] => .error ⟨[], false⟩
    | token :: _ =>
      if token.lexeme = .mark .closeBrace then
        return ([], offset, tokens)
      else
        let (_, left) ← recognize .listStatement tokens
        let piece := taken tokens left
        let rest := tokens.drop piece.length
        let span := pieceSpan offset piece
        let stop := offset + width piece
        if piece = [] then
          .error ⟨tokens, false⟩
        else
          match terminatorLength? rest with
          | some length =>
            let (spans, after) ←
              readStatements fuel (stop + width (rest.take length)) (rest.drop length)
            return (span :: spans, after)
          | none =>
            if (rest.head?.map Token.lexeme) = some (.mark .closeBrace) then
              return ([span], stop, rest)
            else
              .error ⟨rest, false⟩

/-- The body of a function, from its opening brace on: the body, and the tokens
after it with the offset of the gap in front of them. -/
def readBody (offset : Nat) (tokens : List Token) : Except Halt (Body × Nat × List Token) := do
  match tokens with
  | [] => .error ⟨[], false⟩
  | first :: inner =>
    if first.lexeme = .mark .openBrace then
      let (spans, close, rest) ←
        readStatements (inner.length + 1) (offset + byteLength first.full) inner
      match rest with
      | [] => .error ⟨[], false⟩
      | last :: after =>
        let stop := close + byteLength last.full
        let body : Body :=
          { stmts := spans.map Stmt.verbatim
            span := some ⟨offset + byteLength first.gap, stop⟩ }
        return (body, stop, after)
    else
      .error ⟨tokens, false⟩

/-! ### The top level -/

/-- One item of the top level. -/
inductive Item where
  /-- A package clause. -/
  | package (clause : PackageClause)
  /-- A declaration, and what kind it is. -/
  | decl (kind : TopLevelKind) (decl : Decl)
  deriving Repr, Inhabited

/-- The package clause that an item is, if it is one. -/
def Item.clause? : Item → Option PackageClause
  | .package clause => some clause
  | .decl _ _ => none

/-- The declaration that an item is, if it is one. -/
def Item.decl? : Item → Option Decl
  | .package _ => none
  | .decl _ node => some node

/-- The item is an empty statement, which is a semicolon of its own. -/
def Item.isSemicolon : Item → Bool
  | .package _ => false
  | .decl kind _ => kind == .statement .empty

/-- The number of tokens that end an item which was read at `offset`, if it ends in front of
`rest`. A terminator ends it. A semicolon of its own also ends where another item follows on
its line, unless it is the first thing of the file: the line break that is missing there goes
unnoticed. -/
def itemEnd? (offset : Nat) (item : Item) (rest : List Token) : Option Nat :=
  match terminatorLength? rest with
  | some length => some length
  | none => if item.isSemicolon ∧ 0 < offset ∧ rest ≠ [] then some 0 else none

/-- The texts of the words, if any, and of the path of an import. -/
def readImportSpec : Reader ImportSpec := do
  let tokens ← get
  match tokens with
  | [] => Reader.halt
  | token :: _ =>
    let name ←
      if token.lexeme = .word ∨ token.lexeme = .mark .dot then do
        Reader.skip
        pure (some (nodeText [token]))
      else
        pure none
    match ← get with
    | path :: _ =>
      Reader.expect .string
      return ⟨name, nodeText [path]⟩
    | [] => Reader.halt

/-- The imports of a group, and its closing parenthesis. -/
def readImportGroup : (fuel : Nat) → Reader (List ImportSpec)
  | 0 => Reader.halt
  | fuel + 1 => do
    if ← Reader.accepts (.mark .closeParen) then
      return []
    else
      let spec ← readImportSpec
      if ← Reader.terminator then
        return spec :: (← readImportGroup fuel)
      else
        Reader.expect (.mark .closeParen)
        return [spec]

/-- An import declaration after its first word. -/
def readImports : Reader (List ImportSpec) := do
  if ← Reader.accepts (.mark .openParen) then
    readImportGroup ((← get).length + 1)
  else
    return [← readImportSpec]

/-- The text of a word, which has to come next. -/
def readWord : Reader String := do
  match ← get with
  | token :: _ =>
    Reader.expect .word
    return nodeText [token]
  | [] => Reader.halt

/-- The receiver of a method, if there is one. -/
def readReceiver : Reader (Option String) := do
  if ← Reader.sees .word then
    return none
  else
    let (_, tokens) ← Reader.withTokens (recognize .parameters)
    return some (nodeText tokens)

/-- The type parameters after the name of a function, if there are any. A method has
none. -/
def readTypeParameters (isMethod : Bool) : Reader Unit := do
  if !isMethod then
    if ← Reader.accepts (.mark .openBracket) then
      recognize .typeParameters

/-- A function without its body: what stands between its first word and its opening
brace. -/
def readSignature : Reader FuncDecl := do
  let receiver ← readReceiver
  let name ← readWord
  readTypeParameters receiver.isSome
  let params ← recognize .parameters
  let result ← recognize (.result true)
  return { name, receiver, params := params.map nodeText, result := result.map nodeText,
           body := none, span := none }

/-- The tokens after the word `func` are those of a declaration and not of a function
literal: a name follows, or a list and then a name with a list after it. -/
def declaresFunction (tokens : List Token) : Bool :=
  match tokens with
  | [] => false
  | token :: _ =>
    token.lexeme == .word ||
      match recognize .parameters tokens with
      | .ok (_, name :: list :: _) =>
        name.lexeme == .word && list.lexeme == .mark .openParen
      | _ => false

/-- A body follows on the same line. -/
def bodyFollows : List Token → Bool
  | [] => false
  | token :: _ => token.lexeme == .mark .openBrace && !token.onNewLine

/-- One item of the top level, and the tokens after it. -/
def readItem (offset : Nat) (tokens : List Token) : Except Halt (Item × List Token) := do
  match tokens with
  | [] => .error ⟨[], false⟩
  | first :: afterFirst =>
    let isDeclaration := first.lexeme == .keyword .funcWord && declaresFunction afterFirst
    if first.lexeme = .keyword .packageWord then
      let (name, left) ← readWord afterFirst
      let piece := taken tokens left
      return (.package ⟨name, pieceSpan offset piece⟩, tokens.drop piece.length)
    else if first.lexeme = .keyword .importWord then
      let (specs, left) ← readImports afterFirst
      let piece := taken tokens left
      let decl := Decl.imports ⟨specs, some (pieceSpan offset piece)⟩
      return (.decl .imports decl, tokens.drop piece.length)
    else if isDeclaration then
      let (signature, left) ← readSignature afterFirst
      let kind := if signature.receiver.isSome then .method else .function
      let head := taken tokens left
      let rest := tokens.drop head.length
      if bodyFollows rest then
        let (body, stop, after) ← readBody (offset + width head) rest
        let span : Span := ⟨(pieceSpan offset head).start, stop⟩
        return (.decl kind (.func { signature with body := some body, span := some span }), after)
      else
        let span := pieceSpan offset head
        return (.decl kind (.func { signature with span := some span }), rest)
    else
      let (kind, left) ← recognize .statement tokens
      let piece := taken tokens left
      if piece = [] then
        .error ⟨tokens, false⟩
      else
        return (.decl (.statement kind) (.other (pieceSpan offset piece)), tokens.drop piece.length)

/-- The items of the top level. The last one needs no terminator. -/
def readItems : (fuel offset : Nat) → List Token → Except Halt (List Item)
  | 0, _, tokens => if tokens = [] then .ok [] else .error ⟨tokens, false⟩
  | fuel + 1, offset, tokens => do
    if tokens = [] then
      return []
    else
      let (item, rest) ← readItem offset tokens
      let stop := offset + width (taken tokens rest)
      match itemEnd? offset item rest with
      | some length =>
        let items ← readItems fuel (stop + width (rest.take length)) (rest.drop length)
        return item :: items
      | none => if rest = [] then return [item] else .error ⟨rest, false⟩

/-- The last package clause of a file, unless something stands in front of the
first one; then that is the error. -/
def packageOf? : List Item → Except SyntaxError PackageClause
  | [] => .error (.missingPackage none)
  | .decl kind _ :: _ => .error (.missingPackage (some kind))
  | .package clause :: rest => .ok ((rest.filterMap Item.clause?).getLast?.getD clause)

/-- **Reads a source file.** -/
def parse (source : String) : Except SyntaxError SourceFile := do
  let text := source.toList
  let (tokens, last) := scan text
  let items ← (readItems (tokens.length + 1) 0 tokens).mapError (SyntaxError.ofHalt text last)
  let package ← packageOf? items
  return ⟨source, package, items.filterMap Item.decl?⟩

end EntryProbe.Go
