import EntryProbe.Go.Grammar.Basic
import EntryProbe.Text.Classes

/-!
# Syntax errors

A text is refused for one of two reasons: the grammar breaks off somewhere, or the
text is well formed but does not start with a package clause. The first kind is
reported with the line and the column of the place, both counted from one, and with
what is wrong there; columns count bytes.
-/

namespace EntryProbe.Go

/-- What is wrong at a place of a source. -/
inductive Complaint where
  /-- A token that cannot stand there. -/
  | unexpected (word : String)
  /-- Something that should stand there. -/
  | expected (what : String)
  deriving Repr, DecidableEq, Inhabited

/-- A complaint in words. -/
def Complaint.message : Complaint → String
  | .unexpected word => "unexpected " ++ word
  | .expected what => "expected " ++ what

/-- What stands at the top level of a source. -/
inductive TopLevelKind where
  /-- A package clause. -/
  | package
  /-- An import declaration. -/
  | imports
  /-- A function. -/
  | function
  /-- A method. -/
  | method
  /-- A statement. -/
  | statement (kind : StatementKind)
  deriving Repr, DecidableEq, Inhabited

/-- The name of a kind of statement in error messages. -/
def StatementKind.label : StatementKind → String
  | .expression => "expression_statement"
  | .send => "send_statement"
  | .increment => "inc_statement"
  | .decrement => "dec_statement"
  | .assignment => "assignment_statement"
  | .definition => "short_var_declaration"
  | .constants => "const_declaration"
  | .types => "type_declaration"
  | .variables => "var_declaration"
  | .returns => "return_statement"
  | .go => "go_statement"
  | .defer => "defer_statement"
  | .conditional => "if_statement"
  | .loop => "for_statement"
  | .expressionSwitch => "expression_switch_statement"
  | .typeSwitch => "type_switch_statement"
  | .select => "select_statement"
  | .labeled => "labeled_statement"
  | .fallthrough => "fallthrough_statement"
  | .break_ => "break_statement"
  | .continue_ => "continue_statement"
  | .goto => "goto_statement"
  | .block => "block"
  | .empty => "empty_statement"

/-- The name of what stands at the top level in error messages. -/
def TopLevelKind.label : TopLevelKind → String
  | .package => "package_clause"
  | .imports => "import_declaration"
  | .function => "function_declaration"
  | .method => "method_declaration"
  | .statement kind => kind.label

/-- Why a text is no source file. -/
inductive SyntaxError where
  /-- The grammar breaks off. -/
  | invalid (line column : Nat) (complaint : Complaint)
  /-- There is no package clause in front of the first declaration; `none` stands
  for the end of the file. -/
  | missingPackage (found : Option TopLevelKind)
  deriving Repr, DecidableEq, Inhabited

/-- What was found in place of a package clause. -/
def foundLabel : Option TopLevelKind → String
  | some kind => kind.label
  | none => "EOF"

/-- An error in words. -/
def SyntaxError.message : SyntaxError → String
  | .invalid line column complaint =>
    toString line ++ ":" ++ toString column ++ ": " ++ complaint.message
  | .missingPackage found => "1:1: expected 'package', found " ++ foundLabel found

/-- The line and column of the place after a beginning of a text. -/
def positionAfter (before : List Char) : Nat × Nat :=
  let lastLine := (before.reverse.takeWhile (· != '\n')).reverse
  (before.count '\n' + 1, byteLength lastLine + 1)

/-- The error that a break in the grammar amounts to, given the source and the gap
at its end. An operand missing at the end of a line is missed right after the token
before it; at the end of the file it is a closing brace that is missing; anything
else is a token too many. -/
def SyntaxError.ofHalt (source last : List Char) (halted : Halt) : SyntaxError :=
  let size := byteLength source
  let lastToken := size - byteLength last - width halted.rest
  let report (offset : Nat) (complaint : Complaint) : SyntaxError :=
    let before := ((splitAtByte? offset source).map Prod.fst).getD source
    let (line, column) := positionAfter before
    .invalid line column complaint
  match halted.rest with
  | [] =>
    if halted.wantsOperand then report lastToken (.expected "identifier")
    else report size (.expected "\x7d")
  | token :: _ =>
    if halted.wantsOperand && token.onNewLine then
      report lastToken (.expected "identifier")
    else
      let word := ((blankSeparated token.text).head?.map String.ofList).getD "EOF"
      report (lastToken + byteLength token.gap) (.unexpected word)

end EntryProbe.Go
