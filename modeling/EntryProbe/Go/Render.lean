import EntryProbe.Go.Tree

/-!
# Writing out nodes that were made up

Expressions, statements and imports in the usual layout of Go: one statement a line,
a tab for each level of nesting, a blank around operators and after commas.

A statement that was read from a source is written as the text of its span, so
writing a statement can fail, and only in this case.
-/

namespace EntryProbe.Go

mutual

/-- An expression as text. -/
def renderExpr : Expr → String
  | .ident name => name
  | .literal text => text
  | .selector operand member => renderExpr operand ++ "." ++ member
  | .call function arguments => renderExpr function ++ "(" ++ renderExprs arguments ++ ")"
  | .binary left op right => renderExpr left ++ " " ++ op.text ++ " " ++ renderExpr right

/-- Expressions with commas between them. -/
def renderExprs : List Expr → String
  | [] => ""
  | value :: rest =>
    match rest with
    | [] => renderExpr value
    | _ :: _ => renderExpr value ++ ", " ++ renderExprs rest

end

mutual

/-- A statement as text. `indent` is the white space in front of its first line;
`source` is the text that spans refer to. -/
def renderStmt (source : List Char) (indent : String) : Stmt → Option String
  | .block body => renderBlock source indent body
  | .assign left op right =>
    some (renderExprs left ++ " " ++ op.text ++ " " ++ renderExprs right)
  | .ifThen condition body => do
    let block ← renderBlock source indent body
    return "if " ++ renderExpr condition ++ " " ++ block
  | .expr value => some (renderExpr value)
  | .return_ results =>
    some (if results.isEmpty then "return" else "return " ++ renderExprs results)
  | .defer function arguments =>
    some ("defer " ++ renderExpr function ++ "(" ++ renderExprs arguments ++ ")")
  | .verbatim span => (span.cut? source).map String.ofList

/-- A block as text, from its opening to its closing brace. -/
def renderBlock (source : List Char) (indent : String) : List Stmt → Option String
  | body => do
    let lines ← renderLines source (indent ++ "\t") body
    return "\x7b" ++ lines ++ "\n" ++ indent ++ "\x7d"

/-- Statements as text, each on a new line. -/
def renderLines (source : List Char) (indent : String) : List Stmt → Option String
  | [] => some ""
  | stmt :: rest => do
    let line ← renderStmt source indent stmt
    let lines ← renderLines source indent rest
    return "\n" ++ indent ++ line ++ lines

end

/-- An imported package as text. -/
def renderImportSpec (spec : ImportSpec) : String :=
  match spec.name with
  | some name => name ++ " " ++ spec.path
  | none => spec.path

/-- An import declaration as text: a single package on the line of the first word,
any other number in parentheses. -/
def renderImport (decl : ImportDecl) : String :=
  match decl.specs with
  | [spec] => "import " ++ renderImportSpec spec
  | specs =>
    "import (" ++ String.join (specs.map fun spec => "\n\t" ++ renderImportSpec spec) ++ "\n)"

/-- A declaration as text. Only imports are ever made up; anything else leaves no
trace. -/
def renderDecl : Decl → String
  | .imports decl => renderImport decl
  | .func _ => ""
  | .other _ => ""

end EntryProbe.Go
