import EntryProbe.Text.Bytes
import EntryProbe.Text.Quoted

/-!
# A small syntax tree of Go

The tree carries just enough structure to find the entry point of a program, to
see its imports, and to put statements in front of a function body. A node that
was read from a source remembers the span it was read from; a node without a span
was made up and is written out by the printer.

Three kinds of things are kept as source text only: every declaration that is
neither an import nor a function (`EntryProbe.Go.Decl.other`), every statement of
a body that was read (`EntryProbe.Go.Stmt.verbatim`), and the parameters and
results of a function.
-/

namespace EntryProbe.Go

/-- The operators of the expressions that are made up. -/
inductive BinaryOp where
  /-- Addition, and concatenation of strings. -/
  | add
  /-- Inequality. -/
  | ne
  deriving Repr, DecidableEq, Inhabited

/-- An operator as it is written. -/
def BinaryOp.text : BinaryOp → String
  | .add => "+"
  | .ne => "!="

/-- Expressions. -/
inductive Expr where
  /-- A name. -/
  | ident (name : String)
  /-- A literal, as it is written. -/
  | literal (text : String)
  /-- The member `member` of `operand`. -/
  | selector (operand : Expr) (member : String)
  /-- A call of `function`. -/
  | call (function : Expr) (arguments : List Expr)
  /-- An operation on two operands. -/
  | binary (left : Expr) (op : BinaryOp) (right : Expr)
  deriving Repr, Inhabited

/-- A string literal for a text. -/
def Expr.string (text : String) : Expr :=
  .literal (quote text)

/-- The two ways to assign. -/
inductive AssignOp where
  /-- Declares the names on the left. -/
  | define
  /-- Gives new values to what is on the left. -/
  | assign
  deriving Repr, DecidableEq, Inhabited

/-- An assignment operator as it is written. -/
def AssignOp.text : AssignOp → String
  | .define => ":="
  | .assign => "="

/-- Statements. -/
inductive Stmt where
  /-- A block of its own. -/
  | block (body : List Stmt)
  /-- An assignment. -/
  | assign (left : List Expr) (op : AssignOp) (right : List Expr)
  /-- A conditional without an alternative. -/
  | ifThen (condition : Expr) (body : List Stmt)
  /-- An expression evaluated for its effect. -/
  | expr (value : Expr)
  /-- A return with the given results. -/
  | return_ (results : List Expr)
  /-- A call put off to the end of the function. -/
  | defer (function : Expr) (arguments : List Expr)
  /-- A statement of the source, kept as its text. -/
  | verbatim (span : Span)
  deriving Repr, Inhabited

/-- The span of a statement that was read. -/
def Stmt.span? : Stmt → Option Span
  | .verbatim span => some span
  | _ => none

/-- The body of a function: statements in braces. -/
structure Body where
  /-- The statements, in order. -/
  stmts : List Stmt
  /-- From the opening to the closing brace, both included. -/
  span : Option Span
  deriving Repr, Inhabited

/-- One imported package. -/
structure ImportSpec where
  /-- The local name, a dot or an underscore, if there is one. -/
  name : Option String
  /-- The path literal as written, with its quotes. -/
  path : String
  deriving Repr, DecidableEq, Inhabited

/-- An import declaration. -/
structure ImportDecl where
  /-- The imported packages, in order. -/
  specs : List ImportSpec
  /-- Where the declaration was read. -/
  span : Option Span
  deriving Repr, Inhabited

/-- A function or method declaration. -/
structure FuncDecl where
  /-- The name. -/
  name : String
  /-- The text of the receiver list of a method. -/
  receiver : Option String
  /-- The text of each parameter declaration. -/
  params : List String
  /-- The text of the result type or list. -/
  result : Option String
  /-- The body; a function implemented elsewhere has none. -/
  body : Option Body
  /-- Where the declaration was read. -/
  span : Option Span
  deriving Repr, Inhabited

/-- What stands at the top level of a file. -/
inductive Decl where
  /-- An import declaration. -/
  | imports (decl : ImportDecl)
  /-- A function or method. -/
  | func (decl : FuncDecl)
  /-- Anything else, never looked into. -/
  | other (span : Span)
  deriving Repr, Inhabited

/-- The span of a declaration that was read. -/
def Decl.span? : Decl → Option Span
  | .imports decl => decl.span
  | .func decl => decl.span
  | .other span => some span

/-- The clause that names the package of a file. -/
structure PackageClause where
  /-- The name of the package. -/
  name : String
  /-- Where the clause was read. -/
  span : Span
  deriving Repr, DecidableEq, Inhabited

/-- One file of a program. -/
structure SourceFile where
  /-- The text the file was read from. -/
  source : String
  /-- The package clause. -/
  package : PackageClause
  /-- The declarations, in order. -/
  decls : List Decl
  deriving Repr, Inhabited

/-- The functions and methods of a file, in order. -/
def SourceFile.funcs (file : SourceFile) : List FuncDecl :=
  file.decls.filterMap fun
    | .func decl => some decl
    | _ => none

/-- The imported packages of a file, in order. -/
def SourceFile.importSpecs (file : SourceFile) : List ImportSpec :=
  file.decls.flatMap fun
    | .imports decl => decl.specs
    | _ => []

end EntryProbe.Go
