import EntryProbe.Go.LineBreak
import EntryProbe.Go.Render
import EntryProbe.Text.Classes

/-!
# Printing a file

A node that was read is printed as the source text of its span, and the text between
two such nodes – the *gap* – is printed as it is. A node that was made up has no
place of its own. The nodes made up between two others form a *run*, and the run is
spliced into the gap that follows:

* in front of the first line break of the gap that is not inside a block comment, so
  that a comment at the end of a line stays on its line; if that line break is a
  carriage return and a line feed, so are those of the run;
* if the gap has no line break, at its start. What follows the run then starts a new
  line, unless it is a semicolon.

Printing fails exactly if a span does not denote a text, or if the end of one piece
lies behind the start of the next.

* `EntryProbe.Go.splice` – a gap with a run in it;
* `EntryProbe.Go.SourceFile.print` – a file.
-/

namespace EntryProbe.Go

/-! ### Gaps -/

/-- A text without the blanks and tabs at its end. -/
def trimLineEnd (text : List Char) : List Char :=
  (text.reverse.dropWhile fun c => c == ' ' || c == '\t').reverse

/-- A text with a carriage return in front of each line feed. -/
def withCarriageReturns (text : List Char) : List Char :=
  text.flatMap fun c => if c = '\n' then ['\r', '\n'] else [c]

/-- A gap with a run spliced into it. `indent` is the white space in front of what
follows the gap, for the case that it has to move to a new line. -/
def splice (gap run indent : List Char) : List Char :=
  if run = [] then
    gap
  else
    match cutAtLineBreak? gap with
    | some (line, rest) =>
      if line.getLast? = some '\r' then
        trimLineEnd line.dropLast ++ withCarriageReturns run ++ '\r' :: rest
      else
        trimLineEnd line ++ run ++ rest
    | none =>
      if (trimStart gap).head? = some ';' then run ++ gap
      else run ++ '\n' :: indent ++ trimStart gap

@[simp] theorem splice_nil (gap indent : List Char) : splice gap [] indent = gap := by
  simp [splice]

/-! ### Bodies -/

/-- The statements of a body as text, from the offset `cursor` up to the offset
`close` of the closing brace, after a run that is still to be placed. -/
def printStatements (source : List Char) (close : Nat) :
    (cursor : Nat) → (run : List Char) → List Stmt → Option (List Char)
  | cursor, run, [] => do
    let gap ← Span.cut? ⟨cursor, close⟩ source
    return splice gap run []
  | cursor, run, stmt :: rest =>
    match stmt.span? with
    | none => do
      let line ← renderStmt source "\t" stmt
      printStatements source close cursor (run ++ '\n' :: '\t' :: line.toList) rest
    | some span => do
      let gap ← Span.cut? ⟨cursor, span.start⟩ source
      let text ← span.cut? source
      let after ← printStatements source close span.stop [] rest
      return splice gap run ['\t'] ++ text ++ after

/-- A body that was read, from its opening to its closing brace. -/
def printBody (source : List Char) (body : Body) (span : Span) : Option (List Char) :=
  if span.stop = 0 then
    none
  else do
    let inner ← printStatements source (span.stop - 1) (span.start + 1) [] body.stmts
    return '\x7b' :: inner ++ ['\x7d']

/-! ### Files -/

/-- A declaration that was read. -/
def printDecl (source : List Char) (decl : Decl) (span : Span) : Option (List Char) :=
  match decl with
  | .func { body := some { stmts, span := some bodySpan }, .. } => do
    let head ← Span.cut? ⟨span.start, bodySpan.start⟩ source
    let body ← printBody source ⟨stmts, some bodySpan⟩ bodySpan
    let tail ← Span.cut? ⟨bodySpan.stop, span.stop⟩ source
    return head ++ body ++ tail
  | _ => span.cut? source

/-- A run with one more declaration. A blank line keeps the first one apart from
what stands before. -/
def addToRun (run : List Char) (decl : Decl) : List Char :=
  (if run = [] then ['\n'] else run) ++ '\n' :: (renderDecl decl).toList

/-- Declarations as text, from the offset `cursor` to the end of the source, after a
run that is still to be placed. -/
def printDecls (source : List Char) :
    (cursor : Nat) → (run : List Char) → List Decl → Option (List Char)
  | cursor, run, [] => do
    let gap ← Span.cut? ⟨cursor, byteLength source⟩ source
    return splice gap run []
  | cursor, run, decl :: rest =>
    match decl.span? with
    | none => printDecls source cursor (addToRun run decl) rest
    | some span => do
      let gap ← Span.cut? ⟨cursor, span.start⟩ source
      let text ← printDecl source decl span
      let after ← printDecls source span.stop [] rest
      return splice gap run [] ++ text ++ after

/-- **A file as text**, or `none` if its spans do not fit its source. -/
def SourceFile.print (file : SourceFile) : Option String := do
  let source := file.source.toList
  let head ← Span.cut? ⟨0, file.package.span.stop⟩ source
  let rest ← printDecls source file.package.span.stop [] file.decls
  return String.ofList (head ++ rest)

end EntryProbe.Go
