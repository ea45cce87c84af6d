/-!
# The text between tokens

Between two tokens of a Go source there may be white space and comments. A line
comment runs up to the end of its line, a block comment up to the first `*/`; a
`/*` that is never closed is no comment at all.

* `EntryProbe.Go.splitTrivia` – the longest beginning of a text that is white
  space and comments;
* `EntryProbe.Go.splitAtLineBreak?` – the first line break of a text that is not
  inside a block comment. The grammar asks whether there is one. The printer puts
  new text in front of it, and searches for it in a way of its own
  (`EntryProbe.Go.cutAtLineBreak?`).

Both walk over the text once, with a `EntryProbe.Go.CommentMode` that says
whether a comment is open.
-/

namespace EntryProbe.Go

/-- White space between tokens. -/
def isSpace (c : Char) : Bool :=
  c == ' ' || c == '\t' || c == '\n' || c == '\r' || c == '\x0b' || c == '\x0c'

/-- The null character, which ends a statement and is part of no other token. -/
def nullChar : Char := '\x00'

/-- Whether a comment is open. -/
inductive CommentMode where
  /-- Outside comments. -/
  | outside
  /-- In a comment that ends with its line. -/
  | line
  /-- In a comment that ends with a star and a slash. -/
  | block
  deriving Repr, DecidableEq, Inhabited

/-- The end of a block comment is ahead, with no null character before it. -/
def closesComment : List Char → Bool
  | [] => false
  | '*' :: '/' :: _ => true
  | c :: rest => c != nullChar && closesComment rest

/-- Splits off the trivia at the start of a text. -/
def splitTriviaFrom : CommentMode → List Char → List Char × List Char
  | _, [] => ([], [])
  | .outside, '/' :: '/' :: rest =>
    let (trivia, after) := splitTriviaFrom .line rest
    ('/' :: '/' :: trivia, after)
  | .outside, '/' :: '*' :: rest =>
    if closesComment rest then
      let (trivia, after) := splitTriviaFrom .block rest
      ('/' :: '*' :: trivia, after)
    else
      ([], '/' :: '*' :: rest)
  | .outside, c :: rest =>
    if isSpace c then
      let (trivia, after) := splitTriviaFrom .outside rest
      (c :: trivia, after)
    else
      ([], c :: rest)
  | .line, c :: rest =>
    if c = nullChar then
      ([], c :: rest)
    else
      let (trivia, after) := splitTriviaFrom (if c = '\n' then .outside else .line) rest
      (c :: trivia, after)
  | .block, '*' :: '/' :: rest =>
    let (trivia, after) := splitTriviaFrom .outside rest
    ('*' :: '/' :: trivia, after)
  | .block, c :: rest =>
    let (trivia, after) := splitTriviaFrom .block rest
    (c :: trivia, after)

/-- The white space and comments at the start of a text, and the rest. -/
def splitTrivia (text : List Char) : List Char × List Char :=
  splitTriviaFrom .outside text

/-- Splits a text before its first line break outside block comments. -/
def splitAtLineBreakFrom? : CommentMode → List Char → Option (List Char × List Char)
  | _, [] => none
  | .outside, '/' :: '*' :: rest =>
    (splitAtLineBreakFrom? .block rest).map fun (line, after) => ('/' :: '*' :: line, after)
  | .outside, '/' :: '/' :: rest =>
    (splitAtLineBreakFrom? .line rest).map fun (line, after) => ('/' :: '/' :: line, after)
  | .block, '*' :: '/' :: rest =>
    (splitAtLineBreakFrom? .outside rest).map fun (line, after) => ('*' :: '/' :: line, after)
  | .block, c :: rest =>
    (splitAtLineBreakFrom? .block rest).map fun (line, after) => (c :: line, after)
  | mode, c :: rest =>
    if c = '\n' then
      some ([], c :: rest)
    else
      (splitAtLineBreakFrom? mode rest).map fun (line, after) => (c :: line, after)

/-- A text on either side of its first line break outside block comments; the line
break starts the second part. -/
def splitAtLineBreak? (text : List Char) : Option (List Char × List Char) :=
  splitAtLineBreakFrom? .outside text

/-- **Trivia are split off without loss.** -/
theorem splitTriviaFrom_append (mode : CommentMode) (text : List Char) :
    (splitTriviaFrom mode text).1 ++ (splitTriviaFrom mode text).2 = text := by
  fun_induction splitTriviaFrom mode text <;> simp_all

/-- The two parts around a line break make up the text. -/
theorem splitAtLineBreakFrom?_append {mode : CommentMode} {text line after : List Char}
    (h : splitAtLineBreakFrom? mode text = some (line, after)) : line ++ after = text := by
  fun_induction splitAtLineBreakFrom? mode text generalizing line <;>
    grind [Option.map_eq_some_iff]

end EntryProbe.Go
