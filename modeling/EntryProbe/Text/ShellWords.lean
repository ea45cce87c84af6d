/-!
# Splitting a command line into words

Extra arguments arrive as one text and are split the way a POSIX shell splits a
simple command: blanks separate words, single quotes keep everything, double
quotes keep everything but a few escapes, a backslash keeps the next character,
and a `#` at the start of a word begins a comment.

The splitter reads one character at a time. Its state, `EntryProbe.Words.Mode`,
says where in a word it is; the only failure is an end of text inside quotes.
-/

namespace EntryProbe.Words

/-- Where the splitter is. -/
inductive Mode where
  /-- Between words. -/
  | between
  /-- After a backslash that stands where a word may start. -/
  | betweenEscape
  /-- In a word, outside quotes. -/
  | bare
  /-- After a backslash in a word, outside quotes. -/
  | bareEscape
  /-- In single quotes. -/
  | single
  /-- In double quotes. -/
  | double
  /-- After a backslash in double quotes. -/
  | doubleEscape
  /-- In a comment, which ends with its line. -/
  | comment
  deriving Repr, DecidableEq

/-- A blank, a tab and a line end separate words. -/
def isSeparator (c : Char) : Bool :=
  c == ' ' || c == '\t' || c == '\n'

/-- The characters that a backslash escapes inside double quotes. -/
def isEscapable (c : Char) : Bool :=
  c == '$' || c == Char.ofNat 0x60 || c == '"' || c == '\\'

/-- Splits a text, given where the splitter is and the current word so far, its
last character first. The result is `none` if the text ends inside quotes. -/
def splitFrom : Mode → List Char → List Char → Option (List (List Char))
  | .between, _, [] => some []
  | .betweenEscape, _, [] => some [['\\']]
  | .bare, word, [] => some [word.reverse]
  | .bareEscape, word, [] => some [('\\' :: word).reverse]
  | .single, _, [] => none
  | .double, _, [] => none
  | .doubleEscape, _, [] => none
  | .comment, _, [] => some []
  | .between, _, c :: rest =>
    if c = '\x27' then splitFrom .single [] rest
    else if c = '"' then splitFrom .double [] rest
    else if c = '\\' then splitFrom .betweenEscape [] rest
    else if isSeparator c then splitFrom .between [] rest
    else if c = '#' then splitFrom .comment [] rest
    else splitFrom .bare [c] rest
  | .betweenEscape, _, c :: rest =>
    if c = '\n' then splitFrom .between [] rest else splitFrom .bare [c] rest
  | .bare, word, c :: rest =>
    if c = '\x27' then splitFrom .single word rest
    else if c = '"' then splitFrom .double word rest
    else if c = '\\' then splitFrom .bareEscape word rest
    else if isSeparator c then (splitFrom .between [] rest).map (word.reverse :: ·)
    else splitFrom .bare (c :: word) rest
  | .bareEscape, word, c :: rest =>
    if c = '\n' then splitFrom .bare word rest else splitFrom .bare (c :: word) rest
  | .single, word, c :: rest =>
    if c = '\x27' then splitFrom .bare word rest else splitFrom .single (c :: word) rest
  | .double, word, c :: rest =>
    if c = '"' then splitFrom .bare word rest
    else if c = '\\' then splitFrom .doubleEscape word rest
    else splitFrom .double (c :: word) rest
  | .doubleEscape, word, c :: rest =>
    if c = '\n' then splitFrom .double word rest
    else if isEscapable c then splitFrom .double (c :: word) rest
    else splitFrom .double (c :: '\\' :: word) rest
  | .comment, _, c :: rest =>
    if c = '\n' then splitFrom .between [] rest else splitFrom .comment [] rest

end EntryProbe.Words

namespace EntryProbe

/-- The words of a command line, or `none` if a quote is never closed. -/
def shellWords? (line : String) : Option (List String) :=
  (Words.splitFrom .between [] line.toList).map (·.map String.ofList)

end EntryProbe
