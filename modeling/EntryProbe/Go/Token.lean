import EntryProbe.Go.Trivia
import EntryProbe.Text.Bytes
import EntryProbe.Text.Words

/-!
# Tokens

A source is a sequence of tokens, each with the *gap* in front of it, and a last
gap at the end of the file. Nothing is thrown away: the gaps and texts, in order,
are the source (`EntryProbe.Go.scan_append`), so a place in the source is the
length of what stands before it, and the text of a piece of program is the text of
its tokens.

The longest token wins. A character that starts no token is a token of its own
kind, `EntryProbe.Go.Lexeme.stray`, which no rule of the grammar accepts; so is the
quote of a string or character literal that is not well formed.
-/

namespace EntryProbe.Go

/-! ### What a token is -/

/-- The reserved words. -/
inductive Keyword where
  | breakWord | caseWord | chanWord | constWord | continueWord | defaultWord | deferWord
  | elseWord | fallthroughWord | forWord | funcWord | goWord | gotoWord | ifWord | importWord
  | interfaceWord | mapWord | packageWord | rangeWord | returnWord | selectWord | structWord
  | switchWord | typeWord | varWord
  deriving Repr, DecidableEq, Inhabited

/-- The reserved words as they are written. -/
def keywords : List (String × Keyword) :=
  [("break", .breakWord), ("case", .caseWord), ("chan", .chanWord), ("const", .constWord),
   ("continue", .continueWord), ("default", .defaultWord), ("defer", .deferWord),
   ("else", .elseWord), ("fallthrough", .fallthroughWord), ("for", .forWord),
   ("func", .funcWord), ("go", .goWord), ("goto", .gotoWord), ("if", .ifWord),
   ("import", .importWord), ("interface", .interfaceWord), ("map", .mapWord),
   ("package", .packageWord), ("range", .rangeWord), ("return", .returnWord),
   ("select", .selectWord), ("struct", .structWord), ("switch", .switchWord),
   ("type", .typeWord), ("var", .varWord)]

/-- Operators and punctuation. -/
inductive Mark where
  | plus | minus | star | slash | percent | amp | pipe | caret | shiftLeft | shiftRight | ampCaret
  | andAnd | orOr | arrow | increment | decrement
  | equal | notEqual | less | lessEqual | greater | greaterEqual
  | not | tilde | ellipsis | define | assign
  /-- An operator followed by an equals sign. -/
  | updateAssign
  | openParen | closeParen | openBracket | closeBracket | openBrace | closeBrace
  | comma | semicolon | dot | colon
  /-- The null character, another terminator of statements. -/
  | null
  deriving Repr, DecidableEq, Inhabited

/-- The operators and punctuation as they are written, no text before one that it
is the beginning of. -/
def marks : List (List Char × Mark) :=
  [(['<', '<', '='], .updateAssign), (['>', '>', '='], .updateAssign),
   (['&', '^', '='], .updateAssign), (['.', '.', '.'], .ellipsis),
   (['&', '&'], .andAnd), (['|', '|'], .orOr), (['<', '-'], .arrow),
   (['+', '+'], .increment), (['-', '-'], .decrement), (['=', '='], .equal),
   (['!', '='], .notEqual), (['<', '='], .lessEqual), (['>', '='], .greaterEqual),
   ([':', '='], .define), (['+', '='], .updateAssign), (['-', '='], .updateAssign),
   (['*', '='], .updateAssign), (['/', '='], .updateAssign), (['%', '='], .updateAssign),
   (['&', '='], .updateAssign), (['|', '='], .updateAssign), (['^', '='], .updateAssign),
   (['<', '<'], .shiftLeft), (['>', '>'], .shiftRight), (['&', '^'], .ampCaret),
   (['+'], .plus), (['-'], .minus), (['*'], .star), (['/'], .slash), (['%'], .percent),
   (['&'], .amp), (['|'], .pipe), (['^'], .caret), (['<'], .less), (['>'], .greater),
   (['='], .assign), (['!'], .not), (['~'], .tilde), (['('], .openParen), ([')'], .closeParen),
   (['['], .openBracket), ([']'], .closeBracket), (['\x7b'], .openBrace),
   (['\x7d'], .closeBrace), ([','], .comma), ([';'], .semicolon), (['.'], .dot),
   ([':'], .colon), ([nullChar], .null)]

/-- The kind of a token. -/
inductive Lexeme where
  /-- An identifier. -/
  | word
  /-- A reserved word. -/
  | keyword (keyword : Keyword)
  /-- An operator or a punctuation mark. -/
  | mark (mark : Mark)
  /-- A number. -/
  | number
  /-- A character literal. -/
  | rune
  /-- A string literal. -/
  | string
  /-- A character that starts no token. -/
  | stray
  deriving Repr, DecidableEq, Inhabited

/-- A token and the gap in front of it. -/
structure Token where
  /-- The white space and comments in front of the token. -/
  gap : List Char
  /-- The token as written. -/
  text : List Char
  /-- The kind of the token. -/
  lexeme : Lexeme
  deriving Repr, DecidableEq, Inhabited

/-- There is a line break in front of the token. A line break inside a block
comment is none. -/
def Token.onNewLine (token : Token) : Bool :=
  (splitAtLineBreak? token.gap).isSome

/-- A token with the gap in front of it, as text. -/
def Token.full (token : Token) : List Char :=
  token.gap ++ token.text

/-- The source text of a sequence of tokens, the first gap included. -/
def unscan (tokens : List Token) : List Char :=
  tokens.flatMap Token.full

/-- The number of bytes of a sequence of tokens, the first gap included. -/
def width (tokens : List Token) : Nat :=
  byteLength (unscan tokens)

/-- The source text of a sequence of tokens from the first token on, without the
gap in front of it. -/
def spelling : List Token → List Char
  | [] => []
  | token :: rest => token.text ++ unscan rest

/-! ### Numbers -/

/-- The length of the longest beginning that consists of digits with single
underscores in front of some of them. -/
def digitTail (isDigit : Char → Bool) : List Char → Nat
  | '_' :: c :: rest => if isDigit c then 2 + digitTail isDigit rest else 0
  | c :: rest => if isDigit c then 1 + digitTail isDigit rest else 0
  | [] => 0

/-- The length of the longest beginning that consists of digits with single
underscores between some of them. -/
def digitRun (isDigit : Char → Bool) : List Char → Nat
  | c :: rest => if isDigit c then 1 + digitTail isDigit rest else 0
  | [] => 0

/-- A digit of base two, eight or sixteen. -/
def isBinaryDigit (c : Char) : Bool := c == '0' || c == '1'

@[inherit_doc isBinaryDigit]
def isOctalDigit (c : Char) : Bool := '0' ≤ c && c ≤ '7'

@[inherit_doc isBinaryDigit]
def isHexDigit (c : Char) : Bool :=
  c.isDigit || ('a' ≤ c && c ≤ 'f') || ('A' ≤ c && c ≤ 'F')

/-- The length of one of the given characters at the start of a text, or zero. -/
def oneOf (choices : List Char) : List Char → Nat
  | c :: _ => if choices.contains c then 1 else 0
  | [] => 0

/-- The length of two parts in a row, the second starting where the first one
ends. Without the second part there is no match. -/
def followedBy (first : Nat) (second : List Char → Nat) (text : List Char) : Nat :=
  let length := second (text.drop first)
  if length = 0 then 0 else first + length

/-- The length of an exponent: a letter, a sign perhaps, and digits. -/
def exponent (letters text : List Char) : Nat :=
  if oneOf letters text = 0 then
    0
  else
    let sign := 1 + oneOf ['+', '-'] (text.drop 1)
    followedBy sign (digitRun Char.isDigit) text

/-- The length of digits that an underscore may precede. -/
def looseDigits (isDigit : Char → Bool) (text : List Char) : Nat :=
  followedBy (oneOf ['_'] text) (digitRun isDigit) text

/-- The length of a match that goes on with an optional part. -/
def andPerhaps (first : Nat) (second : List Char → Nat) (text : List Char) : Nat :=
  if first = 0 then 0 else first + second (text.drop first)

/-- The length of an integer that starts with a zero, a letter for the base, and
digits. -/
def basedInteger (letters : List Char) (isDigit : Char → Bool) (text : List Char) : Nat :=
  if oneOf ['0'] text = 0 ∨ oneOf letters (text.drop 1) = 0 then 0
  else followedBy 2 (looseDigits isDigit) text

/-- The lengths of the integers that a text starts with. -/
def integers (text : List Char) : List Nat :=
  let leadingZero := oneOf ['0'] text
  [leadingZero,
   if leadingZero = 0 then digitRun Char.isDigit text
   else followedBy 1 (looseDigits isOctalDigit) text,
   basedInteger ['o', 'O'] isOctalDigit text,
   basedInteger ['x', 'X'] isHexDigit text,
   basedInteger ['b', 'B'] isBinaryDigit text]

/-- The lengths of the decimal fractions that a text starts with. -/
def decimals (text : List Char) : List Nat :=
  let whole := digitRun Char.isDigit text
  let pointed :=
    if whole = 0 then
      if oneOf ['.'] text = 0 then 0 else followedBy 1 (digitRun Char.isDigit) text
    else if oneOf ['.'] (text.drop whole) = 0 then 0
    else andPerhaps (whole + 1) (digitRun Char.isDigit) text
  [andPerhaps pointed (exponent ['e', 'E']) text,
   if whole = 0 then 0 else followedBy whole (exponent ['e', 'E']) text]

/-- The length of the hexadecimal fraction that a text starts with; its exponent
is required. -/
def hexadecimal (text : List Char) : Nat :=
  if oneOf ['0'] text = 0 ∨ oneOf ['x', 'X'] (text.drop 1) = 0 then
    0
  else
    let rest := text.drop 2
    let whole := looseDigits isHexDigit rest
    let mantissa :=
      if whole = 0 then
        if oneOf ['.'] rest = 0 then 0 else followedBy 1 (digitRun isHexDigit) rest
      else if oneOf ['.'] (rest.drop whole) = 0 then whole
      else andPerhaps (whole + 1) (digitRun isHexDigit) rest
    if mantissa = 0 then 0 else followedBy (2 + mantissa) (exponent ['p', 'P']) text

/-- The length of the number that a text starts with, or zero. Any number may be
followed by the letter of the imaginary unit. -/
def numberLength (text : List Char) : Nat :=
  let lengths := digitRun Char.isDigit text :: hexadecimal text :: integers text ++ decimals text
  let imaginary := lengths.map fun length =>
    if length = 0 then 0 else followedBy length (oneOf ['i']) text
  (hexadecimal text :: integers text ++ decimals text ++ imaginary).foldl max 0

/-! ### Strings and characters -/

/-- The next `count` characters are hexadecimal digits. -/
def hexAhead (count : Nat) (text : List Char) : Bool :=
  (text.take count).length == count && (text.take count).all isHexDigit

/-- The escape that the letter `c` starts is followed by the digits it needs. -/
def escapeIsComplete (c : Char) (rest : List Char) : Bool :=
  if c = 'x' then hexAhead 2 rest
  else if c = 'u' then hexAhead 4 rest
  else if c = 'U' then hexAhead 8 rest
  else c != nullChar

/-- The length of the rest of a string literal after its opening quote, up to and
including the closing one. -/
def stringTail? : List Char → Option Nat
  | [] => none
  | '\\' :: c :: rest =>
    if escapeIsComplete c rest then (stringTail? rest).map (2 + ·) else none
  | c :: rest =>
    if c = '"' then some 1
    else if c = '\n' ∨ c = '\\' ∨ c = nullChar then none
    else (stringTail? rest).map (1 + ·)

/-- The character that opens and closes a raw string literal. -/
def rawQuote : Char := '\x60'

/-- The character that opens and closes a character literal. -/
def runeQuote : Char := '\x27'

/-- The length of the rest of a raw string literal after its opening quote. -/
def rawTail? : List Char → Option Nat
  | [] => none
  | c :: rest =>
    if c = rawQuote then some 1
    else if c = nullChar then none
    else (rawTail? rest).map (1 + ·)

/-- The length of what may stand behind a backslash in a character literal, or
zero. -/
def runeEscape : List Char → Nat
  | [] => 0
  | c :: rest =>
    if c = 'x' then if hexAhead 2 rest then 3 else 0
    else if c = 'u' then if hexAhead 4 rest then 5 else 0
    else if c = 'U' then if hexAhead 8 rest then 9 else 0
    else if isOctalDigit c then
      if (rest.take 2).length = 2 ∧ (rest.take 2).all isOctalDigit then 3 else 0
    else if ['a', 'b', 'f', 'n', 'r', 't', 'v', '\\', runeQuote, '"'].contains c then 1
    else 0

/-- The length of a character literal after its opening quote. -/
def runeTail? : List Char → Option Nat
  | [] => none
  | c :: rest =>
    let content :=
      if c = '\\' then andPerhaps (runeEscape rest) (fun _ => 1) rest
      else if c = runeQuote ∨ c = nullChar then 0
      else 1
    if content ≠ 0 ∧ ((c :: rest).drop content).head? = some runeQuote then some (content + 1)
    else none

/-! ### The scanner -/

/-- The token that a text starts with: its kind and its length. -/
def lexeme (text : List Char) : Lexeme × Nat :=
  match text with
  | [] => (.stray, 0)
  | c :: rest =>
    if isWordStart c then
      let length := 1 + (rest.takeWhile isWordContinue).length
      match keywords.find? fun entry => entry.1.toList == text.take length with
      | some (_, keyword) => (.keyword keyword, length)
      | none => (.word, length)
    else if numberLength text ≠ 0 then
      (.number, numberLength text)
    else if c = '"' then
      match stringTail? rest with
      | some length => (.string, 1 + length)
      | none => (.stray, 1)
    else if c = rawQuote then
      match rawTail? rest with
      | some length => (.string, 1 + length)
      | none => (.stray, 1)
    else if c = runeQuote then
      match runeTail? rest with
      | some length => (.rune, 1 + length)
      | none => (.stray, 1)
    else
      match marks.find? fun entry => entry.1.isPrefixOf text with
      | some (spelled, mark) => (.mark mark, spelled.length)
      | none => (.stray, 1)

/-- Scans a text in at most `fuel` tokens: the tokens, and the text after the last
one. -/
def scanFrom : (fuel : Nat) → List Char → List Token × List Char
  | 0, text => ([], text)
  | fuel + 1, text =>
    let (gap, rest) := splitTrivia text
    match rest with
    | [] => ([], gap)
    | _ :: _ =>
      let (kind, length) := lexeme rest
      let (tokens, last) := scanFrom fuel (rest.drop length)
      (⟨gap, rest.take length, kind⟩ :: tokens, last)

/-- The byte order mark that a file may start with. -/
def byteOrderMark : Char := '\ufeff'

/-- The tokens of a source and the gap after the last one. A byte order mark at
the start belongs to the first gap. -/
def scan (source : List Char) : List Token × List Char :=
  match source with
  | [] => ([], [])
  | c :: rest =>
    if c = byteOrderMark then
      match scanFrom rest.length rest with
      | ([], last) => ([], c :: last)
      | (token :: tokens, last) => (⟨c :: token.gap, token.text, token.lexeme⟩ :: tokens, last)
    else
      scanFrom source.length source

theorem scanFrom_append (fuel : Nat) (text : List Char) :
    unscan (scanFrom fuel text).1 ++ (scanFrom fuel text).2 = text := by
  induction fuel generalizing text with
  | zero => simp [scanFrom, unscan]
  | succ fuel ih =>
    have hsplit := splitTriviaFrom_append .outside text
    simp only [scanFrom, splitTrivia]
    generalize splitTriviaFrom .outside text = parts at hsplit
    obtain ⟨gap, rest⟩ := parts
    match rest, hsplit with
    | [], hsplit => simpa [unscan] using hsplit
    | c :: rest, hsplit =>
      have := ih ((c :: rest).drop (lexeme (c :: rest)).2)
      simp only [unscan, List.flatMap_cons, Token.full, List.append_assoc] at this ⊢
      rw [this, List.take_append_drop]
      exact hsplit

/-- **Scanning loses nothing**: the gaps and the tokens, in order, are the
source. -/
theorem scan_append (source : List Char) :
    unscan (scan source).1 ++ (scan source).2 = source := by
  unfold scan
  match source with
  | [] => rfl
  | c :: rest =>
    simp only
    split
    · have h := scanFrom_append rest.length rest
      generalize scanFrom rest.length rest = parts at h
      obtain ⟨tokens, last⟩ := parts
      cases tokens with
      | nil => simpa [unscan] using h
      | cons token tokens => simpa [unscan, Token.full] using h
    · exact scanFrom_append _ _

end EntryProbe.Go
