import EntryProbe.Go.Token

/-!
# The comments of a text

Which parts of a source are comments, said for any text. It is read one character at a
time, and what a character belongs to follows from the `EntryProbe.Go.TextMode` before it.
Inside a literal nothing opens a comment, and a line break ends every literal but a raw
string.

* `EntryProbe.Go.comments` – the comments of a text in order, each as it is written. The
  comment at the end of a line ends before the line break, be it a line feed or a carriage
  return and a line feed;
* `EntryProbe.Go.insideComment` – whether a place in a text is inside a comment.
-/

namespace EntryProbe.Go

/-- The quotes that a literal with escapes stands between. -/
inductive Quote where
  /-- Those of a string. -/
  | double
  /-- Those of a single character. -/
  | single
  deriving Repr, DecidableEq, Inhabited

/-- The character itself. -/
def Quote.mark : Quote → Char
  | .double => '"'
  | .single => runeQuote

/-- What the next character of a text belongs to. -/
inductive TextMode where
  /-- Neither a comment nor a literal. -/
  | code
  /-- The same, after a slash that may open a comment. -/
  | slash
  /-- A comment that ends with its line. -/
  | line
  /-- A comment that ends with a star and a slash. -/
  | block
  /-- Such a comment, after a star that may be part of its end. -/
  | star
  /-- A literal that ends with a quote. -/
  | quoted (quote : Quote)
  /-- Such a literal, after a backslash. -/
  | escaped (quote : Quote)
  /-- A literal without escapes, which may go over several lines. -/
  | raw
  deriving Repr, DecidableEq, Inhabited

namespace TextMode

/-- What a character of neither a comment nor a literal leads to. -/
def ofCode (c : Char) : TextMode :=
  if c = '/' then .slash
  else if c = rawQuote then .raw
  else if c = Quote.double.mark then .quoted .double
  else if c = Quote.single.mark then .quoted .single
  else .code

/-- What a character leads to. -/
def step : TextMode → Char → TextMode
  | .code, c => ofCode c
  | .slash, c => if c = '/' then .line else if c = '*' then .block else ofCode c
  | .line, c => if c = '\n' then .code else .line
  | .block, c => if c = '*' then .star else .block
  | .star, c => if c = '/' then .code else if c = '*' then .star else .block
  | .quoted quote, c =>
    if c = quote.mark ∨ c = '\n' then .code
    else if c = '\\' then .escaped quote
    else .quoted quote
  | .escaped quote, c => if c = '\n' then .code else .quoted quote
  | .raw, c => if c = rawQuote then .code else .raw

/-- A comment is open. -/
def inComment : TextMode → Bool
  | .line | .block | .star => true
  | _ => false

/-- Neither a comment nor a literal is open. -/
def isClear : TextMode → Bool
  | .code | .slash => true
  | _ => false

/-- What a text leads to. -/
def after (mode : TextMode) (text : List Char) : TextMode :=
  text.foldl step mode

end TextMode

/-- The rest of the comment that is open, and the comments that come later. -/
def commentsFrom : TextMode → List Char → List Char × List (List Char)
  | _, [] => ([], [])
  | mode, c :: rest =>
    let (inside, later) := commentsFrom (mode.step c) rest
    match mode.inComment, (mode.step c).inComment with
    | false, false => ([], later)
    | false, true => ([], ('/' :: c :: inside) :: later)
    | true, true => (c :: inside, later)
    -- the slash is part of a comment that ends here, the line feed is not
    | true, false => (if mode = .line then [] else [c], later)

/-- A comment without a carriage return at its end, which belongs to the line break. -/
def withoutReturn (comment : List Char) : List Char :=
  if comment.getLast? = some '\r' then comment.dropLast else comment

/-- **The comments of a text**, in order. -/
def comments (text : List Char) : List (List Char) :=
  (commentsFrom .code text).2.map withoutReturn

/-- A text starts with a line break. -/
def startsLine : List Char → Bool
  | '\n' :: _ => true
  | '\r' :: '\n' :: _ => true
  | _ => false

/-- **The place between two texts is inside a comment**: one is open, and it does not end
right there with its line. The place between the two characters that open a comment is
inside it. -/
def insideComment (before after : List Char) : Bool :=
  match TextMode.code.after before with
  | .block | .star => true
  | .line => !(after.isEmpty || startsLine after)
  | .slash => after.head? == some '/' || after.head? == some '*'
  | _ => false

/-! ### Texts one after the other -/

namespace TextMode

@[simp] theorem after_nil (mode : TextMode) : mode.after [] = mode := rfl

@[simp] theorem after_cons (mode : TextMode) (c : Char) (text : List Char) :
    mode.after (c :: text) = (mode.step c).after text := rfl

theorem after_append (mode : TextMode) (text rest : List Char) :
    mode.after (text ++ rest) = (mode.after text).after rest :=
  List.foldl_append ..

end TextMode

@[simp] theorem commentsFrom_nil (mode : TextMode) : commentsFrom mode [] = ([], []) := rfl

section

variable {mode : TextMode} {c : Char}

/-- A character outside comments. -/
theorem commentsFrom_cons (hmode : mode.inComment = false) (hstep : (mode.step c).inComment = false)
    (rest : List Char) :
    commentsFrom mode (c :: rest) = ([], (commentsFrom (mode.step c) rest).2) := by
  rw [commentsFrom, hmode, hstep]

/-- A character that opens a comment. -/
theorem commentsFrom_cons_open (hmode : mode.inComment = false)
    (hstep : (mode.step c).inComment = true) (rest : List Char) :
    commentsFrom mode (c :: rest) =
      ([], ('/' :: c :: (commentsFrom (mode.step c) rest).1) ::
        (commentsFrom (mode.step c) rest).2) := by
  rw [commentsFrom, hmode, hstep]

/-- A character inside a comment that goes on. -/
theorem commentsFrom_cons_inside (hmode : mode.inComment = true)
    (hstep : (mode.step c).inComment = true) (rest : List Char) :
    commentsFrom mode (c :: rest) =
      (c :: (commentsFrom (mode.step c) rest).1, (commentsFrom (mode.step c) rest).2) := by
  rw [commentsFrom, hmode, hstep]

/-- A line feed ends a line comment and is not part of it. -/
theorem commentsFrom_line_newline (rest : List Char) :
    commentsFrom .line ('\n' :: rest) = ([], (commentsFrom .code rest).2) :=
  rfl

/-- Where no comment is open, none goes on. -/
theorem commentsFrom_fst (hmode : mode.inComment = false) (text : List Char) :
    (commentsFrom mode text).1 = [] := by
  cases text with
  | nil => rfl
  | cons c text =>
    cases hstep : (mode.step c).inComment with
    | false => rw [commentsFrom_cons hmode hstep]
    | true => rw [commentsFrom_cons_open hmode hstep]

/-- **Comments of two texts**, if no comment goes on from the first into the second. -/
theorem commentsFrom_append {text rest : List Char}
    (h : (commentsFrom (mode.after text) rest).1 = []) :
    commentsFrom mode (text ++ rest) =
      ((commentsFrom mode text).1,
        (commentsFrom mode text).2 ++ (commentsFrom (mode.after text) rest).2) := by
  induction text generalizing mode with
  | nil => exact Prod.ext h rfl
  | cons c text ih =>
    rw [List.cons_append, commentsFrom, ih h, commentsFrom]
    cases mode.inComment <;> cases (mode.step c).inComment <;> rfl

/-- A text that stays in one mode outside comments. -/
theorem commentsFrom_of_stays {text : List Char} (hmode : mode.inComment = false)
    (hstep : ∀ c ∈ text, mode.step c = mode) (rest : List Char) :
    commentsFrom mode (text ++ rest) = commentsFrom mode rest ∧ mode.after text = mode := by
  induction text with
  | nil => exact ⟨rfl, rfl⟩
  | cons c text ih =>
    obtain ⟨hcomments, hafter⟩ := ih fun d hd => hstep d (by simp [hd])
    have hc := hstep c (by simp)
    rw [List.cons_append, commentsFrom_cons hmode (by rw [hc, hmode]), TextMode.after_cons, hc,
      hcomments]
    exact ⟨Prod.ext (commentsFrom_fst hmode rest).symm rfl, hafter⟩

/-! ### Texts without comments -/

/-- No comment is found exactly if none is opened at the start or later. -/
theorem commentsFrom_cons_eq_nil (hmode : mode.inComment = false) {rest : List Char} :
    (commentsFrom mode (c :: rest)).2 = [] ↔
      (mode.step c).inComment = false ∧ (commentsFrom (mode.step c) rest).2 = [] := by
  cases hstep : (mode.step c).inComment with
  | false => simp [commentsFrom_cons hmode hstep]
  | true => simp [commentsFrom_cons_open hmode hstep]

/-- In a text without comments, no comment is open anywhere. -/
theorem inComment_after_of_append {text rest : List Char} (hmode : mode.inComment = false)
    (h : (commentsFrom mode (text ++ rest)).2 = []) :
    (mode.after text).inComment = false ∧ (commentsFrom (mode.after text) rest).2 = [] := by
  induction text generalizing mode with
  | nil => exact ⟨hmode, h⟩
  | cons c text ih =>
    obtain ⟨hstep, h⟩ := (commentsFrom_cons_eq_nil hmode).mp h
    exact ih hstep h

end

end EntryProbe.Go
