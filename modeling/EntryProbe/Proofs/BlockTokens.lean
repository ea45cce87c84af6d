import EntryProbe.Profiling.Preamble
import EntryProbe.Proofs.Grammar.Fence
import EntryProbe.Proofs.Scanning

/-!
# The profiling block as tokens

The profiling block is rendered as text, and the text is scanned and read again when the
program is compiled. Its tokens are written out once (`EntryProbe.Go.blockTokens`), with the
name of the profile left open, and this file shows of them what is needed:

* `EntryProbe.Go.withBreaks_rendered` – they spell the text of the block, with line breaks of
  either form;
* `EntryProbe.Go.scanned_blockTokens` – they are scanned as they are written. The name of the
  profile may be any text at all, since its quoted form is one token
  (`EntryProbe.Quoted.lexeme_encode`);
* `EntryProbe.Go.recognize_blockTokens` – they are read as one statement.
-/

namespace EntryProbe.Go

/-! ### String literals -/

/-- A character that stands for itself in a string literal. -/
def isPlainInString (c : Char) : Bool :=
  c != '"' && c != '\n' && c != '\\' && c != nullChar

theorem stringTail?_plain {text rest : List Char} (h : text.all isPlainInString = true) :
    stringTail? (text ++ rest) = (stringTail? rest).map (text.length + ·) := by
  induction text with
  | nil => simp
  | cons c text ih =>
    rw [List.all_cons, Bool.and_eq_true] at h
    obtain ⟨hc, htext⟩ := h
    simp only [isPlainInString, Bool.and_eq_true, bne_iff_ne, ne_eq] at hc
    obtain ⟨⟨⟨hquote, hline⟩, hslash⟩, hnull⟩ := hc
    rw [List.cons_append, stringTail?_cons hslash, if_neg hquote, if_neg (by simp [*]), ih htext]
    cases stringTail? rest with
    | none => rfl
    | some n => simp only [Option.map_some, List.length_cons, Option.some.injEq]; omega

theorem stringTail?_escape {c : Char} {text rest : List Char}
    (hescape : escapeIsComplete c (text ++ rest) = true)
    (htext : text.all isPlainInString = true) :
    stringTail? ('\\' :: c :: (text ++ rest)) =
      (stringTail? rest).map (('\\' :: c :: text).length + ·) := by
  rw [stringTail?, if_pos hescape, stringTail?_plain htext]
  cases stringTail? rest with
  | none => rfl
  | some n => simp only [Option.map_some, List.length_cons, Option.some.injEq]; omega

end EntryProbe.Go

namespace EntryProbe.Quoted

open Go

theorem isHexDigit_hexDigit : ∀ n < 16, isHexDigit (hexDigit n) = true := by
  decide

theorem isPlainInString_hexDigit : ∀ n < 16, isPlainInString (hexDigit n) = true := by
  decide

theorem hexDigits_all {test : Char → Bool} (h : ∀ n < 16, test (hexDigit n) = true)
    (width n : Nat) : (hexDigits width n).all test = true := by
  induction width generalizing n with
  | zero => rfl
  | succ width ih =>
    rw [hexDigits, List.all_append, ih, List.all_cons, h _ (Nat.mod_lt _ (by decide))]
    rfl

theorem hexAhead_hexDigits (width n : Nat) (rest : List Char) :
    hexAhead width (hexDigits width n ++ rest) = true := by
  have hlength := length_hexDigits width n
  have hdigits := hexDigits_all isHexDigit_hexDigit width n
  rw [hexAhead, List.take_left' hlength, hlength, hdigits]
  simp

/-- A printable character that is not escaped stands for itself. -/
theorem isPlainInString_of_isPrintable {c : Char} (h : isPrintable c = true)
    (hquote : c ≠ '"') (hslash : c ≠ '\\') : isPlainInString c = true := by
  have hline : c ≠ '\n' := by
    rintro rfl
    revert h
    decide
  have hnull : c ≠ nullChar := by
    rintro rfl
    revert h
    decide
  simp [isPlainInString, hquote, hslash, hline, hnull]

theorem escapeLetter?_mem {c letter : Char} (h : escapeLetter? c = some letter) :
    letter ∈ ['a', 'b', 'f', 'n', 'r', 't', 'v'] := by
  grind [escapeLetter?]

/-- **An encoded character is passed over** in a string literal. -/
theorem stringTail?_encodeChar (c : Char) (rest : List Char) :
    stringTail? (encodeChar c ++ rest) =
      (stringTail? rest).map ((encodeChar c).length + ·) := by
  unfold encodeChar
  split
  · next hc =>
    refine @stringTail?_escape c [] rest ?_ rfl
    rcases hc with rfl | rfl
    · rfl
    · rfl
  next hc =>
  rw [not_or] at hc
  split
  · next hprint =>
    refine @stringTail?_plain [c] rest ?_
    simpa using isPlainInString_of_isPrintable hprint hc.1 hc.2
  split
  · next letter hletter =>
    refine @stringTail?_escape letter [] rest ?_ rfl
    have hmem := escapeLetter?_mem hletter
    simp only [List.mem_cons, List.not_mem_nil, or_false] at hmem
    rcases hmem with rfl | rfl | rfl | rfl | rfl | rfl | rfl <;> rfl
  have hplain := hexDigits_all isPlainInString_hexDigit
  split
  · exact stringTail?_escape (hexAhead_hexDigits 2 _ rest) (hplain 2 _)
  split
  · exact stringTail?_escape (hexAhead_hexDigits 4 _ rest) (hplain 4 _)
  · exact stringTail?_escape (hexAhead_hexDigits 8 _ rest) (hplain 8 _)

/-- A character that is no line break and not null. -/
def isWritten (c : Char) : Bool :=
  c != '\n' && c != nullChar

theorem isWritten_hexDigit : ∀ n < 16, isWritten (hexDigit n) = true := by
  decide

theorem encodeChar_all (c : Char) : (encodeChar c).all isWritten = true := by
  unfold encodeChar
  split
  · next hc =>
    rcases hc with rfl | rfl
    · rfl
    · rfl
  next hc =>
  rw [not_or] at hc
  split
  · next hprint =>
    have hplain := isPlainInString_of_isPrintable hprint hc.1 hc.2
    simp only [isPlainInString, Bool.and_eq_true] at hplain
    simp [isWritten, hplain.1.1.2, hplain.2]
  split
  · next letter hletter =>
    have hmem := escapeLetter?_mem hletter
    simp only [List.mem_cons, List.not_mem_nil, or_false] at hmem
    rcases hmem with rfl | rfl | rfl | rfl | rfl | rfl | rfl <;> rfl
  have hdigits := hexDigits_all isWritten_hexDigit
  split
  · exact hdigits 2 _
  split
  · exact hdigits 4 _
  · exact hdigits 8 _

/-- A quoted text has neither a line break nor a null character. -/
theorem encode_all (text : List Char) : (encode text).all isWritten = true := by
  have hquote : isWritten '"' = true := by decide
  simp [encode, List.all_append, List.all_flatMap, encodeChar_all, hquote]

/-- **A quoted text is one string literal**, whatever follows. -/
theorem lexeme_encode (text rest : List Char) :
    lexeme (encode text ++ rest) = (.string, (encode text).length) := by
  have htail : stringTail? (text.flatMap encodeChar ++ '"' :: rest) =
      some ((text.flatMap encodeChar).length + 1) := by
    induction text with
    | nil => rfl
    | cons c text ih =>
      rw [List.flatMap_cons, List.append_assoc, stringTail?_encodeChar, ih]
      simp [Nat.add_assoc]
  have hnumber : numberLength ('"' :: (text.flatMap encodeChar ++ '"' :: rest)) = 0 :=
    numberLength_eq_zero (by decide) (by decide) _
  have hword : isWordStart '"' = false := by decide
  simp [encode, lexeme, hword, hnumber, htail, Nat.add_comm]

end EntryProbe.Quoted

namespace EntryProbe.Go

open Profiling

/-! ### The tokens of the block -/

/-- A line break in one of its two forms. -/
def lineBreak (withReturn : Bool) : List Char :=
  if withReturn then ['\r', '\n'] else ['\n']

/-- A text with line breaks in one of their two forms. -/
def withBreaks (withReturn : Bool) (text : List Char) : List Char :=
  if withReturn then withCarriageReturns text else text

/-- A word behind a gap. -/
def Token.word (gap : List Char) (text : String) : Token := ⟨gap, text.toList, .word⟩

/-- A mark behind a gap. -/
def Token.mark (gap : List Char) (text : String) (mark : Mark) : Token :=
  ⟨gap, text.toList, .mark mark⟩

/-- A reserved word behind a gap. -/
def Token.reserved (gap : List Char) (text : String) (keyword : Keyword) : Token :=
  ⟨gap, text.toList, .keyword keyword⟩

/-- The tokens of the profiling block up to the name of the file. -/
def blockStart (gap line : List Char) : List Token :=
  [.mark gap "\x7b" .openBrace,
   .word (line ++ ['\t', '\t']) "f", .mark [] "," .comma, .word [' '] "err",
   .mark [' '] ":=" .define, .word [' '] "os", .mark [] "." .dot, .word [] "Create",
   .mark [] "(" .openParen]

/-- The tokens of the profiling block between the name of the file and the message. -/
def blockMiddle (line : List Char) : List Token :=
  [.mark [] ")" .closeParen,
   .reserved (line ++ ['\t', '\t']) "if" .ifWord, .word [' '] "err", .mark [' '] "!=" .notEqual,
   .word [' '] "nil", .mark [' '] "\x7b" .openBrace,
   .word (line ++ ['\t', '\t', '\t']) "os", .mark [] "." .dot, .word [] "Stderr",
   .mark [] "." .dot, .word [] "WriteString", .mark [] "(" .openParen]

/-- The tokens of the profiling block after the message. -/
def blockEnd (line : List Char) : List Token :=
  [.mark [' '] "+" .plus, .word [' '] "err", .mark [] "." .dot, .word [] "Error",
   .mark [] "(" .openParen, .mark [] ")" .closeParen, .mark [' '] "+" .plus,
   ⟨[' '], "\"\\n\"".toList, .string⟩, .mark [] ")" .closeParen,
   .reserved (line ++ ['\t', '\t', '\t']) "return" .returnWord,
   .mark (line ++ ['\t', '\t']) "\x7d" .closeBrace,
   .word (line ++ ['\t', '\t']) "pprof", .mark [] "." .dot, .word [] "StartCPUProfile",
   .mark [] "(" .openParen, .word [] "f", .mark [] ")" .closeParen,
   .reserved (line ++ ['\t', '\t']) "defer" .deferWord, .word [' '] "pprof", .mark [] "." .dot,
   .word [] "StopCPUProfile", .mark [] "(" .openParen, .mark [] ")" .closeParen,
   .mark (line ++ ['\t']) "\x7d" .closeBrace]

/-- A string literal. -/
def Token.quoted (text : List Char) : Token := ⟨[], Quoted.encode text, .string⟩

/-- The message of the profiling block. -/
def openMessage (profile : String) : String :=
  "Couldn't open " ++ profile ++ ": "

/-- **The tokens of the profiling block** behind a gap, with the given line breaks. -/
def blockTokens (gap line : List Char) (profile : String) : List Token :=
  blockStart gap line ++ .quoted profile.toList :: (blockMiddle line ++
    .quoted (openMessage profile).toList :: blockEnd line)

theorem rendered_preamble (profile : String) :
    (preamble profile).rendered = unscan (blockTokens [] ['\n'] profile) := by
  have hbreak : quote "\n" = "\"\\n\"" := by decide
  have hname : (quote profile).toList = Quoted.encode profile.toList := String.toList_ofList
  have hfailure : (quote ("Couldn't open " ++ profile ++ ": ")).toList =
      Quoted.encode (openMessage profile).toList := String.toList_ofList
  simp only [Stmt.rendered, preamble, openProfile, openGuard, openFailure, memberOf, Expr.string,
    renderStmt, renderBlock, renderLines, renderExpr, renderExprs, AssignOp.text, BinaryOp.text,
    Option.bind_eq_bind, Option.bind_some, Option.pure_def, Option.map_some, Option.getD_some,
    List.isEmpty_nil, blockTokens, unscan_append, unscan_cons, Token.quoted]
  rw [hbreak]
  simp only [String.toList_append, hname, hfailure, List.append_assoc]
  generalize Quoted.encode profile.toList = name
  generalize Quoted.encode (openMessage profile).toList = message
  cbv

theorem withCarriageReturns_append (text text' : List Char) :
    withCarriageReturns (text ++ text') = withCarriageReturns text ++ withCarriageReturns text' :=
  List.flatMap_append

theorem withCarriageReturns_eq_self {text : List Char} (h : '\n' ∉ text) :
    withCarriageReturns text = text := by
  induction text with
  | nil => rfl
  | cons c text ih =>
    rw [List.mem_cons, not_or] at h
    have hc : c ≠ '\n' := Ne.symm h.1
    rw [withCarriageReturns, List.flatMap_cons, if_neg hc]
    exact congrArg (c :: ·) (ih h.2)

/-- A quoted text has no line break. -/
theorem newline_not_mem_encode (text : List Char) : '\n' ∉ Quoted.encode text := by
  intro hmem
  have hall := Quoted.encode_all text
  rw [List.all_eq_true] at hall
  cases hall '\n' hmem

/-- The text of the block with the other line breaks. -/
theorem withBreaks_rendered (withReturn : Bool) (profile : String) :
    withBreaks withReturn (preamble profile).rendered =
      unscan (blockTokens [] (lineBreak withReturn) profile) := by
  rw [rendered_preamble]
  cases withReturn with
  | false => rfl
  | true =>
    have hstart : withCarriageReturns (unscan (blockStart [] ['\n'])) =
        unscan (blockStart [] ['\r', '\n']) := by decide
    have hmiddle : withCarriageReturns (unscan (blockMiddle ['\n'])) =
        unscan (blockMiddle ['\r', '\n']) := by decide
    have hend : withCarriageReturns (unscan (blockEnd ['\n'])) =
        unscan (blockEnd ['\r', '\n']) := by decide
    have hquoted : ∀ text, withCarriageReturns (Quoted.encode text) = Quoted.encode text :=
      fun text => withCarriageReturns_eq_self (newline_not_mem_encode text)
    simp only [withBreaks, lineBreak, ↓reduceIte, blockTokens, unscan_append, unscan_cons,
      Token.quoted, List.nil_append, withCarriageReturns_append, hstart, hmiddle, hend, hquoted]

theorem unscan_blockTokens (gap line : List Char) (profile : String) :
    unscan (blockTokens gap line profile) = gap ++ unscan (blockTokens [] line profile) := by
  simp [blockTokens, blockStart, Token.mark]

/-! ### Reading the block -/

set_option maxRecDepth 4000 in
theorem recognizeWithin_block (gap name message : List Char) (withReturn : Bool) (n : Nat)
    (rest : List Token) :
    recognizeWithin (n + 60) _ .listStatement
      (blockStart gap (lineBreak withReturn) ++ ⟨[], name, .string⟩ ::
        (blockMiddle (lineBreak withReturn) ++ ⟨[], message, .string⟩ ::
          blockEnd (lineBreak withReturn)) ++ rest) = .ok (.block, rest) := by
  cases withReturn with
  | false => cbv
  | true => cbv

/-- **The block is read as one statement**, a block. -/
theorem recognize_blockTokens (gap : List Char) (withReturn : Bool) (profile : String)
    (rest : List Token) :
    recognize .listStatement (blockTokens gap (lineBreak withReturn) profile ++ rest) =
      .ok (.block, rest) := by
  have hlength : 45 ≤ (blockTokens gap (lineBreak withReturn) profile).length := by
    simp [blockTokens, blockStart, blockMiddle, blockEnd]
  obtain ⟨n, hn⟩ : ∃ n, phrasesPerToken *
      ((blockTokens gap (lineBreak withReturn) profile ++ rest).length + 1) = n + 60 := by
    refine Nat.exists_eq_add_of_le' ?_
    rw [List.length_append, phrasesPerToken]
    omega
  rw [recognize, hn]
  exact recognizeWithin_block gap _ _ withReturn n rest

theorem balanced_blockTokens (gap : List Char) (withReturn : Bool) (profile : String) :
    Balanced (blockTokens gap (lineBreak withReturn) profile) := by
  intro depth rest
  simp [blockTokens, blockStart, blockMiddle, blockEnd, Token.mark, Token.word, Token.reserved,
    Token.quoted, Grammar.afterBraces]

/-! ### Scanning the block -/

theorem scanned_of_scanFrom {tokens : List Token} {last : List Char}
    (h : scanFrom (unscan tokens ++ last).length (unscan tokens ++ last) = (tokens, last)) :
    Scanned tokens last := by
  have hscanned := scanned_scanFrom (Nat.le_refl (unscan tokens ++ last).length)
  rwa [h] at hscanned

/-- A token that is neither stray nor a slash. -/
def Token.isSolid (token : Token) : Bool :=
  token.lexeme != .stray && token.text != ['/']

/-- **Tokens stay tokens** if what follows them changes only behind a stop. -/
theorem Scanned.of_meets {front tokens tokens' : List Token} {last last' : List Char}
    (h : Scanned (front ++ tokens) last) (hsolid : front.all Token.isSolid = true)
    (hmeets : Meets (unscan tokens ++ last) (unscan tokens' ++ last'))
    (h' : Scanned tokens' last') : Scanned (front ++ tokens') last' := by
  induction front with
  | nil => exact h'
  | cons token front ih =>
    rw [List.all_cons, Bool.and_eq_true] at hsolid
    obtain ⟨hfirst, hfront⟩ := hsolid
    simp only [Token.isSolid, Bool.and_eq_true, bne_iff_ne] at hfirst
    refine ⟨h.1.of_meets ?_ hfirst.1 fun hslash => absurd hslash hfirst.2, ih h.2 hfront⟩
    simpa using hmeets.append (unscan front)

theorem starts_quoted (text tail : List Char) : (Token.quoted text).Starts tail where
  gap_eq := by simp [Token.quoted, Quoted.encode, splitTrivia, splitTriviaFrom, isSpace]
  text_ne := by simp [Token.quoted, Quoted.encode]
  lexeme_eq := Quoted.lexeme_encode text tail

/-- What starts with quotes or line breaks starts with a stop. -/
theorem meets_of_stops {tail tail' : List Char} {c c' : Char} (hc : tail.head? = some c)
    (hc' : tail'.head? = some c') (hstop : c ∈ stops) (hstop' : c' ∈ stops) (hslash : c' ≠ '/') :
    Meets tail tail' := by
  obtain ⟨rest, rfl⟩ := List.head?_eq_some_iff.mp hc
  obtain ⟨rest', rfl⟩ := List.head?_eq_some_iff.mp hc'
  exact .inr ⟨[], c, c', rest, rest', hstop, hstop', hslash, rfl, rfl⟩

/-- **The tokens of the block are scanned** in front of a line break. -/
theorem scanned_blockTokens {gap : List Char} (withReturn : Bool) (profile : String)
    {tokens : List Token} {last : List Char} {c : Char}
    (hgap : Trivia .outside gap .outside) (h : Scanned tokens last)
    (hhead : (unscan tokens ++ last).head? = some c) (hstop : c ∈ stops) (hslash : c ≠ '/') :
    Scanned (blockTokens gap (lineBreak withReturn) profile ++ tokens) last := by
  have hend : Scanned (blockEnd (lineBreak withReturn) ++ []) ['\n'] := by
    cases withReturn <;> exact scanned_of_scanFrom (by decide)
  have hmiddle : Scanned (blockMiddle (lineBreak withReturn) ++ [.quoted []]) [] := by
    cases withReturn <;> exact scanned_of_scanFrom (by decide)
  have hstart : Scanned (blockStart [] (lineBreak withReturn) ++ [.quoted []]) [] := by
    cases withReturn <;> exact scanned_of_scanFrom (by decide)
  have hquote : '"' ∈ stops := by decide
  have hafter : Scanned (blockEnd (lineBreak withReturn) ++ tokens) last := by
    refine hend.of_meets (by cases withReturn <;> decide) ?_ h
    exact meets_of_stops rfl hhead (by decide) hstop hslash
  have hmessage : Scanned (.quoted (openMessage profile).toList ::
      (blockEnd (lineBreak withReturn) ++ tokens)) last :=
    ⟨starts_quoted _ _, hafter⟩
  have hbetween := hmiddle.of_meets (by cases withReturn <;> decide)
    (meets_of_stops rfl rfl hquote hquote (by decide)) hmessage
  have hname : Scanned (.quoted profile.toList :: (blockMiddle (lineBreak withReturn) ++
      .quoted (openMessage profile).toList :: (blockEnd (lineBreak withReturn) ++ tokens))) last :=
    ⟨starts_quoted _ _, hbetween⟩
  have hwhole := hstart.of_meets (by cases withReturn <;> decide)
    (meets_of_stops rfl rfl hquote hquote (by decide)) hname
  -- the gap in front of the block is trivia that end outside comments
  have hreplace : MayReplace gap [] := by
    intro mode hmode htrivia
    cases htrivia
    exact hgap
  have hregap := Scanned.regap hwhole hreplace
  simpa [blockTokens, blockStart, Token.mark] using hregap

end EntryProbe.Go
