import EntryProbe.Proofs.RoundTrip
import EntryProbe.Proofs.Unquoting

/-!
# The path of a profile stays inside its literals

The path of the profile is any text at all, and it is written into the program twice. Here it
is shown to be data there and never code: whatever the path is, the block is read back as the
tree it was rendered from, and its tokens are the same for every path, but for two string
literals.

* `EntryProbe.Profiling.preamble_wellFormed` – the block has the one tree that its symbols
  stand for;
* `EntryProbe.Profiling.tokens_preamble` – its tokens, with the two literals left open;
* `EntryProbe.Profiling.preamble_no_injection` – both together, for the rendered text, with
  line breaks of either form and any indentation by tabs.
-/

namespace EntryProbe.Profiling

open Go

/-! ### The tree of the block -/

/-- The names in the block are names. -/
theorem isIdentifier_of_mem {name : String}
    (h : name ∈ ["f", "err", "nil", "os", "Create", "Stderr", "WriteString", "Error", "pprof",
      "StartCPUProfile", "StopCPUProfile"]) : IsIdentifier name := by
  have hall : ∀ name ∈ ["f", "err", "nil", "os", "Create", "Stderr", "WriteString", "Error",
      "pprof", "StartCPUProfile", "StopCPUProfile"],
      lexeme name.toList = (.word, name.toList.length) := by decide
  exact hall name h

/-- **The profiling block is well formed**, whatever the path is. The message is a sum without
parentheses, of the form that sums have when they associate to the left. -/
theorem preamble_wellFormed (profile : String) : (preamble profile).WellFormed := by
  simp only [preamble, openProfile, openGuard, openFailure, memberOf, Expr.string,
    Stmt.WellFormed, AreWellFormedStmts, Expr.WellFormed, AreWellFormed]
  simp [isIdentifier_of_mem, BinaryOp.strength]

/-! ### The tokens of the block -/

section

variable (line indent : List Char)

/-- The tokens of the block up to the path of the profile. -/
def preambleStart : List Token :=
  .mark [] "\x7b" .openBrace ::
    (exprsTokens (line ++ (indent ++ ['\t'])) [.ident "f", .ident "err"] ++
      .mark [' '] ":=" .define ::
        ((memberOf "os" "Create").tokens [' '] ++ [.mark [] "(" .openParen]))

/-- The tokens of the block between the path and the message. -/
def preambleMiddle : List Token :=
  .mark [] ")" .closeParen :: .reserved (line ++ (indent ++ ['\t'])) "if" .ifWord ::
    ((Expr.binary (.ident "err") .ne (.ident "nil")).tokens [' '] ++
      .mark [' '] "\x7b" .openBrace ::
        ((Expr.selector (memberOf "os" "Stderr") "WriteString").tokens
          (line ++ (indent ++ ['\t', '\t'])) ++ [.mark [] "(" .openParen]))

/-- The tokens of the block behind the message. -/
def preambleEnd : List Token :=
  .mark [' '] "+" .plus :: ((Expr.call (memberOf "err" "Error") []).tokens [' '] ++
    .mark [' '] "+" .plus :: ((Expr.string "\n").tokens [' '] ++
      .mark [] ")" .closeParen :: (bodyTokens line (indent ++ ['\t']) [.return_ []] ++
        bodyTokens line indent
          [.expr (.call (memberOf "pprof" "StartCPUProfile") [.ident "f"]),
           .defer (memberOf "pprof" "StopCPUProfile") []])))

/-- **The tokens of the block are the same for every path**, but for two literals. -/
theorem tokens_preamble (profile : String) :
    (preamble profile).tokens line indent [] =
      preambleStart line indent ++ .quoted profile.toList ::
        (preambleMiddle line indent ++ .quoted (openMessage profile).toList ::
          preambleEnd line indent) := by
  have hquote : ∀ value, (quote value).toList = Quoted.encode value.toList :=
    fun value => String.toList_ofList
  simp [preamble, openProfile, openGuard, openFailure, memberOf, Expr.string, openMessage,
    Stmt.tokens, bodyTokens, Expr.tokens, exprsTokens, preambleStart, preambleMiddle, preambleEnd,
    Token.quoted, hquote, AssignOp.text, AssignOp.sign, BinaryOp.text, BinaryOp.sign]

end

/-! ### The literals -/

/-- A string literal that stands for a text. -/
def Encodes (token : Token) (value : String) : Prop :=
  token.gap = [] ∧ token.lexeme = .string ∧ unquote? (String.ofList token.text) = some value

theorem encodes_quoted (value : String) : Encodes (.quoted value.toList) value := by
  have hraw : Quoted.inside? '\x60' (Quoted.encode value.toList) = none := by
    simp [Quoted.encode, Quoted.inside?]
  have hinside : Quoted.inside? '"' (Quoted.encode value.toList) =
      some (value.toList.flatMap Quoted.encodeChar) := by
    simp [Quoted.encode, Quoted.inside?]
  have hbytes : String.fromUTF8? (value.toList.flatMap String.utf8EncodeChar).toByteArray =
      some value := by
    have hutf8 : (value.toList.flatMap String.utf8EncodeChar).toByteArray = value.toByteArray :=
      String.utf8Encode_toList
    rw [hutf8, String.fromUTF8?, dif_pos value.isValidUTF8]
    rfl
  refine ⟨rfl, rfl, ?_⟩
  simp [Token.quoted, unquote?, hraw, hinside, Quoted.bytesOf?_flatMap_encodeChar, hbytes]

/-- **The path of the profile cannot become code.** -/
theorem preamble_no_injection (source : List Char) (tabs : Nat) (withReturn : Bool) :
    ∃ start middle finish : List Token, ∀ profile : String, ∃ text : String,
      renderStmt source (String.ofList (List.replicate tabs '\t')) (preamble profile) = some text ∧
      readText? (withBreaks withReturn text.toList) = some (preamble profile) ∧
      ∃ name message : Token,
        scan (withBreaks withReturn text.toList) =
          (start ++ name :: (middle ++ message :: finish), []) ∧
        Encodes name profile ∧ Encodes message (openMessage profile) := by
  have hindent : (String.ofList (List.replicate tabs '\t')).toList = List.replicate tabs '\t' :=
    String.toList_ofList
  have hspace : (String.ofList (List.replicate tabs '\t')).toList.all isSpace = true := by
    rw [hindent]
    simp [isSpace]
  have hline : '\n' ∉ (String.ofList (List.replicate tabs '\t')).toList := by
    rw [hindent]
    simp [List.mem_replicate]
  refine ⟨preambleStart (lineBreak withReturn) (List.replicate tabs '\t'),
    preambleMiddle (lineBreak withReturn) (List.replicate tabs '\t'),
    preambleEnd (lineBreak withReturn) (List.replicate tabs '\t'), fun profile => ?_⟩
  obtain ⟨text, htext, hscan, hread⟩ := readText?_render (preamble profile)
    (preamble_wellFormed profile) source withReturn hspace hline
  rw [hindent, tokens_preamble] at hscan
  exact ⟨text, htext, hread, _, _, hscan, encodes_quoted profile, encodes_quoted _⟩

end EntryProbe.Profiling
