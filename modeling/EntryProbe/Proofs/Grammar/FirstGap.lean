import EntryProbe.Proofs.Grammar.Together

/-!
# The gap in front of a statement

A line break in front of a token may end what stands before it. It says nothing about
what the token starts: a statement is read in the same way whatever gap is in front of
its first token (`EntryProbe.Go.recognize_regap`).
-/

namespace EntryProbe.Go

open Reader

/-- Tokens with another gap in front of the first one. -/
def regap (gap : List Char) : List Token → List Token
  | [] => []
  | token :: rest => { token with gap } :: rest

@[simp] theorem regap_nil (gap : List Char) : regap gap [] = [] := rfl

@[simp] theorem regap_cons (gap : List Char) (token : Token) (rest : List Token) :
    regap gap (token :: rest) = { token with gap } :: rest := rfl

@[simp] theorem length_regap (gap : List Char) (tokens : List Token) :
    (regap gap tokens).length = tokens.length := by
  cases tokens <;> rfl

@[simp] theorem tail_regap (gap : List Char) (tokens : List Token) :
    (regap gap tokens).tail = tokens.tail := by
  cases tokens <;> rfl

@[simp] theorem lexeme_regap (gap : List Char) (tokens : List Token) :
    (regap gap tokens).head?.map Token.lexeme = tokens.head?.map Token.lexeme := by
  cases tokens <;> rfl

/-- The second tokens are the first ones with another gap in front of them. -/
def Regapped (s s' : List Token) : Prop :=
  ∃ gap, s' = regap gap s

/-- A reader that does not look at the gap in front of the first token. -/
def IgnoresGap {α : Type} (r : Reader α) : Prop :=
  Together Regapped r r fun _ => Eq

/-- The phrases that a statement may start with. -/
def Phrase.opens : {α : Type} → Phrase α → Bool
  | _, .listStatement | _, .statement | _, .simple _ | _, .expression _ | _, .term _
  | _, .unary _ | _, .type _ | _, .block => true
  | _, _ => false

section

variable {α β : Type}

/-- After the first token both readings are at the same place. -/
theorem together_eq (r : Reader α) : Together Eq r r fun _ => Eq := by
  rintro s - rfl
  rcases h : r s with e | ⟨a, rest⟩
  · trivial
  · exact ⟨rfl, rfl⟩

theorem IgnoresGap.bind {r : Reader α} (h : IgnoresGap r) (f : α → Reader β) :
    IgnoresGap (r >>= f) :=
  Together.bind h fun a => together_eq (f a)

theorem ignoresGap_next {f : Option Lexeme → Reader α} (h : ∀ next, IgnoresGap (f next)) :
    IgnoresGap (next? >>= f) := by
  rintro s _ ⟨gap, rfl⟩
  change Agree _ (f _ s) (f _ (regap gap s))
  rw [lexeme_regap]
  exact h _ s _ ⟨gap, rfl⟩

theorem ignoresGap_skip : IgnoresGap skip := by
  rintro s _ ⟨gap, rfl⟩
  exact ⟨rfl, (tail_regap gap s).symm⟩

theorem ignoresGap_halt : IgnoresGap (halt : Reader α) :=
  together_halt

theorem ignoresGap_expect (lexeme : Lexeme) : IgnoresGap (expect lexeme) := by
  rintro s _ ⟨gap, rfl⟩
  rw [expect_run, expect_run, lexeme_regap, tail_regap]
  split
  · exact ⟨rfl, rfl⟩
  · trivial

theorem ignoresGap_keepHalf (mark : Mark) : IgnoresGap (Grammar.keepHalf mark) := by
  rintro s _ ⟨gap, rfl⟩
  cases s with
  | nil => exact ⟨rfl, rfl⟩
  | cons token s => exact ⟨rfl, rfl⟩

end

/-! ### Rules -/

theorem ignoresGap_type (rules : Rules) (lineEnds : Bool) :
    IgnoresGap (Grammar.type rules lineEnds) := by
  unfold Grammar.type
  refine ignoresGap_next fun next => ?_
  split
  all_goals first | exact ignoresGap_skip.bind _ | exact ignoresGap_halt

theorem ignoresGap_block (rules : Rules) : IgnoresGap (Grammar.block rules) :=
  (ignoresGap_expect _).bind _

section

variable {rules : Rules}

/-- The rules refer to phrases that do not look at the gap. -/
def OpenWithoutGap (rules : Rules) : Prop :=
  ∀ (α : Type) (phrase : Phrase α), phrase.opens = true → IgnoresGap (rules α phrase)

theorem ignoresGap_operand (h : OpenWithoutGap rules) (context : Context) :
    IgnoresGap (Grammar.operand rules context) := by
  unfold Grammar.operand
  refine together_ahead ?_
  rintro s _ ⟨gap, rfl⟩
  cases s with
  | nil => trivial
  | cons token s =>
    -- what is done depends on the kind of the token and, for a word, on its text
    have hword : Grammar.wordOperand rules context { token with gap } =
        Grammar.wordOperand rules context token := rfl
    simp only [regap_cons, hword]
    refine (?_ : Together Regapped _ _ _) (token :: s) ({ token with gap } :: s) ⟨gap, rfl⟩
    generalize token.lexeme = lexeme
    have htype := fun reading : Reading => (h _ (.type false) rfl).bind fun _ => pure reading
    split
    · exact ignoresGap_skip.bind _
    · exact ignoresGap_skip.bind _
    · exact ignoresGap_skip.bind _
    · exact ignoresGap_skip.bind _
    · exact ignoresGap_skip.bind _
    · exact ignoresGap_skip.bind _
    · exact htype _
    · exact htype _
    · exact htype _
    · exact htype _
    · exact htype _
    · exact ignoresGap_skip.bind _
    · exact together_lacksOperand context

theorem ignoresGap_doubleOperator (rules : Rules) (context : Context) :
    IgnoresGap (Grammar.doubleOperator rules context) := by
  unfold Grammar.doubleOperator
  refine ignoresGap_next fun next => ?_
  split
  · split
    · exact (ignoresGap_keepHalf _).bind _
    · exact ignoresGap_halt
  · exact ignoresGap_halt

theorem ignoresGap_unary (h : OpenWithoutGap rules) (context : Context) :
    IgnoresGap (Grammar.unary rules context) := by
  unfold Grammar.unary
  refine ignoresGap_next fun next => ?_
  split
  · exact ignoresGap_skip.bind _
  · exact ignoresGap_skip.bind _
  · exact ignoresGap_skip.bind _
  · exact ignoresGap_skip.bind _
  · exact ignoresGap_skip.bind _
  · exact ignoresGap_doubleOperator rules context
  · exact ignoresGap_doubleOperator rules context
  · exact ignoresGap_doubleOperator rules context
  · exact ignoresGap_doubleOperator rules context
  · exact ignoresGap_skip.bind _
  · exact ignoresGap_skip.bind _
  · exact (ignoresGap_operand h context).bind _

theorem ignoresGap_declaration (rules : Rules) (spec group : Phrase Unit) :
    IgnoresGap (Grammar.declaration rules spec group) :=
  ignoresGap_skip.bind _

theorem startsWithLabel_regap (gap : List Char) (tokens : List Token) :
    Grammar.startsWithLabel (regap gap tokens) = Grammar.startsWithLabel tokens := by
  rcases tokens with _ | ⟨first, _ | ⟨second, rest⟩⟩
  · rfl
  · rfl
  · rfl

theorem startsWithLastLabel_regap (gap : List Char) (tokens : List Token) :
    Grammar.startsWithLastLabel (regap gap tokens) = Grammar.startsWithLastLabel tokens := by
  unfold Grammar.startsWithLastLabel
  rw [startsWithLabel_regap]
  cases tokens with
  | nil => rfl
  | cons token rest => rfl

theorem ignoresGap_statement (h : OpenWithoutGap rules) :
    IgnoresGap (Grammar.statement rules) := by
  unfold Grammar.statement
  refine together_ahead ?_
  rintro s _ ⟨gap, rfl⟩
  cases s with
  | nil => trivial
  | cons token s =>
    have hlabel := startsWithLabel_regap gap (token :: s)
    simp only [regap_cons] at hlabel ⊢
    rw [hlabel]
    refine (?_ : Together Regapped _ _ _) (token :: s) ({ token with gap } :: s) ⟨gap, rfl⟩
    generalize Grammar.startsWithLabel (token :: s) = isLabeled
    generalize token.lexeme = lexeme
    split
    · exact (h _ .block rfl).bind _
    · exact ignoresGap_skip.bind _
    · exact (ignoresGap_declaration rules _ _).bind _
    · exact (ignoresGap_declaration rules _ _).bind _
    · exact (ignoresGap_declaration rules _ _).bind _
    iterate 11 exact ignoresGap_skip.bind _
    · split
      · exact (ignoresGap_expect _).bind _
      split
      · exact (h _ (.simple .body) rfl).bind _
      · exact ignoresGap_halt

theorem ignoresGap_listStatement (h : OpenWithoutGap rules) :
    IgnoresGap (Grammar.listStatement rules) := by
  unfold Grammar.listStatement
  refine together_ahead ?_
  rintro s _ ⟨gap, rfl⟩
  rw [startsWithLastLabel_regap]
  refine (?_ : Together Regapped _ _ _) s (regap gap s) ⟨gap, rfl⟩
  split
  · exact (ignoresGap_expect _).bind _
  · exact h _ .statement rfl

end

/-! ### Recognizing -/

theorem openWithoutGap_recognizeWithin (depth : Nat) :
    OpenWithoutGap (recognizeWithin depth) := by
  induction depth with
  | zero => exact fun _ _ _ => ignoresGap_halt
  | succ depth ih =>
    intro α phrase hopens
    cases phrase with
    | type lineEnds => exact ignoresGap_type _ lineEnds
    | block => exact ignoresGap_block _
    | unary context => exact ignoresGap_unary ih context
    | term context => exact (ih _ (.unary context) rfl).bind _
    | expression context => exact (ih _ (.term context) rfl).bind _
    | simple place => exact (ih _ (.expression place.first) rfl).bind _
    | statement => exact ignoresGap_statement ih
    | listStatement => exact ignoresGap_listStatement ih
    | _ => cases hopens

/-- **A statement is read in the same way whatever gap is in front of it.** -/
theorem recognize_regap {α : Type} {phrase : Phrase α} (hopens : phrase.opens = true)
    {tokens rest : List Token} {answer : α} (h : recognize phrase tokens = .ok (answer, rest))
    (gap : List Char) : recognize phrase (regap gap tokens) = .ok (answer, rest) := by
  have hagree := openWithoutGap_recognizeWithin (phrasesPerToken * (tokens.length + 1)) _ phrase
    hopens tokens (regap gap tokens) ⟨gap, rfl⟩
  change Agree _ (recognize phrase tokens) _ at hagree
  rw [h] at hagree
  rw [recognize, length_regap]
  rcases hread : recognizeWithin (phrasesPerToken * (tokens.length + 1)) α phrase
    (regap gap tokens) with e | ⟨answer', rest'⟩
  · rw [hread] at hagree
    exact hagree.elim
  · rw [hread] at hagree
    obtain ⟨rfl, rfl⟩ := hagree
    rfl

end EntryProbe.Go
