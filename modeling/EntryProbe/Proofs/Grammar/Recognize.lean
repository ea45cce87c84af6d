import EntryProbe.Proofs.Grammar.Statements

/-!
# Recognizing on two sides

The rules for types, expressions and statements are put together: any phrase is recognized
in the same way on tokens that are alike (`EntryProbe.Go.Simulation.recognize`). The
induction is on the depth that a phrase needs (`EntryProbe.Go.Phrase.need`), on both sides
at once, since the two sequences of tokens may differ in length.
-/

namespace EntryProbe.Go

variable {A : Nat → List Token → List Token → Prop}

/-- **Each rule of the grammar goes together with itself** if the phrases it asks for
do. -/
theorem Setting.rule {rules rules' : Rules} {start start' : List Token} {k : Nat} {α : Type}
    (phrase : Phrase α) (h : Setting A rules rules' start start' phrase.rank) :
    Together (At A start start' (k + phrase.inside + 1) false) (rule rules α phrase)
      (rule rules' α phrase)
      fun _ => At A start start' (k + phrase.inside + 1 - phrase.closes) phrase.moves := by
  cases phrase with
  | type lineEnds => exact h.type lineEnds
  | element lineEnds => exact h.element lineEnds
  | typeArguments => exact h.typeArguments
  | typeParameters => exact h.typeParameters
  | parameters => exact h.parameters
  | moreParameters run names => exact h.moreParameters run names
  | parameter => exact h.parameter
  | arrayOrArguments lineEnds => exact h.arrayOrArguments lineEnds
  | result lineEnds => exact h.result lineEnds
  | fields => exact h.fields
  | methods => exact h.methods
  | term context => exact h.term context
  | termTail context left => exact h.termTail context left
  | unary context => exact h.unary context
  | suffixes context operand => exact h.suffixes context operand
  | expression context => exact h.expression context
  | expressions context => exact h.expressions context
  | bracketed => exact h.bracketed
  | moreElements types => exact h.moreElements types
  | arguments => exact h.arguments
  | moreArguments => exact h.moreArguments
  | literal => exact h.literal
  | literalElement => exact h.literalElement
  | block => exact h.block
  | statements => exact h.statements
  | listStatement => exact h.listStatement
  | statement => exact h.statement
  | simple place => exact h.simple place
  | conditional => exact h.conditional
  | valueCases => exact h.valueCases
  | typeCases => exact h.typeCases
  | caseTypes => exact h.caseTypes
  | communications => exact h.communications
  | names lineEnds => exact h.names lineEnds
  | constantSpec => exact h.constantSpec
  | variableSpec => exact h.variableSpec
  | typeSpec => exact h.typeSpec
  | constantGroup => exact h.constantGroup
  | variableGroup => exact h.variableGroup
  | typeGroup => exact h.typeGroup

/-! ### How deep to go -/

/-- One if the first token is a mark that may be halved: then a phrase may start at the
same place once more. -/
def halvings : List Token → Nat
  | [] => 0
  | token :: _ =>
    match token.lexeme with
    | .mark mark => if (Grammar.halves? mark).isSome then 1 else 0
    | _ => 0

/-- The depth that is enough for a phrase at the start of a sequence of tokens. -/
def Phrase.need {α : Type} (phrase : Phrase α) (tokens : List Token) : Nat :=
  phrasesPerToken * tokens.length + phrase.rank + halvings tokens

theorem halvings_le (tokens : List Token) : halvings tokens ≤ 1 := by
  unfold halvings
  grind

theorem halvings_half {mark first second : Mark}
    (h : Grammar.halves? mark = some (first, second)) (token : Token) (rest : List Token) :
    halvings (halfOf token second :: rest) = 0 := by
  have hsecond : Grammar.halves? second = none := by
    cases mark <;> cases h <;> rfl
  simp [halvings, halfOf, hsecond]

theorem halvings_whole {mark first second : Mark}
    (h : Grammar.halves? mark = some (first, second)) {token : Token}
    (hmark : token.lexeme = .mark mark) (rest : List Token) :
    halvings (token :: rest) = 1 := by
  simp [halvings, hmark, h]

namespace Phrase

variable {α β : Type}

theorem need_lt_of_rank_lt {phrase : Phrase α} {outer : Phrase β}
    (h : phrase.rank.blt outer.rank = true) (tokens : List Token) :
    phrase.need tokens < outer.need tokens := by
  have hlt : phrase.rank < outer.rank := Nat.le_of_ble_eq_true h
  simp only [need]
  omega

theorem need_lt_of_length_lt (phrase : Phrase α) (outer : Phrase β) {tokens tokens' : List Token}
    (h : tokens'.length < tokens.length) : phrase.need tokens' < outer.need tokens := by
  have hrank := phrase.rank_le
  have hpos := outer.rank_pos
  have hhalf := halvings_le tokens'
  simp only [need, phrasesPerToken]
  omega

/-- A phrase that halves a mark asks for an operand at the same place, but not twice. -/
theorem need_half_lt {outer : Phrase β} (context : Context) (hrank : 2 ≤ outer.rank)
    {token : Token} {mark first second : Mark}
    (hhalves : Grammar.halves? mark = some (first, second)) (hmark : token.lexeme = .mark mark)
    (rest : List Token) :
    (Phrase.unary context).need (halfOf token second :: rest) < outer.need (token :: rest) := by
  have hunary : (Phrase.unary context).rank = 2 := rfl
  simp only [need, halvings_whole hhalves hmark, halvings_half hhalves, List.length_cons, hunary]
  omega

/-- The depth to which a phrase is recognized is enough. -/
theorem need_le (phrase : Phrase α) (tokens : List Token) :
    phrase.need tokens ≤ phrasesPerToken * (tokens.length + 1) := by
  have hrank := phrase.rank_le
  have hhalf := halvings_le tokens
  simp only [need, phrasesPerToken]
  omega

end Phrase

/-! ### Recognizing -/

theorem recognizeWithin_parameters_word (depth : Nat) {tokens : List Token}
    (h : tokens.head?.map Token.lexeme = some .word) :
    ∃ e, recognizeWithin depth _ .parameters tokens = .error e := by
  cases depth with
  | zero => exact ⟨_, rfl⟩
  | succ depth =>
    refine ⟨⟨tokens, false⟩, ?_⟩
    change Grammar.parameters _ tokens = _
    rw [Grammar.parameters, bind_run, expect_run, h]
    rfl

/-- **Phrases are recognized together** to any depths that are enough. -/
theorem Simulation.recognizeWithin (h : Simulation A) {depth depth' : Nat} {α : Type}
    (phrase : Phrase α) {k : Nat} {s s' : List Token} (hneed : phrase.need s ≤ depth)
    (hneed' : phrase.need s' ≤ depth') (halike : A (k + phrase.inside + 1) s s') :
    Agree (fun _ => At A s s' (k + phrase.inside + 1 - phrase.closes) phrase.moves)
      (recognizeWithin depth α phrase s) (recognizeWithin depth' α phrase s') := by
  have hpos := phrase.rank_pos
  induction depth generalizing α phrase k s s' depth' with
  | zero =>
    simp only [Phrase.need] at hneed
    omega
  | succ depth ih =>
    cases depth' with
    | zero =>
      simp only [Phrase.need] at hneed'
      omega
    | succ depth' =>
      have hsetting : Setting A (Go.recognizeWithin depth) (Go.recognizeWithin depth') s s'
          phrase.rank := by
        refine { h with first := ?_, later := ?_, halved := ?_, refuses := ?_, refuses' := ?_ }
        · intro β inner k hrank halike
          have hlt := Phrase.need_lt_of_rank_lt hrank s
          have hlt' := Phrase.need_lt_of_rank_lt hrank s'
          exact ih inner (by omega) (by omega) halike inner.rank_pos
        · intro β inner k t t' hlength hlength' halike
          have hlt := inner.need_lt_of_length_lt phrase hlength
          have hlt' := inner.need_lt_of_length_lt phrase hlength'
          exact ih inner (by omega) (by omega) halike inner.rank_pos
        · intro context k token t t' mark first second hrank hs hs' hmark hhalves hhalf
          subst hs hs'
          have hrank : 2 ≤ phrase.rank := Nat.le_of_ble_eq_true hrank
          have hlt := Phrase.need_half_lt context hrank hhalves hmark t
          have hlt' := Phrase.need_half_lt context hrank hhalves hmark t'
          exact ih (.unary context) (by omega) (by omega) hhalf (Phrase.rank_pos _)
        · exact fun hword => recognizeWithin_parameters_word depth hword
        · exact fun hword => recognizeWithin_parameters_word depth' hword
      exact hsetting.rule phrase s s' ⟨halike, Taken.refl s s'⟩

/-- **Phrases are recognized together.** -/
theorem Simulation.recognize (h : Simulation A) {α : Type} (phrase : Phrase α) {k : Nat}
    {s s' : List Token} (halike : A (k + phrase.inside + 1) s s') :
    Agree (fun _ => At A s s' (k + phrase.inside + 1 - phrase.closes) phrase.moves)
      (recognize phrase s) (recognize phrase s') :=
  h.recognizeWithin phrase (phrase.need_le s) (phrase.need_le s') halike

end EntryProbe.Go
