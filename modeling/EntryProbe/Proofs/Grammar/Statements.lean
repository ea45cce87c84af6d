import EntryProbe.Proofs.Grammar.Expressions

/-!
# The grammar of statements, on two sides

Each rule of the grammar of statements does the same on tokens that are alike, if the
phrases it asks for do (`EntryProbe.Go.Setting`). The lemmas follow the rules one by one.
-/

namespace EntryProbe.Go

namespace Setting

variable {A : Nat → List Token → List Token → Prop} {rules rules' : Rules}
  {start start' : List Token} {rank k : Nat} {m : Bool}

/-! ### Declarations -/

theorem constantSpec (h : Setting A rules rules' start start' 2) :
    Together (At A start start' (k + 1) false) (Grammar.constantSpec rules)
      (Grammar.constantSpec rules') fun _ => At A start start' (k + 1) true := by
  unfold Grammar.constantSpec
  refine (h.begin rfl rfl rfl rfl).bind fun _ => ?_
  refine h.atLineStart.bind fun starts => ?_
  cases starts with
  | true => exact together_return _
  | false =>
    refine h.accepts rfl rfl ?_ ?_
    · exact (h.call rfl rfl).bind fun _ => together_return _
    refine h.next fun next => Together.forget ?_
    split
    · refine (h.call rfl rfl).bind fun _ => ?_
      refine (h.expect rfl rfl).bind fun _ => ?_
      exact (h.call rfl rfl).bind fun _ => together_return _
    · exact together_return _

theorem variableSpec (h : Setting A rules rules' start start' 2) :
    Together (At A start start' (k + 1) false) (Grammar.variableSpec rules)
      (Grammar.variableSpec rules') fun _ => At A start start' (k + 1) true := by
  unfold Grammar.variableSpec
  refine (h.begin rfl rfl rfl rfl).bind fun _ => ?_
  refine h.accepts rfl rfl ?_ ?_
  · exact (h.call rfl rfl).bind fun _ => together_return _
  refine (h.call rfl rfl).bind fun _ => ?_
  refine h.atLineStart.bind fun starts => ?_
  cases starts with
  | true => exact together_return _
  | false =>
    refine h.accepts rfl rfl ?_ ?_
    · exact (h.call rfl rfl).bind fun _ => together_return _
    · exact together_return _

theorem typeOrAlias (h : Setting A rules rules' start start' rank) :
    Together (At A start start' (k + 1) true) (Grammar.typeOrAlias rules)
      (Grammar.typeOrAlias rules') fun _ => At A start start' (k + 1) true := by
  unfold Grammar.typeOrAlias
  exact h.accepts rfl rfl (h.call rfl rfl) (h.call rfl rfl)

theorem genericType (h : Setting A rules rules' start start' rank) :
    Together (At A start start' (k + 1) true) (Grammar.genericType rules)
      (Grammar.genericType rules') fun _ => At A start start' (k + 1) true := by
  unfold Grammar.genericType
  refine (h.expect rfl rfl).bind fun _ => ?_
  refine together_ahead fun s s' hat => ?_
  rw [h.head_eq hat]
  refine (?_ : Together (At A start start' (k + 2) true) _ _ _) s s' hat
  refine (together_require _).bind fun _ => ?_
  refine (h.callClosing rfl rfl).bind fun _ => ?_
  exact h.typeOrAlias

theorem startsArrowConstraint_eq_any (tokens : List Token) :
    Grammar.startsArrowConstraint tokens =
      (thirdBehind (.mark .openBracket) .word tokens).any (·.lexeme == .mark .arrow) := by
  rcases tokens with _ | ⟨one, _ | ⟨two, _ | ⟨three, rest⟩⟩⟩ <;>
    grind [Grammar.startsArrowConstraint, thirdBehind]

theorem startsArrowConstraint_eq (h : Simulation A) {s s' : List Token}
    (halike : A (k + 1) s s') :
    Grammar.startsArrowConstraint s = Grammar.startsArrowConstraint s' := by
  rw [startsArrowConstraint_eq_any, startsArrowConstraint_eq_any,
    h.thirdBehind_eq halike rfl rfl rfl rfl]

theorem typeSpec (h : Setting A rules rules' start start' 1) :
    Together (At A start start' (k + 1) false) (Grammar.typeSpec rules)
      (Grammar.typeSpec rules') fun _ => At A start start' (k + 1) true := by
  unfold Grammar.typeSpec
  refine (h.expect rfl rfl).bind fun _ => ?_
  refine (h.sees _).bind fun opens => ?_
  cases opens with
  | true =>
    refine together_ahead fun s s' hat => ?_
    rw [startsArrowConstraint_eq h.toSimulation hat.alike]
    generalize Grammar.startsArrowConstraint s' = arrow
    refine (?_ : Together (At A start start' (k + 1) true) _ _ _) s s' hat
    cases arrow with
    | true => exact h.genericType
    | false => exact h.genericType.orElse (h.call rfl rfl)
  | false => exact h.typeOrAlias

/-- The specifications of a group. What is read behind the last one, without a terminator, is
`last`. -/
theorem groupSpecs (h : Setting A rules rules' start start' rank) {spec group : Phrase Unit}
    {last : Reader Unit} (hrank : spec.rank.blt rank = true)
    (hspec : spec.closes = 0 ∧ spec.inside = 0 ∧ spec.moves = true)
    (hgroup : group.closes = 0 ∧ group.inside = 0)
    (hlast : Together (At A start start' (k + 1) true) last last
      fun _ => At A start start' (k + 1) true) :
    Together (At A start start' (k + 1) false)
      (do if !(← Reader.accepts (.mark .closeParen)) then
            rules _ spec
            if ← Reader.terminator then rules _ group else last)
      (do if !(← Reader.accepts (.mark .closeParen)) then
            rules' _ spec
            if ← Reader.terminator then rules' _ group else last)
      fun _ => At A start start' (k + 1) true := by
  refine h.accepts rfl rfl ?_ ?_
  · exact together_return _
  refine (h.begin hrank hspec.1 hspec.2.1 hspec.2.2).bind fun _ => ?_
  refine h.terminator.bind fun ends => ?_
  cases ends with
  | true => exact h.call hgroup.1 hgroup.2
  | false => exact hlast

theorem constantGroup (h : Setting A rules rules' start start' 3) :
    Together (At A start start' (k + 1) false) (Grammar.constantGroup rules)
      (Grammar.constantGroup rules') fun _ => At A start start' (k + 1) true :=
  h.groupSpecs rfl ⟨rfl, rfl, rfl⟩ ⟨rfl, rfl⟩ together_halt

theorem variableGroup (h : Setting A rules rules' start start' 3) :
    Together (At A start start' (k + 1) false) (Grammar.variableGroup rules)
      (Grammar.variableGroup rules') fun _ => At A start start' (k + 1) true :=
  h.groupSpecs rfl ⟨rfl, rfl, rfl⟩ ⟨rfl, rfl⟩ together_halt

theorem typeGroup (h : Setting A rules rules' start start' 2) :
    Together (At A start start' (k + 1) false) (Grammar.typeGroup rules)
      (Grammar.typeGroup rules') fun _ => At A start start' (k + 1) true :=
  h.groupSpecs rfl ⟨rfl, rfl, rfl⟩ ⟨rfl, rfl⟩ (h.expect rfl rfl)

/-- A declaration after its first word, which is neither `func` nor a bracket. -/
theorem declaration (h : Setting A rules rules' start start' rank) {lexeme : Lexeme}
    {spec group : Phrase Unit} (hfunc : (lexeme == .keyword .funcWord) = false)
    (hstray : (lexeme == .stray) = false) (hbrackets : bracketsAfter lexeme (k + 1) = k + 1)
    (hspec : spec.closes = 0 ∧ spec.inside = 0) (hgroup : group.closes = 0 ∧ group.inside = 0) :
    Together (AtNext A start start' (k + 1) m (some lexeme))
      (Grammar.declaration rules spec group) (Grammar.declaration rules' spec group)
      fun _ => At A start start' (k + 1) true := by
  unfold Grammar.declaration
  refine (h.skip hfunc hstray).bind fun _ => ?_
  rw [hbrackets]
  exact h.accepts rfl rfl (h.call hgroup.1 hgroup.2) (h.call hspec.1 hspec.2)

/-! ### Simple statements -/

theorem acceptsGuard (h : Setting A rules rules' start start' rank) :
    Together (At A start start' (k + 1) true) Grammar.acceptsGuard Grammar.acceptsGuard
      fun _ => At A start start' (k + 1) true := by
  unfold Grammar.acceptsGuard
  refine h.seesGuard.bind fun guard => ?_
  cases guard with
  | true =>
    refine (h.expect rfl rfl).bind fun _ => ?_
    refine (h.expect rfl rfl).bind fun _ => ?_
    refine (h.expect rfl rfl).bind fun _ => ?_
    exact (h.expect rfl rfl).bind fun _ => together_return _
  | false => exact together_return _

theorem acceptsRange (h : Setting A rules rules' start start' rank) (place : Place) :
    Together (At A start start' (k + 1) true) (Grammar.acceptsRange rules place)
      (Grammar.acceptsRange rules' place) fun _ => At A start start' (k + 1) true := by
  unfold Grammar.acceptsRange
  split
  · refine h.accepts rfl rfl ?_ ?_
    · exact (h.call rfl rfl).bind fun _ => together_return _
    · exact together_return _
  · exact together_return _

theorem rightSide (h : Setting A rules rules' start start' rank) (place : Place)
    (kind : StatementKind) :
    Together (At A start start' (k + 1) true) (Grammar.rightSide rules place kind)
      (Grammar.rightSide rules' place kind) fun _ => At A start start' (k + 1) true := by
  unfold Grammar.rightSide
  refine (h.acceptsRange place).bind fun range => ?_
  cases range with
  | true => exact together_return _
  | false =>
    refine (h.call rfl rfl).bind fun count => ?_
    split
    · exact h.acceptsGuard.bind fun _ => together_return _
    · exact together_return _

theorem assignment (h : Setting A rules rules' start start' rank) (place : Place) :
    Together (At A start start' (k + 1) true) (Grammar.assignment rules place)
      (Grammar.assignment rules' place) fun _ => At A start start' (k + 1) true := by
  unfold Grammar.assignment
  refine h.next fun next => ?_
  split
  · exact (h.skip rfl rfl).bind fun _ => h.rightSide place .assignment
  · exact (h.skip rfl rfl).bind fun _ => h.rightSide place .definition
  · refine (h.skip rfl rfl).bind fun _ => ?_
    exact (h.call rfl rfl).bind fun _ => together_return _
  · exact together_halt

theorem simple (h : Setting A rules rules' start start' 5) (place : Place) :
    Together (At A start start' (k + 1) false) (Grammar.simple rules place)
      (Grammar.simple rules' place) fun _ => At A start start' (k + 1) true := by
  unfold Grammar.simple
  refine (h.begin rfl rfl rfl rfl).bind fun _ => ?_
  refine (h.endsLine _).bind fun ends => ?_
  cases ends with
  | true => exact together_return _
  | false =>
    refine h.next fun next => ?_
    split
    · refine (h.skip rfl rfl).bind fun _ => ?_
      exact (h.call rfl rfl).bind fun _ => h.assignment place
    · exact (h.assignment place).forget
    · exact (h.assignment place).forget
    · exact (h.assignment place).forget
    · refine (h.skip rfl rfl).bind fun _ => ?_
      exact (h.call rfl rfl).bind fun _ => together_return _
    · exact (h.skip rfl rfl).bind fun _ => together_return _
    · exact (h.skip rfl rfl).bind fun _ => together_return _
    · refine Together.forget ?_
      split
      · exact h.acceptsGuard.bind fun _ => together_return _
      · exact together_return _
    · exact (together_return _).forget

/-! ### Compound statements -/

theorem block (h : Setting A rules rules' start start' 1) :
    Together (At A start start' (k + 1) false) (Grammar.block rules)
      (Grammar.block rules') fun _ => At A start start' (k + 1) true := by
  unfold Grammar.block
  refine (h.expect rfl rfl).bind fun _ => ?_
  refine (h.call rfl rfl).bind fun _ => ?_
  exact h.expect rfl rfl

theorem conditionalHeader (h : Setting A rules rules' start start' 6) :
    Together (At A start start' (k + 1) false) (Grammar.conditionalHeader rules)
      (Grammar.conditionalHeader rules') fun _ => At A start start' (k + 1) true := by
  unfold Grammar.conditionalHeader
  refine (h.begin rfl rfl rfl rfl).bind fun form => ?_
  exact h.accepts rfl rfl (h.call rfl rfl) (together_require _)

theorem alternative (h : Setting A rules rules' start start' rank) :
    Together (At A start start' (k + 1) true) (Grammar.alternative rules)
      (Grammar.alternative rules') fun _ => At A start start' (k + 1) true := by
  unfold Grammar.alternative
  refine h.atLineStart.bind fun starts => ?_
  cases starts with
  | true => exact together_return _
  | false =>
    refine h.accepts rfl rfl ?_ ?_
    · exact h.accepts rfl rfl (h.call rfl rfl) (h.call rfl rfl)
    · exact together_return _

theorem conditional (h : Setting A rules rules' start start' 6) :
    Together (At A start start' (k + 1) false) (Grammar.conditional rules)
      (Grammar.conditional rules') fun _ => At A start start' (k + 1) true := by
  unfold Grammar.conditional
  refine h.conditionalHeader.bind fun _ => ?_
  exact (h.call rfl rfl).bind fun _ => h.alternative

theorem loopCondition (h : Setting A rules rules' start start' rank) :
    Together (At A start start' (k + 1) true) (Grammar.loopCondition rules)
      (Grammar.loopCondition rules') fun _ => At A start start' (k + 1) true := by
  unfold Grammar.loopCondition
  refine h.accepts rfl rfl ?_ ?_
  · exact together_return _
  · exact (h.call rfl rfl).bind fun _ => h.expect rfl rfl

theorem loopClause (h : Setting A rules rules' start start' rank) :
    Together (At A start start' (k + 1) true) (Grammar.loopClause rules)
      (Grammar.loopClause rules') fun _ => At A start start' (k + 1) true := by
  unfold Grammar.loopClause
  refine h.loopCondition.bind fun _ => ?_
  refine (h.sees _).bind fun opens => ?_
  cases opens with
  | true => exact together_return _
  | false =>
    refine (h.call rfl rfl).bind fun form => ?_
    split
    · exact together_return _
    · exact together_halt

theorem loopHeader (h : Setting A rules rules' start start' rank) :
    Together (At A start start' (k + 1) true) (Grammar.loopHeader rules)
      (Grammar.loopHeader rules') fun _ => At A start start' (k + 1) true := by
  unfold Grammar.loopHeader
  refine h.next fun next => ?_
  split
  · exact (together_return _).forget
  · exact (h.skip rfl rfl).bind fun _ => h.loopClause
  · exact (h.skip rfl rfl).bind fun _ => h.call rfl rfl
  · refine Together.forget ?_
    refine (h.call rfl rfl).bind fun form => ?_
    split
    · exact together_return _
    · exact h.accepts rfl rfl h.loopClause (together_require _)
    · exact together_halt

theorem loop (h : Setting A rules rules' start start' rank) :
    Together (At A start start' (k + 1) true) (Grammar.loop rules)
      (Grammar.loop rules') fun _ => At A start start' (k + 1) true := by
  unfold Grammar.loop
  exact h.loopHeader.bind fun _ => h.call rfl rfl

theorem switchGuard (h : Setting A rules rules' start start' rank) :
    Together (At A start start' (k + 1) true) (Grammar.switchSubject.guard rules)
      (Grammar.switchSubject.guard rules') fun _ => At A start start' (k + 1) true := by
  unfold Grammar.switchSubject.guard
  refine (h.expect rfl rfl).bind fun _ => ?_
  refine (h.call rfl rfl).bind fun _ => ?_
  refine h.acceptsGuard.bind fun guard => ?_
  cases guard with
  | true => exact together_return _
  | false => exact together_halt

theorem switchSubject (h : Setting A rules rules' start start' rank) :
    Together (At A start start' (k + 1) true) (Grammar.switchSubject rules)
      (Grammar.switchSubject rules') fun _ => At A start start' (k + 1) true := by
  unfold Grammar.switchSubject
  refine (h.sees _).bind fun opens => ?_
  cases opens with
  | true => exact together_return _
  | false =>
    refine (h.call rfl rfl).bind fun _ => ?_
    refine h.next fun next => ?_
    split
    · refine (h.skip rfl rfl).bind fun _ => ?_
      exact (h.call rfl rfl).bind fun _ => h.switchGuard
    · exact h.switchGuard.forget
    · refine (h.acceptsGuard.bind fun guard => ?_).forget
      cases guard with
      | true => exact together_return _
      | false => exact together_halt
    · exact (together_return _).forget

theorem switchHeader (h : Setting A rules rules' start start' rank) :
    Together (At A start start' (k + 1) true) (Grammar.switchHeader rules)
      (Grammar.switchHeader rules') fun _ => At A start start' (k + 1) true := by
  unfold Grammar.switchHeader
  refine (h.sees _).bind fun opens => ?_
  cases opens with
  | true => exact together_return _
  | false =>
    refine (h.call rfl rfl).bind fun form => ?_
    split
    · exact together_return _
    · exact together_halt
    · refine h.accepts rfl rfl h.switchSubject ?_
      exact (together_require _).bind fun _ => together_return _

theorem switch (h : Setting A rules rules' start start' rank) :
    Together (At A start start' (k + 1) true) (Grammar.switch rules)
      (Grammar.switch rules') fun _ => At A start start' (k + 1) true := by
  unfold Grammar.switch
  refine h.switchHeader.bind fun isGuard => ?_
  refine (h.expect rfl rfl).bind fun _ => ?_
  cases isGuard with
  | true => exact (h.call rfl rfl).bind fun _ => together_return _
  | false => exact (h.call rfl rfl).bind fun _ => together_return _

theorem defaultOrEnd (h : Setting A rules rules' start start' rank) {cases : Phrase Unit}
    (hcloses : cases.closes = 0) (hinside : cases.inside = 0) :
    Together (At A start start' (k + 1) m) (Grammar.defaultOrEnd rules cases)
      (Grammar.defaultOrEnd rules' cases) fun _ => At A start start' (k + 1) true := by
  unfold Grammar.defaultOrEnd
  refine h.accepts rfl rfl ?_ (h.expect rfl rfl)
  refine (h.expect rfl rfl).bind fun _ => ?_
  exact (h.call rfl rfl).bind fun _ => h.call hcloses hinside

theorem valueCases (h : Setting A rules rules' start start' 1) :
    Together (At A start start' (k + 1) false) (Grammar.valueCases rules)
      (Grammar.valueCases rules') fun _ => At A start start' (k + 1) true := by
  unfold Grammar.valueCases
  refine h.accepts rfl rfl ?_ (h.defaultOrEnd rfl rfl)
  refine (h.call rfl rfl).bind fun _ => ?_
  refine (h.expect rfl rfl).bind fun _ => ?_
  exact (h.call rfl rfl).bind fun _ => h.call rfl rfl

theorem caseTypes (h : Setting A rules rules' start start' 2) :
    Together (At A start start' (k + 1) false) (Grammar.caseTypes rules)
      (Grammar.caseTypes rules') fun _ => At A start start' (k + 1) true := by
  unfold Grammar.caseTypes
  refine (h.begin rfl rfl rfl rfl).bind fun _ => ?_
  exact h.accepts rfl rfl (h.call rfl rfl) (h.expect rfl rfl)

theorem typeCases (h : Setting A rules rules' start start' 1) :
    Together (At A start start' (k + 1) false) (Grammar.typeCases rules)
      (Grammar.typeCases rules') fun _ => At A start start' (k + 1) true := by
  unfold Grammar.typeCases
  refine h.accepts rfl rfl ?_ (h.defaultOrEnd rfl rfl)
  refine (h.call rfl rfl).bind fun _ => ?_
  exact (h.call rfl rfl).bind fun _ => h.call rfl rfl

theorem received (h : Setting A rules rules' start start' rank) :
    Together (At A start start' (k + 1) true) (Grammar.communication.received rules)
      (Grammar.communication.received rules') fun _ => At A start start' (k + 1) true := by
  unfold Grammar.communication.received
  refine h.accepts rfl rfl ?_ ?_
  · exact h.call rfl rfl
  · exact (h.expect rfl rfl).bind fun _ => h.call rfl rfl

theorem communication (h : Setting A rules rules' start start' rank) :
    Together (At A start start' (k + 1) true) (Grammar.communication rules)
      (Grammar.communication rules') fun _ => At A start start' (k + 1) true := by
  unfold Grammar.communication
  refine (h.call rfl rfl).bind fun _ => ?_
  refine h.next fun next => ?_
  split
  · exact (h.skip rfl rfl).bind fun _ => h.call rfl rfl
  · refine (h.skip rfl rfl).bind fun _ => ?_
    exact (h.call rfl rfl).bind fun _ => h.received
  · exact h.received.forget
  · exact h.received.forget
  · exact (together_return _).forget

theorem communications (h : Setting A rules rules' start start' 1) :
    Together (At A start start' (k + 1) false) (Grammar.communications rules)
      (Grammar.communications rules') fun _ => At A start start' (k + 1) true := by
  unfold Grammar.communications
  refine h.accepts rfl rfl ?_ (h.defaultOrEnd rfl rfl)
  refine h.communication.bind fun _ => ?_
  refine (h.expect rfl rfl).bind fun _ => ?_
  exact (h.call rfl rfl).bind fun _ => h.call rfl rfl

/-! ### Statements -/

theorem startsWithLabel_cons (first : Token) (rest : List Token) :
    Grammar.startsWithLabel (first :: rest) =
      (Grammar.isPlainWord first && rest.head?.any fun second =>
        second.lexeme == .mark .colon && !second.onNewLine) := by
  cases rest with
  | nil => simp [Grammar.startsWithLabel]
  | cons second rest => simp [Grammar.startsWithLabel, Bool.and_assoc]

theorem lexeme_of_isPlainWord {token : Token} (h : Grammar.isPlainWord token = true) :
    token.lexeme = .word := by
  simp only [Grammar.isPlainWord, Bool.and_eq_true] at h
  exact eq_of_beq h.1.1

theorem startsWithLabel_eq (h : Simulation A) {s s' : List Token} (halike : A (k + 1) s s') :
    Grammar.startsWithLabel s = Grammar.startsWithLabel s' := by
  rcases h.head_cases halike with ⟨rfl, rfl⟩ | ⟨first, rest, rest', rfl, rfl⟩
  · rfl
  rw [startsWithLabel_cons, startsWithLabel_cons]
  rcases hfirst : Grammar.isPlainWord first with _ | _
  · rfl
  have hword := lexeme_of_isPlainWord hfirst
  have halike := h.tail_plain halike (by rw [hword]; rfl) (by rw [hword]; rfl)
  rw [h.head halike]

theorem startsWithLastLabel_eq (h : Simulation A) {s s' : List Token}
    (halike : A (k + 1) s s') :
    Grammar.startsWithLastLabel s = Grammar.startsWithLastLabel s' := by
  unfold Grammar.startsWithLastLabel
  rw [← startsWithLabel_eq h halike]
  rcases hlabel : Grammar.startsWithLabel s with _ | _
  · rfl
  rcases h.head_cases halike with ⟨rfl, rfl⟩ | ⟨first, rest, rest', rfl, rfl⟩
  · rfl
  rw [startsWithLabel_cons, Bool.and_eq_true] at hlabel
  have hword := lexeme_of_isPlainWord hlabel.1
  have halike := h.tail_plain halike (by rw [hword]; rfl) (by rw [hword]; rfl)
  rcases h.head_cases halike with ⟨rfl, rfl⟩ | ⟨second, rest, rest', rfl, rfl⟩
  · rfl
  have hcolon : second.lexeme = .mark .colon := by
    have hsecond := hlabel.2
    simp only [List.head?_cons, Option.any_some, Bool.and_eq_true] at hsecond
    exact eq_of_beq hsecond.1
  have halike := h.tail_plain halike (by rw [hcolon]; rfl) (by rw [hcolon]; rfl)
  simp only [List.drop_succ_cons, List.drop_zero, h.head halike]

theorem optionalLabel (h : Simulation A) :
    Together (At A start start' (k + 1) true) Grammar.optionalLabel Grammar.optionalLabel
      fun _ => At A start start' (k + 1) true := by
  unfold Grammar.optionalLabel
  refine h.atLineStart.bind fun starts => ?_
  cases starts with
  | true => exact together_return _
  | false => exact h.accepts rfl rfl (together_return _) (together_return _)

theorem returnResults (h : Setting A rules rules' start start' rank) :
    Together (At A start start' (k + 1) true) (Grammar.returnResults rules)
      (Grammar.returnResults rules') fun _ => At A start start' (k + 1) true := by
  unfold Grammar.returnResults
  refine h.atLineStart.bind fun starts => ?_
  cases starts with
  | true => exact together_return _
  | false =>
    refine h.next fun next => Together.forget ?_
    split
    · exact (h.call rfl rfl).bind fun _ => together_return _
    · exact together_return _

theorem statement (h : Setting A rules rules' start start' 6) :
    Together (At A start start' (k + 1) false) (Grammar.statement rules)
      (Grammar.statement rules') fun _ => At A start start' (k + 1) true := by
  unfold Grammar.statement
  refine together_ahead fun s s' hat => ?_
  rcases h.head_cases hat.alike with ⟨rfl, rfl⟩ | ⟨token, rest, rest', rfl, rfl⟩
  · trivial
  dsimp only
  rw [startsWithLabel_eq h.toSimulation hat.alike]
  refine (?_ : Together (AtNext A start start' (k + 1) false (some token.lexeme)) _ _ _)
    (token :: rest) (token :: rest') ⟨hat, rfl⟩
  generalize token.lexeme = lexeme
  generalize Grammar.startsWithLabel (token :: rest') = isLabeled
  split
  · refine Together.forget ?_
    exact (h.begin rfl rfl rfl rfl).bind fun _ => together_return _
  · exact (h.skip rfl rfl).bind fun _ => together_return _
  · exact (h.declaration rfl rfl rfl ⟨rfl, rfl⟩ ⟨rfl, rfl⟩).bind fun _ => together_return _
  · exact (h.declaration rfl rfl rfl ⟨rfl, rfl⟩ ⟨rfl, rfl⟩).bind fun _ => together_return _
  · exact (h.declaration rfl rfl rfl ⟨rfl, rfl⟩ ⟨rfl, rfl⟩).bind fun _ => together_return _
  · refine (h.skip rfl rfl).bind fun _ => ?_
    exact h.returnResults.bind fun _ => together_return _
  · refine (h.skip rfl rfl).bind fun _ => ?_
    exact (h.call rfl rfl).bind fun _ => together_return _
  · refine (h.skip rfl rfl).bind fun _ => ?_
    exact (h.call rfl rfl).bind fun _ => together_return _
  · refine (h.skip rfl rfl).bind fun _ => ?_
    exact (h.call rfl rfl).bind fun _ => together_return _
  · refine (h.skip rfl rfl).bind fun _ => ?_
    exact h.loop.bind fun _ => together_return _
  · exact (h.skip rfl rfl).bind fun _ => h.switch
  · refine (h.skip rfl rfl).bind fun _ => ?_
    refine (h.expect rfl rfl).bind fun _ => ?_
    exact (h.call rfl rfl).bind fun _ => together_return _
  · exact (h.skip rfl rfl).bind fun _ => together_return _
  · refine (h.skip rfl rfl).bind fun _ => ?_
    exact (optionalLabel h.toSimulation).bind fun _ => together_return _
  · refine (h.skip rfl rfl).bind fun _ => ?_
    exact (optionalLabel h.toSimulation).bind fun _ => together_return _
  · refine (h.skip rfl rfl).bind fun _ => ?_
    exact (h.expect rfl rfl).bind fun _ => together_return _
  · refine Together.forget ?_
    split
    · refine (h.expect rfl rfl).bind fun _ => ?_
      refine (h.expect rfl rfl).bind fun _ => ?_
      exact (h.call rfl rfl).bind fun _ => together_return _
    split
    · refine (h.begin rfl rfl rfl rfl).bind fun form => ?_
      split
      · exact together_return _
      · exact together_halt
    · exact together_halt

theorem listStatement (h : Setting A rules rules' start start' 7) :
    Together (At A start start' (k + 1) false) (Grammar.listStatement rules)
      (Grammar.listStatement rules') fun _ => At A start start' (k + 1) true := by
  unfold Grammar.listStatement
  refine together_ahead fun s s' hat => ?_
  rw [startsWithLastLabel_eq h.toSimulation hat.alike]
  generalize Grammar.startsWithLastLabel s' = isLabel
  refine (?_ : Together (At A start start' (k + 1) false) _ _ _) s s' hat
  cases isLabel with
  | true =>
    refine (h.expect rfl rfl).bind fun _ => ?_
    exact (h.expect rfl rfl).bind fun _ => together_return _
  | false => exact h.begin rfl rfl rfl rfl

theorem statements (h : Setting A rules rules' start start' 8) :
    Together (At A start start' (k + 1) false) (Grammar.statements rules)
      (Grammar.statements rules') fun _ => At A start start' (k + 1) false := by
  unfold Grammar.statements
  refine h.next fun next => Together.forget ?_
  split
  · exact together_return _
  split
  · exact together_return _
  refine Together.weaken (m := true) ?_
  refine (h.begin rfl rfl rfl rfl).bind fun _ => ?_
  refine h.terminator.bind fun ends => ?_
  cases ends with
  | true => exact h.call rfl rfl
  | false =>
    refine h.next fun next => Together.forget ?_
    split
    · exact together_halt
    · exact together_return _

end Setting

end EntryProbe.Go
