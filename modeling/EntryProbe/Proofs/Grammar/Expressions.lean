import EntryProbe.Proofs.Grammar.Types

/-!
# The grammar of expressions, on two sides

Each rule of the grammar of expressions does the same on tokens that are alike, if the
phrases it asks for do (`EntryProbe.Go.Setting`). The lemmas follow the rules one by one.

A mark of two characters may be cut in halves, so that an operand starts in the middle of a
token. Tokens that are alike have to stay so then, which `EntryProbe.Go.Simulation` asks for
(`EntryProbe.Go.Setting.halvedOperand`).
-/

namespace EntryProbe.Go

theorem bracketsAfter_operator {mark : Mark} (h : Grammar.isBinaryOperator mark = true)
    (k : Nat) : bracketsAfter (.mark mark) k = k := by
  cases mark <;> first | rfl | cases h

/-- A mark that is split has two halves. -/
theorem halves?_of_splitMark? {context : Context} {mark second : Mark}
    (h : Grammar.splitMark? context mark = some second) :
    ∃ first, Grammar.halves? mark = some (first, second) := by
  unfold Grammar.splitMark? at h
  obtain ⟨-, hmap⟩ := Option.ite_none_right_eq_some.mp h
  obtain ⟨⟨first, second'⟩, hhalves, rfl⟩ := Option.map_eq_some_iff.mp hmap
  exact ⟨first, hhalves⟩

namespace Setting

variable {A : Nat → List Token → List Token → Prop} {rules rules' : Rules}
  {start start' : List Token} {rank k : Nat} {m : Bool}

/-! ### Operands after operators -/

theorem laterOperand (h : Setting A rules rules' start start' rank) (context : Context) :
    Together (At A start start' (k + 1) true) (Grammar.laterOperand rules context)
      (Grammar.laterOperand rules' context) fun _ => At A start start' (k + 1) true := by
  unfold Grammar.laterOperand
  refine (h.call rfl rfl).bind fun reading => ?_
  refine h.seesGuard.bind fun guard => ?_
  refine (together_require _).bind fun _ => ?_
  exact together_pure _ rfl

theorem valueOperand (h : Setting A rules rules' start start' rank) (context : Context) :
    Together (At A start start' (k + 1) true) (Grammar.valueOperand rules context)
      (Grammar.valueOperand rules' context) fun _ => At A start start' (k + 1) true := by
  unfold Grammar.valueOperand
  refine (h.laterOperand context).bind fun reading => ?_
  exact together_require _

/-- The operand after the first half of a mark. -/
theorem halvedOperand (h : Setting A rules rules' start start' rank) (context : Context)
    {mark first second : Mark} (hrank : (m || Nat.ble 2 rank) = true)
    (hhalves : Grammar.halves? mark = some (first, second)) :
    Together (AtNext A start start' (k + 1) m (some (.mark mark)))
      (Grammar.keepHalf second >>= fun _ => Grammar.valueOperand rules context)
      (Grammar.keepHalf second >>= fun _ => Grammar.valueOperand rules' context)
      fun _ => At A start start' (k + 1) true := by
  intro s s' hat
  rcases h.head_cases hat.alike with ⟨rfl, rfl⟩ | ⟨token, rest, rest', rfl, rfl⟩
  · cases hat.next_eq
  have hmark : token.lexeme = .mark mark := by simpa using hat.next_eq
  have halike := h.half hat.alike hmark hhalves
  have htaken := hat.taken
  have hunary : Agree
      (fun _ => At A (halfOf token second :: rest) (halfOf token second :: rest') (k + 1) true)
      (rules _ (.unary context) (halfOf token second :: rest))
      (rules' _ (.unary context) (halfOf token second :: rest')) := by
    obtain ⟨used, hs, hs', hm, hstray⟩ := htaken
    cases used with
    | nil =>
      cases m with
      | true => exact absurd rfl (hm rfl)
      | false => exact h.halved context hrank hs hs' hmark hhalves halike
    | cons first used =>
      refine h.later (.unary context) ?_ ?_ halike
      · simp only [hs, List.length_append, List.length_cons]
        omega
      · simp only [hs', List.length_append, List.length_cons]
        omega
  have hoperand : Agree
      (fun _ => At A (halfOf token second :: rest) (halfOf token second :: rest') (k + 1) true)
      (Grammar.valueOperand rules context (halfOf token second :: rest))
      (Grammar.valueOperand rules' context (halfOf token second :: rest')) := by
    refine Agree.bind (hunary.bind fun reading => ?_) fun reading => together_require _
    refine h.seesGuard.bind fun guard => ?_
    refine (together_require _).bind fun _ => ?_
    exact together_pure _ rfl
  refine hoperand.mono fun _ t t' hat' => ⟨hat'.alike, ?_⟩
  exact htaken.unhalve (by simp [hmark]) hat'.taken

/-! ### Terms -/

theorem term (h : Setting A rules rules' start start' 3) (context : Context) :
    Together (At A start start' (k + 1) false) (Grammar.term rules context)
      (Grammar.term rules' context) fun _ => At A start start' (k + 1) true := by
  unfold Grammar.term
  refine (h.begin rfl rfl rfl rfl).bind fun left => ?_
  exact h.call rfl rfl

theorem termTail (h : Setting A rules rules' start start' 3) (context : Context)
    (left : Reading) :
    Together (At A start start' (k + 1) false) (Grammar.termTail rules context left)
      (Grammar.termTail rules' context left) fun _ => At A start start' (k + 1) false := by
  unfold Grammar.termTail
  refine (h.endsLine _).bind fun ends => ?_
  split
  · exact together_pure _ rfl
  refine h.next fun next => ?_
  split
  · -- a bar between operands
    refine (h.skip rfl rfl).bind fun _ => ?_
    refine (h.laterOperand context).bind fun right => ?_
    refine (together_require _).bind fun _ => ?_
    exact (h.call rfl rfl).weaken
  · next mark hpipe =>
    split
    · exact Together.forget (together_pure _ rfl)
    split
    · -- an operator between operands
      next hoperator =>
      refine (h.skip rfl rfl).bind fun _ => ?_
      rw [bracketsAfter_operator hoperator]
      refine (h.valueOperand context).bind fun _ => ?_
      exact (h.call rfl rfl).weaken
    split
    · -- a mark that is split
      next second hsplit =>
      obtain ⟨first, hhalves⟩ := halves?_of_splitMark? hsplit
      have hoperand := h.halvedOperand (k := k) (m := false) context rfl hhalves
      rw [← bind_assoc, ← bind_assoc]
      exact hoperand.bind fun _ => (h.call rfl rfl).weaken
    · exact Together.forget (together_pure _ rfl)
  · exact Together.forget (together_pure _ rfl)

/-! ### Operands -/

theorem allocationArguments (h : Setting A rules rules' start start' rank) :
    Together (At A start start' (k + 1) true) (Grammar.allocationArguments rules)
      (Grammar.allocationArguments rules') fun _ => At A start start' (k + 1) true := by
  unfold Grammar.allocationArguments
  refine (h.expect rfl rfl).bind fun _ => ?_
  refine h.accepts rfl rfl ?_ ?_
  · exact together_pure _ rfl
  · refine (h.call rfl rfl).bind fun _ => ?_
    exact h.call rfl rfl

theorem wordOperand (h : Setting A rules rules' start start' rank) (context : Context)
    (token : Token) :
    Together (AtNext A start start' (k + 1) m (some .word))
      (Grammar.wordOperand rules context token) (Grammar.wordOperand rules' context token)
      fun _ => At A start start' (k + 1) true := by
  unfold Grammar.wordOperand
  refine (h.skip rfl rfl).bind fun _ => ?_
  split
  · refine (h.sees _).bind fun opens => ?_
    refine (h.endsLine _).bind fun ends => ?_
    split
    · refine h.allocationArguments.bind fun _ => ?_
      exact together_pure _ rfl
    · exact together_pure _ rfl
  · split
    · exact together_pure _ rfl
    · exact together_pure _ rfl

theorem arrayOperand (h : Setting A rules rules' start start' rank) :
    Together (AtNext A start start' (k + 1) m (some (.mark .openBracket)))
      (Grammar.arrayOperand rules) (Grammar.arrayOperand rules')
      fun _ => At A start start' (k + 1) true := by
  unfold Grammar.arrayOperand
  refine (h.skip rfl rfl).bind fun _ => ?_
  refine h.accepts rfl rfl ?_ ?_
  · -- the length is left to a literal
    refine (h.expect rfl rfl).bind fun _ => ?_
    refine (h.call rfl rfl).bind fun _ => ?_
    exact together_pure _ rfl
  refine h.accepts rfl rfl ?_ ?_
  · refine (h.call rfl rfl).bind fun _ => ?_
    exact together_pure _ rfl
  · refine (h.call rfl rfl).bind fun _ => ?_
    refine (h.expect rfl rfl).bind fun _ => ?_
    refine (h.call rfl rfl).bind fun _ => ?_
    exact together_pure _ rfl

theorem functionOperand (h : Setting A rules rules' start start' rank) :
    Together (AtNext A start start' (k + 1) m (some (.keyword .funcWord)))
      (Grammar.functionOperand rules) (Grammar.functionOperand rules')
      fun _ => At A start start' (k + 1) true := by
  unfold Grammar.functionOperand
  refine h.callFunction fun _ => ?_
  refine (h.call rfl rfl).bind fun _ => ?_
  refine (h.sees _).bind fun opens => ?_
  cases opens with
  | true =>
    refine (h.call rfl rfl).bind fun _ => ?_
    exact together_pure _ rfl
  | false => exact together_pure _ rfl

theorem operand (h : Setting A rules rules' start start' 2) (context : Context) :
    Together (At A start start' (k + 1) false) (Grammar.operand rules context)
      (Grammar.operand rules' context) fun _ => At A start start' (k + 1) true := by
  unfold Grammar.operand
  refine together_ahead fun s s' hat => ?_
  rcases h.head_cases hat.alike with ⟨rfl, rfl⟩ | ⟨token, rest, rest', rfl, rfl⟩
  · exact together_lacksOperand context _ _ hat
  refine (?_ : Together (AtNext A start start' (k + 1) false (some token.lexeme)) _ _ _)
    (token :: rest) (token :: rest') ⟨hat, rfl⟩
  dsimp only
  generalize token.lexeme = lexeme
  split
  · refine (h.skip rfl rfl).bind fun _ => ?_
    exact together_pure _ rfl
  · refine (h.skip rfl rfl).bind fun _ => ?_
    exact together_pure _ rfl
  · refine (h.skip rfl rfl).bind fun _ => ?_
    exact together_pure _ rfl
  · exact h.wordOperand context token
  · -- a term in parentheses
    refine (h.skip rfl rfl).bind fun _ => ?_
    refine (h.call rfl rfl).bind fun reading => ?_
    refine (together_require _).bind fun _ => ?_
    refine (h.expect rfl rfl).bind fun _ => ?_
    exact together_pure _ rfl
  · exact h.arrayOperand
  · refine Together.forget ?_
    refine (h.begin rfl rfl rfl rfl).bind fun _ => ?_
    exact together_pure _ rfl
  · refine Together.forget ?_
    refine (h.begin rfl rfl rfl rfl).bind fun _ => ?_
    exact together_pure _ rfl
  · refine Together.forget ?_
    refine (h.begin rfl rfl rfl rfl).bind fun _ => ?_
    exact together_pure _ rfl
  · refine Together.forget ?_
    refine (h.begin rfl rfl rfl rfl).bind fun _ => ?_
    exact together_pure _ rfl
  · refine Together.forget ?_
    refine (h.begin rfl rfl rfl rfl).bind fun _ => ?_
    exact together_pure _ rfl
  · exact h.functionOperand
  · exact together_lacksOperand context

theorem doubleOperator (h : Setting A rules rules' start start' 2) (context : Context) :
    Together (At A start start' (k + 1) false) (Grammar.doubleOperator rules context)
      (Grammar.doubleOperator rules' context) fun _ => At A start start' (k + 1) true := by
  unfold Grammar.doubleOperator
  refine h.next fun next => ?_
  split
  · next mark =>
    split
    · next first second hhalves =>
      have hoperand := h.halvedOperand (k := k) (m := false) context rfl hhalves
      rw [← bind_assoc, ← bind_assoc]
      exact hoperand.bind fun _ => together_pure _ rfl
    · exact together_halt
  · exact together_halt

theorem unary (h : Setting A rules rules' start start' 2) (context : Context) :
    Together (At A start start' (k + 1) false) (Grammar.unary rules context)
      (Grammar.unary rules' context) fun _ => At A start start' (k + 1) true := by
  unfold Grammar.unary
  refine h.next fun next => ?_
  have hprefix : ∀ lexeme, (lexeme == .keyword .funcWord) = false → (lexeme == .stray) = false →
      bracketsAfter lexeme (k + 1) = k + 1 →
      Together (AtNext A start start' (k + 1) false (some lexeme))
        (do Reader.skip; Grammar.valueOperand rules context; return Reading.onlyValue)
        (do Reader.skip; Grammar.valueOperand rules' context; return Reading.onlyValue)
        fun _ => At A start start' (k + 1) true := by
    intro lexeme hfunc hstray hbrackets
    refine (h.skip hfunc hstray).bind fun _ => ?_
    rw [hbrackets]
    refine (h.valueOperand context).bind fun _ => ?_
    exact together_pure _ rfl
  split
  · exact hprefix _ rfl rfl rfl
  · exact hprefix _ rfl rfl rfl
  · exact hprefix _ rfl rfl rfl
  · exact hprefix _ rfl rfl rfl
  · exact hprefix _ rfl rfl rfl
  · exact (h.doubleOperator context).forget
  · exact (h.doubleOperator context).forget
  · exact (h.doubleOperator context).forget
  · exact (h.doubleOperator context).forget
  · refine (h.skip rfl rfl).bind fun _ => ?_
    refine (h.laterOperand context).bind fun reading => ?_
    refine (together_require _).bind fun _ => ?_
    exact together_pure _ rfl
  · refine (h.skip rfl rfl).bind fun _ => ?_
    refine (h.sees _).bind fun ofChannel => ?_
    refine (h.laterOperand context).bind fun reading => ?_
    refine (together_require _).bind fun _ => ?_
    exact together_pure _ rfl
  · refine Together.forget ?_
    refine (h.operand context).bind fun reading => ?_
    exact h.call rfl rfl

/-! ### What follows an operand -/

theorem startsAssertion_eq_isSome (tokens : List Token) :
    Grammar.startsAssertion tokens =
      (thirdBehind (.mark .dot) (.mark .openParen) tokens).isSome := by
  rcases tokens with _ | ⟨one, _ | ⟨two, _ | ⟨three, rest⟩⟩⟩ <;>
    grind [Grammar.startsAssertion, thirdBehind]

theorem startsAssertion_eq (h : Simulation A) {s s' : List Token} (halike : A (k + 1) s s') :
    Grammar.startsAssertion s = Grammar.startsAssertion s' := by
  rw [startsAssertion_eq_isSome, startsAssertion_eq_isSome, h.thirdBehind_eq halike rfl rfl rfl rfl]

theorem selector (h : Setting A rules rules' start start' rank) (context : Context)
    (operand : Reading) :
    Together (At A start start' (k + 1) false) (Grammar.selector rules context operand)
      (Grammar.selector rules' context operand) fun _ => At A start start' (k + 1) false := by
  unfold Grammar.selector
  refine h.seesGuard.bind fun guard => ?_
  cases guard with
  | true => exact together_pure _ rfl
  | false =>
    refine together_ahead fun s s' hat => ?_
    rw [startsAssertion_eq h.toSimulation hat.alike]
    generalize Grammar.startsAssertion s' = asserts
    refine (?_ : Together (At A start start' (k + 1) false) _ _ _) s s' hat
    refine (?_ : Together _ _ _ fun _ => At A start start' (k + 1) true).weaken
    cases asserts with
    | true =>
      refine (h.expect rfl rfl).bind fun _ => ?_
      refine (h.expect rfl rfl).bind fun _ => ?_
      refine (h.call rfl rfl).bind fun _ => ?_
      refine (h.expect rfl rfl).bind fun _ => ?_
      exact h.call rfl rfl
    | false =>
      refine (h.expect rfl rfl).bind fun _ => ?_
      refine (h.expect rfl rfl).bind fun _ => ?_
      exact h.call rfl rfl

theorem crossesLine (h : Setting A rules rules' start start' 7) (operand : Reading) :
    Together (At A start start' (k + 1) false) (Grammar.crossesLine rules operand)
      (Grammar.crossesLine rules' operand) fun _ => At A start start' (k + 1) false := by
  unfold Grammar.crossesLine
  refine h.next fun next => ?_
  refine (?_ : Together _ _ _ fun _ => AtNext A start start' (k + 1) false next).post
    fun _ _ _ hat => hat.toAt
  split
  · -- a composite literal
    split
    · exact ((h.skip rfl rfl).bind fun _ => h.call rfl rfl).succeeds
    · exact together_return _
  · -- arguments
    split
    · exact ((h.skip rfl rfl).bind fun _ => h.call rfl rfl).succeeds
    · exact together_return _
  · -- brackets, unless they start a statement
    refine (Together.succeeds (h.begin rfl rfl rfl rfl).forget).bind fun starts => ?_
    split
    · exact ((h.skip rfl rfl).bind fun _ =>
        (h.callClosing rfl rfl).bind fun _ => together_require _).succeeds
    · exact together_return _
  · exact together_return _

theorem endsOperand (h : Setting A rules rules' start start' 7) (context : Context)
    (operand : Reading) :
    Together (At A start start' (k + 1) false) (Grammar.endsOperand rules context operand)
      (Grammar.endsOperand rules' context operand) fun _ => At A start start' (k + 1) false := by
  unfold Grammar.endsOperand
  refine (h.endsLine _).bind fun ends => ?_
  split
  · refine (h.crossesLine operand).bind fun crosses => ?_
    exact together_return _
  · exact together_return _

theorem opensLiteral_eq (h : Simulation A) (context : Context) (literal : LiteralHead)
    {s s' : List Token} (halike : A (k + 1) s s') :
    Grammar.opensLiteral context literal s = Grammar.opensLiteral context literal s' := by
  cases literal with
  | named => simp only [Grammar.opensLiteral, h.isBody halike]
  | _ => rfl

theorem suffixes (h : Setting A rules rules' start start' 7) (context : Context)
    (operand : Reading) :
    Together (At A start start' (k + 1) false) (Grammar.suffixes rules context operand)
      (Grammar.suffixes rules' context operand) fun _ => At A start start' (k + 1) false := by
  unfold Grammar.suffixes
  refine (h.endsOperand context operand).bind fun ends => ?_
  cases ends with
  | true => exact together_return _
  | false =>
    refine h.next fun next => ?_
    split
    · -- a selector
      refine Together.forget ?_
      split
      · exact h.selector context operand
      · exact together_return _
    · -- brackets
      split
      · refine (h.skip rfl rfl).bind fun _ => ?_
        refine (h.callClosing rfl rfl).bind fun bracketed => ?_
        refine (together_require _).bind fun _ => ?_
        exact (h.call rfl rfl).weaken
      · exact (together_return _).forget
    · -- arguments
      split
      · refine (h.skip rfl rfl).bind fun _ => ?_
        refine (h.call rfl rfl).bind fun _ => ?_
        exact (h.call rfl rfl).weaken
      split
      · refine (h.skip rfl rfl).bind fun _ => ?_
        refine (h.call rfl rfl).bind fun _ => ?_
        refine h.accepts rfl rfl ?_ ?_
        · refine (h.expect rfl rfl).bind fun _ => ?_
          exact (h.call rfl rfl).weaken
        · refine (h.expect rfl rfl).bind fun _ => ?_
          exact (h.call rfl rfl).weaken
      · exact (together_return _).forget
    · -- a composite literal
      refine together_ahead fun s s' hat => ?_
      rw [opensLiteral_eq h.toSimulation context operand.literal hat.alike]
      generalize Grammar.opensLiteral context operand.literal s' = opens
      refine (?_ : Together (AtNext A start start' (k + 1) false _) _ _ _) s s' hat
      cases opens with
      | true =>
        refine (h.skip rfl rfl).bind fun _ => ?_
        refine (h.call rfl rfl).bind fun _ => ?_
        exact (h.call rfl rfl).weaken
      | false => exact (together_return _).forget
    · exact (together_return _).forget

/-! ### Lists of expressions -/

theorem expression (h : Setting A rules rules' start start' 4) (context : Context) :
    Together (At A start start' (k + 1) false) (Grammar.expression rules context)
      (Grammar.expression rules' context) fun _ => At A start start' (k + 1) true := by
  unfold Grammar.expression
  refine (h.begin rfl rfl rfl rfl).bind fun reading => ?_
  exact together_require _

theorem expressions (h : Setting A rules rules' start start' 5) (context : Context) :
    Together (At A start start' (k + 1) false) (Grammar.expressions rules context)
      (Grammar.expressions rules' context) fun _ => At A start start' (k + 1) true := by
  unfold Grammar.expressions
  refine (h.begin rfl rfl rfl rfl).bind fun _ => ?_
  refine (h.endsLine _).bind fun ends => ?_
  cases ends with
  | true => exact together_return _
  | false =>
    refine h.accepts rfl rfl ?_ ?_
    · refine (h.call rfl rfl).bind fun count => ?_
      exact together_return _
    · exact together_return _

theorem sliceTail (h : Setting A rules rules' start start' rank) :
    Together (At A start start' (k + 1) true) (Grammar.sliceTail rules)
      (Grammar.sliceTail rules') fun _ => At A start start' k true := by
  unfold Grammar.sliceTail
  refine h.accepts rfl rfl ?_ ?_
  · exact together_return _
  · refine (h.call rfl rfl).bind fun _ => ?_
    refine h.accepts rfl rfl ?_ ?_
    · refine (h.call rfl rfl).bind fun _ => ?_
      refine (h.expect rfl rfl).bind fun _ => ?_
      exact together_return _
    · refine (h.expect rfl rfl).bind fun _ => ?_
      exact together_return _

theorem bracketed (h : Setting A rules rules' start start' 4) :
    Together (At A start start' (k + 1) false) (Grammar.bracketed rules)
      (Grammar.bracketed rules') fun _ => At A start start' k true := by
  unfold Grammar.bracketed
  refine h.accepts rfl rfl ?_ ?_
  · exact h.sliceTail
  refine (h.begin rfl rfl rfl rfl).bind fun reading => ?_
  refine h.accepts rfl rfl ?_ ?_
  · exact together_return _
  refine h.accepts rfl rfl ?_ ?_
  · refine (together_require _).bind fun _ => ?_
    exact h.callClosing rfl rfl
  · refine (together_require _).bind fun _ => ?_
    refine (h.expect rfl rfl).bind fun _ => ?_
    exact h.sliceTail

theorem moreElements (h : Setting A rules rules' start start' 2) (types : Bool) :
    Together (At A start start' (k + 1) false) (Grammar.moreElements rules types)
      (Grammar.moreElements rules' types) fun _ => At A start start' k true := by
  unfold Grammar.moreElements
  refine h.accepts rfl rfl ?_ ?_
  · exact together_return _
  refine (h.begin rfl rfl rfl rfl).bind fun _ => ?_
  have hend : ∀ union : Bool, Together (At A start start' (k + 1) true) (do
        if ← Reader.accepts (.mark .comma) then
          rules _ (.moreElements (types && !union))
        else
          Reader.expect (.mark .closeBracket)
          return ⟨false, types && !union, true⟩) (do
        if ← Reader.accepts (.mark .comma) then
          rules' _ (.moreElements (types && !union))
        else
          Reader.expect (.mark .closeBracket)
          return ⟨false, types && !union, true⟩)
      fun _ => At A start start' k true := by
    intro union
    refine h.accepts rfl rfl ?_ ?_
    · exact h.callClosing rfl rfl
    · refine (h.expect rfl rfl).bind fun _ => ?_
      exact together_return _
  refine h.accepts rfl rfl ?_ ?_
  · exact (h.call rfl rfl).bind fun _ => hend true
  · exact hend false

theorem arguments (h : Setting A rules rules' start start' 5) :
    Together (At A start start' (k + 1) false) (Grammar.arguments rules)
      (Grammar.arguments rules') fun _ => At A start start' (k + 1) true := by
  unfold Grammar.arguments
  refine h.accepts rfl rfl ?_ ?_
  · exact together_return _
  refine (h.begin rfl rfl rfl rfl).bind fun _ => ?_
  refine h.accepts rfl rfl ?_ ?_
  · exact h.accepts rfl rfl (h.call rfl rfl) (h.expect rfl rfl)
  · exact h.accepts rfl rfl (h.call rfl rfl) (h.expect rfl rfl)

theorem moreArguments (h : Setting A rules rules' start start' 1) :
    Together (At A start start' (k + 1) false) (Grammar.moreArguments rules)
      (Grammar.moreArguments rules') fun _ => At A start start' (k + 1) true := by
  unfold Grammar.moreArguments
  refine h.accepts rfl rfl ?_ ?_
  · refine h.accepts rfl rfl ?_ ?_
    · exact together_return _
    · refine (h.call rfl rfl).bind fun _ => ?_
      exact h.call rfl rfl
  · exact h.expect rfl rfl

theorem literalElement (h : Setting A rules rules' start start' 5) :
    Together (At A start start' (k + 1) false) (Grammar.literalElement rules)
      (Grammar.literalElement rules') fun _ => At A start start' (k + 1) true := by
  unfold Grammar.literalElement
  refine h.accepts rfl rfl ?_ ?_
  · exact h.call rfl rfl
  · exact h.begin rfl rfl rfl rfl

theorem literal (h : Setting A rules rules' start start' 6) :
    Together (At A start start' (k + 1) false) (Grammar.literal rules)
      (Grammar.literal rules') fun _ => At A start start' (k + 1) true := by
  unfold Grammar.literal
  refine h.accepts rfl rfl ?_ ?_
  · exact h.expect rfl rfl
  refine h.accepts rfl rfl ?_ ?_
  · exact together_return _
  refine (h.begin rfl rfl rfl rfl).bind fun _ => ?_
  have hend : Together (At A start start' (k + 1) true) (do
        if ← Reader.accepts (.mark .comma) then
          if !(← Reader.accepts (.mark .closeBrace)) then
            Reader.require !(← Reader.sees (.mark .comma))
            rules _ .literal
        else
          Reader.expect (.mark .closeBrace)) (do
        if ← Reader.accepts (.mark .comma) then
          if !(← Reader.accepts (.mark .closeBrace)) then
            Reader.require !(← Reader.sees (.mark .comma))
            rules' _ .literal
        else
          Reader.expect (.mark .closeBrace))
      fun _ => At A start start' (k + 1) true := by
    refine h.accepts rfl rfl ?_ ?_
    · refine h.accepts rfl rfl ?_ ?_
      · exact together_return _
      · refine (h.sees _).bind fun comma => ?_
        refine (together_require _).bind fun _ => ?_
        exact h.call rfl rfl
    · exact h.expect rfl rfl
  refine h.accepts rfl rfl ?_ ?_
  · exact (h.call rfl rfl).bind fun _ => hend
  · exact hend

end Setting

end EntryProbe.Go
