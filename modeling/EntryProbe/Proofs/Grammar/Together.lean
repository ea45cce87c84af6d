import EntryProbe.Go.Grammar

/-!
# Two readings side by side

How does what is read depend on what comes later? A phrase is read from two sequences
of tokens that are alike for a while, and the two readings are followed step by step:
as long as they look at tokens that are alike, they do the same
(`EntryProbe.Go.Together`).

What *alike* means is left open. `EntryProbe.Go.Simulation` says what is asked of it:
the first tokens are the same, and taking one away leaves sequences that are alike. It
depends on a number of square brackets, because the place where the two sequences part
may be behind a closing bracket that no phrase inside the brackets ever takes. At the
number zero nothing is known.

The depth up to which phrases may contain one another plays no part as long as it is
large enough. A phrase that starts at the first token of another one comes after it in
the order of `EntryProbe.Go.Phrase.rank`; all other phrases inside it start after at
least one token has been taken. So the depth that is needed is known from the tokens and
the phrase (`EntryProbe.Go.Phrase.need`).
-/

namespace EntryProbe.Go

open Reader

/-! ### Results that agree -/

/-- Two results agree: both readers broke off, or both gave the same answer and left
tokens that `Q` relates. -/
def Agree {α : Type} (Q : α → List Token → List Token → Prop) :
    Except Halt (α × List Token) → Except Halt (α × List Token) → Prop
  | .ok (a, rest), .ok (b, rest') => a = b ∧ Q a rest rest'
  | .error _, .error _ => True
  | _, _ => False

/-- **Two readers go together**: from tokens that `P` relates they give results that
agree. -/
def Together {α : Type} (P : List Token → List Token → Prop) (r r' : Reader α)
    (Q : α → List Token → List Token → Prop) : Prop :=
  ∀ s s', P s s' → Agree Q (r s) (r' s')

section

variable {α β : Type} {P P' : List Token → List Token → Prop}
  {Q Q' : α → List Token → List Token → Prop} {R : β → List Token → List Token → Prop}

/-- The two ways in which results agree. -/
theorem Agree.cases {x x' : Except Halt (α × List Token)} (h : Agree Q x x') :
    (∃ e e', x = .error e ∧ x' = .error e') ∨
      ∃ a s s', x = .ok (a, s) ∧ x' = .ok (a, s') ∧ Q a s s' := by
  rcases x with e | ⟨a, s⟩ <;> rcases x' with e' | ⟨a', s'⟩
  · exact .inl ⟨e, e', rfl, rfl⟩
  · exact h.elim
  · exact h.elim
  · obtain ⟨rfl, hq⟩ := h
    exact .inr ⟨a, s, s', rfl, rfl, hq⟩

theorem Agree.mono {x x' : Except Halt (α × List Token)} (h : Agree Q x x')
    (hle : ∀ a s s', Q a s s' → Q' a s s') : Agree Q' x x' := by
  rcases h.cases with ⟨e, e', rfl, rfl⟩ | ⟨a, s, s', rfl, rfl, hq⟩
  · trivial
  · exact ⟨rfl, hle a s s' hq⟩

theorem Together.pre {r r' : Reader α} (h : Together P r r' Q)
    (hle : ∀ s s', P' s s' → P s s') : Together P' r r' Q :=
  fun s s' hp => h s s' (hle s s' hp)

theorem Together.post {r r' : Reader α} (h : Together P r r' Q)
    (hle : ∀ a s s', Q a s s' → Q' a s s') : Together P r r' Q' :=
  fun s s' hp => (h s s' hp).mono hle

theorem bind_run (r : Reader α) (f : α → Reader β) (s : List Token) :
    (r >>= f) s =
      match r s with
      | .ok (a, rest) => f a rest
      | .error halt => .error halt := by
  change (r s >>= fun result => f result.1 result.2) = _
  rcases r s with halt | ⟨a, rest⟩
  · rfl
  · rfl

theorem Agree.bind {s s' : List Token} {r r' : Reader α} {f f' : α → Reader β}
    (h : Agree Q (r s) (r' s')) (hnext : ∀ a, Together (Q a) (f a) (f' a) R) :
    Agree R ((r >>= f) s) ((r' >>= f') s') := by
  rw [bind_run, bind_run]
  rcases h.cases with ⟨e, e', hr, hr'⟩ | ⟨a, rest, rest', hr, hr', hq⟩
  · rw [hr, hr']
    trivial
  · rw [hr, hr']
    exact hnext a rest rest' hq

theorem Together.bind {r r' : Reader α} {f f' : α → Reader β} (h : Together P r r' Q)
    (hnext : ∀ a, Together (Q a) (f a) (f' a) R) : Together P (r >>= f) (r' >>= f') R :=
  fun s s' hp => (h s s' hp).bind hnext

/-! #### What the readers of single tokens do -/

section

variable (s : List Token)

theorem sees_run (lexeme : Lexeme) :
    sees lexeme s = .ok (s.head?.map Token.lexeme == some lexeme, s) := rfl

theorem accepts_run (lexeme : Lexeme) :
    accepts lexeme s =
      if s.head?.map Token.lexeme == some lexeme then .ok (true, s.tail) else .ok (false, s) := by
  rw [accepts, bind_run, sees_run]
  simp only
  split
  · rfl
  · rfl

theorem expect_run (lexeme : Lexeme) :
    expect lexeme s =
      if s.head?.map Token.lexeme == some lexeme then .ok ((), s.tail)
      else .error ⟨s, false⟩ := by
  rw [expect, bind_run, sees_run]
  simp only
  split
  · rfl
  · rfl

theorem withTokens_run {α : Type} (r : Reader α) :
    withTokens r s =
      match r s with
      | .ok (a, rest) => .ok ((a, s.take (s.length - rest.length)), rest)
      | .error halt => .error halt := by
  change (r s >>= fun result => _) = _
  rcases r s with halt | ⟨a, rest⟩
  · rfl
  · rfl

theorem atLineStart_run :
    atLineStart s = .ok ((s.head?.map Token.onNewLine).getD false, s) := by
  cases s with
  | nil => rfl
  | cons token s => rfl

end

theorem together_ahead {f f' : List Token → Reader β}
    (hnext : ∀ s s', P s s' → Agree R (f s s) (f' s' s')) :
    Together P (ahead >>= f) (ahead >>= f') R :=
  hnext

/-- A test of the tokens ahead that comes out the same on either side. -/
theorem together_peek {f f' : Bool → Reader β} {test : List Token → Bool}
    (htest : ∀ s s', P s s' → test s = test s')
    (hnext : ∀ result, Together P (f result) (f' result) R) :
    Together P (ahead >>= fun s => f (test s)) (ahead >>= fun s => f' (test s)) R := by
  intro s s' hp
  change Agree R (f (test s) s) (f' (test s') s')
  rw [htest s s' hp]
  exact hnext _ s s' hp

theorem together_halt : Together P (halt : Reader α) halt Q :=
  fun _ _ _ => trivial

theorem together_return (a : α) : Together P (pure a) (pure a) fun _ => P :=
  fun _ _ hp => ⟨rfl, hp⟩

theorem together_require (condition : Bool) :
    Together P (require condition) (require condition) fun _ => P := by
  intro s s' hp
  cases condition with
  | true => exact ⟨rfl, hp⟩
  | false => trivial

theorem together_lacksOperand (context : Context) :
    Together P (lacksOperand context : Reader α) (lacksOperand context) Q :=
  fun _ _ _ => trivial

/-- Whether a reader would break off is the same on either side. -/
theorem Together.succeeds {r r' : Reader α} (h : Together P r r' Q) :
    Together P (succeeds r) (succeeds r') fun _ => P := by
  intro s s' hp
  unfold Reader.succeeds
  rcases (h s s' hp).cases with ⟨e, e', hr, hr'⟩ | ⟨a, rest, rest', hr, hr', -⟩
  · rw [hr, hr']
    exact ⟨rfl, hp⟩
  · rw [hr, hr']
    exact ⟨rfl, hp⟩

theorem Together.orElse {r r' q q' : Reader α} (h : Together P r r' Q)
    (hq : Together P q q' Q) : Together P (r.orElse q) (r'.orElse q') Q := by
  intro s s' hp
  unfold Reader.orElse
  rcases (h s s' hp).cases with ⟨e, e', hr, hr'⟩ | ⟨a, rest, rest', hr, hr', hrest⟩
  · rw [hr, hr']
    rcases (hq s s' hp).cases with ⟨e, e', hl, hl'⟩ | ⟨a, rest, rest', hl, hl', hrest⟩
    · rw [hl, hl']
      trivial
    · rw [hl, hl']
      exact ⟨rfl, hrest⟩
  · rw [hr, hr']
    exact ⟨rfl, hrest⟩

end

/-! ### Tokens that are alike -/

/-- The number of open square brackets after a token. -/
def bracketsAfter (lexeme : Lexeme) (brackets : Nat) : Nat :=
  match lexeme with
  | .mark .openBracket => brackets + 1
  | .mark .closeBracket => brackets - 1
  | _ => brackets

/-- The token that is left of a mark when its first half is taken. -/
def halfOf (token : Token) (second : Mark) : Token :=
  ⟨[], token.text.drop 1, .mark second⟩

/-- The token behind two others that have the lexemes `first` and `second`. -/
def thirdBehind (first second : Lexeme) : List Token → Option Token
  | one :: two :: three :: _ =>
    if one.lexeme = first ∧ two.lexeme = second then some three else none
  | _ => none

theorem thirdBehind_cons (first second : Lexeme) (token : Token) (rest : List Token) :
    thirdBehind first second (token :: rest) =
      if token.lexeme = first ∧ rest.head?.map Token.lexeme = some second then rest.tail.head?
      else none := by
  rcases rest with _ | ⟨two, _ | ⟨three, rest⟩⟩ <;> simp [thirdBehind]

theorem startsGuard_eq_any (tokens : List Token) :
    Grammar.startsGuard tokens =
      (thirdBehind (.mark .dot) (.mark .openParen) tokens).any
        (·.lexeme == .keyword .typeWord) := by
  rcases tokens with _ | ⟨one, _ | ⟨two, _ | ⟨three, rest⟩⟩⟩ <;>
    grind [Grammar.startsGuard, thirdBehind]

/-- **What is asked of sequences of tokens that are alike.** As long as a bracket is
open, they start with the same token. Taking it away leaves sequences that are alike –
but after the word `func` it may be enough that no function literal follows. -/
structure Simulation (A : Nat → List Token → List Token → Prop) : Prop where
  /-- The first tokens are the same. -/
  head {k : Nat} {s s' : List Token} : A (k + 1) s s' → s.head? = s'.head?
  /-- The tokens after the first one are alike. -/
  tail {k : Nat} {token : Token} {s s' : List Token} : A (k + 1) (token :: s) (token :: s') →
    token.lexeme ≠ .keyword .funcWord → A (bracketsAfter token.lexeme (k + 1)) s s'
  /-- After the word `func`, the tokens are alike or start with a word. -/
  func {k : Nat} {token : Token} {s s' : List Token} : A (k + 1) (token :: s) (token :: s') →
    token.lexeme = .keyword .funcWord →
    A (k + 1) s s' ∨
      s.head?.map Token.lexeme = some .word ∧ s'.head?.map Token.lexeme = some .word
  /-- A mark may be halved. -/
  half {k : Nat} {token : Token} {s s' : List Token} {mark first second : Mark} :
    A (k + 1) (token :: s) (token :: s') → token.lexeme = .mark mark →
    Grammar.halves? mark = some (first, second) →
    A (k + 1) (halfOf token second :: s) (halfOf token second :: s')
  /-- A group in braces is a body on both sides or on none. -/
  isBody {k : Nat} {s s' : List Token} : A (k + 1) s s' →
    Grammar.isBody s = Grammar.isBody s'

/-- The next tokens are the same, or there is none on either side. -/
theorem Simulation.head_cases {A : Nat → List Token → List Token → Prop} (h : Simulation A)
    {k : Nat} {s s' : List Token} (halike : A (k + 1) s s') :
    s = [] ∧ s' = [] ∨ ∃ token rest rest', s = token :: rest ∧ s' = token :: rest' := by
  have hhead := h.head halike
  rcases s with _ | ⟨token, rest⟩ <;> rcases s' with _ | ⟨token', rest'⟩
  · exact .inl ⟨rfl, rfl⟩
  · cases hhead
  · cases hhead
  · cases hhead
    exact .inr ⟨token, rest, rest', rfl, rfl⟩

/-- The tokens behind one that is no bracket and not the word `func` are alike. -/
theorem Simulation.tail_plain {A : Nat → List Token → List Token → Prop} (h : Simulation A)
    {k : Nat} {token : Token} {s s' : List Token} (halike : A (k + 1) (token :: s) (token :: s'))
    (hfunc : (token.lexeme == .keyword .funcWord) = false)
    (hbrackets : bracketsAfter token.lexeme (k + 1) = k + 1) : A (k + 1) s s' := by
  have htail := h.tail halike (by simpa using hfunc)
  rwa [hbrackets] at htail

/-- The same tokens have been taken from the starts of two sequences. If `moved`, there
was at least one. None of them was stray. -/
def Taken (start start' : List Token) (moved : Bool) (s s' : List Token) : Prop :=
  ∃ used, start = used ++ s ∧ start' = used ++ s' ∧ (moved = true → used ≠ []) ∧
    ∀ token ∈ used, token.lexeme ≠ .stray

/-- Two readings that began at `start` and `start'` are at `s` and `s'`, with tokens
ahead that are alike. -/
structure At (A : Nat → List Token → List Token → Prop) (start start' : List Token)
    (k : Nat) (moved : Bool) (s s' : List Token) : Prop where
  /-- The tokens ahead are alike. -/
  alike : A k s s'
  /-- The same tokens have been taken. -/
  taken : Taken start start' moved s s'

/-- The same, with the kind of the next token. -/
structure AtNext (A : Nat → List Token → List Token → Prop) (start start' : List Token)
    (k : Nat) (moved : Bool) (next : Option Lexeme) (s s' : List Token) : Prop
    extends At A start start' k moved s s' where
  /-- The kind of the next token. -/
  next_eq : s.head?.map Token.lexeme = next

theorem Taken.refl (s s' : List Token) : Taken s s' false s s' :=
  ⟨[], rfl, rfl, nofun, nofun⟩

theorem Taken.trans {start start' mid mid' s s' : List Token} {m m' : Bool}
    (h : Taken start start' m mid mid') (h' : Taken mid mid' m' s s') :
    Taken start start' (m || m') s s' := by
  obtain ⟨used, rfl, rfl, hm, hstray⟩ := h
  obtain ⟨used', rfl, rfl, hm', hstray'⟩ := h'
  refine ⟨used ++ used', by simp, by simp, ?_, ?_⟩
  · cases m <;> cases m' <;> simp_all
  · intro token hmem
    rcases List.mem_append.mp hmem with hmem | hmem
    · exact hstray token hmem
    · exact hstray' token hmem

theorem Taken.weaken {start start' s s' : List Token} {m : Bool}
    (h : Taken start start' m s s') : Taken start start' false s s' := by
  obtain ⟨used, h₁, h₂, -, hstray⟩ := h
  exact ⟨used, h₁, h₂, nofun, hstray⟩

theorem Taken.length_lt {start start' s s' : List Token} (h : Taken start start' true s s') :
    s.length < start.length ∧ s'.length < start'.length := by
  obtain ⟨used, rfl, rfl, hm, -⟩ := h
  have hpos := List.length_pos_iff.mpr (hm rfl)
  simp only [List.length_append]
  omega

theorem Taken.next {start start' s s' : List Token} {token : Token} {m : Bool}
    (h : Taken start start' m (token :: s) (token :: s')) (hstray : token.lexeme ≠ .stray) :
    Taken start start' true s s' := by
  have hone : Taken (token :: s) (token :: s') true s s' :=
    ⟨[token], rfl, rfl, by simp, by simpa using hstray⟩
  have := h.trans hone
  rwa [Bool.or_true] at this

/-- A token that was halved has been taken with its second half. -/
theorem Taken.unhalve {start start' rest rest' s s' : List Token} {token half : Token} {m : Bool}
    (h : Taken start start' m (token :: rest) (token :: rest')) (hstray : token.lexeme ≠ .stray)
    (h' : Taken (half :: rest) (half :: rest') true s s') : Taken start start' true s s' := by
  obtain ⟨used, hs, hs', hm, hused⟩ := h'
  cases used with
  | nil => exact absurd rfl (hm rfl)
  | cons first used =>
    obtain ⟨-, rfl⟩ := List.cons.inj hs
    obtain ⟨-, rfl⟩ := List.cons.inj hs'
    have hone : Taken (token :: (used ++ s)) (token :: (used ++ s')) true s s' := by
      refine ⟨token :: used, rfl, rfl, by simp, ?_⟩
      intro t hmem
      rcases List.mem_cons.mp hmem with rfl | hmem
      · exact hstray
      · exact hused t (List.mem_cons_of_mem _ hmem)
    have := h.trans hone
    rwa [Bool.or_true] at this

/-! ### Phrases by what they do -/

namespace Phrase

/-- Phrases that start at the same token have different ranks; the larger one is
outside. -/
def rank : {α : Type} → Phrase α → Nat
  | _, .type _ | _, .names _ | _, .parameters | _, .fields | _, .block | _, .moreArguments
  | _, .valueCases | _, .typeCases | _, .communications | _, .typeSpec => 1
  | _, .element _ | _, .parameter | _, .result _ | _, .typeParameters | _, .unary _
  | _, .moreElements _ | _, .caseTypes | _, .constantSpec | _, .variableSpec
  | _, .typeGroup => 2
  | _, .typeArguments | _, .methods | _, .moreParameters _ _ | _, .term _ | _, .termTail _ _
  | _, .constantGroup | _, .variableGroup => 3
  | _, .expression _ | _, .arrayOrArguments _ | _, .bracketed => 4
  | _, .expressions _ | _, .arguments | _, .literalElement | _, .simple _ => 5
  | _, .conditional | _, .literal | _, .statement => 6
  | _, .listStatement | _, .suffixes _ _ => 7
  | _, .statements => 8

/-- The number of square brackets that a phrase closes but did not open. -/
def closes : {α : Type} → Phrase α → Nat
  | _, .typeArguments | _, .typeParameters | _, .arrayOrArguments _ | _, .bracketed
  | _, .moreElements _ => 1
  | _, _ => 0

/-- The number of square brackets that have to be open around a phrase because it goes
on after one that it closes. -/
def inside : {α : Type} → Phrase α → Nat
  | _, .arrayOrArguments _ => 1
  | _, _ => 0

/-- A phrase takes at least one token. -/
def moves : {α : Type} → Phrase α → Bool
  | _, .result _ | _, .termTail _ _ | _, .suffixes _ _ | _, .statements => false
  | _, _ => true

theorem rank_pos {α : Type} (phrase : Phrase α) : 0 < phrase.rank := by
  cases phrase <;> simp [rank]

theorem rank_le {α : Type} (phrase : Phrase α) : phrase.rank ≤ 8 := by
  cases phrase <;> simp [rank]

end Phrase

/-! ### Steps that go together -/

section

variable {A : Nat → List Token → List Token → Prop} {start start' : List Token} {k : Nat}
  {m m' : Bool} {α β : Type} {Q : α → List Token → List Token → Prop}

theorem together_pure (a : α) (hm : (!m' || m) = true) :
    Together (At A start start' k m) (pure a) (pure a) fun _ => At A start start' k m' := by
  intro s s' h
  refine ⟨rfl, h.alike, ?_⟩
  cases m' with
  | false => exact h.taken.weaken
  | true =>
    cases m with
    | false => cases hm
    | true => exact h.taken

theorem Together.forget {next : Option Lexeme} {r r' : Reader α}
    (h : Together (At A start start' k m) r r' Q) :
    Together (AtNext A start start' k m next) r r' Q :=
  h.pre fun _ _ hat => hat.toAt

theorem Together.weaken {P : List Token → List Token → Prop} {r r' : Reader α}
    (h : Together P r r' fun _ => At A start start' k m) :
    Together P r r' fun _ => At A start start' k false :=
  h.post fun _ _ _ hat => ⟨hat.alike, hat.taken.weaken⟩

/-- The tokens that are taken are the same on either side. -/
theorem Agree.withTokens {s s' : List Token} {r r' : Reader α}
    (h : Agree (fun _ => At A s s' k m') (r s) (r' s')) (htaken : Taken start start' m s s') :
    Agree (fun _ => At A start start' k (m || m')) (withTokens r s) (withTokens r' s') := by
  rw [withTokens_run, withTokens_run]
  rcases h.cases with ⟨e, e', hr, hr'⟩ | ⟨a, t, t', hr, hr', hat⟩
  · rw [hr, hr']
    trivial
  · rw [hr, hr']
    have htaken' := htaken.trans hat.taken
    obtain ⟨halike, used, rfl, rfl, -, -⟩ := hat
    exact ⟨by simp, halike, htaken'⟩

end

namespace Simulation

variable {A : Nat → List Token → List Token → Prop} {start start' : List Token} {k : Nat}
  {m : Bool} {α : Type} {Q : α → List Token → List Token → Prop}

theorem head_eq (h : Simulation A) {s s' : List Token}
    (hat : At A start start' (k + 1) m s s') : s.head? = s'.head? :=
  h.head hat.alike

/-- Taking a token that is neither stray nor the word `func`. -/
theorem step (h : Simulation A) {token : Token} {s s' : List Token}
    (hat : At A start start' (k + 1) m (token :: s) (token :: s'))
    (hfunc : token.lexeme ≠ .keyword .funcWord) (hstray : token.lexeme ≠ .stray) :
    At A start start' (bracketsAfter token.lexeme (k + 1)) true s s' :=
  ⟨h.tail hat.alike hfunc, hat.taken.next hstray⟩

theorem next (h : Simulation A) {f f' : Option Lexeme → Reader α}
    (hnext : ∀ next, Together (AtNext A start start' (k + 1) m next) (f next) (f' next) Q) :
    Together (At A start start' (k + 1) m) (next? >>= f) (next? >>= f') Q := by
  intro s s' hat
  change Agree Q (f (s.head?.map Token.lexeme) s) (f' (s'.head?.map Token.lexeme) s')
  rw [← h.head_eq hat]
  exact hnext _ s s' ⟨hat, rfl⟩

theorem skip (h : Simulation A) {lexeme : Lexeme}
    (hfunc : (lexeme == .keyword .funcWord) = false) (hstray : (lexeme == .stray) = false) :
    Together (AtNext A start start' (k + 1) m (some lexeme)) skip skip
      fun _ => At A start start' (bracketsAfter lexeme (k + 1)) true := by
  intro s s' hat
  rcases h.head_cases hat.alike with ⟨rfl, rfl⟩ | ⟨token, rest, rest', rfl, rfl⟩
  · cases hat.next_eq
  · obtain rfl : token.lexeme = lexeme := by simpa using hat.next_eq
    exact ⟨rfl, h.step hat.toAt (by simpa using hfunc) (by simpa using hstray)⟩

theorem accepts (h : Simulation A) {lexeme : Lexeme}
    {f f' : Bool → Reader α} (hfunc : (lexeme == .keyword .funcWord) = false)
    (hstray : (lexeme == .stray) = false)
    (htrue : Together (At A start start' (bracketsAfter lexeme (k + 1)) true)
      (f true) (f' true) Q)
    (hfalse : Together (At A start start' (k + 1) m) (f false) (f' false) Q) :
    Together (At A start start' (k + 1) m) (accepts lexeme >>= f) (accepts lexeme >>= f') Q := by
  intro s s' hat
  rw [bind_run, bind_run, accepts_run, accepts_run, ← h.head_eq hat]
  by_cases hnext : (s.head?.map Token.lexeme == some lexeme) = true
  · rw [if_pos hnext, if_pos hnext]
    exact htrue _ _ (h.skip hfunc hstray s s' ⟨hat, eq_of_beq hnext⟩).2
  · rw [if_neg hnext, if_neg hnext]
    exact hfalse s s' hat

theorem expect (h : Simulation A) {lexeme : Lexeme}
    (hfunc : (lexeme == .keyword .funcWord) = false) (hstray : (lexeme == .stray) = false) :
    Together (At A start start' (k + 1) m) (expect lexeme) (expect lexeme)
      fun _ => At A start start' (bracketsAfter lexeme (k + 1)) true := by
  intro s s' hat
  rw [expect_run, expect_run, ← h.head_eq hat]
  split
  · next hnext => exact h.skip hfunc hstray s s' ⟨hat, eq_of_beq hnext⟩
  · trivial

theorem sees (h : Simulation A) (lexeme : Lexeme) :
    Together (At A start start' (k + 1) m) (sees lexeme) (sees lexeme)
      fun _ => At A start start' (k + 1) m := by
  intro s s' hat
  rw [sees_run, sees_run, h.head_eq hat]
  exact ⟨rfl, hat⟩

theorem atLineStart (h : Simulation A) :
    Together (At A start start' (k + 1) m) atLineStart atLineStart
      fun _ => At A start start' (k + 1) m := by
  intro s s' hat
  rw [atLineStart_run, atLineStart_run, h.head_eq hat]
  exact ⟨rfl, hat⟩

theorem endsLine (h : Simulation A) (lineEnds : Bool) :
    Together (At A start start' (k + 1) m) (endsLine lineEnds) (endsLine lineEnds)
      fun _ => At A start start' (k + 1) m :=
  h.atLineStart.bind fun _ => together_pure _ (by cases m <;> rfl)

/-- A terminator takes a token or none. -/
theorem terminator (h : Simulation A) :
    Together (At A start start' (k + 1) true) terminator terminator
      fun _ => At A start start' (k + 1) true := by
  unfold Reader.terminator
  refine h.atLineStart.bind fun starts => ?_
  cases starts with
  | true => exact together_pure _ rfl
  | false =>
    refine h.accepts rfl rfl (together_pure _ rfl) ?_
    rw [← bind_pure (Reader.accepts _)]
    exact h.accepts rfl rfl (together_pure _ rfl) (together_pure _ rfl)

/-! #### Looking further ahead -/

/-- The next token, seen or not. -/
theorem seesNext (h : Simulation A) {lexeme : Lexeme}
    {f f' : Bool → Reader α}
    (htrue : Together (AtNext A start start' (k + 1) m (some lexeme)) (f true) (f' true) Q)
    (hfalse : Together (At A start start' (k + 1) m) (f false) (f' false) Q) :
    Together (At A start start' (k + 1) m) (Reader.sees lexeme >>= f)
      (Reader.sees lexeme >>= f') Q := by
  intro s s' hat
  rw [bind_run, bind_run, sees_run, sees_run, ← h.head_eq hat]
  by_cases hnext : (s.head?.map Token.lexeme == some lexeme) = true
  · rw [hnext]
    exact htrue s s' ⟨hat, eq_of_beq hnext⟩
  · rw [Bool.not_eq_true] at hnext
    rw [hnext]
    exact hfalse s s' hat

/-- The second tokens are the same behind one that is no bracket and not the word
`func`. -/
theorem second_eq (h : Simulation A) {lexeme : Lexeme}
    {s s' : List Token} (hat : AtNext A start start' (k + 1) m (some lexeme) s s')
    (hfunc : (lexeme == .keyword .funcWord) = false)
    (hbrackets : bracketsAfter lexeme (k + 1) = k + 1) : s.tail.head? = s'.tail.head? := by
  rcases h.head_cases hat.alike with ⟨rfl, rfl⟩ | ⟨token, rest, rest', rfl, rfl⟩
  · rfl
  · obtain rfl : token.lexeme = lexeme := by simpa using hat.next_eq
    exact h.head (h.tail_plain hat.alike hfunc hbrackets)

/-- The third token is the same behind two that are no brackets and not the word `func`. The
first one may open a bracket. -/
theorem thirdBehind_eq (h : Simulation A) {s s' : List Token} {first second : Lexeme} {n : Nat}
    (halike : A (k + 1) s s') (hfirst : (first == .keyword .funcWord) = false)
    (hopens : bracketsAfter first (k + 1) = n + 1)
    (hsecond : (second == .keyword .funcWord) = false)
    (hbrackets : bracketsAfter second (n + 1) = n + 1) :
    thirdBehind first second s = thirdBehind first second s' := by
  rcases h.head_cases halike with ⟨rfl, rfl⟩ | ⟨token, rest, rest', rfl, rfl⟩
  · rfl
  rw [thirdBehind_cons, thirdBehind_cons]
  by_cases hone : token.lexeme = first
  · subst hone
    have halike := h.tail halike (by simpa using hfirst)
    rw [hopens] at halike
    rw [← h.head halike]
    by_cases htwo : rest.head?.map Token.lexeme = some second
    · rcases h.head_cases halike with ⟨rfl, rfl⟩ | ⟨token, rest, rest', rfl, rfl⟩
      · rfl
      · obtain rfl : token.lexeme = second := by simpa using htwo
        rw [List.tail_cons, List.tail_cons, h.head (h.tail_plain halike hsecond hbrackets)]
    · rw [if_neg (by simp [htwo]), if_neg (by simp [htwo])]
  · rw [if_neg (by simp [hone]), if_neg (by simp [hone])]

theorem startsGuard_eq (h : Simulation A) {s s' : List Token} (halike : A (k + 1) s s') :
    Grammar.startsGuard s = Grammar.startsGuard s' := by
  rw [startsGuard_eq_any, startsGuard_eq_any, h.thirdBehind_eq halike rfl rfl rfl rfl]

theorem seesGuard (h : Simulation A) :
    Together (At A start start' (k + 1) m) Grammar.seesGuard Grammar.seesGuard
      fun _ => At A start start' (k + 1) m :=
  together_peek (fun _ _ hat => h.startsGuard_eq hat.alike)
    fun _ => together_pure _ (by cases m <;> rfl)

end Simulation

/-! ### Inside a phrase -/

/-- **What a rule may rely on** when its phrase, of rank `rank`, starts at `start` and
`start'`: the phrases of smaller rank there, all phrases at later places, and the
operand that is left when the first mark is halved. -/
structure Setting (A : Nat → List Token → List Token → Prop) (rules rules' : Rules)
    (start start' : List Token) (rank : Nat) : Prop extends Simulation A where
  /-- A phrase of smaller rank at the start. -/
  first {α : Type} (phrase : Phrase α) {k : Nat} : phrase.rank.blt rank = true →
    A (k + phrase.inside + 1) start start' →
    Agree (fun _ => At A start start' (k + phrase.inside + 1 - phrase.closes) phrase.moves)
      (rules α phrase start) (rules' α phrase start')
  /-- A phrase at a later place. -/
  later {α : Type} (phrase : Phrase α) {k : Nat} {s s' : List Token} :
    s.length < start.length → s'.length < start'.length → A (k + phrase.inside + 1) s s' →
    Agree (fun _ => At A s s' (k + phrase.inside + 1 - phrase.closes) phrase.moves)
      (rules α phrase s) (rules' α phrase s')
  /-- An operand that starts with a half. -/
  halved (context : Context) {k : Nat} {token : Token} {s s' : List Token}
      {mark first second : Mark} :
    Nat.ble 2 rank = true → start = token :: s → start' = token :: s' →
    token.lexeme = .mark mark → Grammar.halves? mark = some (first, second) →
    A (k + 1) (halfOf token second :: s) (halfOf token second :: s') →
    Agree (fun _ => At A (halfOf token second :: s) (halfOf token second :: s') (k + 1) true)
      (rules _ (.unary context) (halfOf token second :: s))
      (rules' _ (.unary context) (halfOf token second :: s'))
  /-- No list of parameters starts with a word. -/
  refuses {s : List Token} : s.head?.map Token.lexeme = some .word →
    ∃ e, rules _ .parameters s = .error e
  /-- The same on the other side. -/
  refuses' {s : List Token} : s.head?.map Token.lexeme = some .word →
    ∃ e, rules' _ .parameters s = .error e

namespace Setting

variable {A : Nat → List Token → List Token → Prop} {rules rules' : Rules}
  {start start' : List Token} {rank k : Nat} {m : Bool} {α β : Type}
  {Q : α → List Token → List Token → Prop}

/-- A phrase may be asked for after the first token, or there if its rank is smaller. -/
theorem run (h : Setting A rules rules' start start' rank) (phrase : Phrase α)
    (hrank : (m || phrase.rank.blt rank) = true) {s s' : List Token}
    (hat : At A start start' (k + phrase.inside + 1) m s s') :
    Agree (fun _ => At A s s' (k + phrase.inside + 1 - phrase.closes) phrase.moves)
      (rules α phrase s) (rules' α phrase s') := by
  obtain ⟨halike, used, hs, hs', hm, hstray⟩ := hat
  cases used with
  | nil =>
    obtain rfl : start = s := hs
    obtain rfl : start' = s' := hs'
    cases m with
    | true => exact absurd rfl (hm rfl)
    | false => exact h.first phrase hrank halike
  | cons token used =>
    have hmoved : Taken start start' true s s' := ⟨token :: used, hs, hs', by simp, hstray⟩
    obtain ⟨hlt, hlt'⟩ := hmoved.length_lt
    exact h.later phrase hlt hlt' halike

/-- A phrase, and the tokens that were taken before and after it. -/
theorem callFrom (h : Setting A rules rules' start start' rank) (phrase : Phrase α) {m' : Bool}
    (hrank : (m || phrase.rank.blt rank) = true) (hm : (m || phrase.moves) = m') :
    Together (At A start start' (k + phrase.inside + 1) m) (rules α phrase) (rules' α phrase)
      fun _ => At A start start' (k + phrase.inside + 1 - phrase.closes) m' := by
  intro s s' hat
  refine (h.run phrase hrank hat).mono fun _ t t' hat' => ⟨hat'.alike, ?_⟩
  rw [← hm]
  exact hat.taken.trans hat'.taken

/-- A phrase at the first token. -/
theorem begin (h : Setting A rules rules' start start' rank) {phrase : Phrase α}
    (hrank : phrase.rank.blt rank = true) (hcloses : phrase.closes = 0)
    (hinside : phrase.inside = 0) (hmoves : phrase.moves = true) :
    Together (At A start start' (k + 1) false) (rules α phrase) (rules' α phrase)
      fun _ => At A start start' (k + 1) true := by
  have hcall := h.callFrom (k := k) (m := false) phrase hrank hmoves
  rwa [hcloses, hinside] at hcall

/-- A phrase after the first token. -/
theorem call (h : Setting A rules rules' start start' rank) {phrase : Phrase α}
    (hcloses : phrase.closes = 0) (hinside : phrase.inside = 0) :
    Together (At A start start' (k + 1) true) (rules α phrase) (rules' α phrase)
      fun _ => At A start start' (k + 1) true := by
  have hcall := h.callFrom (k := k) (m := true) phrase rfl rfl
  rwa [hcloses, hinside] at hcall

/-- A phrase after the first token that closes a bracket. -/
theorem callClosing (h : Setting A rules rules' start start' rank) {phrase : Phrase α}
    (hcloses : phrase.closes = 1) (hinside : phrase.inside = 0) :
    Together (At A start start' (k + 1) true) (rules α phrase) (rules' α phrase)
      fun _ => At A start start' k true := by
  have hcall := h.callFrom (k := k) (m := true) phrase rfl rfl
  rwa [hcloses, hinside] at hcall

/-- The tokens that a phrase takes are the same on either side. -/
theorem callWithTokens (h : Setting A rules rules' start start' rank) {phrase : Phrase α}
    {m' : Bool} (hrank : (m || phrase.rank.blt rank) = true) (hcloses : phrase.closes = 0)
    (hinside : phrase.inside = 0) (hm : (m || phrase.moves) = m') :
    Together (At A start start' (k + 1) m) (withTokens (rules α phrase))
      (withTokens (rules' α phrase)) fun _ => At A start start' (k + 1) m' := by
  intro s s' hat
  have hopen : At A start start' (k + phrase.inside + 1) m s s' := by rwa [hinside]
  have hrun := h.run phrase hrank hopen
  rw [hcloses, hinside] at hrun
  rw [← hm]
  exact hrun.withTokens hat.taken

/-- A function literal or type, or no phrase on either side. -/
theorem callFunction (h : Setting A rules rules' start start' rank)
    {f f' : List (List Token) → Reader α}
    (hnext : ∀ parameters,
      Together (At A start start' (k + 1) true) (f parameters) (f' parameters) Q) :
    Together (AtNext A start start' (k + 1) m (some (.keyword .funcWord)))
      (Reader.skip >>= fun _ => rules _ .parameters >>= f)
      (Reader.skip >>= fun _ => rules' _ .parameters >>= f') Q := by
  intro s s' hat
  rcases h.head_cases hat.alike with ⟨rfl, rfl⟩ | ⟨token, rest, rest', rfl, rfl⟩
  · cases hat.next_eq
  have hfunc : token.lexeme = .keyword .funcWord := by simpa using hat.next_eq
  have htaken := hat.taken.next (by rw [hfunc]; simp)
  change Agree Q ((rules _ .parameters >>= f) rest) ((rules' _ .parameters >>= f') rest')
  rcases h.func hat.alike hfunc with halike | ⟨hword, hword'⟩
  · exact ((h.call rfl rfl).bind hnext) rest rest' ⟨halike, htaken⟩
  · -- a word follows, so that there is no list of parameters
    obtain ⟨e, he⟩ := h.refuses hword
    obtain ⟨e', he'⟩ := h.refuses' hword'
    rw [bind_run, bind_run, he, he']
    trivial

end Setting

end EntryProbe.Go
