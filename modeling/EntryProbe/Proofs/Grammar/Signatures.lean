import EntryProbe.Proofs.Grammar.Fence
import EntryProbe.Proofs.Grammar.FirstGap
import EntryProbe.Proofs.SpanOrder

/-!
# Reading the outline on two sides

The readers of the top level do the same on tokens that are alike: those of words,
signatures and imports (`EntryProbe.Go.Simulation.readSignature`,
`EntryProbe.Go.Simulation.readImports`), and the question whether the word `func` declares a
function (`EntryProbe.Go.Fenced.declaresFunction_eq`).
-/

namespace EntryProbe.Go

open Reader

/-! ### What a phrase takes -/

theorem simulation_eq : Simulation fun _ => Eq where
  head h := by rw [h]
  tail h _ := List.tail_eq_of_cons_eq h
  func h _ := .inl (List.tail_eq_of_cons_eq h)
  half h _ _ := by rw [List.tail_eq_of_cons_eq h]
  isBody h := by rw [h]

/-- **A phrase takes tokens off the front**, none of them stray. -/
theorem exists_taken {α : Type} {phrase : Phrase α} {tokens rest : List Token} {answer : α}
    (h : recognize phrase tokens = .ok (answer, rest)) :
    ∃ used, tokens = used ++ rest ∧ (phrase.moves = true → used ≠ []) ∧
      ∀ token ∈ used, token.lexeme ≠ .stray := by
  have hagree := simulation_eq.recognize phrase (k := 0) (rfl : tokens = tokens)
  rw [h] at hagree
  obtain ⟨-, -, used, happend, -, hmoves, hstray⟩ := hagree
  exact ⟨used, happend, hmoves, hstray⟩

/-! ### Signatures -/

namespace Simulation

variable {A : Nat → List Token → List Token → Prop} {start start' : List Token} {k : Nat}
  {m : Bool} {α : Type}

/-- A phrase that closes no bracket, after other tokens. -/
theorem recognizeNext (h : Simulation A) (phrase : Phrase α) (hcloses : phrase.closes = 0)
    (hinside : phrase.inside = 0) {m' : Bool} (hm : (m || phrase.moves) = m') :
    Together (At A start start' (k + 1) m) (Go.recognize phrase) (Go.recognize phrase)
      fun _ => At A start start' (k + 1) m' := by
  intro s s' hat
  have hopen : A (k + phrase.inside + 1) s s' := by
    rw [hinside]
    exact hat.alike
  have hagree := h.recognize phrase hopen
  rw [hinside, hcloses] at hagree
  refine hagree.mono fun _ t t' hat' => ⟨hat'.alike, ?_⟩
  rw [← hm]
  exact hat.taken.trans hat'.taken

theorem readWord (h : Simulation A) :
    Together (At A start start' (k + 1) m) readWord readWord
      fun _ => At A start start' (k + 1) true := by
  unfold Go.readWord
  refine together_ahead fun s s' hat => ?_
  rcases h.head_cases hat.alike with ⟨rfl, rfl⟩ | ⟨token, rest, rest', rfl, rfl⟩
  · trivial
  · exact ((h.expect rfl rfl).bind fun _ => together_return _) _ _ hat

theorem readReceiver (h : Simulation A) :
    Together (At A start start' (k + 1) false) readReceiver readReceiver
      fun _ => At A start start' (k + 1) false := by
  unfold Go.readReceiver
  refine (h.sees _).bind fun hasName => ?_
  cases hasName with
  | true => exact together_return _
  | false =>
    refine Together.bind (Q := fun _ => At A start start' (k + 1) true) ?_ fun _ =>
      together_pure _ rfl
    intro s s' hat
    have hagree := h.recognize .parameters hat.alike
    exact hagree.withTokens hat.taken

theorem readTypeParameters (h : Simulation A) (isMethod : Bool) :
    Together (At A start start' (k + 1) true) (readTypeParameters isMethod)
      (readTypeParameters isMethod) fun _ => At A start start' (k + 1) true := by
  unfold Go.readTypeParameters
  cases isMethod with
  | true => exact together_return _
  | false =>
    refine h.accepts rfl rfl ?_ (together_return _)
    intro s s' hat
    have hagree := h.recognize .typeParameters hat.alike
    exact hagree.mono fun _ t t' hat' => ⟨hat'.alike, hat.taken.trans hat'.taken⟩

theorem readSignature (h : Simulation A) :
    Together (At A start start' (k + 1) false) readSignature readSignature
      fun _ => At A start start' (k + 1) true := by
  unfold Go.readSignature
  refine h.readReceiver.bind fun receiver => ?_
  refine h.readWord.bind fun name => ?_
  refine (h.readTypeParameters _).bind fun _ => ?_
  refine (h.recognizeNext .parameters rfl rfl rfl).bind fun params => ?_
  refine (h.recognizeNext (.result true) rfl rfl rfl).bind fun result => ?_
  exact together_pure _ rfl

/-! ### Imports -/

theorem readImportSpec (h : Simulation A) :
    Together (At A start start' (k + 1) m) readImportSpec readImportSpec
      fun _ => At A start start' (k + 1) true := by
  -- whatever stands in front of it, the path is read alike
  have hpath : ∀ (read : Reader ImportSpec) (spec : Token → ImportSpec) (m : Bool),
      read [] = Reader.halt [] →
      (∀ path rest, read (path :: rest) =
        (Reader.expect .string >>= fun _ => pure (spec path)) (path :: rest)) →
      Together (At A start start' (k + 1) m) read read
        fun _ => At A start start' (k + 1) true := by
    intro read spec m hnil hcons s s' hat
    rcases h.head_cases hat.alike with ⟨rfl, rfl⟩ | ⟨path, rest, rest', rfl, rfl⟩
    · rw [hnil]
      trivial
    · rw [hcons, hcons]
      exact ((h.expect rfl rfl).bind fun _ => together_return _) _ _ hat
  unfold Go.readImportSpec
  refine together_ahead fun s s' hat => ?_
  rcases h.head_cases hat.alike with ⟨rfl, rfl⟩ | ⟨token, rest, rest', rfl, rfl⟩
  · trivial
  refine (?_ : Together (AtNext A start start' (k + 1) m (some token.lexeme)) _ _ _)
    (token :: rest) (token :: rest') ⟨hat, rfl⟩
  dsimp only
  split
  · next hname =>
    rcases hname with hword | hdot
    · rw [hword]
      refine (h.skip rfl rfl).bind fun _ => ?_
      exact hpath _ (fun path => ⟨_, nodeText [path]⟩) _ rfl fun _ _ => rfl
    · rw [hdot]
      refine (h.skip rfl rfl).bind fun _ => ?_
      exact hpath _ (fun path => ⟨_, nodeText [path]⟩) _ rfl fun _ _ => rfl
  · refine Together.forget ?_
    exact hpath _ (fun path => ⟨_, nodeText [path]⟩) _ rfl fun _ _ => rfl

theorem readImportGroup (h : Simulation A) {fuel fuel' : Nat} {s s' : List Token}
    (hfuel : s.length < fuel) (hfuel' : s'.length < fuel')
    (hat : At A start start' (k + 1) m s s') :
    Agree (fun _ => At A start start' (k + 1) true) (readImportGroup fuel s)
      (readImportGroup fuel' s') := by
  induction fuel generalizing fuel' m s s' start start' with
  | zero => cases hfuel
  | succ fuel ih =>
    cases fuel' with
    | zero => cases hfuel'
    | succ fuel' =>
      -- the tokens that are left become fewer with each import
      have hgroup : Together (At A s s' (k + 1) true) (Go.readImportGroup fuel)
          (Go.readImportGroup fuel') fun _ => At A s s' (k + 1) true := by
        intro t t' hat'
        obtain ⟨hlt, hlt'⟩ := hat'.taken.length_lt
        exact ih (by omega) (by omega) hat'
      have hread : Together (At A s s' (k + 1) false) (Go.readImportGroup (fuel + 1))
          (Go.readImportGroup (fuel' + 1)) fun _ => At A s s' (k + 1) true := by
        unfold Go.readImportGroup
        refine h.accepts rfl rfl (together_return _) ?_
        refine h.readImportSpec.bind fun spec => ?_
        refine h.terminator.bind fun ends => ?_
        cases ends with
        | true => exact hgroup.bind fun specs => together_return _
        | false => exact (h.expect rfl rfl).bind fun _ => together_return _
      refine (hread s s' ⟨hat.alike, Taken.refl s s'⟩).mono fun _ t t' hat' => ⟨hat'.alike, ?_⟩
      have htaken := hat.taken.trans hat'.taken
      rwa [Bool.or_true] at htaken

theorem readImports (h : Simulation A) :
    Together (At A start start' (k + 1) m) readImports readImports
      fun _ => At A start start' (k + 1) true := by
  unfold Go.readImports
  refine h.accepts rfl rfl ?_ (h.readImportSpec.bind fun _ => together_return _)
  refine together_ahead fun s s' hat => ?_
  exact h.readImportGroup (Nat.lt_succ_self _) (Nat.lt_succ_self _) hat

end Simulation

/-! ### Declared functions -/

section

variable {Put : Token → List Token → Token → Prop} {s s' : List Token}

/-- The tokens after the word `func` declare a function on both sides or on none. -/
theorem Fenced.declaresFunction_eq (hput : Insertion Put) (h : Fenced Put s s') :
    declaresFunction s = declaresFunction s' := by
  have hsimulation := simulation_fenced hput
  rcases hsimulation.head_cases (k := 0) h with ⟨rfl, rfl⟩ | ⟨token, rest, rest', rfl, rfl⟩
  · rfl
  have hagree := hsimulation.recognize .parameters (k := 0) h
  simp only [declaresFunction]
  rcases hagree.cases with ⟨e, e', hr, hr'⟩ | ⟨a, t, t', hr, hr', hat, -⟩
  · rw [hr, hr']
  rw [hr, hr']
  rcases hsimulation.head_cases (k := 0) hat with ⟨rfl, rfl⟩ | ⟨name, t, t', rfl, rfl⟩
  · rfl
  rcases hat.tail with hat | ⟨hfunc, hword, hword'⟩
  · rcases hsimulation.head_cases (k := 0) hat with ⟨rfl, rfl⟩ | ⟨list, t, t', rfl, rfl⟩
    · rfl
    · rfl
  · -- the word `func` is no name
    rcases t with _ | ⟨list, t⟩
    · cases hword
    rcases t' with _ | ⟨list', t'⟩
    · cases hword'
    have hname : (name.lexeme == .word) = false := by
      rw [hfunc]
      rfl
    simp only [hname, Bool.false_and]

end

end EntryProbe.Go
