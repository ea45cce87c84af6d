import EntryProbe.Proofs.Grammar.Together

/-!
# The grammar of types, on two sides

Each rule of the grammar of types does the same on tokens that are alike, if the phrases it
asks for do (`EntryProbe.Go.Setting`). The lemmas follow the rules one by one.
-/

namespace EntryProbe.Go

namespace Simulation

variable {A : Nat → List Token → List Token → Prop} {start start' : List Token} {k : Nat}

theorem parameterEnd (h : Simulation A) :
    Together (At A start start' (k + 1) true) (Reader.withTokens Grammar.parameterEnd)
      (Reader.withTokens Grammar.parameterEnd) fun _ => At A start start' (k + 1) true := by
  intro s s' hat
  have hend : Together (At A s s' (k + 1) false) Grammar.parameterEnd Grammar.parameterEnd
      fun _ => At A s s' (k + 1) false := by
    unfold Grammar.parameterEnd
    refine h.accepts rfl rfl ?_ ?_
    · exact together_pure _ rfl
    · refine (h.sees _).bind fun closes => ?_
      cases closes with
      | true => exact together_pure _ rfl
      | false => exact together_halt
  exact (hend s s' ⟨hat.alike, Taken.refl s s'⟩).withTokens hat.taken

theorem startsMethod_eq (h : Simulation A) {s s' : List Token} (halike : A (k + 1) s s') :
    Grammar.startsMethod s = Grammar.startsMethod s' := by
  rcases h.head_cases halike with ⟨rfl, rfl⟩ | ⟨first, rest, rest', rfl, rfl⟩
  · rfl
  have hcons : ∀ rest, Grammar.startsMethod (first :: rest) =
      (first.lexeme == .word && rest.head?.any fun second =>
        second.lexeme == .mark .openParen && !second.onNewLine) := by
    intro rest
    cases rest with
    | nil => simp [Grammar.startsMethod]
    | cons second rest => simp [Grammar.startsMethod, Bool.and_assoc]
  rw [hcons, hcons]
  rcases hfirst : first.lexeme == .word with _ | _
  · rfl
  have hfirst := eq_of_beq hfirst
  have halike := h.tail_plain halike (by rw [hfirst]; rfl) (by rw [hfirst]; rfl)
  rw [h.head halike]

end Simulation

namespace Setting

variable {A : Nat → List Token → List Token → Prop} {rules rules' : Rules}
  {start start' : List Token} {k : Nat}

theorem typeArgumentsTail {rank : Nat} (h : Setting A rules rules' start start' rank)
    (lineEnds : Bool) :
    Together (At A start start' (k + 1) true) (Grammar.typeArgumentsTail rules lineEnds)
      (Grammar.typeArgumentsTail rules' lineEnds) fun _ => At A start start' (k + 1) true := by
  unfold Grammar.typeArgumentsTail
  refine (h.endsLine lineEnds).bind fun ends => ?_
  cases ends with
  | true => exact together_pure _ rfl
  | false =>
    refine h.accepts rfl rfl ?_ ?_
    · exact h.callClosing rfl rfl
    · exact together_pure _ rfl

theorem typeNameTail {rank : Nat} (h : Setting A rules rules' start start' rank)
    (lineEnds : Bool) :
    Together (At A start start' (k + 1) true) (Grammar.typeNameTail rules lineEnds)
      (Grammar.typeNameTail rules' lineEnds) fun _ => At A start start' (k + 1) true := by
  unfold Grammar.typeNameTail
  refine (h.endsLine lineEnds).bind fun ends => ?_
  cases ends with
  | true => exact h.typeArgumentsTail lineEnds
  | false =>
    refine h.accepts rfl rfl ?_ ?_
    · refine (h.expect rfl rfl).bind fun _ => ?_
      exact h.typeArgumentsTail lineEnds
    · exact h.typeArgumentsTail lineEnds

theorem type (h : Setting A rules rules' start start' 1) (lineEnds : Bool) :
    Together (At A start start' (k + 1) false) (Grammar.type rules lineEnds)
      (Grammar.type rules' lineEnds) fun _ => At A start start' (k + 1) true := by
  unfold Grammar.type
  refine h.next fun next => ?_
  split
  · -- a name
    refine (h.skip rfl rfl).bind fun _ => ?_
    exact h.typeNameTail lineEnds
  · -- a pointer
    refine (h.skip rfl rfl).bind fun _ => ?_
    exact h.call rfl rfl
  · refine (h.skip rfl rfl).bind fun _ => ?_
    refine (h.call rfl rfl).bind fun _ => ?_
    exact h.typeArgumentsTail lineEnds
  · -- a type in parentheses
    refine (h.skip rfl rfl).bind fun _ => ?_
    refine (h.call rfl rfl).bind fun _ => ?_
    exact h.expect rfl rfl
  · -- an array or a slice
    refine (h.skip rfl rfl).bind fun _ => ?_
    refine h.accepts rfl rfl ?_ ?_
    · exact h.call rfl rfl
    · refine (h.call rfl rfl).bind fun _ => ?_
      refine (h.expect rfl rfl).bind fun _ => ?_
      exact h.call rfl rfl
  · refine (h.skip rfl rfl).bind fun _ => ?_
    refine (h.expect rfl rfl).bind fun _ => ?_
    exact h.call rfl rfl
  · -- a channel
    refine (h.skip rfl rfl).bind fun _ => ?_
    refine h.accepts rfl rfl ?_ ?_
    · exact h.call rfl rfl
    · exact h.call rfl rfl
  · -- a map
    refine (h.skip rfl rfl).bind fun _ => ?_
    refine (h.expect rfl rfl).bind fun _ => ?_
    refine (h.call rfl rfl).bind fun _ => ?_
    refine (h.expect rfl rfl).bind fun _ => ?_
    exact h.call rfl rfl
  · refine (h.skip rfl rfl).bind fun _ => ?_
    refine (h.expect rfl rfl).bind fun _ => ?_
    exact h.call rfl rfl
  · refine (h.skip rfl rfl).bind fun _ => ?_
    refine (h.expect rfl rfl).bind fun _ => ?_
    exact h.call rfl rfl
  · refine h.callFunction fun _ => ?_
    refine (h.call rfl rfl).bind fun _ => ?_
    exact together_pure _ rfl
  · exact together_halt

theorem element (h : Setting A rules rules' start start' 2) (lineEnds : Bool) :
    Together (At A start start' (k + 1) false) (Grammar.element rules lineEnds)
      (Grammar.element rules' lineEnds) fun _ => At A start start' (k + 1) true := by
  unfold Grammar.element
  refine (h.begin rfl rfl rfl rfl).bind fun _ => ?_
  refine (h.endsLine lineEnds).bind fun ends => ?_
  cases ends with
  | true => exact together_pure _ rfl
  | false =>
    refine h.accepts rfl rfl ?_ ?_
    · exact h.call rfl rfl
    · exact together_pure _ rfl

theorem typeArguments (h : Setting A rules rules' start start' 3) :
    Together (At A start start' (k + 1) false) (Grammar.typeArguments rules)
      (Grammar.typeArguments rules') fun _ => At A start start' k true := by
  unfold Grammar.typeArguments
  refine (h.begin rfl rfl rfl rfl).bind fun _ => ?_
  refine h.accepts rfl rfl ?_ ?_
  · refine h.accepts rfl rfl ?_ ?_
    · exact together_pure _ rfl
    · exact h.callClosing rfl rfl
  · exact h.expect rfl rfl

theorem typeParameters (h : Setting A rules rules' start start' 2) :
    Together (At A start start' (k + 1) false) (Grammar.typeParameters rules)
      (Grammar.typeParameters rules') fun _ => At A start start' k true := by
  unfold Grammar.typeParameters
  refine (h.begin rfl rfl rfl rfl).bind fun _ => ?_
  refine (h.call rfl rfl).bind fun _ => ?_
  refine h.accepts rfl rfl ?_ ?_
  · refine h.accepts rfl rfl ?_ ?_
    · exact together_pure _ rfl
    · exact h.callClosing rfl rfl
  · exact h.expect rfl rfl

theorem names (h : Setting A rules rules' start start' 1) (lineEnds : Bool) :
    Together (At A start start' (k + 1) false) (Grammar.names rules lineEnds)
      (Grammar.names rules' lineEnds) fun _ => At A start start' (k + 1) true := by
  unfold Grammar.names
  refine (h.expect rfl rfl).bind fun _ => ?_
  refine (h.endsLine lineEnds).bind fun ends => ?_
  cases ends with
  | true => exact together_pure _ rfl
  | false =>
    refine h.accepts rfl rfl ?_ ?_
    · exact h.call rfl rfl
    · exact together_pure _ rfl

theorem arrayOrArguments (h : Setting A rules rules' start start' 4) (lineEnds : Bool) :
    Together (At A start start' (k + 2) false) (Grammar.arrayOrArguments rules lineEnds)
      (Grammar.arrayOrArguments rules' lineEnds) fun _ => At A start start' (k + 1) true := by
  unfold Grammar.arrayOrArguments
  refine h.accepts rfl rfl ?_ ?_
  · refine (h.call rfl rfl).bind fun _ => ?_
    exact together_pure _ rfl
  refine (h.begin rfl rfl rfl rfl).bind fun reading => ?_
  refine h.accepts rfl rfl ?_ ?_
  · -- more elements
    refine (together_require _).bind fun _ => ?_
    refine (h.callClosing rfl rfl).bind fun _ => ?_
    exact together_pure _ rfl
  refine (h.expect rfl rfl).bind fun _ => ?_
  refine h.next fun next => Together.forget ?_
  refine (h.endsLine lineEnds).bind fun ends => ?_
  split
  · refine (together_require _).bind fun _ => ?_
    refine (h.call rfl rfl).bind fun _ => ?_
    exact together_pure _ rfl
  · refine (together_require _).bind fun _ => ?_
    exact together_pure _ rfl

theorem parameter (h : Setting A rules rules' start start' 2) :
    Together (At A start start' (k + 1) false) (Grammar.parameter rules)
      (Grammar.parameter rules') fun _ => At A start start' (k + 1) true := by
  unfold Grammar.parameter
  refine h.accepts rfl rfl ?_ ?_
  · refine (h.call rfl rfl).bind fun _ => ?_
    exact together_pure _ rfl
  refine h.seesNext ?_ ?_
  · refine together_ahead fun s s' hat => ?_
    rw [h.second_eq hat rfl rfl]
    generalize s'.tail.head?.map Token.lexeme = second
    refine (?_ : Together (AtNext A start start' (k + 1) false (some .word)) _ _ _) s s' hat
    split
    · refine (h.skip rfl rfl).bind fun _ => ?_
      exact together_pure _ rfl
    · refine (h.skip rfl rfl).bind fun _ => ?_
      exact together_pure _ rfl
    · refine (h.skip rfl rfl).bind fun _ => ?_
      refine (h.expect rfl rfl).bind fun _ => ?_
      refine (h.call rfl rfl).bind fun _ => ?_
      exact together_pure _ rfl
    · refine Together.forget ?_
      refine (h.begin rfl rfl rfl rfl).bind fun _ => ?_
      exact together_pure _ rfl
    · refine (h.skip rfl rfl).bind fun _ => ?_
      refine (h.expect rfl rfl).bind fun _ => ?_
      exact h.callFrom (.arrayOrArguments false) rfl rfl
    · refine (h.skip rfl rfl).bind fun _ => ?_
      refine (h.call rfl rfl).bind fun _ => ?_
      exact together_pure _ rfl
  · refine (h.begin rfl rfl rfl rfl).bind fun _ => ?_
    exact together_pure _ rfl

theorem moreParameters (h : Setting A rules rules' start start' 3) (run : List Token)
    (names : List (List Token)) :
    Together (At A start start' (k + 1) false) (Grammar.moreParameters rules run names)
      (Grammar.moreParameters rules' run names) fun _ => At A start start' (k + 1) true := by
  unfold Grammar.moreParameters
  refine h.accepts rfl rfl ?_ ?_
  · exact together_pure _ rfl
  refine (h.callWithTokens rfl rfl rfl rfl).bind fun ⟨form, tokens⟩ => ?_
  refine h.parameterEnd.bind fun ⟨_, comma⟩ => ?_
  cases form with
  | bare => exact h.call rfl rfl
  | typed =>
    refine (h.call rfl rfl).bind fun _ => ?_
    exact together_pure _ rfl
  | whole =>
    refine (h.call rfl rfl).bind fun _ => ?_
    exact together_pure _ rfl

theorem parameters (h : Setting A rules rules' start start' 1) :
    Together (At A start start' (k + 1) false) (Grammar.parameters rules)
      (Grammar.parameters rules') fun _ => At A start start' (k + 1) true := by
  unfold Grammar.parameters
  refine (h.expect rfl rfl).bind fun _ => ?_
  refine h.accepts rfl rfl ?_ ?_
  · refine (h.expect rfl rfl).bind fun _ => ?_
    exact together_pure _ rfl
  · exact h.call rfl rfl

theorem result (h : Setting A rules rules' start start' 2) (lineEnds : Bool) :
    Together (At A start start' (k + 1) false) (Grammar.result rules lineEnds)
      (Grammar.result rules' lineEnds) fun _ => At A start start' (k + 1) false := by
  unfold Grammar.result
  refine (h.endsLine lineEnds).bind fun ends => ?_
  cases ends with
  | true => exact together_pure _ rfl
  | false =>
    refine h.next fun next => Together.forget ?_
    split
    · refine (h.callWithTokens rfl rfl rfl rfl).bind fun _ => ?_
      exact together_pure _ rfl
    · split
      · refine (h.callWithTokens rfl rfl rfl rfl).bind fun _ => ?_
        exact together_pure _ rfl
      · exact together_pure _ rfl
    · exact together_pure _ rfl

theorem field {rank : Nat} (h : Setting A rules rules' start start' rank) :
    Together (At A start start' (k + 1) false) (Grammar.field rules)
      (Grammar.field rules') fun _ => At A start start' (k + 1) true := by
  unfold Grammar.field
  refine h.accepts rfl rfl ?_ ?_
  · refine (h.expect rfl rfl).bind fun _ => ?_
    exact h.typeNameTail true
  refine (h.expect rfl rfl).bind fun _ => ?_
  refine h.atLineStart.bind fun starts => ?_
  cases starts with
  | true => exact together_pure _ rfl
  | false =>
    refine h.next fun next => ?_
    split
    · refine (h.skip rfl rfl).bind fun _ => ?_
      refine (h.call rfl rfl).bind fun _ => ?_
      exact h.call rfl rfl
    · exact (h.typeNameTail true).forget
    · refine (h.skip rfl rfl).bind fun _ => ?_
      refine (h.callFrom (.arrayOrArguments true) rfl rfl).bind fun _ => ?_
      exact together_pure _ rfl
    · refine Together.forget ?_
      split
      · exact h.call rfl rfl
      · exact together_pure _ rfl
    · exact Together.forget (together_pure _ rfl)

theorem fields (h : Setting A rules rules' start start' 1) :
    Together (At A start start' (k + 1) false) (Grammar.fields rules)
      (Grammar.fields rules') fun _ => At A start start' (k + 1) true := by
  unfold Grammar.fields
  refine h.accepts rfl rfl ?_ ?_
  · exact together_pure _ rfl
  refine h.field.bind fun _ => ?_
  refine h.atLineStart.bind fun starts => ?_
  have hend : Together (At A start start' (k + 1) true) (do
        if ← Reader.terminator then rules _ .fields else Reader.expect (.mark .closeBrace))
      (do if ← Reader.terminator then rules' _ .fields else Reader.expect (.mark .closeBrace))
      fun _ => At A start start' (k + 1) true := by
    refine h.terminator.bind fun ends => ?_
    cases ends with
    | true => exact h.call rfl rfl
    | false => exact h.expect rfl rfl
  cases starts with
  | true => exact hend
  | false => exact h.accepts rfl rfl hend hend

theorem methods (h : Setting A rules rules' start start' 3) :
    Together (At A start start' (k + 1) false) (Grammar.methods rules)
      (Grammar.methods rules') fun _ => At A start start' (k + 1) true := by
  unfold Grammar.methods
  refine h.accepts rfl rfl ?_ ?_
  · exact together_pure _ rfl
  have hend : Together (At A start start' (k + 1) true) (do
        if ← Reader.terminator then rules _ .methods else Reader.expect (.mark .closeBrace))
      (do if ← Reader.terminator then rules' _ .methods else Reader.expect (.mark .closeBrace))
      fun _ => At A start start' (k + 1) true := by
    refine h.terminator.bind fun ends => ?_
    cases ends with
    | true => exact h.call rfl rfl
    | false => exact h.expect rfl rfl
  refine together_ahead fun s s' hat => ?_
  rw [h.startsMethod_eq hat.alike]
  generalize Grammar.startsMethod s' = isMethod
  refine (?_ : Together (At A start start' (k + 1) false) _ _ _) s s' hat
  cases isMethod with
  | true =>
    refine (h.expect rfl rfl).bind fun _ => ?_
    refine (h.call rfl rfl).bind fun _ => ?_
    exact (h.call rfl rfl).bind fun _ => hend
  | false => exact (h.begin rfl rfl rfl rfl).bind fun _ => hend

end Setting

end EntryProbe.Go
