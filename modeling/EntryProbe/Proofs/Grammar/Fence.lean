import EntryProbe.Proofs.Grammar.Recognize

/-!
# Tokens put in behind a brace

A block is put in behind an opening brace of a program. What stands before that brace is
read as before, and this file says why: the two sequences of tokens, without and with
the block, are alike in the sense of `EntryProbe.Go.Simulation`.

* `EntryProbe.Go.Grown` – the sequences themselves. Braces stay balanced, so groups in
  braces end at the same places.
* `EntryProbe.Go.Fenced` – tokens in front of the function that a block is put into. The
  word `func` and the name behind it are the fence: no phrase goes past them.
* `EntryProbe.Go.Walled` – tokens inside square brackets that close before the brace. No
  phrase inside the brackets goes past the closing one.

How many brackets a phrase has closed when it ends is known from the phrase
(`EntryProbe.Go.walled_of_recognize`), so that the second relation holds wherever a list
of type parameters was read.
-/

namespace EntryProbe.Go

/-! ### Growth -/

/-- A group of tokens that leaves the number of open braces as it was. -/
def Balanced (tokens : List Token) : Prop :=
  ∀ depth rest, Grammar.afterBraces (depth + 1) (tokens ++ rest) =
    Grammar.afterBraces (depth + 1) rest

/-- What is put in: `Put token inserted token'` says that `inserted` comes in front of
`token`, which thereby becomes `token'`. It is still the same but for the gap. -/
structure Insertion (Put : Token → List Token → Token → Prop) : Prop where
  /-- What is put in is balanced. -/
  balanced {token token' : Token} {inserted : List Token} : Put token inserted token' →
    Balanced inserted
  /-- The token behind it keeps its kind. -/
  lexeme_eq {token token' : Token} {inserted : List Token} : Put token inserted token' →
    token'.lexeme = token.lexeme

/-- **Tokens put in behind some opening braces.** -/
inductive Grown (Put : Token → List Token → Token → Prop) : List Token → List Token → Prop
  /-- Nothing is left. -/
  | nil : Grown Put [] []
  /-- A token is kept. -/
  | keep (token : Token) {s s' : List Token} : Grown Put s s' → Grown Put (token :: s) (token :: s')
  /-- Tokens are put in behind a brace. -/
  | put {brace token token' : Token} {inserted s s' : List Token} :
      brace.lexeme = .mark .openBrace → Put token inserted token' → Grown Put s s' →
      Grown Put (brace :: token :: s) (brace :: (inserted ++ token' :: s'))

section

variable {Put : Token → List Token → Token → Prop} {s s' : List Token}

theorem Grown.refl (s : List Token) : Grown Put s s := by
  induction s with
  | nil => exact .nil
  | cons token s ih => exact .keep token ih

theorem Grown.keepAll (kept : List Token) (h : Grown Put s s') :
    Grown Put (kept ++ s) (kept ++ s') := by
  induction kept with
  | nil => exact h
  | cons token kept ih => exact .keep token ih

theorem Grown.head_eq (h : Grown Put s s') : s.head? = s'.head? := by
  cases h with
  | nil => rfl
  | keep token _ => rfl
  | put _ _ _ => rfl

theorem Grown.afterBraces_eq (hput : Insertion Put) (h : Grown Put s s') (depth : Nat) :
    (Grammar.afterBraces depth s).head? = (Grammar.afterBraces depth s').head? := by
  -- the depth is at least one behind the brace, which is why a balanced group is passed
  induction h generalizing depth with
  | nil => rfl
  | @keep token s s' hgrown ih =>
    simp only [Grammar.afterBraces]
    split
    · exact ih _
    · split
      · exact hgrown.head_eq
      · exact ih _
    · exact ih _
  | @put brace token token' inserted s s' hbrace hmid hgrown ih =>
    simp only [Grammar.afterBraces, hbrace]
    rw [hput.balanced hmid]
    simp only [Grammar.afterBraces, hput.lexeme_eq hmid]
    split
    · exact ih _
    · split
      · exact hgrown.head_eq
      · exact ih _
    · exact ih _

/-- **A group in braces is a body or not, whatever was put into it.** -/
theorem Grown.isBody_eq (hput : Insertion Put) (h : Grown Put s s') :
    Grammar.isBody s = Grammar.isBody s' := by
  have hhead := h.afterBraces_eq hput 0
  simp only [Grammar.isBody]
  generalize Grammar.afterBraces 0 s = rest at hhead
  generalize Grammar.afterBraces 0 s' = rest' at hhead
  rcases rest with _ | ⟨token, rest⟩ <;> rcases rest' with _ | ⟨token', rest'⟩
  · rfl
  · cases hhead
  · cases hhead
  · cases hhead
    rfl

/-! ### Behind a fence -/

/-- **Tokens that are the same up to the name of a declared function.** -/
inductive Fenced (Put : Token → List Token → Token → Prop) : List Token → List Token → Prop
  /-- There is no difference. -/
  | same (s : List Token) : Fenced Put s s
  /-- The word `func` and a name come next. -/
  | fence {word name : Token} {s s' : List Token} : word.lexeme = .keyword .funcWord →
      name.lexeme = .word → Grown Put s s' → Fenced Put (word :: name :: s) (word :: name :: s')
  /-- A token that is the same comes next. -/
  | keep (token : Token) {s s' : List Token} : Fenced Put s s' →
      Fenced Put (token :: s) (token :: s')

theorem Fenced.grown (h : Fenced Put s s') : Grown Put s s' := by
  induction h with
  | same s => exact .refl s
  | fence _ _ hgrown => exact .keep _ (.keep _ hgrown)
  | keep token _ ih => exact .keep token ih

theorem Fenced.keepAll (kept : List Token) (h : Fenced Put s s') :
    Fenced Put (kept ++ s) (kept ++ s') := by
  induction kept with
  | nil => exact h
  | cons token kept ih => exact .keep token ih

/-- The fence stands behind the word `func`; all other tokens may be taken. -/
theorem Fenced.tail {token : Token} (h : Fenced Put (token :: s) (token :: s')) :
    Fenced Put s s' ∨ token.lexeme = .keyword .funcWord ∧
      s.head?.map Token.lexeme = some .word ∧ s'.head?.map Token.lexeme = some .word := by
  cases h with
  | same => exact .inl (.same s)
  | fence hword hname _ => exact .inr ⟨hword, by simpa using hname, by simpa using hname⟩
  | keep _ h => exact .inl h

theorem Fenced.tail_of_ne {token : Token} (h : Fenced Put (token :: s) (token :: s'))
    (hne : token.lexeme ≠ .keyword .funcWord) : Fenced Put s s' := by
  rcases h.tail with h | ⟨hfunc, -⟩
  · exact h
  · exact absurd hfunc hne

/-- **Fenced tokens are alike**, whatever brackets are open. -/
theorem simulation_fenced (hput : Insertion Put) : Simulation fun _ => Fenced Put where
  head h := h.grown.head_eq
  tail h hne := h.tail_of_ne hne
  func h _ := by
    rcases h.tail with h | ⟨-, hword⟩
    · exact .inl h
    · exact .inr hword
  half h hmark _ := .keep _ (h.tail_of_ne (by rw [hmark]; simp))
  isBody h := h.grown.isBody_eq hput

/-! ### Behind a wall -/

/-- **Tokens that are the same up to a closing bracket**, the one that closes the last of
`brackets` brackets. -/
inductive Walled (Put : Token → List Token → Token → Prop) :
    (brackets : Nat) → List Token → List Token → Prop
  /-- No bracket is open. -/
  | wall {s s' : List Token} : Grown Put s s' → Walled Put 0 s s'
  /-- A token that is the same comes next. -/
  | keep {token : Token} {k : Nat} {s s' : List Token} :
      Walled Put (bracketsAfter token.lexeme (k + 1)) s s' →
      Walled Put (k + 1) (token :: s) (token :: s')

theorem Walled.grown {k : Nat} (h : Walled Put k s s') : Grown Put s s' := by
  induction h with
  | wall h => exact h
  | keep _ ih => exact .keep _ ih

theorem Walled.tail {token : Token} {k : Nat}
    (h : Walled Put (k + 1) (token :: s) (token :: s')) :
    Walled Put (bracketsAfter token.lexeme (k + 1)) s s' := by
  cases h with
  | keep h => exact h

/-- A mark that is halved is no bracket, and neither is its second half. -/
theorem bracketsAfter_halves {mark first second : Mark}
    (h : Grammar.halves? mark = some (first, second)) (k : Nat) :
    bracketsAfter (.mark mark) k = k ∧ bracketsAfter (.mark second) k = k := by
  cases mark <;> cases h <;> exact ⟨rfl, rfl⟩

/-- **Walled tokens are alike** as long as a bracket is open. -/
theorem simulation_walled (hput : Insertion Put) : Simulation (Walled Put) where
  head h := h.grown.head_eq
  tail h _ := h.tail
  func h hfunc := by
    have htail := h.tail
    rw [hfunc] at htail
    exact .inl htail
  half {k token s s' mark first second} h hmark hhalves := by
    obtain ⟨hwhole, hhalf⟩ := bracketsAfter_halves hhalves (k + 1)
    have htail := h.tail
    rw [hmark, hwhole] at htail
    refine .keep ?_
    rw [halfOf, hhalf]
    exact htail
  isBody h := h.grown.isBody_eq hput

/-! #### Where the wall is -/

/-- Reading from `start`, inside one bracket, has come to `s` with `brackets` brackets
open. -/
inductive Reached (start : List Token) : (brackets : Nat) → List Token → Prop
  /-- Nothing has been read. -/
  | start : Reached start 1 start
  /-- A token has been read. -/
  | next {k : Nat} {token : Token} {s : List Token} : Reached start (k + 1) (token :: s) →
      Reached start (bracketsAfter token.lexeme (k + 1)) s
  /-- A mark has been halved. -/
  | half {k : Nat} {token : Token} {s : List Token} {mark first second : Mark} :
      Reached start (k + 1) (token :: s) → token.lexeme = .mark mark →
      Grammar.halves? mark = some (first, second) →
      Reached start (k + 1) (halfOf token second :: s)

theorem simulation_reached (start : List Token) :
    Simulation fun k s s' => s = s' ∧ Reached start k s where
  head := fun ⟨h, _⟩ => by rw [h]
  tail := fun ⟨h, hreached⟩ _ => ⟨List.tail_eq_of_cons_eq h, hreached.next⟩
  func := fun ⟨h, hreached⟩ hfunc => by
    have hnext := hreached.next
    rw [hfunc] at hnext
    exact .inl ⟨List.tail_eq_of_cons_eq h, hnext⟩
  half := fun ⟨h, hreached⟩ hmark hhalves =>
    ⟨by rw [List.tail_eq_of_cons_eq h], hreached.half hmark hhalves⟩
  isBody := fun ⟨h, _⟩ => by rw [h]

/-- What has been read keeps a wall in its place. Of what is ahead, only the first token
may differ from what was there: it may be half of a mark. -/
theorem Reached.exists_walled {start : List Token} {k : Nat} (h : Reached start k s) :
    ∃ used ahead, start = used ++ ahead ∧ ahead.length = s.length ∧ ahead.tail = s.tail ∧
      (∀ n, (ahead.head?.map Token.lexeme).map (bracketsAfter · n) =
        (s.head?.map Token.lexeme).map (bracketsAfter · n)) ∧
      ∀ t t', Walled Put k t t' → Walled Put 1 (used ++ t) (used ++ t') := by
  induction h with
  | start => exact ⟨[], start, rfl, rfl, rfl, fun _ => rfl, fun _ _ h => h⟩
  | @next k token s _ ih =>
    obtain ⟨used, ahead, rfl, hlength, htail, hhead, hwalled⟩ := ih
    cases ahead with
    | nil => cases hlength
    | cons first ahead =>
      obtain rfl : ahead = s := htail
      refine ⟨used ++ [first], ahead, by simp, rfl, rfl, fun _ => rfl, fun t t' h => ?_⟩
      have hfirst : bracketsAfter first.lexeme (k + 1) = bracketsAfter token.lexeme (k + 1) := by
        simpa using hhead (k + 1)
      rw [← hfirst] at h
      simpa using hwalled (first :: t) (first :: t') (.keep h)
  | @half k token s mark first second _ hmark hhalves ih =>
    obtain ⟨used, ahead, rfl, hlength, htail, hhead, hwalled⟩ := ih
    refine ⟨used, ahead, rfl, hlength, htail, fun n => ?_, hwalled⟩
    obtain ⟨hwhole, hhalf⟩ := bracketsAfter_halves hhalves n
    rw [hhead n]
    simp [halfOf, hmark, hwhole, hhalf]

/-- **A list of type parameters is read up to a wall.** -/
theorem walled_of_recognize {used rest : List Token}
    (h : recognize .typeParameters (used ++ rest) = .ok ((), rest)) {t t' : List Token}
    (hgrown : Grown Put t t') : Walled Put 1 (used ++ t) (used ++ t') := by
  have hagree := (simulation_reached (used ++ rest)).recognize .typeParameters
    ⟨rfl, Reached.start⟩
  rw [h] at hagree
  obtain ⟨-, ⟨-, hreached⟩, -⟩ := hagree
  obtain ⟨used', ahead, happend, hlength, -, -, hwalled⟩ := hreached.exists_walled
  obtain ⟨rfl, -⟩ := List.append_inj' happend hlength.symm
  exact hwalled t t' (.wall hgrown)

end

end EntryProbe.Go
