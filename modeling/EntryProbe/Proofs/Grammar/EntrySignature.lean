import EntryProbe.Profiling.Entry
import EntryProbe.Proofs.Grammar.Signatures

/-!
# The signature of an entry function

A block is put in right behind the signature of an entry function, so that nothing fences
the signature off from it. But such a signature is very plain: a name, type parameters
perhaps, an empty list of parameters and no result. Its readers stop at the opening brace
whatever comes behind it (`EntryProbe.Go.exists_entrySignature`).
-/

namespace EntryProbe.Go

open Reader

/-! ### Empty lists of parameters -/

/-- There are no parameters between the parentheses. -/
inductive EmptyList : List Token → List Token → Prop
  /-- Nothing stands between them. -/
  | bare {first last : Token} {rest : List Token} : first.lexeme = .mark .openParen →
      last.lexeme = .mark .closeParen → EmptyList (first :: last :: rest) rest
  /-- A comma stands between them. -/
  | comma {first mid last : Token} {rest : List Token} : first.lexeme = .mark .openParen →
      mid.lexeme = .mark .comma → last.lexeme = .mark .closeParen →
      EmptyList (first :: mid :: last :: rest) rest

theorem accepts_eq_true {lexeme : Lexeme} {tokens rest : List Token}
    (h : accepts lexeme tokens = .ok (true, rest)) :
    ∃ token, token.lexeme = lexeme ∧ tokens = token :: rest := by
  rw [accepts_run] at h
  split at h
  · next hhead =>
    cases tokens with
    | nil => cases hhead
    | cons token tokens =>
      cases h
      exact ⟨token, by simpa using hhead, rfl⟩
  · cases h

theorem accepts_eq_false {lexeme : Lexeme} {tokens rest : List Token}
    (h : accepts lexeme tokens = .ok (false, rest)) :
    tokens.head?.map Token.lexeme ≠ some lexeme ∧ rest = tokens := by
  rw [accepts_run] at h
  split at h
  · cases h
  · next hhead =>
    cases h
    exact ⟨by simpa using hhead, rfl⟩

theorem expect_eq_ok {lexeme : Lexeme} {tokens rest : List Token}
    (h : expect lexeme tokens = .ok ((), rest)) :
    ∃ token, token.lexeme = lexeme ∧ tokens = token :: rest := by
  rw [expect_run] at h
  split at h
  · next hhead =>
    cases tokens with
    | nil => cases hhead
    | cons token tokens =>
      cases h
      exact ⟨token, by simpa using hhead, rfl⟩
  · cases h

/-- Reading the rest of a list of parameters gives nothing only if nothing is there. -/
theorem closeParen_of_moreParameters {depth : Nat} {run : List Token} {names : List (List Token)}
    {tokens rest : List Token}
    (h : recognizeWithin depth _ (.moreParameters run names) tokens = .ok ([], rest)) :
    names = [] ∧ ∃ last, last.lexeme = .mark .closeParen ∧ tokens = last :: rest := by
  induction depth generalizing run names tokens with
  | zero => cases h
  | succ depth ih =>
    replace h : Grammar.moreParameters (recognizeWithin depth) run names tokens =
        .ok ([], rest) := h
    rw [Grammar.moreParameters, Reader.bind_eq_ok] at h
    obtain ⟨ends, mid, haccepts, h⟩ := h
    cases ends with
    | true =>
      obtain ⟨last, hlast, rfl⟩ := accepts_eq_true haccepts
      cases h
      exact ⟨rfl, last, hlast, rfl⟩
    | false =>
      -- a parameter was read, and it is part of the answer
      obtain ⟨⟨form, piece⟩, mid, -, h⟩ := Reader.bind_eq_ok.mp h
      obtain ⟨⟨_, comma⟩, mid, -, h⟩ := Reader.bind_eq_ok.mp h
      cases form with
      | bare =>
        obtain ⟨hnames, -⟩ := ih h
        exact absurd hnames (by simp)
      | typed =>
        obtain ⟨answer, mid, -, h⟩ := Reader.bind_eq_ok.mp h
        cases h
      | whole =>
        obtain ⟨answer, mid, -, h⟩ := Reader.bind_eq_ok.mp h
        obtain ⟨hanswer, -⟩ := Prod.mk.inj (Except.ok.inj h)
        exact absurd hanswer
          (List.append_ne_nil_of_right_ne_nil names (List.cons_ne_nil piece answer))

/-- **A list of parameters gives nothing only if it is empty.** -/
theorem emptyList_of_recognize {tokens rest : List Token}
    (h : recognize .parameters tokens = .ok ([], rest)) : EmptyList tokens rest := by
  obtain ⟨depth, hdepth⟩ : ∃ depth, phrasesPerToken * (tokens.length + 1) = depth + 1 :=
    Nat.exists_eq_add_of_le' (by simp only [phrasesPerToken]; omega)
  rw [recognize, hdepth] at h
  replace h : Grammar.parameters (recognizeWithin depth) tokens = .ok ([], rest) := h
  clear hdepth
  rw [Grammar.parameters, Reader.bind_eq_ok] at h
  obtain ⟨_, mid, hexpect, h⟩ := h
  obtain ⟨first, hfirst, rfl⟩ := expect_eq_ok hexpect
  rw [Reader.bind_eq_ok] at h
  obtain ⟨hasComma, mid', haccepts, h⟩ := h
  cases hasComma with
  | true =>
    obtain ⟨comma, hcomma, rfl⟩ := accepts_eq_true haccepts
    rw [if_pos rfl, Reader.bind_eq_ok] at h
    obtain ⟨_, mid, hexpect, h⟩ := h
    obtain ⟨last, hlast, rfl⟩ := expect_eq_ok hexpect
    cases h
    exact .comma hfirst hcomma hlast
  | false =>
    obtain ⟨-, rfl⟩ := accepts_eq_false haccepts
    obtain ⟨-, last, hlast, rfl⟩ := closeParen_of_moreParameters h
    exact .bare hfirst hlast

theorem expect_cons {lexeme : Lexeme} {token : Token} (h : token.lexeme = lexeme)
    (rest : List Token) : expect lexeme (token :: rest) = .ok ((), rest) := by
  simp [expect_run, h]

theorem accepts_cons {lexeme : Lexeme} {token : Token} (h : token.lexeme = lexeme)
    (rest : List Token) : accepts lexeme (token :: rest) = .ok (true, rest) := by
  simp [accepts_run, h]

theorem accepts_cons_ne {lexeme : Lexeme} {token : Token} (h : token.lexeme ≠ lexeme)
    (rest : List Token) : accepts lexeme (token :: rest) = .ok (false, token :: rest) := by
  simp [accepts_run, h]

/-- An empty list is read whatever follows it. -/
theorem EmptyList.exists_recognize {tokens rest : List Token} (h : EmptyList tokens rest) :
    ∃ front, tokens = front ++ rest ∧
      ∀ rest', recognize .parameters (front ++ rest') = .ok ([], rest') := by
  have hdepth : ∀ tokens : List Token, ∃ depth,
      phrasesPerToken * (tokens.length + 1) = depth + 2 := fun tokens =>
    Nat.exists_eq_add_of_le' (by simp only [phrasesPerToken]; omega)
  cases h with
  | @bare first last rest hfirst hlast =>
    refine ⟨[first, last], rfl, fun rest' => ?_⟩
    obtain ⟨depth, hdepth⟩ := hdepth ([first, last] ++ rest')
    have hmore : recognizeWithin (depth + 1) _ (.moreParameters [] []) (last :: rest') =
        .ok ([], rest') := by
      change Grammar.moreParameters (recognizeWithin depth) [] [] (last :: rest') = _
      rw [Grammar.moreParameters, bind_run, accepts_cons hlast]
      rfl
    rw [recognize, hdepth]
    change Grammar.parameters (recognizeWithin (depth + 1)) (first :: last :: rest') = _
    rw [Grammar.parameters, bind_run, expect_cons hfirst]
    simp only
    rw [bind_run, accepts_cons_ne (by rw [hlast]; simp)]
    exact hmore
  | @comma first mid last rest hfirst hmid hlast =>
    refine ⟨[first, mid, last], rfl, fun rest' => ?_⟩
    obtain ⟨depth, hdepth⟩ := hdepth ([first, mid, last] ++ rest')
    rw [recognize, hdepth]
    change Grammar.parameters (recognizeWithin (depth + 1)) (first :: mid :: last :: rest') = _
    rw [Grammar.parameters, bind_run, expect_cons hfirst]
    simp only
    rw [bind_run, accepts_cons hmid]
    simp only [↓reduceIte]
    rw [bind_run, expect_cons hlast]
    rfl

/-! ### No result -/

theorem endsLine_run (lineEnds : Bool) (tokens : List Token) :
    endsLine lineEnds tokens =
      .ok (lineEnds && (tokens.head?.map Token.onNewLine).getD false, tokens) := by
  rw [endsLine, bind_run, atLineStart_run]
  rfl

theorem next?_run (tokens : List Token) :
    next? tokens = .ok (tokens.head?.map Token.lexeme, tokens) := rfl

/-- A brace is no result. -/
theorem recognize_result_openBrace {token : Token} (h : token.lexeme = .mark .openBrace)
    (rest : List Token) : recognize (.result true) (token :: rest) = .ok (none, token :: rest) := by
  obtain ⟨depth, hdepth⟩ : ∃ depth, phrasesPerToken * ((token :: rest).length + 1) = depth + 1 :=
    Nat.exists_eq_add_of_le' (by simp only [phrasesPerToken]; omega)
  rw [recognize, hdepth]
  change Grammar.result (recognizeWithin depth) true (token :: rest) = _
  rw [Grammar.result, bind_run, endsLine_run]
  simp only [Bool.true_and]
  split
  · rfl
  · rw [bind_run, next?_run]
    simp only [List.head?_cons, Option.map_some, h]
    rfl

/-- Nothing is taken for a result that is not there. -/
theorem eq_of_recognize_result {tokens rest : List Token}
    (h : recognize (.result true) tokens = .ok (none, rest)) : rest = tokens := by
  obtain ⟨depth, hdepth⟩ : ∃ depth, phrasesPerToken * (tokens.length + 1) = depth + 1 :=
    Nat.exists_eq_add_of_le' (by simp only [phrasesPerToken]; omega)
  rw [recognize, hdepth] at h
  replace h : Grammar.result (recognizeWithin depth) true tokens = .ok (none, rest) := h
  rw [Grammar.result, Reader.bind_eq_ok] at h
  obtain ⟨ends, mid, hends, h⟩ := h
  obtain rfl : mid = tokens := by
    rw [endsLine_run] at hends
    cases hends
    rfl
  cases ends with
  | true =>
    cases h
    rfl
  | false =>
    rw [if_neg (by simp)] at h
    rw [Reader.bind_eq_ok] at h
    obtain ⟨next, mid', hnext, h⟩ := h
    obtain rfl : mid' = mid := by
      rw [next?_run] at hnext
      cases hnext
      rfl
    -- what is read of a result is part of the answer
    split at h
    · obtain ⟨⟨_, piece⟩, _, -, h⟩ := Reader.bind_eq_ok.mp h
      cases h
    · split at h
      · obtain ⟨⟨_, piece⟩, _, -, h⟩ := Reader.bind_eq_ok.mp h
        cases h
      · cases h
        rfl
    · cases h
      rfl

/-! ### The signature -/

theorem readReceiver_eq_none {tokens rest : List Token}
    (h : readReceiver tokens = .ok (none, rest)) :
    tokens.head?.map Token.lexeme = some .word ∧ rest = tokens := by
  rw [readReceiver, bind_run, sees_run] at h
  simp only at h
  split at h
  · next hword =>
    cases h
    exact ⟨eq_of_beq hword, rfl⟩
  · obtain ⟨⟨_, piece⟩, mid, -, h⟩ := Reader.bind_eq_ok.mp h
    cases h

theorem readReceiver_of_word {tokens : List Token}
    (h : tokens.head?.map Token.lexeme = some .word) :
    readReceiver tokens = .ok (none, tokens) := by
  rw [readReceiver, bind_run, sees_run, h]
  rfl

theorem exists_of_readWord {tokens rest : List Token} {name : String}
    (h : readWord tokens = .ok (name, rest)) :
    ∃ token, token.lexeme = .word ∧ name = nodeText [token] ∧ tokens = token :: rest := by
  cases tokens with
  | nil => cases h
  | cons token tokens =>
    replace h : (expect .word >>= fun _ => pure (nodeText [token]) : Reader String)
        (token :: tokens) = .ok (name, rest) := h
    obtain ⟨_, mid, hexpect, h⟩ := Reader.bind_eq_ok.mp h
    cases h
    obtain ⟨token', hword, htokens⟩ := expect_eq_ok hexpect
    obtain ⟨rfl, rfl⟩ := List.cons.inj htokens
    exact ⟨token, hword, rfl, rfl⟩

theorem readWord_cons {token : Token} (h : token.lexeme = .word) (rest : List Token) :
    readWord (token :: rest) = .ok (nodeText [token], rest) := by
  change (expect .word >>= fun _ => pure (nodeText [token]) : Reader String) (token :: rest) = _
  rw [bind_run, expect_cons h]
  rfl

section

variable {Put : Token → List Token → Token → Prop} {tokens rest rest' : List Token}

/-- A list of type parameters is read whatever is put in behind it. -/
theorem exists_typeParameters (hput : Insertion Put)
    (h : recognize .typeParameters tokens = .ok ((), rest)) (hgrown : Grown Put rest rest') :
    ∃ used, tokens = used ++ rest ∧
      recognize .typeParameters (used ++ rest') = .ok ((), rest') := by
  obtain ⟨used, rfl, -⟩ := exists_taken h
  have hagree := (simulation_walled hput).recognize .typeParameters (k := 0)
    (walled_of_recognize h hgrown)
  rw [h] at hagree
  rcases hagree.cases with ⟨e, e', hr, -⟩ | ⟨a, t, t', hr, hr', hat⟩
  · cases hr
  · cases hr
    -- the same tokens are taken on both sides
    obtain ⟨-, used', hused, hused', -, -⟩ := hat
    obtain rfl := List.append_cancel_right hused
    obtain rfl := List.append_cancel_left hused'
    exact ⟨used, rfl, hr'⟩

theorem exists_readTypeParameters (hput : Insertion Put)
    (h : readTypeParameters false tokens = .ok ((), rest)) (hgrown : Grown Put rest rest') :
    ∃ used, tokens = used ++ rest ∧
      readTypeParameters false (used ++ rest') = .ok ((), rest') := by
  replace h : (accepts (.mark .openBracket) >>= fun b =>
    if b = true then recognize .typeParameters else pure ()) tokens = .ok ((), rest) := h
  rw [Reader.bind_eq_ok] at h
  obtain ⟨isOpen, mid, haccepts, h⟩ := h
  cases isOpen with
  | true =>
    obtain ⟨bracket, hbracket, rfl⟩ := accepts_eq_true haccepts
    obtain ⟨used, rfl, hread⟩ := exists_typeParameters hput h hgrown
    refine ⟨bracket :: used, rfl, ?_⟩
    change (accepts (.mark .openBracket) >>= fun b =>
      if b = true then recognize .typeParameters else pure ()) (bracket :: (used ++ rest')) = _
    rw [bind_run, accepts_cons hbracket]
    exact hread
  | false =>
    obtain ⟨hnot, rfl⟩ := accepts_eq_false haccepts
    cases h
    refine ⟨[], rfl, ?_⟩
    rw [hgrown.head_eq] at hnot
    have hnot' : accepts (.mark .openBracket) rest' = .ok (false, rest') := by
      rw [accepts_run, if_neg (by simpa using hnot)]
    change (accepts (.mark .openBracket) >>= fun b =>
      if b = true then recognize .typeParameters else pure ()) rest' = _
    rw [bind_run, hnot']
    rfl

/-- **The signature of an entry function is read**, whatever is put in behind it. -/
theorem exists_entrySignature (hput : Insertion Put) {signature : FuncDecl}
    (h : readSignature tokens = .ok (signature, rest)) (hentry : signature.isEntry = true)
    (hbrace : rest.head?.map Token.lexeme = some (.mark .openBrace))
    (hgrown : Grown Put rest rest') :
    ∃ name used, tokens = name :: (used ++ rest) ∧ name.lexeme = .word ∧
      readSignature (name :: (used ++ rest')) = .ok (signature, rest') := by
  rw [readSignature, Reader.bind_eq_ok] at h
  obtain ⟨receiver, _, hreceiver, h⟩ := h
  rw [Reader.bind_eq_ok] at h
  obtain ⟨name, named, hname, h⟩ := h
  rw [Reader.bind_eq_ok] at h
  obtain ⟨_, listed, htypes, h⟩ := h
  rw [Reader.bind_eq_ok] at h
  obtain ⟨params, resulted, hparams, h⟩ := h
  rw [Reader.bind_eq_ok] at h
  obtain ⟨result, _, hresult, h⟩ := h
  cases h
  -- an entry function has no receiver, no parameters and no result
  simp only [FuncDecl.isEntry, Bool.and_eq_true, Option.isNone_iff_eq_none,
    List.isEmpty_iff, List.map_eq_nil_iff, Option.map_eq_none_iff] at hentry
  obtain ⟨⟨⟨-, rfl⟩, rfl⟩, rfl⟩ := hentry
  obtain ⟨-, rfl⟩ := readReceiver_eq_none hreceiver
  obtain ⟨token, hword, rfl, rfl⟩ := exists_of_readWord hname
  obtain rfl := eq_of_recognize_result hresult
  obtain ⟨front, rfl, hfront⟩ := (emptyList_of_recognize hparams).exists_recognize
  obtain ⟨used, rfl, htypes'⟩ := exists_readTypeParameters hput htypes (hgrown.keepAll front)
  refine ⟨token, used ++ front, by simp, hword, ?_⟩
  have hresult' : recognize (.result true) rest' = .ok (none, rest') := by
    rw [hgrown.head_eq] at hbrace
    cases rest' with
    | nil => cases hbrace
    | cons brace rest' => exact recognize_result_openBrace (by simpa using hbrace) rest'
  rw [List.append_assoc, readSignature, bind_run, readReceiver_of_word (by simpa using hword)]
  simp only
  rw [bind_run, readWord_cons hword]
  simp only [Option.isSome_none]
  rw [bind_run, htypes']
  simp only
  rw [bind_run, hfront]
  simp only
  rw [bind_run, hresult']
  rfl

end

end EntryProbe.Go
