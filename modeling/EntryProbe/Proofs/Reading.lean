import EntryProbe.Go.Outline

/-!
# What reading does

The readers of statements and of items carry fuel and give up in many places. For each
of them a relation says what it reads when it does not give up, without fuel:

* `EntryProbe.Go.StmtsRead` – the statements of a body;
* `EntryProbe.Go.ItemRead` – one item of the top level;
* `EntryProbe.Go.ItemsRead` – the items of the top level.

A piece that was read is the front of the tokens up to what its reader has left over
(`EntryProbe.Go.Cut`).

The marks among the tokens of a source are spelled as marks
(`EntryProbe.Go.scan_spelled`), so that a brace is a brace.
-/

namespace EntryProbe.Go

/-- A computation of two steps succeeds if both of them do. -/
theorem bind_eq_ok {ε α β : Type} {first : Except ε α} {next : α → Except ε β} {b : β} :
    first >>= next = .ok b ↔ ∃ a, first = .ok a ∧ next a = .ok b := by
  cases first with
  | error e => simp [bind, Except.bind]
  | ok a => simp [bind, Except.bind]

/-- A result that passes a test is a result. -/
theorem exists_ok_of_any {ε α : Type} {result : Except ε α} {test : α → Bool}
    (h : result.toOption.any test = true) : ∃ a, result = .ok a ∧ test a = true := by
  cases result with
  | error e => cases h
  | ok a => exact ⟨a, rfl, h⟩

/-- A result that equals a value is that value. -/
theorem eq_ok_of_any {ε α : Type} [DecidableEq α] {result : Except ε α} {value : α}
    (h : result.toOption.any (fun a => a == value) = true) : result = .ok value := by
  obtain ⟨a, hresult, ha⟩ := exists_ok_of_any h
  rw [hresult, eq_of_beq ha]

/-! ### Tokens as they are spelled -/

/-- A mark is spelled as one of its spellings. -/
def Token.Spelled (token : Token) : Prop :=
  ∀ mark, token.lexeme = .mark mark → (token.text, mark) ∈ marks

theorem lexeme_spelled {text : List Char} {mark : Mark} (h : (lexeme text).1 = .mark mark) :
    (text.take (lexeme text).2, mark) ∈ marks := by
  cases text with
  | nil => cases h
  | cons c rest =>
    revert h
    simp only [lexeme]
    -- every branch but the last gives a token that is no mark
    split
    · split <;> exact fun h => nomatch h
    split
    · exact fun h => nomatch h
    split
    · split <;> exact fun h => nomatch h
    split
    · split <;> exact fun h => nomatch h
    split
    · split <;> exact fun h => nomatch h
    split
    · next spelled found hfind =>
      intro h
      have hprefix : spelled.isPrefixOf (c :: rest) = true := by
        simpa using List.find?_some hfind
      have hspelled := List.prefix_iff_eq_take.mp (List.isPrefixOf_iff_prefix.mp hprefix)
      have hmem := List.mem_of_find?_eq_some hfind
      cases h
      rwa [← hspelled]
    · exact fun h => nomatch h

theorem scanFrom_spelled (fuel : Nat) (text : List Char) :
    ∀ token ∈ (scanFrom fuel text).1, token.Spelled := by
  induction fuel generalizing text with
  | zero => simp [scanFrom]
  | succ fuel ih =>
    simp only [scanFrom]
    split
    · simp
    · next c rest _ =>
      intro token hmem
      rcases List.mem_cons.mp hmem with rfl | hmem
      · exact fun mark hmark => lexeme_spelled hmark
      · exact ih _ token hmem

/-- **The marks of a source are spelled as marks.** -/
theorem scan_spelled (source : List Char) : ∀ token ∈ (scan source).1, token.Spelled := by
  unfold scan
  cases source with
  | nil => simp
  | cons c rest =>
    simp only
    split
    · have hspelled := scanFrom_spelled rest.length rest
      generalize scanFrom rest.length rest = parts at hspelled
      obtain ⟨tokens, last⟩ := parts
      cases tokens with
      | nil => simp
      | cons first tokens =>
        intro token hmem
        rcases List.mem_cons.mp hmem with rfl | hmem
        · exact hspelled first (by simp)
        · exact hspelled token (by simp [hmem])
    · exact scanFrom_spelled _ _

theorem Token.Spelled.text_openBrace {token : Token} (h : token.Spelled)
    (hlexeme : token.lexeme = .mark .openBrace) : token.text = ['\x7b'] := by
  have := h .openBrace hlexeme
  simpa [marks] using this

theorem Token.Spelled.text_closeBrace {token : Token} (h : token.Spelled)
    (hlexeme : token.lexeme = .mark .closeBrace) : token.text = ['\x7d'] := by
  have := h .closeBrace hlexeme
  simpa [marks] using this

/-- A terminator is one character. -/
theorem Token.Spelled.text_terminator {token : Token} (h : token.Spelled)
    (hmark : token.lexeme = .mark .semicolon ∨ token.lexeme = .mark .null) :
    ∃ c, token.text = [c] ∧ (c = ';' ∨ c = nullChar) := by
  rcases hmark with hmark | hmark
  · exact ⟨';', by simpa [marks] using h _ hmark, .inl rfl⟩
  · exact ⟨nullChar, by simpa [marks] using h _ hmark, .inr rfl⟩

/-! ### What the readers read -/

/-- `piece` is the front of `tokens` that a reader has taken which has `left` over, and
`rest` is what comes after it. -/
structure Cut (tokens left piece rest : List Token) : Prop where
  /-- The length of the piece is what was taken. -/
  taken_eq : taken tokens left = piece
  /-- The piece is the front of the tokens. -/
  append_eq : piece ++ rest = tokens

theorem cut_taken (tokens left : List Token) :
    Cut tokens left (taken tokens left) (tokens.drop (taken tokens left).length) where
  taken_eq := rfl
  append_eq := by
    rw [taken, List.length_take]
    rcases Nat.le_total (tokens.length - left.length) tokens.length with h | h
    · rw [Nat.min_eq_left h, List.take_append_drop]
    · rw [Nat.min_eq_right h, List.drop_length, List.append_nil, List.take_of_length_le h]

/-- A reader that leaves a part of the tokens over has taken what stands before it. -/
theorem taken_append (piece rest : List Token) : taken (piece ++ rest) rest = piece := by
  simp [taken]

/-- **The statements of a body**: the tokens from the offset `offset` on hold
statements with the given spans, and then, from the offset `close` on, the tokens
`rest`, which start with a closing brace. -/
inductive StmtsRead : Nat → List Token → List Span → Nat → List Token → Prop
  /-- The closing brace comes next. -/
  | done {offset : Nat} {token : Token} {tokens : List Token} :
      token.lexeme = .mark .closeBrace →
      StmtsRead offset (token :: tokens) [] offset (token :: tokens)
  /-- A statement and a terminator come next. -/
  | step {offset length close : Nat} {tokens left piece rest after : List Token}
      {kind : StatementKind} {spans : List Span} :
      tokens.head?.map Token.lexeme ≠ some (.mark .closeBrace) →
      recognize .listStatement tokens = .ok (kind, left) → Cut tokens left piece rest →
      piece ≠ [] → terminatorLength? rest = some length →
      StmtsRead (offset + width piece + width (rest.take length)) (rest.drop length)
        spans close after →
      StmtsRead offset tokens (pieceSpan offset piece :: spans) close after
  /-- The last statement comes next, without a terminator. -/
  | last {offset : Nat} {tokens left piece rest : List Token} {kind : StatementKind} :
      tokens.head?.map Token.lexeme ≠ some (.mark .closeBrace) →
      recognize .listStatement tokens = .ok (kind, left) → Cut tokens left piece rest →
      piece ≠ [] → terminatorLength? rest = none →
      rest.head?.map Token.lexeme = some (.mark .closeBrace) →
      StmtsRead offset tokens [pieceSpan offset piece] (offset + width piece) rest

theorem stmtsRead_of_readStatements {fuel offset close : Nat} {tokens rest : List Token}
    {spans : List Span} (h : readStatements fuel offset tokens = .ok (spans, close, rest)) :
    StmtsRead offset tokens spans close rest := by
  induction fuel generalizing offset tokens spans with
  | zero => cases h
  | succ fuel ih =>
    cases tokens with
    | nil => cases h
    | cons token tokens =>
      simp only [readStatements] at h
      split at h
      · next hclose =>
        cases h
        exact .done hclose
      · next hclose =>
        obtain ⟨⟨kind, left⟩, hread, h⟩ := bind_eq_ok.mp h
        have hcut := cut_taken (token :: tokens) left
        have hhead : (token :: tokens).head?.map Token.lexeme ≠ some (.mark .closeBrace) := by
          simpa using hclose
        simp only at h
        split at h
        · cases h
        next hpiece =>
        split at h
        · next length hterm =>
          obtain ⟨⟨spans', close', rest'⟩, hrest, h⟩ := bind_eq_ok.mp h
          cases h
          exact .step hhead hread hcut hpiece hterm (ih hrest)
        · next hterm =>
          split at h
          · next hbrace =>
            cases h
            exact .last hhead hread hcut hpiece hterm hbrace
          · cases h

/-- **One item of the top level**, and the tokens after it. -/
inductive ItemRead (offset : Nat) : List Token → Item → List Token → Prop
  /-- A package clause. -/
  | package {first : Token} {inner left piece rest : List Token} {name : String} :
      first.lexeme = .keyword .packageWord → readWord inner = .ok (name, left) →
      Cut (first :: inner) left piece rest →
      ItemRead offset (first :: inner) (.package ⟨name, pieceSpan offset piece⟩) rest
  /-- An import declaration. -/
  | imports {first : Token} {inner left piece rest : List Token} {specs : List ImportSpec} :
      first.lexeme = .keyword .importWord → readImports inner = .ok (specs, left) →
      Cut (first :: inner) left piece rest →
      ItemRead offset (first :: inner)
        (.decl .imports (.imports ⟨specs, some (pieceSpan offset piece)⟩)) rest
  /-- A function with a body. -/
  | func {first : Token} {inner left head rest after : List Token} {signature : FuncDecl}
      {body : Body} {stop : Nat} :
      first.lexeme = .keyword .funcWord → declaresFunction inner = true →
      readSignature inner = .ok (signature, left) → Cut (first :: inner) left head rest →
      bodyFollows rest = true → readBody (offset + width head) rest = .ok (body, stop, after) →
      ItemRead offset (first :: inner)
        (.decl (if signature.receiver.isSome then .method else .function)
          (.func { signature with
            body := some body, span := some ⟨(pieceSpan offset head).start, stop⟩ })) after
  /-- A function without a body. -/
  | stub {first : Token} {inner left head rest : List Token} {signature : FuncDecl} :
      first.lexeme = .keyword .funcWord → declaresFunction inner = true →
      readSignature inner = .ok (signature, left) → Cut (first :: inner) left head rest →
      bodyFollows rest = false →
      ItemRead offset (first :: inner)
        (.decl (if signature.receiver.isSome then .method else .function)
          (.func { signature with span := some (pieceSpan offset head) })) rest
  /-- A statement. -/
  | other {tokens left piece rest : List Token} {kind : StatementKind} :
      tokens.head?.map Token.lexeme ≠ some (.keyword .packageWord) →
      tokens.head?.map Token.lexeme ≠ some (.keyword .importWord) →
      (tokens.head?.map Token.lexeme = some (.keyword .funcWord) →
        declaresFunction tokens.tail = false) →
      recognize .statement tokens = .ok (kind, left) → Cut tokens left piece rest →
      piece ≠ [] →
      ItemRead offset tokens (.decl (.statement kind) (.other (pieceSpan offset piece))) rest

theorem itemRead_of_readItem {offset : Nat} {tokens rest : List Token} {item : Item}
    (h : readItem offset tokens = .ok (item, rest)) : ItemRead offset tokens item rest := by
  cases tokens with
  | nil => cases h
  | cons first inner =>
    simp only [readItem] at h
    split at h
    · next hpackage =>
      obtain ⟨⟨name, left⟩, hread, h⟩ := bind_eq_ok.mp h
      cases h
      exact .package hpackage hread (cut_taken _ _)
    next hpackage =>
    split at h
    · next himport =>
      obtain ⟨⟨specs, left⟩, hread, h⟩ := bind_eq_ok.mp h
      cases h
      exact .imports himport hread (cut_taken _ _)
    next himport =>
    split at h
    · next hfunc =>
      obtain ⟨hfunc, hdeclares⟩ := Bool.and_eq_true_iff.mp hfunc
      have hfunc := eq_of_beq hfunc
      obtain ⟨⟨signature, left⟩, hread, h⟩ := bind_eq_ok.mp h
      simp only at h
      split at h
      · next hbody =>
        obtain ⟨⟨body, stop, after⟩, hreadBody, h⟩ := bind_eq_ok.mp h
        cases h
        exact .func hfunc hdeclares hread (cut_taken _ _) hbody hreadBody
      · next hbody =>
        cases h
        exact .stub hfunc hdeclares hread (cut_taken _ _) (by simpa using hbody)
    · next hfunc =>
      obtain ⟨⟨kind, left⟩, hread, h⟩ := bind_eq_ok.mp h
      simp only at h
      split at h
      · cases h
      · next hpiece =>
        cases h
        exact .other (by simpa using hpackage) (by simpa using himport)
          (by simpa using hfunc) hread (cut_taken _ _) hpiece

/-- **The items of the top level.** -/
inductive ItemsRead : Nat → List Token → List Item → Prop
  /-- There are no tokens left. -/
  | done {offset : Nat} : ItemsRead offset [] []
  /-- An item and what ends it come next. -/
  | step {offset length : Nat} {tokens rest : List Token} {item : Item} {items : List Item} :
      ItemRead offset tokens item rest → itemEnd? offset item rest = some length →
      ItemsRead (offset + width (taken tokens rest) + width (rest.take length))
        (rest.drop length) items →
      ItemsRead offset tokens (item :: items)
  /-- The last item needs no terminator. -/
  | last {offset : Nat} {tokens : List Token} {item : Item} :
      ItemRead offset tokens item [] → ItemsRead offset tokens [item]

theorem itemsRead_of_readItems {fuel offset : Nat} {tokens : List Token} {items : List Item}
    (h : readItems fuel offset tokens = .ok items) : ItemsRead offset tokens items := by
  induction fuel generalizing offset tokens items with
  | zero =>
    simp only [readItems] at h
    split at h
    · next hnil =>
      cases h
      rw [hnil]
      exact .done
    · cases h
  | succ fuel ih =>
    simp only [readItems] at h
    split at h
    · next hnil =>
      cases h
      rw [hnil]
      exact .done
    obtain ⟨⟨item, rest⟩, hread, h⟩ := bind_eq_ok.mp h
    have hitem := itemRead_of_readItem hread
    simp only at h
    split at h
    · next length hend =>
      obtain ⟨items', hrest, h⟩ := bind_eq_ok.mp h
      cases h
      exact .step hitem hend (ih hrest)
    · split at h
      · next hnil =>
        cases h
        rw [hnil] at hitem
        exact .last hitem
      · cases h

end EntryProbe.Go
