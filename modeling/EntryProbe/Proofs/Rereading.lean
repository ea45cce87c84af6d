import EntryProbe.Proofs.Grammar.Signatures

/-!
# Reading again

If a source is changed behind some place, what was read in front of that place is read
again. A reader that treats tokens which are alike in the same way takes the same tokens
off the front (`EntryProbe.Go.Steady.reread`); for the statements of a body that gives
`EntryProbe.Go.StmtsRead.reread`, for which the gap in front of the first statement may
change as well.

What the relations of `EntryProbe.Proofs.Reading` say can be read is read indeed
(`EntryProbe.Go.readStatements_of_stmtsRead`, `EntryProbe.Go.readItems_of_itemsRead`): they
take at least one token in each step, so that the fuel of the readers is enough.
-/

namespace EntryProbe.Go

/-! ### Readers -/

/-- A reader does the same on any two sequences of tokens that are alike. It takes the
same tokens off both of them, and at least one if `moves`. -/
def Steady {α : Type} (r : Reader α) (moves : Bool) : Prop :=
  ∀ A, Simulation A → ∀ s s', A 1 s s' → Agree (fun _ => At A s s' 1 moves) (r s) (r s')

theorem steady_recognize {α : Type} (phrase : Phrase α) (hcloses : phrase.closes = 0)
    (hinside : phrase.inside = 0) : Steady (recognize phrase) phrase.moves := by
  intro A hsimulation s s' halike
  have hagree := hsimulation.recognize phrase (k := 0) (by rwa [hinside])
  rwa [hinside, hcloses] at hagree

theorem steady_readWord : Steady readWord true := fun _ hsimulation s s' halike =>
  hsimulation.readWord s s' ⟨halike, Taken.refl s s'⟩

theorem steady_readImports : Steady readImports true := fun _ hsimulation s s' halike =>
  hsimulation.readImports s s' ⟨halike, Taken.refl s s'⟩

theorem steady_readSignature : Steady readSignature true := fun _ hsimulation s s' halike =>
  hsimulation.readSignature s s' ⟨halike, Taken.refl s s'⟩

section

variable {α : Type} {r : Reader α} {moves : Bool} {a : α} {tokens rest rest' : List Token}

/-- A reader takes tokens off the front, none of them stray. -/
theorem Steady.exists_taken (h : Steady r moves) (hread : r tokens = .ok (a, rest)) :
    ∃ used, tokens = used ++ rest ∧ (moves = true → used ≠ []) ∧
      ∀ token ∈ used, token.lexeme ≠ .stray := by
  have hagree := h _ simulation_eq tokens tokens rfl
  rw [hread] at hagree
  obtain ⟨-, -, used, happend, -, hmoves, hstray⟩ := hagree
  exact ⟨used, happend, hmoves, hstray⟩

/-- **What a reader took it takes again**, if what follows is alike. -/
theorem Steady.reread (h : Steady r moves) {A : Nat → List Token → List Token → Prop}
    (hsimulation : Simulation A) {used : List Token} (hread : r (used ++ rest) = .ok (a, rest))
    (halike : A 1 (used ++ rest) (used ++ rest')) : r (used ++ rest') = .ok (a, rest') := by
  have hagree := h A hsimulation _ _ halike
  rw [hread] at hagree
  rcases hagree.cases with ⟨_, _, hr, -⟩ | ⟨a, t, t', hr, hr', -, used', hused, hused', -, -⟩
  · cases hr
  · cases hr
    obtain rfl := List.append_cancel_right hused
    obtain rfl := List.append_cancel_left hused'
    exact hr'

end

/-! ### Pieces -/

theorem Cut.eq_of_append {used rest piece rest' : List Token}
    (h : Cut (used ++ rest) rest piece rest') : piece = used ∧ rest' = rest := by
  obtain ⟨hpiece, happend⟩ := h
  rw [taken_append] at hpiece
  subst hpiece
  exact ⟨rfl, List.append_cancel_left happend⟩

/-- What a reader takes behind the first token is cut off together with that token. -/
theorem Steady.exists_piece {α : Type} {r : Reader α} {moves : Bool} {a : α} {first : Token}
    {inner left piece rest : List Token} (h : Steady r moves) (hread : r inner = .ok (a, left))
    (hcut : Cut (first :: inner) left piece rest) :
    ∃ used, inner = used ++ left ∧ piece = first :: used ∧ rest = left ∧
      ∀ token ∈ used, token.lexeme ≠ .stray := by
  obtain ⟨used, rfl, -, hused⟩ := h.exists_taken hread
  obtain ⟨hpiece, hrest⟩ := @Cut.eq_of_append (first :: used) _ _ _ hcut
  exact ⟨used, rfl, hpiece, hrest, hused⟩

/-- What a phrase takes is the piece that is cut off. -/
theorem Cut.of_recognize {α : Type} {phrase : Phrase α} {answer : α}
    {tokens left piece rest : List Token} (hcut : Cut tokens left piece rest)
    (hread : recognize phrase tokens = .ok (answer, left)) :
    tokens = piece ++ left ∧ rest = left ∧ ∀ token ∈ piece, token.lexeme ≠ .stray := by
  obtain ⟨used, rfl, -, hused⟩ := Go.exists_taken hread
  obtain ⟨rfl, hrest⟩ := hcut.eq_of_append
  exact ⟨rfl, hrest, hused⟩

theorem Cut.drop_eq {tokens left piece rest : List Token} (h : Cut tokens left piece rest) :
    tokens.drop piece.length = rest := by
  rw [← h.append_eq, List.drop_left]

theorem cut_append (used rest : List Token) : Cut (used ++ rest) rest used rest :=
  ⟨taken_append used rest, rfl⟩

@[simp] theorem spelling_regap (gap : List Char) (tokens : List Token) :
    spelling (regap gap tokens) = spelling tokens := by
  cases tokens with
  | nil => rfl
  | cons token tokens => rfl

theorem regap_append {used : List Token} (h : used ≠ []) (gap : List Char) (rest : List Token) :
    regap gap (used ++ rest) = regap gap used ++ rest := by
  cases used with
  | nil => exact absurd rfl h
  | cons token used => rfl

theorem exists_regap_eq (tokens : List Token) : ∃ gap, regap gap tokens = tokens := by
  cases tokens with
  | nil => exact ⟨[], rfl⟩
  | cons token tokens => exact ⟨token.gap, rfl⟩

/-- The span of a piece cuts out what the piece spells. -/
theorem cut?_pieceSpan {source last : List Char} {offset : Nat} {piece rest : List Token}
    (h : RestAt source offset (unscan (piece ++ rest) ++ last)) :
    (pieceSpan offset piece).cut? source = some (spelling piece) := by
  cases piece with
  | nil =>
    have hnil : RestAt source offset ([] ++ (unscan rest ++ last)) := by simpa using h
    simpa [pieceSpan, spelling] using hnil.cut?
  | cons token piece =>
    have hgap : RestAt source offset
        (token.gap ++ ((token.text ++ unscan piece) ++ (unscan rest ++ last))) := by
      simpa using h
    simpa [pieceSpan, spelling, width, Nat.add_assoc] using hgap.advance.cut?

theorem terminatorLength?_eq {rest rest' : List Token} (h : rest.head? = rest'.head?) :
    terminatorLength? rest = terminatorLength? rest' := by
  cases rest with
  | nil =>
    cases rest' with
    | nil => rfl
    | cons token rest' => cases h
  | cons token rest =>
    cases rest' with
    | nil => cases h
    | cons token' rest' =>
      cases h
      rfl

theorem terminatorLength?_of_onNewLine {token : Token} {rest : List Token}
    (h : token.onNewLine = true) : terminatorLength? (token :: rest) = some 0 :=
  if_pos h

/-- A terminator is the front of the tokens. -/
theorem exists_terminator {rest : List Token} {length : Nat}
    (h : terminatorLength? rest = some length) :
    ∃ terminator after, rest = terminator ++ after ∧ terminator.length = length ∧
      ∀ token ∈ terminator, token.lexeme ≠ .stray := by
  refine ⟨rest.take length, rest.drop length, (List.take_append_drop ..).symm, ?_, ?_⟩
  all_goals
    cases rest with
    | nil => cases h
    | cons token rest =>
      simp only [terminatorLength?] at h
      split at h
      · cases h
        simp
      · split at h
        · next hmark =>
          cases h
          rcases hmark with hmark | hmark <;> simp [hmark]
        · cases h

/-- What a terminator is: a line break, or one token. -/
theorem terminator_cases {terminator after : List Token}
    (h : terminatorLength? (terminator ++ after) = some terminator.length) :
    terminator = [] ∧ (∃ token rest, after = token :: rest ∧ token.onNewLine = true) ∨
      ∃ token, terminator = [token] ∧ token.onNewLine = false ∧
        (token.lexeme = .mark .semicolon ∨ token.lexeme = .mark .null) := by
  cases terminator with
  | nil =>
    left
    cases after with
    | nil => cases h
    | cons token rest =>
      simp only [List.nil_append, terminatorLength?, List.length_nil] at h
      split at h
      · next hline => exact ⟨rfl, token, rest, rfl, hline⟩
      · split at h <;> cases h
  | cons token terminator =>
    right
    simp only [List.cons_append, terminatorLength?, List.length_cons] at h
    split at h
    · cases h
    next hline =>
    split at h
    · next hmark =>
      obtain rfl : terminator = [] := List.eq_nil_of_length_eq_zero (by simpa using h.symm)
      exact ⟨token, rfl, by simpa using hline, hmark⟩
    · cases h

/-! ### The ends of items -/

section

variable {item item' : Item} {offset offset' length : Nat} {rest rest' : List Token}

theorem itemEnd?_of_terminator (h : terminatorLength? rest = some length) :
    itemEnd? offset item rest = some length := by
  simp [itemEnd?, h]

/-- Only a semicolon ends without a terminator. -/
theorem itemEnd?_cases (h : itemEnd? offset item rest = some length) :
    terminatorLength? rest = some length ∨
      length = 0 ∧ item.isSemicolon = true ∧ 0 < offset ∧ rest ≠ [] := by
  unfold itemEnd? at h
  split at h
  · next hterm => exact .inl (hterm.trans h)
  · split at h
    · next hopen => exact .inr ⟨(Option.some.inj h).symm, hopen⟩
    · cases h

@[simp] theorem itemEnd?_package (clause : PackageClause) :
    itemEnd? offset (.package clause) rest = terminatorLength? rest := by
  unfold itemEnd?
  cases terminatorLength? rest <;> rfl

@[simp] theorem itemEnd?_nil : itemEnd? offset item [] = none := by
  simp [itemEnd?, terminatorLength?]

/-- **An item ends where it ended before**, if what follows starts alike. It must not have become
the first thing of a file. -/
theorem itemEnd?_congr (h : itemEnd? offset item rest = some length) (hoffset : 0 < offset')
    (hitem : item'.isSemicolon = item.isSemicolon) (hhead : rest.head? = rest'.head?) :
    itemEnd? offset' item' rest' = some length := by
  rcases itemEnd?_cases h with hterm | ⟨rfl, hsemicolon, -, hrest⟩
  · exact itemEnd?_of_terminator (terminatorLength?_eq hhead ▸ hterm)
  · have hrest' : rest' ≠ [] := by
      rintro rfl
      exact hrest (List.head?_eq_none_iff.mp hhead)
    have hterm : terminatorLength? rest' = terminatorLength? rest :=
      (terminatorLength?_eq hhead).symm
    simp only [itemEnd?, hterm, hitem] at h ⊢
    split at h
    · exact h
    · simp [hsemicolon, hoffset, hrest']

/-- What ends an item is nothing, or one token. -/
theorem terminator_of_itemEnd {terminator after : List Token}
    (h : itemEnd? offset item (terminator ++ after) = some terminator.length) :
    terminator = [] ∨ ∃ token, terminator = [token] ∧ token.onNewLine = false ∧
      (token.lexeme = .mark .semicolon ∨ token.lexeme = .mark .null) := by
  rcases itemEnd?_cases h with hterm | ⟨hnil, -⟩
  · rcases terminator_cases hterm with ⟨rfl, -⟩ | hsingle
    · exact .inl rfl
    · exact .inr hsingle
  · exact .inl (List.eq_nil_of_length_eq_zero hnil)

/-- What ends an item is the front of the tokens. -/
theorem exists_itemEnd (h : itemEnd? offset item rest = some length) :
    ∃ terminator after, rest = terminator ++ after ∧ terminator.length = length ∧
      ∀ token ∈ terminator, token.lexeme ≠ .stray := by
  rcases itemEnd?_cases h with hterm | ⟨rfl, -⟩
  · exact exists_terminator hterm
  · exact ⟨[], rest, rfl, rfl, nofun⟩

end

/-! ### Statements -/

section

variable {Put : Token → List Token → Token → Prop} {source last : List Char} {offset close : Nat}
  {tokens after after' : List Token} {spans : List Span} {brace : Token}

/-- The statements of a body are read off the front of the tokens, none of them stray. -/
theorem StmtsRead.exists_taken {rest : List Token} (h : StmtsRead offset tokens spans close rest) :
    ∃ used, tokens = used ++ rest ∧ ∀ token ∈ used, token.lexeme ≠ .stray := by
  induction h with
  | done _ => exact ⟨[], rfl, nofun⟩
  | @step _ _ _ _ _ piece _ _ _ _ _ hread hcut _ hterm _ ih =>
    obtain ⟨rfl, rfl, hpiece⟩ := hcut.of_recognize hread
    obtain ⟨terminator, after, rfl, rfl, hterminator⟩ := exists_terminator hterm
    rw [List.drop_left] at ih
    obtain ⟨used, rfl, hused⟩ := ih
    refine ⟨piece ++ (terminator ++ used), by simp, ?_⟩
    simp only [List.forall_mem_append]
    exact ⟨hpiece, hterminator, hused⟩
  | last _ hread hcut _ _ _ =>
    obtain ⟨rfl, rfl, hpiece⟩ := hcut.of_recognize hread
    exact ⟨_, rfl, hpiece⟩

theorem StmtsRead.closes (h : StmtsRead offset tokens spans close (brace :: after)) :
    brace.lexeme = .mark .closeBrace := by
  generalize hend : brace :: after = rest at h
  induction h with
  | done hbrace =>
    cases hend
    exact hbrace
  | step _ _ _ _ _ _ ih => exact ih hend
  | last _ _ _ _ _ hbrace =>
    subst hend
    simpa using hbrace

/-- The brace behind the statements of a body is spelled as such. -/
theorem StmtsRead.text_closing (h : StmtsRead offset tokens spans close (brace :: after))
    (hspelled : ∀ token ∈ tokens, token.Spelled) : brace.text = ['\x7d'] := by
  obtain ⟨used, rfl, -⟩ := h.exists_taken
  exact (hspelled brace (by simp)).text_closeBrace h.closes

/-- A phrase that opens a statement is read again behind any gap. -/
theorem recognize_again (hput : Insertion Put) {α : Type} {phrase : Phrase α} {answer : α}
    {piece rest rest' : List Token} (h : recognize phrase (piece ++ rest) = .ok (answer, rest))
    (hopens : phrase.opens = true) (hcloses : phrase.closes = 0) (hinside : phrase.inside = 0)
    (hfenced : Fenced Put rest rest') (hpiece : piece ≠ []) (gap : List Char) :
    recognize phrase (regap gap piece ++ rest') = .ok (answer, rest') := by
  rw [← regap_append hpiece]
  refine recognize_regap hopens ?_ gap
  exact (steady_recognize phrase hcloses hinside).reread (simulation_fenced hput) h
    (hfenced.keepAll piece)

theorem regap_ne_nil {tokens : List Token} (h : tokens ≠ []) (gap : List Char) :
    regap gap tokens ≠ [] := by
  cases tokens with
  | nil => exact absurd rfl h
  | cons token tokens => exact List.cons_ne_nil _ _

theorem head_regap_append {piece rest rest' : List Token} {lexeme : Lexeme} (hpiece : piece ≠ [])
    (h : (piece ++ rest).head?.map Token.lexeme ≠ some lexeme) (gap : List Char) :
    (regap gap piece ++ rest').head?.map Token.lexeme ≠ some lexeme := by
  cases piece with
  | nil => exact absurd rfl hpiece
  | cons token piece => exact h

/-- **The statements of a body are read again**, whatever the gap in front of them, if what
follows the body is fenced off. They have the same texts. -/
theorem StmtsRead.reread (hput : Insertion Put)
    (h : StmtsRead offset tokens spans close (brace :: after))
    (hrest : RestAt source offset (unscan tokens ++ last)) (hfenced : Fenced Put after after') :
    ∃ used, tokens = used ++ brace :: after ∧
      ∀ gap source' last' offset',
        RestAt source' offset' (unscan (regap gap (used ++ brace :: after')) ++ last') →
        ∃ spans' close' brace', StmtsRead offset' (regap gap (used ++ brace :: after')) spans'
            close' (brace' :: after') ∧
          spans'.map (·.cut? source') = spans.map (·.cut? source) := by
  generalize hend : brace :: after = rest at h
  induction h with
  | done hbrace =>
    cases hend
    refine ⟨[], rfl, fun gap source' last' offset' _ => ⟨[], offset', { brace with gap }, ?_, rfl⟩⟩
    exact .done hbrace
  | @step offset length close tokens left piece rest after kind spans hhead hread hcut hpiece
      hterm _ ih =>
    subst hend
    obtain ⟨rfl, rfl, -⟩ := hcut.of_recognize hread
    obtain ⟨terminator, tokens, rfl, rfl, -⟩ := exists_terminator hterm
    rw [List.drop_left, List.take_left] at ih
    have hrest' := restAt_piece (restAt_piece hrest)
    obtain ⟨used, rfl, hused⟩ := ih hrest' rfl
    refine ⟨piece ++ (terminator ++ used), by simp, fun gap source' last' offset' hplace => ?_⟩
    have hfenced' : Fenced Put (terminator ++ (used ++ brace :: _))
        (terminator ++ (used ++ brace :: after')) :=
      ((hfenced.keep brace).keepAll used).keepAll terminator
    have htokens : regap gap (piece ++ (terminator ++ used) ++ brace :: after') =
        regap gap piece ++ (terminator ++ (used ++ brace :: after')) := by
      simp [regap_append hpiece]
    rw [htokens] at hplace ⊢
    obtain ⟨gap', hgap'⟩ := exists_regap_eq (used ++ brace :: after')
    have hnext := hused gap' source' last'
      (offset' + width (regap gap piece) + width terminator)
    rw [hgap'] at hnext
    obtain ⟨spans', close', brace', hread', htexts⟩ := hnext (restAt_piece (restAt_piece hplace))
    refine ⟨pieceSpan offset' (regap gap piece) :: spans', close', brace', ?_, ?_⟩
    · refine .step (head_regap_append hpiece hhead gap)
        (recognize_again hput hread rfl rfl rfl hfenced' hpiece gap) (cut_append _ _)
        (regap_ne_nil hpiece gap) (by rwa [← terminatorLength?_eq hfenced'.grown.head_eq]) ?_
      rw [List.drop_left, List.take_left]
      exact hread'
    · rw [List.map_cons, List.map_cons, htexts, cut?_pieceSpan hplace, cut?_pieceSpan hrest,
        spelling_regap]
  | @last offset tokens left piece rest kind hhead hread hcut hpiece hterm hbrace =>
    subst hend
    obtain ⟨rfl, rfl, -⟩ := hcut.of_recognize hread
    refine ⟨piece, rfl, fun gap source' last' offset' hplace => ?_⟩
    have hfenced' : Fenced Put (brace :: after) (brace :: after') := hfenced.keep brace
    rw [regap_append hpiece] at hplace ⊢
    refine ⟨[pieceSpan offset' (regap gap piece)], offset' + width (regap gap piece), brace, ?_, ?_⟩
    · exact .last (head_regap_append hpiece hhead gap)
        (recognize_again hput hread rfl rfl rfl hfenced' hpiece gap) (cut_append _ _)
        (regap_ne_nil hpiece gap) (by rwa [← terminatorLength?_eq hfenced'.grown.head_eq]) hbrace
    · rw [List.map_singleton, List.map_singleton, cut?_pieceSpan hplace, cut?_pieceSpan hrest,
        spelling_regap]

end

/-! ### Reading is complete -/

section

variable {fuel offset close : Nat} {tokens rest : List Token} {spans : List Span}

/-- One statement is read, and then what its terminator calls for. -/
theorem readStatements_succ {piece : List Token} {kind : StatementKind}
    (hhead : (piece ++ rest).head?.map Token.lexeme ≠ some (.mark .closeBrace))
    (hread : recognize .listStatement (piece ++ rest) = .ok (kind, rest)) (hpiece : piece ≠ []) :
    readStatements (fuel + 1) offset (piece ++ rest) =
      match terminatorLength? rest with
      | some length =>
        (readStatements fuel (offset + width piece + width (rest.take length))
          (rest.drop length)).map fun (spans, after) => (pieceSpan offset piece :: spans, after)
      | none =>
        if rest.head?.map Token.lexeme = some (.mark .closeBrace) then
          .ok ([pieceSpan offset piece], offset + width piece, rest)
        else .error ⟨rest, false⟩ := by
  have htaken := taken_append piece rest
  have hdrop : (piece ++ rest).drop piece.length = rest := List.drop_left
  cases piece with
  | nil => exact absurd rfl hpiece
  | cons token piece =>
    rw [List.cons_append] at htaken hread hhead hdrop ⊢
    have hbrace : token.lexeme ≠ .mark .closeBrace := by simpa using hhead
    simp only [readStatements, if_neg hbrace, hread, bind, Except.bind, htaken, if_neg hpiece,
      hdrop]
    cases terminatorLength? rest with
    | none => rfl
    | some length =>
      simp only
      cases readStatements fuel (offset + width (token :: piece) + width (rest.take length))
        (rest.drop length) with
      | error halt => rfl
      | ok result => rfl

/-- **Statements that can be read are read.** -/
theorem readStatements_of_stmtsRead (h : StmtsRead offset tokens spans close rest)
    (hfuel : tokens.length < fuel) :
    readStatements fuel offset tokens = .ok (spans, close, rest) := by
  induction h generalizing fuel with
  | @done offset token tokens hbrace =>
    cases fuel with
    | zero => cases hfuel
    | succ fuel =>
      simp only [readStatements, if_pos hbrace]
      rfl
  | @step offset length close tokens left piece rest after kind spans hhead hread hcut hpiece
      hterm _ ih =>
    obtain ⟨rfl, rfl, -⟩ := hcut.of_recognize hread
    cases fuel with
    | zero => cases hfuel
    | succ fuel =>
      -- a statement is not empty, so fewer tokens are left
      have hlength : (rest.drop length).length < fuel := by
        have := List.length_pos_iff.mpr hpiece
        rw [List.length_append] at hfuel
        rw [List.length_drop]
        omega
      rw [readStatements_succ hhead hread hpiece, hterm]
      simp only [ih hlength]
      rfl
  | @last offset tokens left piece rest kind hhead hread hcut hpiece hterm hbrace =>
    obtain ⟨rfl, rfl, -⟩ := hcut.of_recognize hread
    cases fuel with
    | zero => cases hfuel
    | succ fuel => rw [readStatements_succ hhead hread hpiece, hterm, if_pos hbrace]

/-- The body that statements between two braces make up. -/
def bodyOf (offset : Nat) (first : Token) (spans : List Span) (close : Nat) (last : Token) : Body :=
  { stmts := spans.map Stmt.verbatim
    span := some ⟨offset + byteLength first.gap, close + byteLength last.full⟩ }

theorem readBody_eq_ok {body : Body} {stop : Nat} :
    readBody offset tokens = .ok (body, stop, rest) ↔
      ∃ first inner spans close last, tokens = first :: inner ∧
        first.lexeme = .mark .openBrace ∧
        StmtsRead (offset + byteLength first.full) inner spans close (last :: rest) ∧
        body = bodyOf offset first spans close last ∧ stop = close + byteLength last.full := by
  constructor
  · intro h
    cases tokens with
    | nil => cases h
    | cons first inner =>
      simp only [readBody] at h
      split at h
      · next hopen =>
        obtain ⟨⟨spans, close, left⟩, hread, h⟩ := bind_eq_ok.mp h
        cases left with
        | nil => cases h
        | cons last after =>
          cases h
          exact ⟨first, inner, spans, close, last, rfl, hopen, stmtsRead_of_readStatements hread,
            rfl, rfl⟩
      · cases h
  · rintro ⟨first, inner, spans, close, last, rfl, hopen, hread, rfl, rfl⟩
    simp only [readBody, if_pos hopen,
      readStatements_of_stmtsRead hread (Nat.lt_succ_self inner.length)]
    rfl

/-- An item that can be read is read. -/
theorem readItem_of_itemRead {item : Item} (h : ItemRead offset tokens item rest) :
    readItem offset tokens = .ok (item, rest) := by
  cases h with
  | @package first inner left piece rest name hfirst hread hcut =>
    simp only [readItem, if_pos hfirst, hread, bind, Except.bind, hcut.taken_eq, hcut.drop_eq]
    rfl
  | @imports first inner left piece rest specs hfirst hread hcut =>
    have hpackage : first.lexeme ≠ .keyword .packageWord := by simp [hfirst]
    simp only [readItem, if_neg hpackage, if_pos hfirst, hread, bind, Except.bind, hcut.taken_eq,
      hcut.drop_eq]
    rfl
  | @func first inner left head middle rest signature body stop hfirst hdeclares hread hcut hbody
      hreadBody =>
    simp [readItem, hfirst, hdeclares, hread, bind, Except.bind, hcut.taken_eq, hcut.drop_eq,
      hbody, hreadBody]
    rfl
  | @stub first inner left head rest signature hfirst hdeclares hread hcut hbody =>
    simp [readItem, hfirst, hdeclares, hread, bind, Except.bind, hcut.taken_eq, hcut.drop_eq,
      hbody]
    rfl
  | @other tokens left piece rest kind hpackage himport hfunc hread hcut hpiece =>
    cases tokens with
    | nil => exact absurd (List.append_eq_nil_iff.mp hcut.append_eq).1 hpiece
    | cons first inner =>
      have hpackage' : first.lexeme ≠ .keyword .packageWord := by simpa using hpackage
      have himport' : first.lexeme ≠ .keyword .importWord := by simpa using himport
      have hfunc' : (first.lexeme == .keyword .funcWord && declaresFunction inner) = false := by
        simpa using hfunc
      simp [readItem, hpackage', himport', hfunc', hread, bind, Except.bind, hcut.taken_eq,
        hcut.drop_eq, hpiece]
      rfl

/-- An item is read off the front of the tokens, none of them stray. -/
theorem ItemRead.exists_taken {item : Item} (h : ItemRead offset tokens item rest) :
    ∃ used, tokens = used ++ rest ∧ used ≠ [] ∧ ∀ token ∈ used, token.lexeme ≠ .stray := by
  cases h with
  | @package first inner left piece rest name hfirst hread hcut =>
    obtain ⟨used, rfl, rfl, rfl, hused⟩ := steady_readWord.exists_piece hread hcut
    refine ⟨first :: used, rfl, by simp, ?_⟩
    rw [List.forall_mem_cons, hfirst]
    exact ⟨nofun, hused⟩
  | @imports first inner left piece rest specs hfirst hread hcut =>
    obtain ⟨used, rfl, rfl, rfl, hused⟩ := steady_readImports.exists_piece hread hcut
    refine ⟨first :: used, rfl, by simp, ?_⟩
    rw [List.forall_mem_cons, hfirst]
    exact ⟨nofun, hused⟩
  | @func first inner left head middle rest signature body stop hfirst _ hread hcut _ hbody =>
    obtain ⟨used, rfl, rfl, rfl, hused⟩ := steady_readSignature.exists_piece hread hcut
    obtain ⟨brace, inner, spans, close, last, rfl, hbrace, hstmts, -⟩ := readBody_eq_ok.mp hbody
    obtain ⟨used', rfl, hused'⟩ := hstmts.exists_taken
    refine ⟨first :: (used ++ brace :: (used' ++ [last])), by simp, by simp, ?_⟩
    simp only [List.forall_mem_cons, List.forall_mem_append, hfirst, hbrace]
    refine ⟨nofun, hused, nofun, hused', ?_, nofun⟩
    rw [hstmts.closes]
    nofun
  | @stub first inner left head rest signature hfirst _ hread hcut _ =>
    obtain ⟨used, rfl, rfl, rfl, hused⟩ := steady_readSignature.exists_piece hread hcut
    refine ⟨first :: used, rfl, by simp, ?_⟩
    rw [List.forall_mem_cons, hfirst]
    exact ⟨nofun, hused⟩
  | @other tokens left piece rest kind _ _ _ hread hcut hpiece =>
    obtain ⟨rfl, rfl, hused⟩ := hcut.of_recognize hread
    exact ⟨piece, rfl, hpiece, hused⟩

/-- Items are read off tokens. -/
theorem ItemsRead.tokens_ne_nil {item : Item} {items : List Item}
    (h : ItemsRead offset tokens (item :: items)) : tokens ≠ [] := by
  have hne : ∀ {rest : List Token}, ItemRead offset tokens item rest → tokens ≠ [] := by
    intro rest hitem
    obtain ⟨used, rfl, hused, -⟩ := hitem.exists_taken
    simp [hused]
  cases h with
  | step hitem _ _ => exact hne hitem
  | last hitem => exact hne hitem

/-- The tokens that items were read from are not stray. -/
theorem ItemsRead.noStray {items : List Item} (h : ItemsRead offset tokens items) :
    ∀ token ∈ tokens, token.lexeme ≠ .stray := by
  induction h with
  | done => exact nofun
  | step hitem hend _ ih =>
    obtain ⟨used, rfl, -, hused⟩ := hitem.exists_taken
    obtain ⟨terminator, rest, rfl, rfl, hterminator⟩ := exists_itemEnd hend
    rw [List.drop_left] at ih
    simp only [List.forall_mem_append]
    exact ⟨hused, hterminator, ih⟩
  | last hitem =>
    obtain ⟨used, rfl, -, hused⟩ := hitem.exists_taken
    simpa using hused

theorem ItemsRead.exists_item {first : Token} {items : List Item}
    (h : ItemsRead offset (first :: rest) items) :
    ∃ item items' rest', items = item :: items' ∧ ItemRead offset (first :: rest) item rest' := by
  cases h with
  | step hitem _ _ => exact ⟨_, _, _, rfl, hitem⟩
  | last hitem => exact ⟨_, _, _, rfl, hitem⟩

/-- An item in front of what ends it and other items is read. -/
theorem ItemsRead.step_append {item : Item} {items : List Item} {used terminator : List Token}
    (hitem : ItemRead offset (used ++ (terminator ++ rest)) item (terminator ++ rest))
    (hend : itemEnd? offset item (terminator ++ rest) = some terminator.length)
    (h : ItemsRead (offset + width used + width terminator) rest items) :
    ItemsRead offset (used ++ (terminator ++ rest)) (item :: items) := by
  refine .step hitem hend ?_
  rwa [taken_append, List.take_left, List.drop_left]

/-- **Items that can be read are read.** -/
theorem readItems_of_itemsRead {items : List Item} (h : ItemsRead offset tokens items)
    (hfuel : tokens.length < fuel) : readItems fuel offset tokens = .ok items := by
  induction h generalizing fuel with
  | done =>
    cases fuel with
    | zero => rfl
    | succ fuel => rfl
  | @step offset length tokens rest item items hitem hend _ ih =>
    obtain ⟨used, rfl, hused, -⟩ := hitem.exists_taken
    cases fuel with
    | zero => cases hfuel
    | succ fuel =>
      have hlength : (rest.drop length).length < fuel := by
        have := List.length_pos_iff.mpr hused
        rw [List.length_append] at hfuel
        rw [List.length_drop]
        omega
      have hne : used ++ rest ≠ [] := by simp [hused]
      simp only [readItems, if_neg hne, readItem_of_itemRead hitem, bind, Except.bind, hend,
        ih hlength]
      rfl
  | @last offset tokens item hitem =>
    obtain ⟨used, rfl, hused, -⟩ := hitem.exists_taken
    cases fuel with
    | zero => cases hfuel
    | succ fuel =>
      have hne : used ++ [] ≠ [] := by simp [hused]
      simp only [readItems, if_neg hne, readItem_of_itemRead hitem, bind, Except.bind,
        itemEnd?_nil]
      rfl

/-- A file that can be read is read. -/
theorem parse_of_itemsRead {source : String} {tokens : List Token} {last : List Char}
    {items : List Item} {clause : PackageClause} (hscan : scan source.toList = (tokens, last))
    (hitems : ItemsRead 0 tokens items) (hpackage : packageOf? items = .ok clause) :
    parse source = .ok ⟨source, clause, items.filterMap Item.decl?⟩ := by
  have hread := readItems_of_itemsRead hitems (Nat.lt_succ_self tokens.length)
  simp only [parse, hscan, hread, Except.mapError, bind, Except.bind, hpackage]
  rfl

end

end EntryProbe.Go
