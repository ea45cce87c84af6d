import EntryProbe.Proofs.Rereading

/-!
# What declarations say

Two declarations of different sources stand at different places and can still say the same.
`EntryProbe.Go.Decl.content` is what is left of a declaration without its places: the
packages of an import, the signature of a function and the texts of its statements, or the
text of anything else. A declaration that is read again says the same
(`EntryProbe.Go.ItemRead.reread`).
-/

namespace EntryProbe.Go

/-- The text of a statement that was read. -/
def Stmt.text? (source : List Char) : Stmt → Option (List Char)
  | .verbatim span => span.cut? source
  | _ => none

/-- **What a declaration says**, wherever it stands in its source. -/
inductive Content where
  /-- The packages of an import declaration. -/
  | imports (specs : List ImportSpec)
  /-- A function, with the texts of the statements of its body if it has one. -/
  | func (name : String) (receiver : Option String) (params : List String)
      (result : Option String) (body : Option (List (Option (List Char))))
  /-- The text of any other declaration. -/
  | other (text : Option (List Char))
  deriving Repr, DecidableEq, Inhabited

/-- What a declaration of the file with the given source says. -/
def Decl.content (source : List Char) : Decl → Content
  | .imports decl => .imports decl.specs
  | .func decl =>
    .func decl.name decl.receiver decl.params decl.result
      (decl.body.map fun body => body.stmts.map (Stmt.text? source))
  | .other span => .other (span.cut? source)

/-- A function with one more statement in front of its body. -/
def Content.withFirst (text : List Char) : Content → Content
  | .func name receiver params result (some texts) =>
    .func name receiver params result (some (some text :: texts))
  | content => content

/-- Only functions take statements. -/
theorem Content.eq_of_withFirst_eq_other {content : Content} {text : List Char}
    {other : Option (List Char)} (h : content.withFirst text = .other other) :
    content = .other other := by
  cases content with
  | imports specs => cases h
  | func name receiver params result body =>
    cases body with
    | none => cases h
    | some texts => cases h
  | other text => exact h

section

variable {Put : Token → List Token → Token → Prop} {source last : List Char} {offset : Nat}
  {tokens rest rest' : List Token}

theorem texts_bodyOf (source : List Char) (offset close : Nat) (first brace : Token)
    (spans : List Span) :
    (bodyOf offset first spans close brace).stmts.map (Stmt.text? source) =
      spans.map (·.cut? source) := by
  rw [bodyOf, List.map_map]
  rfl

/-- A body is read again if what follows it is fenced off. -/
theorem readBody_again (hput : Insertion Put) {body : Body} {stop : Nat}
    (h : readBody offset tokens = .ok (body, stop, rest))
    (hrest : RestAt source offset (unscan tokens ++ last)) (hfenced : Fenced Put rest rest') :
    ∃ used, tokens = used ++ rest ∧ used ≠ [] ∧ ∀ source' last' offset',
      RestAt source' offset' (unscan (used ++ rest') ++ last') →
      ∃ body' stop', readBody offset' (used ++ rest') = .ok (body', stop', rest') ∧
        body'.stmts.map (Stmt.text? source') = body.stmts.map (Stmt.text? source) := by
  obtain ⟨first, inner, spans, close, brace, rfl, hopen, hstmts, rfl, rfl⟩ := readBody_eq_ok.mp h
  obtain ⟨used, rfl, hagain⟩ := hstmts.reread hput (restAt_token hrest) hfenced
  refine ⟨first :: (used ++ [brace]), by simp, by simp, fun source' last' offset' hplace => ?_⟩
  have htokens : first :: (used ++ [brace]) ++ rest' = first :: (used ++ brace :: rest') := by simp
  rw [htokens] at hplace ⊢
  obtain ⟨gap, hgap⟩ := exists_regap_eq (used ++ brace :: rest')
  have hnext := hagain gap source' last' (offset' + byteLength first.full)
  rw [hgap] at hnext
  obtain ⟨spans', close', brace', hread, htexts⟩ := hnext (restAt_token hplace)
  refine ⟨_, _, readBody_eq_ok.mpr
    ⟨first, _, spans', close', brace', rfl, hopen, hread, rfl, rfl⟩, ?_⟩
  rw [texts_bodyOf, texts_bodyOf, htexts]

theorem bodyFollows_eq (h : rest.head? = rest'.head?) : bodyFollows rest = bodyFollows rest' := by
  cases rest with
  | nil =>
    cases rest' with
    | nil => rfl
    | cons token rest' => cases h
  | cons token rest =>
    cases rest' with
    | nil => cases h
    | cons token' rest' =>
      cases h
      rfl

/-- **A declaration is read again**, whatever the gap in front of it, if what follows it is
fenced off. It says the same. -/
theorem ItemRead.reread (hput : Insertion Put) {kind : TopLevelKind} {decl : Decl}
    (h : ItemRead offset tokens (.decl kind decl) rest)
    (hrest : RestAt source offset (unscan tokens ++ last)) (hfenced : Fenced Put rest rest') :
    ∃ used, tokens = used ++ rest ∧ used ≠ [] ∧ ∀ gap source' last' offset',
      RestAt source' offset' (unscan (regap gap (used ++ rest')) ++ last') →
      ∃ decl', ItemRead offset' (regap gap (used ++ rest')) (.decl kind decl') rest' ∧
        decl'.content source' = decl.content source := by
  have hsimulation := simulation_fenced hput
  generalize hitem : Item.decl kind decl = item at h
  cases h with
  | package => cases hitem
  | @imports first inner left piece rest specs hfirst hread hcut =>
    cases hitem
    obtain ⟨used, rfl, rfl, rfl, -⟩ := steady_readImports.exists_piece hread hcut
    have hread' := steady_readImports.reread hsimulation hread (hfenced.keepAll used)
    refine ⟨first :: used, rfl, by simp, fun gap source' last' offset' _ => ?_⟩
    exact ⟨_, .imports hfirst hread' (cut_append ({ first with gap } :: used) rest'), rfl⟩
  | @func first inner left head middle rest signature body stop hfirst hdeclares hread hcut hbody
      hreadBody =>
    cases hitem
    obtain ⟨used, rfl, rfl, rfl, -⟩ := steady_readSignature.exists_piece hread hcut
    obtain ⟨used', rfl, hused', hagain⟩ :=
      readBody_again hput hreadBody (restAt_piece hrest) hfenced
    have hfenced' := hfenced.keepAll used'
    have hread' := steady_readSignature.reread hsimulation hread (hfenced'.keepAll used)
    refine ⟨first :: used ++ used', by simp, by simp, fun gap source' last' offset' hplace => ?_⟩
    rw [List.append_assoc, List.cons_append, regap_cons] at hplace ⊢
    obtain ⟨body', stop', hreadBody', htexts⟩ := hagain source' last'
      (offset' + width ({ first with gap } :: used))
      (@restAt_piece _ _ _ ({ first with gap } :: used) (used' ++ rest') hplace)
    refine ⟨_, .func hfirst ?_ hread' (cut_append ({ first with gap } :: used) _) ?_ hreadBody', ?_⟩
    · rwa [← (hfenced'.keepAll used).declaresFunction_eq hput]
    · rwa [← bodyFollows_eq hfenced'.grown.head_eq]
    · simp only [Decl.content, Option.map_some, htexts]
  | @stub first inner left head rest signature hfirst hdeclares hread hcut hbody =>
    cases hitem
    obtain ⟨used, rfl, rfl, rfl, -⟩ := steady_readSignature.exists_piece hread hcut
    have hread' := steady_readSignature.reread hsimulation hread (hfenced.keepAll used)
    refine ⟨first :: used, rfl, by simp, fun gap source' last' offset' _ => ?_⟩
    rw [List.cons_append, regap_cons]
    refine ⟨_, .stub hfirst ?_ hread' (cut_append ({ first with gap } :: used) rest') ?_, ?_⟩
    · rwa [← (hfenced.keepAll used).declaresFunction_eq hput]
    · rwa [← bodyFollows_eq hfenced.grown.head_eq]
    · simp [Decl.content, readSignature_body hread]
  | @other tokens left piece rest kind hpackage himport hfunc hread hcut hpiece =>
    cases hitem
    obtain ⟨rfl, rfl, -⟩ := hcut.of_recognize hread
    refine ⟨piece, rfl, hpiece, fun gap source' last' offset' hplace => ?_⟩
    rw [regap_append hpiece] at hplace ⊢
    have hread' := recognize_again hput hread rfl rfl rfl hfenced hpiece gap
    refine ⟨_, .other (head_regap_append hpiece hpackage gap) (head_regap_append hpiece himport gap)
      ?_ hread' (cut_append _ _) (regap_ne_nil hpiece gap), ?_⟩
    · cases piece with
      | nil => exact absurd rfl hpiece
      | cons first piece =>
        intro hword
        change declaresFunction (piece ++ rest') = false
        rw [← (hfenced.keepAll piece).declaresFunction_eq hput]
        exact hfunc hword
    · simp only [Decl.content, cut?_pieceSpan hplace, cut?_pieceSpan hrest, spelling_regap]

end

end EntryProbe.Go
