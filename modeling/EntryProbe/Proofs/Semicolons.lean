import EntryProbe.Proofs.Contents

/-!
# A semicolon in front of other items

A semicolon that ends an item is a terminator, and any other semicolon is an item of its own.
So one semicolon more in front of the items of a file is an item as well. It ends in front of
what follows it, whether the line breaks there or not (`EntryProbe.Go.itemEnd?`), with one
exception: if a semicolon follows on its line, that one is now the terminator of the new item,
and what was the terminator of that one is the next to be read.

| the items | with one semicolon more |
| --- | --- |
| an item, … | a semicolon, an item, … |
| a semicolon that nothing ended, … | a semicolon ended by it, … |
| a semicolon ended by another one, … | a semicolon ended by the first one, the other one, … |

In the last case the other semicolon stands in front of the rest as the new one did in front
of the items, which makes the induction (`EntryProbe.Go.ItemsRead.exists_oneMore`). Only a null
character at the end of the row would have nothing to end any more
(`EntryProbe.Go.ReachesNull`).
-/

namespace EntryProbe.Go

/-! ### Reading a semicolon -/

/-- The item that a semicolon of its own is. -/
def semicolonItem (offset : Nat) (semicolon : Token) : Item :=
  .decl (.statement .empty) (.other (pieceSpan offset [semicolon]))

/-- What a semicolon of its own says. -/
def semicolonContent : Content := .other (some [';'])

/-- What the declarations among the items of a file say. -/
def contents (source : List Char) (items : List Item) : List Content :=
  (items.filterMap Item.decl?).map (Decl.content source)

section

variable {source last : List Char} {offset : Nat} {semicolon : Token}
  {tokens terminator rest : List Token} {item : Item} {items : List Item}

theorem recognize_semicolon (h : semicolon.lexeme = .mark .semicolon) (rest : List Token) :
    recognize .statement (semicolon :: rest) = .ok (.empty, rest) := by
  obtain ⟨gap, text, lexeme⟩ := semicolon
  obtain rfl : lexeme = .mark .semicolon := h
  rfl

theorem itemRead_semicolon (h : semicolon.lexeme = .mark .semicolon) (offset : Nat)
    (rest : List Token) :
    ItemRead offset (semicolon :: rest) (semicolonItem offset semicolon) rest :=
  .other (by simp [h]) (by simp [h]) (by simp [h]) (recognize_semicolon h rest)
    (cut_append [semicolon] rest) (List.cons_ne_nil _ _)

/-- Nothing else is read where a semicolon stands. -/
theorem ItemRead.eq_semicolonItem (h : ItemRead offset (semicolon :: tokens) item rest)
    (hlexeme : semicolon.lexeme = .mark .semicolon) :
    item = semicolonItem offset semicolon ∧ rest = tokens := by
  cases h with
  | package hfirst _ _ => cases hlexeme.symm.trans hfirst
  | imports hfirst _ _ => cases hlexeme.symm.trans hfirst
  | func hfirst _ _ _ _ _ => cases hlexeme.symm.trans hfirst
  | stub hfirst _ _ _ _ => cases hlexeme.symm.trans hfirst
  | other _ _ _ hread hcut _ =>
    rw [recognize_semicolon hlexeme] at hread
    cases hread
    obtain ⟨rfl, rfl⟩ := @Cut.eq_of_append [semicolon] _ _ _ hcut
    exact ⟨rfl, rfl⟩

theorem contents_semicolonItem (hlexeme : semicolon.lexeme = .mark .semicolon)
    (hspelled : semicolon.Spelled)
    (hplace : RestAt source offset (unscan (semicolon :: rest) ++ last)) :
    contents source (semicolonItem offset semicolon :: items) =
      semicolonContent :: contents source items := by
  have htext : semicolon.text = [';'] := by simpa [marks] using hspelled _ hlexeme
  have hcut := @cut?_pieceSpan _ _ _ [semicolon] _ hplace
  simp [contents, semicolonItem, semicolonContent, Item.decl?, Decl.content, hcut, spelling, htext]

/-- A semicolon in front of what ends it and other items is read. -/
theorem ItemsRead.cons_semicolon (hlexeme : semicolon.lexeme = .mark .semicolon)
    (hend : itemEnd? offset (semicolonItem offset semicolon) (terminator ++ rest) =
      some terminator.length)
    (h : ItemsRead (offset + width [semicolon] + width terminator) rest items) :
    ItemsRead offset (semicolon :: (terminator ++ rest))
      (semicolonItem offset semicolon :: items) :=
  @ItemsRead.step_append _ _ _ _ [semicolon] _ (itemRead_semicolon hlexeme offset _) hend h

/-- **What ends a semicolon** behind the start of a file: nothing, if no semicolon follows on
its line. -/
theorem itemEnd?_semicolonItem (hoffset : 0 < offset) (first : Token) (rest : List Token) :
    itemEnd? offset (semicolonItem offset semicolon) (first :: rest) = some 0 ∨
      first.onNewLine = false ∧ (first.lexeme = .mark .semicolon ∨ first.lexeme = .mark .null) ∧
        itemEnd? offset (semicolonItem offset semicolon) (first :: rest) = some 1 := by
  have hsemicolon : (semicolonItem offset semicolon).isSemicolon = true := rfl
  by_cases hline : first.onNewLine = true
  · exact .inl (itemEnd?_of_terminator (terminatorLength?_of_onNewLine hline))
  rw [Bool.not_eq_true] at hline
  by_cases hmark : first.lexeme = .mark .semicolon ∨ first.lexeme = .mark .null
  · refine .inr ⟨hline, hmark, itemEnd?_of_terminator ?_⟩
    simp [terminatorLength?, hline, hmark]
  · left
    have hnone : terminatorLength? (first :: rest) = none := by
      simp [terminatorLength?, hline, hmark]
    simp [itemEnd?, hnone, hsemicolon, hoffset]

/-! ### One semicolon more -/

/-- Only semicolons stand in front of a null character on the line of the first token. -/
def ReachesNull : List Token → Prop
  | [] => False
  | token :: tokens => token.onNewLine = false ∧
      (token.lexeme = .mark .null ∨ token.lexeme = .mark .semicolon ∧ ReachesNull tokens)

theorem not_reachesNull (h : ∀ token ∈ tokens, token.lexeme ≠ .mark .null) :
    ¬ ReachesNull tokens := by
  induction tokens with
  | nil => exact id
  | cons token tokens ih =>
    obtain ⟨htoken, htokens⟩ := List.forall_mem_cons.mp h
    rintro ⟨-, hnull | ⟨-, hreaches⟩⟩
    · exact htoken hnull
    · exact ih htokens hreaches

/-- A terminator that does not reach a null character is a semicolon. -/
theorem eq_semicolon_of_not_reachesNull {first : Token} (h : ¬ ReachesNull (first :: tokens))
    (hline : first.onNewLine = false)
    (hmark : first.lexeme = .mark .semicolon ∨ first.lexeme = .mark .null) :
    first.lexeme = .mark .semicolon ∧ ¬ ReachesNull tokens := by
  have hlexeme := hmark.resolve_right fun hnull => h ⟨hline, .inl hnull⟩
  exact ⟨hlexeme, fun hreaches => h ⟨hline, .inr ⟨hlexeme, hreaches⟩⟩⟩

/-- Tokens put in behind braces do not lead to a null character. -/
theorem Grown.reachesNull {Put : Token → List Token → Token → Prop} {s s' : List Token}
    (h : Grown Put s s') (hreaches : ReachesNull s') : ReachesNull s := by
  induction h with
  | nil => exact hreaches
  | keep token _ ih =>
    obtain ⟨hline, hnull | ⟨hlexeme, hreaches⟩⟩ := hreaches
    · exact ⟨hline, .inl hnull⟩
    · exact ⟨hline, .inr ⟨hlexeme, ih hreaches⟩⟩
  | put hbrace _ _ _ =>
    obtain ⟨-, hnull | ⟨hlexeme, -⟩⟩ := hreaches
    · cases hbrace.symm.trans hnull
    · cases hbrace.symm.trans hlexeme

/-- **With one semicolon more in front**, other items are read: there is one item more, or the
semicolon takes the place of one that the items started with. -/
structure OneMore (source : List Char) (offset : Nat) (semicolon : Token) (tokens : List Token)
    (items items' : List Item) : Prop where
  /-- They are read. -/
  read : ItemsRead offset (semicolon :: tokens) items'
  /-- The package clauses among them are the same. -/
  clauses : items'.filterMap Item.clause? = items.filterMap Item.clause?
  /-- The others say the same, but for the semicolon. -/
  contents : contents source items' = semicolonContent :: Go.contents source items ∨
    Go.contents source items' = Go.contents source items ∧
      (Go.contents source items).head? = some semicolonContent

/-- A semicolon in front of items on another line, or of items that start with no semicolon. -/
theorem oneMore_of_open (hlexeme : semicolon.lexeme = .mark .semicolon)
    (hspelled : semicolon.Spelled)
    (hplace : RestAt source offset (unscan (semicolon :: tokens) ++ last))
    (hend : itemEnd? offset (semicolonItem offset semicolon) tokens = some 0)
    (h : ItemsRead (offset + width [semicolon]) tokens items) :
    OneMore source offset semicolon tokens items (semicolonItem offset semicolon :: items) where
  read := @ItemsRead.cons_semicolon _ _ [] _ _ hlexeme hend h
  clauses := rfl
  contents := .inl (contents_semicolonItem hlexeme hspelled hplace)

/-- A semicolon in front of one that no terminator followed. -/
theorem oneMore_of_ended {first : Token} (hlexeme : semicolon.lexeme = .mark .semicolon)
    (hfirst : first.lexeme = .mark .semicolon) (hspelled : semicolon.Spelled)
    (hspelled' : first.Spelled)
    (hplace : RestAt source offset (unscan (semicolon :: first :: tokens) ++ last))
    (hend : itemEnd? offset (semicolonItem offset semicolon) (first :: tokens) = some 1)
    (h : ItemsRead (offset + width [semicolon] + width [first]) tokens items) :
    OneMore source offset semicolon (first :: tokens)
      (semicolonItem (offset + width [semicolon]) first :: items)
      (semicolonItem offset semicolon :: items) where
  read := @ItemsRead.cons_semicolon _ _ [first] _ _ hlexeme hend h
  clauses := rfl
  contents := by
    have hplace' := @restAt_piece _ _ _ [semicolon] _ hplace
    rw [contents_semicolonItem hlexeme hspelled hplace,
      contents_semicolonItem hfirst hspelled' hplace']
    exact .inr ⟨rfl, rfl⟩

/-- A semicolon in front of one that a semicolon followed, which stands in front of the other
items now. -/
theorem OneMore.cons_cons {first second : Token} {items' : List Item}
    (hlexeme : semicolon.lexeme = .mark .semicolon) (hfirst : first.lexeme = .mark .semicolon)
    (hspelled : semicolon.Spelled) (hspelled' : first.Spelled)
    (hplace : RestAt source offset (unscan (semicolon :: first :: second :: tokens) ++ last))
    (hend : itemEnd? offset (semicolonItem offset semicolon) (first :: second :: tokens) = some 1)
    (h : OneMore source (offset + width [semicolon] + width [first]) second tokens items items') :
    OneMore source offset semicolon (first :: second :: tokens)
      (semicolonItem (offset + width [semicolon]) first :: items)
      (semicolonItem offset semicolon :: items') where
  read := @ItemsRead.cons_semicolon _ _ [first] _ _ hlexeme hend h.read
  clauses := h.clauses
  contents := by
    have hplace' := @restAt_piece _ _ _ [semicolon] _ hplace
    rw [contents_semicolonItem hlexeme hspelled hplace,
      contents_semicolonItem hfirst hspelled' hplace']
    rcases h.contents with hmore | ⟨hsame, -⟩
    · exact .inl (congrArg _ hmore)
    · exact .inr ⟨congrArg _ hsame, rfl⟩

/-- A semicolon in front of items ends in front of them, or at the semicolon that they start
with. -/
theorem ItemsRead.oneMore_or_ended (hlexeme : semicolon.lexeme = .mark .semicolon)
    (h : ItemsRead (offset + width [semicolon]) tokens items) (hne : items ≠ [])
    (hoffset : 0 < offset) (hspelled : semicolon.Spelled)
    (hplace : RestAt source offset (unscan (semicolon :: tokens) ++ last))
    (hnull : ¬ ReachesNull tokens) :
    (∃ items', OneMore source offset semicolon tokens items items') ∨
      ∃ first rest, tokens = first :: rest ∧ first.lexeme = .mark .semicolon ∧
        ¬ ReachesNull rest ∧
        itemEnd? offset (semicolonItem offset semicolon) (first :: rest) = some 1 := by
  obtain ⟨item, items, rfl⟩ := List.exists_cons_of_ne_nil hne
  obtain ⟨first, rest, rfl⟩ := List.exists_cons_of_ne_nil h.tokens_ne_nil
  rcases itemEnd?_semicolonItem hoffset first rest with hopen | ⟨hline, hmark, hended⟩
  · exact .inl ⟨_, oneMore_of_open hlexeme hspelled hplace hopen h⟩
  · obtain ⟨hfirst, hrest⟩ := eq_semicolon_of_not_reachesNull hnull hline hmark
    exact .inr ⟨first, rest, rfl, hfirst, hrest, hended⟩

/-- **Items are read with one semicolon more in front**, unless a null character would have
nothing to end any more. -/
theorem ItemsRead.exists_oneMore (hlexeme : semicolon.lexeme = .mark .semicolon)
    (h : ItemsRead (offset + width [semicolon]) tokens items) (hoffset : 0 < offset)
    (hplace : RestAt source offset (unscan (semicolon :: tokens) ++ last))
    (hspelled : ∀ token ∈ semicolon :: tokens, token.Spelled) (hnull : ¬ ReachesNull tokens) :
    ∃ items', OneMore source offset semicolon tokens items items' := by
  generalize hstart : offset + width [semicolon] = start at h
  -- the induction goes from one semicolon to the next but one
  induction h generalizing offset semicolon with
  | done =>
    exact ⟨[_], .last (itemRead_semicolon hlexeme offset []), rfl,
      .inl (contents_semicolonItem hlexeme (hspelled _ (by simp)) hplace)⟩
  | @step start length tokens rest item items hitem hend hitems ih =>
    subst hstart
    rcases (ItemsRead.step hitem hend hitems).oneMore_or_ended hlexeme (by simp) hoffset
      (hspelled _ (by simp)) hplace hnull with hmore | ⟨first, tokens, rfl, hfirst, hnull, hended⟩
    · exact hmore
    obtain ⟨rfl, rfl⟩ := hitem.eq_semicolonItem hfirst
    obtain ⟨terminator, tokens, rfl, rfl, -⟩ := exists_itemEnd hend
    have htaken : taken (first :: (terminator ++ tokens)) (terminator ++ tokens) = [first] :=
      taken_append [first] _
    rw [htaken, List.take_left, List.drop_left] at hitems ih
    rcases terminator_of_itemEnd hend with rfl | ⟨second, rfl, hline, hmark⟩
    · exact ⟨_, oneMore_of_ended hlexeme hfirst (hspelled _ (by simp)) (hspelled _ (by simp))
        hplace hended hitems⟩
    · obtain ⟨hsecond, hnull⟩ := eq_semicolon_of_not_reachesNull hnull hline hmark
      have hplace' := @restAt_piece _ _ _ [first] _ (@restAt_piece _ _ _ [semicolon] _ hplace)
      obtain ⟨items', hmore⟩ := ih hsecond (by omega) hplace'
        (fun token hmem => hspelled token (by simp [List.mem_cons.mp hmem])) hnull rfl
      exact ⟨_, hmore.cons_cons hlexeme hfirst (hspelled _ (by simp)) (hspelled _ (by simp))
        hplace hended⟩
  | @last start tokens item hitem =>
    subst hstart
    rcases (ItemsRead.last hitem).oneMore_or_ended hlexeme (by simp) hoffset
      (hspelled _ (by simp)) hplace hnull with hmore | ⟨first, tokens, rfl, hfirst, -, hended⟩
    · exact hmore
    obtain ⟨rfl, rfl⟩ := hitem.eq_semicolonItem hfirst
    exact ⟨_, oneMore_of_ended hlexeme hfirst (hspelled _ (by simp)) (hspelled _ (by simp)) hplace
      hended .done⟩

end

end EntryProbe.Go
