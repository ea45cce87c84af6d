import EntryProbe.Text.Bytes

/-!
# Places in a text

An offset denotes a place of a text if it is the length of one of its beginnings.
`EntryProbe.RestAt` says what stands behind such a place, and it is the notion that
everything about spans is reduced to: an offset has at most one rest
(`EntryProbe.RestAt.unique`), a place moves forward over a piece of the rest
(`EntryProbe.RestAt.advance`), and the piece it moves over is what a span cuts out
(`EntryProbe.RestAt.cut?`).

Two places in order cut out a text (`EntryProbe.IsPlace.exists_between`); offsets that
run backwards cut out none (`EntryProbe.Span.cut?_eq_none`).
-/

namespace EntryProbe

/-- The text `source` goes on with `rest` at the offset `n`. -/
def RestAt (source : List Char) (n : Nat) (rest : List Char) : Prop :=
  ∃ before, source = before ++ rest ∧ byteLength before = n

/-- The offset `n` falls between two characters of `source`, or at one of its ends. -/
def IsPlace (source : List Char) (n : Nat) : Prop :=
  ∃ rest, RestAt source n rest

variable {source rest : List Char} {n m : Nat}

theorem RestAt.start (source : List Char) : RestAt source 0 source :=
  ⟨[], rfl, rfl⟩

theorem RestAt.isPlace (h : RestAt source n rest) : IsPlace source n :=
  ⟨rest, h⟩

theorem RestAt.advance {piece : List Char} (h : RestAt source n (piece ++ rest)) :
    RestAt source (n + byteLength piece) rest := by
  obtain ⟨before, rfl, rfl⟩ := h
  exact ⟨before ++ piece, by simp, by simp⟩

theorem RestAt.advance_cons {c : Char} (h : RestAt source n (c :: rest)) :
    RestAt source (n + c.utf8Size) rest := by
  obtain ⟨before, rfl, rfl⟩ := h
  exact ⟨before ++ [c], by simp, by simp⟩

theorem RestAt.splitAtByte? (h : RestAt source n rest) :
    ∃ before, EntryProbe.splitAtByte? n source = some (before, rest) := by
  obtain ⟨before, rfl, rfl⟩ := h
  exact ⟨before, splitAtByte?_byteLength before rest⟩

/-- **What stands behind a place is determined by its offset.** -/
theorem RestAt.unique {rest' : List Char} (h : RestAt source n rest)
    (h' : RestAt source n rest') : rest = rest' := by
  obtain ⟨before, hb⟩ := h.splitAtByte?
  obtain ⟨before', hb'⟩ := h'.splitAtByte?
  rw [hb] at hb'
  exact (Prod.mk.inj (Option.some.inj hb')).2

theorem RestAt.add_byteLength (h : RestAt source n rest) :
    n + byteLength rest = byteLength source := by
  obtain ⟨before, rfl, rfl⟩ := h
  simp

/-- **A piece of the rest is what its span cuts out.** -/
theorem RestAt.cut? {piece : List Char} (h : RestAt source n (piece ++ rest)) :
    Span.cut? ⟨n, n + byteLength piece⟩ source = some piece := by
  obtain ⟨before, rfl, rfl⟩ := h
  exact Span.cut?_append before piece rest

theorem splitAtByte?_append {text before after : List Char}
    (h : splitAtByte? n text = some (before, after)) : before ++ after = text := by
  fun_induction EntryProbe.splitAtByte? n text generalizing before with
  | case1 =>
    cases h
    rfl
  | case2 => cases h
  | case3 n c cs hsize ih =>
    obtain ⟨parts, hparts, hcons⟩ := Option.map_eq_some_iff.mp h
    cases hcons
    rw [List.cons_append, ih hparts]
  | case4 => cases h

/-- What a span cuts out of a text is a part of it. -/
theorem Span.infix_of_cut? {span : Span} {text piece : List Char}
    (h : span.cut? text = some piece) : piece <:+: text := by
  unfold Span.cut? at h
  split at h
  · obtain ⟨⟨before, rest⟩, hbefore, h⟩ := Option.bind_eq_some_iff.mp h
    obtain ⟨⟨piece, after⟩, hpiece, rfl⟩ := Option.map_eq_some_iff.mp h
    refine ⟨before, after, ?_⟩
    rw [List.append_assoc, splitAtByte?_append hpiece, splitAtByte?_append hbefore]
  · cases h

/-- A text reaches from any place up to its end. -/
theorem RestAt.cut?_end (h : RestAt source n rest) :
    Span.cut? ⟨n, byteLength source⟩ source = some rest := by
  have hcut : RestAt source n (rest ++ []) := by simpa using h
  rw [← h.add_byteLength]
  exact hcut.cut?

/-- **Two places in order have a text between them.** -/
theorem IsPlace.exists_between (hn : RestAt source n rest) (hm : IsPlace source m) (h : n ≤ m) :
    ∃ piece rest', rest = piece ++ rest' ∧ RestAt source m rest' ∧ m = n + byteLength piece := by
  obtain ⟨before, rfl, rfl⟩ := hn
  obtain ⟨rest', before', hs, rfl⟩ := hm
  rcases List.append_eq_append_iff.mp hs with ⟨piece, rfl, rfl⟩ | ⟨piece, rfl, rfl⟩
  · exact ⟨piece, rest', rfl, ⟨before ++ piece, by simp, rfl⟩, by simp⟩
  · have hnil : piece = [] := by
      cases piece with
      | nil => rfl
      | cons c piece =>
        have := c.utf8Size_pos
        simp only [byteLength_append, byteLength_cons] at h
        omega
    subst hnil
    exact ⟨[], rest, by simp, ⟨before', by simp, rfl⟩, by simp⟩

/-- A span that runs backwards cuts out nothing. -/
theorem Span.cut?_eq_none {span : Span} (h : span.stop < span.start) (text : List Char) :
    span.cut? text = none := by
  rw [Span.cut?, if_neg (by omega)]

/-! ### Spans that follow one another -/

/-- The span lies behind `cursor`, and both its ends are places. -/
structure Span.Follows (source : List Char) (cursor : Nat) (span : Span) : Prop where
  /-- The span starts at the cursor or behind it. -/
  after : cursor ≤ span.start
  /-- The span does not run backwards. -/
  forward : span.start ≤ span.stop
  /-- The span starts at a place. -/
  isPlace_start : IsPlace source span.start
  /-- The span ends at a place. -/
  isPlace_stop : IsPlace source span.stop

theorem Span.Follows.mono {span : Span} (h : span.Follows source n)
    (hle : m ≤ n) : span.Follows source m :=
  { h with after := Nat.le_trans hle h.after }

theorem Span.Follows.le_stop {span : Span} (h : span.Follows source n) :
    n ≤ span.stop :=
  Nat.le_trans h.after h.forward

/-- The span covers a part of the source: both its ends are places, and it is not empty. -/
structure Span.Covers (source : List Char) (span : Span) : Prop where
  /-- The span starts at a place. -/
  isPlace_start : IsPlace source span.start
  /-- The span ends at a place. -/
  isPlace_stop : IsPlace source span.stop
  /-- The span is not empty. -/
  start_lt_stop : span.start < span.stop

end EntryProbe
