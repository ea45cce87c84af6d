import EntryProbe.Text.Encoding

/-!
# The search for a line break

New text is put in front of the first line break of a gap that is not inside a block comment.
The search for it goes through the gap byte by byte and passes over each comment in one leap:
over a block comment to behind its first end, over a line comment to the line feed that ends
it. Nothing is found behind a comment without an end.

To look for the end of a comment, the text is cut at the offset that the search has come to.
That could go wrong, as bytes are counted and the offset may lie inside a character. But only
slashes and stars are taken for comments, and behind them the offset denotes a place
(`EntryProbe.Go.isSome_lineBreakTurn`). And as each turn goes forward
(`EntryProbe.Go.lineBreakTurn_lt`), the search comes to an end.

* `EntryProbe.Go.lineBreakTurn` – one turn of the search;
* `EntryProbe.Go.searchLineBreak` – the search;
* `EntryProbe.Go.lineBreakOffset?` – what it finds in a text;
* `EntryProbe.Go.cutAtLineBreak?` – the text cut there.
-/

namespace EntryProbe.Go

/-- What a turn of the search comes to. -/
inductive SearchTurn where
  /-- There is a line break at this offset. -/
  | found (offset : Nat)
  /-- There is none from here on. -/
  | absent
  /-- The search goes on at this offset. -/
  | goOn (offset : Nat)
  deriving Repr, DecidableEq

/-- The turn that passes over a comment, to behind its end if it has one. -/
def SearchTurn.leap : Option Nat → SearchTurn
  | some offset => .goOn offset
  | none => .absent

/-- One turn of the search, at an offset. It fails if the text is cut where there is no
place. -/
def lineBreakTurn (text : List Char) (offset : Nat) : Option SearchTurn :=
  let next := (utf8 text)[offset + 1]?
  match (utf8 text)[offset]? with
  | none => some .absent
  | some byte =>
    if byte = '\n'.toUInt8 then
      some (.found offset)
    else if byte = '/'.toUInt8 ∧ next = some '*'.toUInt8 then do
      let inside ← textFrom? (offset + 2) text
      -- to behind both marks, of two bytes each
      return .leap ((offsetOf? ['*', '/'] inside).map (offset + · + 4))
    else if byte = '/'.toUInt8 ∧ next = some '/'.toUInt8 then do
      let comment ← textFrom? offset text
      -- to the line feed, which the next turn finds
      return .leap ((offsetOf? ['\n'] comment).map (offset + ·))
    else
      some (.goOn (offset + 1))

/-! ### One turn -/

section

variable {text : List Char} {offset : Nat}

theorem SearchTurn.eq_some_of_leap {stop? : Option Nat} {next : Nat}
    (h : SearchTurn.leap stop? = .goOn next) : stop? = some next := by
  cases stop? with
  | none => cases h
  | some stop =>
    cases h
    rfl

/-- Two bytes of ASCII are two characters. -/
theorem exists_chars_of_bytes {c d : Char} (hc : c.toNat < 128) (hd : d.toNat < 128)
    (h : (utf8 text)[offset]? = some c.toUInt8) (h' : (utf8 text)[offset + 1]? = some d.toUInt8) :
    ∃ before rest, text = before ++ c :: d :: rest ∧ byteLength before = offset := by
  obtain ⟨before, rest, rfl, rfl⟩ := exists_char_of_byte hc h
  rw [getElem?_utf8_append, utf8_cons, utf8EncodeChar_ascii hc, List.singleton_append,
    List.getElem?_cons_succ] at h'
  obtain ⟨between, rest, rfl, hbetween⟩ := exists_char_of_byte hd h'
  cases between with
  | nil => exact ⟨before, rest, rfl, rfl⟩
  | cons e between =>
    have := e.utf8Size_pos
    rw [byteLength_cons] at hbetween
    omega

/-- A turn in front of a line break. -/
theorem lineBreakTurn_newline (before rest : List Char) :
    lineBreakTurn (before ++ '\n' :: rest) (byteLength before) =
      some (.found (byteLength before)) := by
  have hbyte := getElem?_utf8_append before ('\n' :: rest) 0
  rw [Nat.add_zero] at hbyte
  rw [lineBreakTurn, hbyte]
  rfl

/-- A turn behind the text. -/
theorem lineBreakTurn_end (h : byteLength text ≤ offset) :
    lineBreakTurn text offset = some .absent := by
  rw [lineBreakTurn, List.getElem?_eq_none (by simpa using h)]

/-- A turn in front of a block comment. -/
theorem lineBreakTurn_block (before rest : List Char) :
    lineBreakTurn (before ++ '/' :: '*' :: rest) (byteLength before) =
      some (.leap ((offsetOf? ['*', '/'] rest).map (byteLength before + · + 4))) := by
  have hbyte := getElem?_utf8_append before ('/' :: '*' :: rest) 0
  rw [Nat.add_zero] at hbyte
  have hcut : textFrom? (byteLength before + 2) (before ++ '/' :: '*' :: rest) = some rest := by
    have := textFrom?_byteLength (before ++ ['/', '*']) rest
    rwa [byteLength_append, List.append_assoc] at this
  rw [lineBreakTurn, getElem?_utf8_append, hbyte, hcut]
  rfl

/-- A turn in front of a line comment. The slashes are no line break. -/
theorem lineBreakTurn_line (before rest : List Char) :
    lineBreakTurn (before ++ '/' :: '/' :: rest) (byteLength before) =
      some (.leap ((offsetOf? ['\n'] rest).map (byteLength before + · + 2))) := by
  have hbyte := getElem?_utf8_append before ('/' :: '/' :: rest) 0
  rw [Nat.add_zero] at hbyte
  have hstop : offsetOf? ['\n'] ('/' :: '/' :: rest) =
      (offsetOf? ['\n'] rest).map fun stop => 1 + (1 + stop) := by
    rw [offsetOf?, offsetOf?, if_neg nofun, if_neg nofun, Option.map_map]
    rfl
  have hturn : lineBreakTurn (before ++ '/' :: '/' :: rest) (byteLength before) =
      some (.leap ((offsetOf? ['\n'] ('/' :: '/' :: rest)).map (byteLength before + ·))) := by
    rw [lineBreakTurn, getElem?_utf8_append, hbyte, textFrom?_byteLength]
    rfl
  rw [hturn, hstop, Option.map_map]
  congr 3
  funext stop
  change byteLength before + (1 + (1 + stop)) = byteLength before + stop + 2
  omega

/-- **What a turn can meet**: a line break, a comment, the end of the text, or any other
byte. -/
theorem lineBreakTurn_cases (text : List Char) (offset : Nat) :
    (∃ before rest, text = before ++ '\n' :: rest ∧ byteLength before = offset) ∨
    (∃ before rest, text = before ++ '/' :: '*' :: rest ∧ byteLength before = offset) ∨
    (∃ before rest, text = before ++ '/' :: '/' :: rest ∧ byteLength before = offset) ∨
    byteLength text ≤ offset ∨
    offset < byteLength text ∧ lineBreakTurn text offset = some (.goOn (offset + 1)) := by
  have hfeed : '\n'.toNat < 128 := by decide
  have hslash : '/'.toNat < 128 := by decide
  have hstar : '*'.toNat < 128 := by decide
  by_cases hbreak : (utf8 text)[offset]? = some '\n'.toUInt8
  · exact Or.inl (exists_char_of_byte hfeed hbreak)
  by_cases hblock : (utf8 text)[offset]? = some '/'.toUInt8 ∧
      (utf8 text)[offset + 1]? = some '*'.toUInt8
  · exact Or.inr (Or.inl (exists_chars_of_bytes hslash hstar hblock.1 hblock.2))
  by_cases hline : (utf8 text)[offset]? = some '/'.toUInt8 ∧
      (utf8 text)[offset + 1]? = some '/'.toUInt8
  · exact Or.inr (Or.inr (Or.inl (exists_chars_of_bytes hslash hslash hline.1 hline.2)))
  refine Or.inr (Or.inr (Or.inr ?_))
  rcases Nat.lt_or_ge offset (byteLength text) with hlt | hle
  · refine Or.inr ⟨hlt, ?_⟩
    rw [← length_utf8] at hlt
    rw [List.getElem?_eq_getElem hlt, Option.some_inj] at hbreak hblock hline
    rw [lineBreakTurn, List.getElem?_eq_getElem hlt]
    simp only [if_neg hbreak, if_neg hblock, if_neg hline]
  · exact Or.inl hle

/-- **No turn fails.** -/
theorem isSome_lineBreakTurn (text : List Char) (offset : Nat) :
    (lineBreakTurn text offset).isSome := by
  rcases lineBreakTurn_cases text offset with
    ⟨before, rest, rfl, rfl⟩ | ⟨before, rest, rfl, rfl⟩ | ⟨before, rest, rfl, rfl⟩ | hle | ⟨-, h⟩
  · rw [lineBreakTurn_newline]
    rfl
  · rw [lineBreakTurn_block]
    rfl
  · rw [lineBreakTurn_line]
    rfl
  · rw [lineBreakTurn_end hle]
    rfl
  · rw [h]
    rfl

/-- **Each turn goes forward.** -/
theorem lineBreakTurn_lt {next : Nat} (h : lineBreakTurn text offset = some (.goOn next)) :
    offset < next ∧ offset < byteLength text := by
  rcases lineBreakTurn_cases text offset with
    ⟨before, rest, rfl, rfl⟩ | ⟨before, rest, rfl, rfl⟩ | ⟨before, rest, rfl, rfl⟩ | hle |
    ⟨hlt, hturn⟩
  · cases (lineBreakTurn_newline before rest).symm.trans h
  · rw [lineBreakTurn_block, Option.some_inj] at h
    obtain ⟨stop, -, rfl⟩ := Option.map_eq_some_iff.mp (SearchTurn.eq_some_of_leap h)
    exact ⟨by omega, byteLength_lt_append before _ _⟩
  · rw [lineBreakTurn_line, Option.some_inj] at h
    obtain ⟨stop, -, rfl⟩ := Option.map_eq_some_iff.mp (SearchTurn.eq_some_of_leap h)
    exact ⟨by omega, byteLength_lt_append before _ _⟩
  · cases (lineBreakTurn_end hle).symm.trans h
  · cases hturn.symm.trans h
    exact ⟨Nat.lt_succ_self offset, hlt⟩

/-! ### The search -/

/-- The search for a line break, from an offset on. It fails if one of its turns does. -/
def searchLineBreak (text : List Char) (offset : Nat) : Option (Option Nat) :=
  match _hturn : lineBreakTurn text offset with
  | none => none
  | some (.found offset) => some (some offset)
  | some .absent => some none
  | some (.goOn next) => searchLineBreak text next
termination_by byteLength text - offset
decreasing_by
  have := lineBreakTurn_lt _hturn
  omega

theorem searchLineBreak_of_found {stop : Nat}
    (h : lineBreakTurn text offset = some (.found stop)) :
    searchLineBreak text offset = some (some stop) := by
  rw [searchLineBreak]
  split <;> simp_all

theorem searchLineBreak_of_absent (h : lineBreakTurn text offset = some .absent) :
    searchLineBreak text offset = some none := by
  rw [searchLineBreak]
  split <;> simp_all

theorem searchLineBreak_of_goOn {next : Nat} (h : lineBreakTurn text offset = some (.goOn next)) :
    searchLineBreak text offset = searchLineBreak text next := by
  rw [searchLineBreak]
  split <;> simp_all

/-- **The search does not fail.** -/
theorem isSome_searchLineBreak (text : List Char) (offset : Nat) :
    (searchLineBreak text offset).isSome := by
  fun_induction searchLineBreak text offset with
  | case1 offset h => simpa [h] using isSome_lineBreakTurn text offset
  | case2 => rfl
  | case3 => rfl
  | case4 offset next h ih => exact ih

/-- The offset of the first line break of a text outside block comments. -/
def lineBreakOffset? (text : List Char) : Option Nat :=
  (searchLineBreak text 0).get (isSome_searchLineBreak text 0)

/-- A text on either side of its first line break outside block comments; the line break
starts the second part. -/
def cutAtLineBreak? (text : List Char) : Option (List Char × List Char) :=
  (lineBreakOffset? text).bind fun offset => splitAtByte? offset text

end

end EntryProbe.Go
