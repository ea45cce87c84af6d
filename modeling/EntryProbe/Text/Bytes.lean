/-!
# Byte offsets in a text

A place in a source text is given by the number of UTF-8 bytes before it. A text
itself is a list of characters, so an offset denotes a place only if it falls
between two characters and not past the end. This file has the three notions the
rest of the library needs:

* `EntryProbe.byteLength` – the number of bytes of a text;
* `EntryProbe.splitAtByte?` – the two parts of a text on either side of an offset;
* `EntryProbe.Span` – a range of offsets, and `EntryProbe.Span.cut?`, the text it
  covers.

The failure of `splitAtByte?` and `cut?` is the only way in which printing a
syntax tree can fail, so it is kept visible in the type.
-/

namespace EntryProbe

/-- The number of bytes that a text takes in UTF-8. -/
def byteLength : List Char → Nat
  | [] => 0
  | c :: cs => c.utf8Size + byteLength cs

@[simp] theorem byteLength_nil : byteLength [] = 0 := rfl

@[simp] theorem byteLength_cons (c : Char) (cs : List Char) :
    byteLength (c :: cs) = c.utf8Size + byteLength cs := rfl

@[simp] theorem byteLength_append (s t : List Char) :
    byteLength (s ++ t) = byteLength s + byteLength t := by
  induction s with
  | nil => simp
  | cons c s ih => simp [ih, Nat.add_assoc]

/-- Splits a text at a byte offset. An offset inside a character, or past the end
of the text, denotes no place and gives `none`. -/
def splitAtByte? : Nat → List Char → Option (List Char × List Char)
  | 0, cs => some ([], cs)
  | _ + 1, [] => none
  | n + 1, c :: cs =>
    if c.utf8Size ≤ n + 1 then
      (splitAtByte? (n + 1 - c.utf8Size) cs).map fun (before, after) => (c :: before, after)
    else
      none

/-- **A text splits at the length of each of its beginnings**, and the two parts
are the beginning and the rest. -/
@[simp] theorem splitAtByte?_byteLength (s t : List Char) :
    splitAtByte? (byteLength s) (s ++ t) = some (s, t) := by
  induction s with
  | nil => simp [splitAtByte?]
  | cons c s ih =>
    obtain ⟨n, hn⟩ : ∃ n, c.utf8Size + byteLength s = n + 1 :=
      ⟨c.utf8Size + byteLength s - 1, by have := c.utf8Size_pos; omega⟩
    have hle : c.utf8Size ≤ n + 1 := by omega
    have hsub : n + 1 - c.utf8Size = byteLength s := by omega
    simp [hn, splitAtByte?, hle, hsub, ih]

/-- A range of byte offsets: from `start`, up to but not including `stop`. -/
structure Span where
  /-- The offset of the first byte. -/
  start : Nat
  /-- The offset just after the last byte. -/
  stop : Nat
  deriving Repr, DecidableEq, Inhabited

/-- The text that a span covers. There is none if the span runs backwards, ends
past the text, or starts or ends inside a character. -/
def Span.cut? (span : Span) (text : List Char) : Option (List Char) :=
  if span.start ≤ span.stop then
    (splitAtByte? span.start text).bind fun (_, rest) =>
      (splitAtByte? (span.stop - span.start) rest).map Prod.fst
  else
    none

/-- A span that starts after `s` and is as long as `t` covers `t`. -/
theorem Span.cut?_append (s t u : List Char) :
    Span.cut? ⟨byteLength s, byteLength s + byteLength t⟩ (s ++ (t ++ u)) = some t := by
  simp [Span.cut?]

end EntryProbe
