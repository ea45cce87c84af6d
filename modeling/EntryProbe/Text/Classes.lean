import EntryProbe.Text.Words

/-!
# White space and printable characters

Two classes of characters decide how text is written.

* `EntryProbe.isBlank` – the Unicode property `White_Space`; the printer drops
  such characters in front of a text that moves to a line of its own.
* `EntryProbe.isPrintable` – a character that stands for itself in a quoted
  string. The ordinary space is printable; any other white space, and every
  control, format, private-use or non-character code point, is not.
-/

namespace EntryProbe

/-- The code points with the property `White_Space`. -/
def blankRanges : List (Nat × Nat) :=
  [(0x09, 0x0d), (0x20, 0x20), (0x85, 0x85), (0xa0, 0xa0), (0x1680, 0x1680), (0x2000, 0x200a),
   (0x2028, 0x2029), (0x202f, 0x202f), (0x205f, 0x205f), (0x3000, 0x3000)]

/-- A character with the Unicode property `White_Space`. -/
def isBlank (c : Char) : Bool :=
  inRanges blankRanges c.toNat

/-- A text without the white space at its start. -/
def trimStart (text : List Char) : List Char :=
  text.dropWhile isBlank

/-- The maximal runs of characters that are not white space. -/
def blankSeparated (text : List Char) : List (List Char) :=
  (text.splitBy fun c d => isBlank c == isBlank d).filter fun run => !run.any isBlank

/-- Control codes (category Cc). -/
def controlRanges : List (Nat × Nat) :=
  [(0x00, 0x1f), (0x7f, 0x9f)]

/-- Format characters (category Cf): invisible, and a byte order mark among them
is refused anywhere but at the start of a file. -/
def formatRanges : List (Nat × Nat) :=
  [(0x00ad, 0x00ad), (0x0600, 0x0605), (0x061c, 0x061c), (0x06dd, 0x06dd), (0x070f, 0x070f),
   (0x0890, 0x0891), (0x08e2, 0x08e2), (0x180e, 0x180e), (0x200b, 0x200f), (0x202a, 0x202e),
   (0x2060, 0x2064), (0x2066, 0x206f), (0xfeff, 0xfeff), (0xfff9, 0xfffb), (0x110bd, 0x110bd),
   (0x110cd, 0x110cd), (0x13430, 0x1343f), (0x1bca0, 0x1bca3), (0x1d173, 0x1d17a),
   (0xe0001, 0xe0001), (0xe0020, 0xe007f)]

/-- Private-use areas (category Co). -/
def privateUseRanges : List (Nat × Nat) :=
  [(0xe000, 0xf8ff), (0xf0000, 0xffffd), (0x100000, 0x10fffd)]

/-- Code points that are set aside as no characters: a block of 32, and the last
two of each plane. -/
def isNoncharacter (code : Nat) : Bool :=
  inRanges [(0xfdd0, 0xfdef)] code || 0xfffe ≤ code % 0x10000

/-- A character that stands for itself in a quoted string. -/
def isPrintable (c : Char) : Bool :=
  c == ' ' ||
    !(inRanges controlRanges c.toNat || isBlank c || isNoncharacter c.toNat ||
      inRanges formatRanges c.toNat || inRanges privateUseRanges c.toNat)

end EntryProbe
