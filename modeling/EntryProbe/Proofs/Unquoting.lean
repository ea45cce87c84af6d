import EntryProbe.Proofs.BlockTokens
import EntryProbe.Text.Unquoted
import Mathlib.Algebra.Group.Nat.Defs

/-!
# Quoted texts are read back

A text is written as a string literal one character at a time, and all that is known of the
literal follows from the forms in which one character is written
(`EntryProbe.Quoted.WrittenAs`). What is written for a character

* is passed over when the end of the literal is looked for, since a quote in it is escaped
  (`EntryProbe.Quoted.WrittenAs.takeInside?`);
* stands for the bytes of the character, whatever follows. An escape has a fixed number of
  digits, so that a digit behind it is no part of it
  (`EntryProbe.Quoted.WrittenAs.bytesOf?`);
* is printable (`EntryProbe.Quoted.WrittenAs.isPrintable`).

Main statement: `EntryProbe.quote_lossless`.
-/

namespace EntryProbe.Quoted

open Go

/-! ### The forms of a character -/

/-- The letters and marks that make a short escape. -/
def shortEscapes : List Char := ['a', 'b', 'f', 'n', 'r', 't', 'v', '"', '\\']

/-- **The forms in which a character is written.** -/
inductive WrittenAs (c : Char) : List Char → Prop
  /-- The character itself. -/
  | plain : Go.isPlainInString c = true → isPrintable c = true → WrittenAs c [c]
  /-- A short escape, which stands for the one byte of the character. -/
  | short {letter : Char} : letter ∈ shortEscapes →
      (letterByte? letter).map (fun byte => [byte]) = some (String.utf8EncodeChar c) →
      WrittenAs c ['\\', letter]
  /-- An escape by the number of a byte. -/
  | byte : c.toNat < 0x80 → WrittenAs c ('\\' :: 'x' :: hexDigits 2 c.toNat)
  /-- An escape by the number of the character, of four digits. -/
  | four : c.toNat < 0x10000 → WrittenAs c ('\\' :: 'u' :: hexDigits 4 c.toNat)
  /-- An escape by the number of the character, of eight digits. -/
  | eight : WrittenAs c ('\\' :: 'U' :: hexDigits 8 c.toNat)

/-- A short escape by a letter stands for the character. -/
theorem letterByte?_escapeLetter? {c letter : Char} (h : escapeLetter? c = some letter) :
    (letterByte? letter).map (fun byte => [byte]) = some (String.utf8EncodeChar c) := by
  unfold escapeLetter? at h
  split_ifs at h with ha hb hf hn hr ht hv <;> obtain rfl := Option.some.inj h <;> subst c <;>
    decide

theorem writtenAs_encodeChar (c : Char) : WrittenAs c (encodeChar c) := by
  unfold encodeChar
  split
  · next hc => rcases hc with rfl | rfl <;> exact .short (by decide) (by decide)
  next hc =>
  rw [not_or] at hc
  split
  · next hprint => exact .plain (isPlainInString_of_isPrintable hprint hc.1 hc.2) hprint
  split
  · next letter hletter =>
    exact .short (List.mem_append_left ['"', '\\'] (escapeLetter?_mem hletter))
      (letterByte?_escapeLetter? hletter)
  split
  · next hascii => exact .byte hascii
  split
  · next hshort => exact .four hshort
  · exact .eight

/-! ### Digits -/

theorem digitValue?_hexDigit : ∀ n < 16, digitValue? 16 (hexDigit n) = some n := by
  decide

theorem valueOf_concat (base : Nat) (digits : List Nat) (digit : Nat) :
    valueOf base (digits ++ [digit]) = valueOf base digits * base + digit := by
  simp [valueOf]

/-- **The digits of a number have its value**, as far as there is room for it. -/
theorem exists_mapM_hexDigits (width n : Nat) :
    ∃ digits, (hexDigits width n).mapM (digitValue? 16) = some digits ∧ digits.length = width ∧
      valueOf 16 digits = n % 16 ^ width := by
  induction width generalizing n with
  | zero => exact ⟨[], rfl, rfl, by rw [Nat.pow_zero, Nat.mod_one]; rfl⟩
  | succ width ih =>
    obtain ⟨digits, hdigits, hlength, hvalue⟩ := ih (n / 16)
    refine ⟨digits ++ [n % 16], ?_, by simp [hlength], ?_⟩
    · rw [hexDigits, List.mapM_append, hdigits, List.mapM_cons,
        digitValue?_hexDigit _ (Nat.mod_lt _ (by decide))]
      rfl
    · -- the last digit is the remainder, and those before it are the quotient
      rw [valueOf_concat, hvalue, Nat.pow_succ', Nat.mod_mul, Nat.mul_comm, Nat.add_comm]

/-- A number is read back from its digits, whatever follows. -/
theorem number?_hexDigits {width n : Nat} (h : n < 16 ^ width) (rest : List Char) :
    number? 16 width (hexDigits width n ++ rest) = some n := by
  obtain ⟨digits, hdigits, hlength, hvalue⟩ := exists_mapM_hexDigits width n
  rw [number?, List.take_left' (length_hexDigits width n), hdigits, Option.bind_some,
    if_pos hlength, hvalue, Nat.mod_eq_of_lt h]

/-! ### Bytes -/

theorem byteOf?_eq {c : Char} (h : c.toNat < 0x80) :
    byteOf? c.toNat = some (String.utf8EncodeChar c) := by
  have hle : c.val.toNat ≤ 127 := Nat.le_of_lt_succ h
  rw [byteOf?, if_pos (by omega), String.utf8EncodeChar]
  simp only [hle, if_true]
  rfl

theorem encodedOf?_eq (c : Char) : encodedOf? c.toNat = some (String.utf8EncodeChar c) := by
  have hvalid : c.toNat.isValidChar := c.valid
  rw [encodedOf?, if_pos hvalid, Char.ofNat_toNat]

/-- An escape stands for its bytes, and what follows it for its own. -/
theorem bytesOf?_escape {text : List Char} {bytes : List UInt8} (rest : List Char)
    (h : escaped? (text ++ rest) = some (bytes, text.length)) :
    bytesOf? ('\\' :: (text ++ rest)) = (bytesOf? rest).map (bytes ++ ·) := by
  rw [bytesOf?, if_pos rfl, h]
  simp

theorem escaped?_letter {letter : Char} (h : letter ∈ shortEscapes) (rest : List Char) :
    escaped? (letter :: rest) = (letterByte? letter).map fun byte => ([byte], 1) := by
  simp only [shortEscapes, List.mem_cons, List.not_mem_nil, or_false] at h
  rcases h with rfl | rfl | rfl | rfl | rfl | rfl | rfl | rfl | rfl <;> rfl

/-- **What is written for a character stands for its bytes**, whatever follows. -/
theorem WrittenAs.bytesOf? {c : Char} {text : List Char} (h : WrittenAs c text) (rest : List Char) :
    bytesOf? (text ++ rest) = (Quoted.bytesOf? rest).map (String.utf8EncodeChar c ++ ·) := by
  have hlt : c.toNat < 16 ^ 8 := by
    have hvalid : c.toNat.isValidChar := c.valid
    simp only [Nat.isValidChar] at hvalid
    omega
  rcases h with ⟨hplain, -⟩ | ⟨hmem, hbyte⟩ | hascii | hshort | _
  · simp only [Go.isPlainInString, Bool.and_eq_true, bne_iff_ne, ne_eq] at hplain
    obtain ⟨⟨⟨hquote, hline⟩, hslash⟩, -⟩ := hplain
    rw [List.singleton_append, Quoted.bytesOf?, if_neg hslash, if_neg (by simp [hquote, hline])]
  · next letter =>
    refine @bytesOf?_escape [letter] _ rest ?_
    obtain ⟨byte, hletter, hbytes⟩ := Option.map_eq_some_iff.mp hbyte
    rw [List.singleton_append, escaped?_letter hmem, hletter, ← hbytes]
    rfl
  -- the digits of an escape are followed by the rest, which is not looked at
  · refine @bytesOf?_escape ('x' :: hexDigits 2 c.toNat) _ rest ?_
    rw [List.cons_append, escaped?, if_pos rfl, number?_hexDigits (by omega), Option.bind_some,
      byteOf?_eq hascii]
    simp
  · refine @bytesOf?_escape ('u' :: hexDigits 4 c.toNat) _ rest ?_
    rw [List.cons_append, escaped?, if_neg (by decide), if_neg (by decide), if_pos rfl,
      number?_hexDigits (by omega), Option.bind_some, encodedOf?_eq]
    simp
  · refine @bytesOf?_escape ('U' :: hexDigits 8 c.toNat) _ rest ?_
    rw [List.cons_append, escaped?, if_neg (by decide), if_neg (by decide), if_neg (by decide),
      if_pos rfl, number?_hexDigits hlt, Option.bind_some, encodedOf?_eq]
    simp

/-- **The inside of a literal stands for the bytes of the text.** -/
theorem bytesOf?_flatMap_encodeChar (text : List Char) :
    bytesOf? (text.flatMap encodeChar) = some (text.flatMap String.utf8EncodeChar) := by
  induction text with
  | nil => simp [bytesOf?]
  | cons c text ih =>
    rw [List.flatMap_cons, (writtenAs_encodeChar c).bytesOf?, ih]
    rfl

/-! ### The end of a literal -/

theorem takeInside?_plain {text : List Char} (rest : List Char)
    (h : text.all isPlainInString = true) :
    takeInside? (text ++ rest) =
      (takeInside? rest).map fun (inside, after) => (text ++ inside, after) := by
  induction text with
  | nil => simp
  | cons c text ih =>
    rw [List.all_cons, Bool.and_eq_true] at h
    obtain ⟨hc, htext⟩ := h
    simp only [isPlainInString, Bool.and_eq_true, bne_iff_ne, ne_eq] at hc
    obtain ⟨⟨⟨hquote, hline⟩, hslash⟩, -⟩ := hc
    have hcons : takeInside? (c :: (text ++ rest)) =
        (takeInside? (text ++ rest)).map fun (inside, after) => (c :: inside, after) := by
      rw [takeInside?.eq_def]
      split
      · contradiction
      · next heq => exact absurd (List.cons.inj heq).1 hslash
      · next heq =>
        obtain ⟨rfl, rfl⟩ := List.cons.inj heq
        rw [if_neg hquote, if_neg hline]
    rw [List.cons_append, hcons, ih htext, Option.map_map]
    rfl

theorem takeInside?_escape {c : Char} {text : List Char} (rest : List Char) (hline : c ≠ '\n')
    (htext : text.all isPlainInString = true) :
    takeInside? ('\\' :: c :: (text ++ rest)) =
      (takeInside? rest).map fun (inside, after) => ('\\' :: c :: text ++ inside, after) := by
  rw [takeInside?, if_neg hline, takeInside?_plain rest htext, Option.map_map]
  rfl

/-- **What is written for a character does not end the literal.** -/
theorem WrittenAs.takeInside? {c : Char} {text : List Char} (h : WrittenAs c text)
    (rest : List Char) :
    takeInside? (text ++ rest) =
      (Quoted.takeInside? rest).map fun (inside, after) => (text ++ inside, after) := by
  have hdigits := hexDigits_all isPlainInString_hexDigit
  rcases h with ⟨hplain, -⟩ | ⟨hmem, -⟩ | - | - | -
  · exact @takeInside?_plain [c] rest (by simpa using hplain)
  · refine takeInside?_escape rest ?_ rfl
    rintro rfl
    exact absurd hmem (by decide)
  · exact takeInside?_escape rest (by decide) (hdigits 2 _)
  · exact takeInside?_escape rest (by decide) (hdigits 4 _)
  · exact takeInside?_escape rest (by decide) (hdigits 8 _)

/-- **A literal ends where it was ended.** -/
theorem takeLiteral?_encode (text rest : List Char) :
    takeLiteral? (encode text ++ rest) = some (encode text, rest) := by
  have hinside : takeInside? (text.flatMap encodeChar ++ '"' :: rest) =
      some (text.flatMap encodeChar ++ ['"'], rest) := by
    induction text with
    | nil => simp [takeInside?]
    | cons c text ih =>
      rw [List.flatMap_cons, List.append_assoc, (writtenAs_encodeChar c).takeInside?, ih]
      simp
  simp [encode, takeLiteral?, hinside]

/-! ### Printable characters -/

/-- **What is written for a character is printable.** -/
theorem WrittenAs.isPrintable {c d : Char} {text : List Char} (h : WrittenAs c text)
    (hmem : d ∈ text) : isPrintable d = true := by
  have hdigits := fun width n => @hexDigits_all EntryProbe.isPrintable (by decide) width n
  have hescape : ∀ letter digits, EntryProbe.isPrintable letter = true →
      digits.all EntryProbe.isPrintable = true →
      d ∈ '\\' :: letter :: digits → EntryProbe.isPrintable d = true := by
    intro letter digits hletter hall hmem
    rcases List.mem_cons.mp hmem with rfl | hmem
    · decide
    · rcases List.mem_cons.mp hmem with rfl | hmem
      · exact hletter
      · exact List.all_eq_true.mp hall d hmem
  have hshort : shortEscapes.all EntryProbe.isPrintable = true := by decide
  rcases h with ⟨-, hprint⟩ | ⟨hletter, -⟩ | - | - | -
  · rwa [List.mem_singleton.mp hmem]
  · exact hescape _ [] (List.all_eq_true.mp hshort _ hletter) rfl hmem
  · exact hescape 'x' _ (by decide) (hdigits 2 _) hmem
  · exact hescape 'u' _ (by decide) (hdigits 4 _) hmem
  · exact hescape 'U' _ (by decide) (hdigits 8 _) hmem

theorem isPrintable_of_mem_encode {text : List Char} {c : Char} (h : c ∈ encode text) :
    isPrintable c = true := by
  simp only [encode, List.mem_cons, List.mem_append, List.mem_flatMap, List.not_mem_nil,
    or_false] at h
  rcases h with rfl | ⟨d, -, hmem⟩ | rfl
  · decide
  · exact (writtenAs_encodeChar d).isPrintable hmem
  · decide

end EntryProbe.Quoted

namespace EntryProbe

open Quoted

/-- A printable character is in none of the classes that are escaped, and the only white
space among the printable characters is the space. -/
theorem classes_of_isPrintable {c : Char} (h : isPrintable c = true) :
    inRanges controlRanges c.toNat = false ∧ inRanges formatRanges c.toNat = false ∧
      inRanges privateUseRanges c.toNat = false ∧ isNoncharacter c.toNat = false ∧
      (isBlank c = true → c = ' ') := by
  by_cases hspace : c = ' '
  · subst hspace
    decide
  · simp only [isPrintable, beq_iff_eq, hspace, Bool.or_eq_true, false_or, Bool.not_eq_true',
      Bool.or_eq_false_iff] at h
    obtain ⟨⟨⟨⟨hcontrol, hblank⟩, hnone⟩, hformat⟩, hprivate⟩ := h
    exact ⟨hcontrol, hformat, hprivate, hnone, fun h => by rw [hblank] at h; contradiction⟩

/-- **Quoting is lossless, and a quoted text has an end of its own.** Whatever follows a quoted
text, it is one literal and no more, in the sense of `takeLiteral?` and for the scanner. The
literal stands for the text. Its characters are printable, so that there is no line break and
no other control code in it, no format character, no private one and no noncharacter. -/
theorem quote_lossless (text : String) (rest : List Char) :
    takeLiteral? ((quote text).toList ++ rest) = some ((quote text).toList, rest) ∧
    Go.lexeme ((quote text).toList ++ rest) = (.string, (quote text).toList.length) ∧
    unquote? (quote text) = some text ∧
    ∀ c ∈ (quote text).toList, isPrintable c = true ∧ c ≠ '\n' ∧ c ≠ '\r' ∧
      inRanges controlRanges c.toNat = false ∧ inRanges formatRanges c.toNat = false ∧
      inRanges privateUseRanges c.toNat = false ∧ isNoncharacter c.toNat = false := by
  have hquote : (quote text).toList = encode text.toList := String.toList_ofList
  have hraw : inside? '\x60' (encode text.toList) = none := by
    simp [encode, inside?]
  have hinside : inside? '"' (encode text.toList) = some (text.toList.flatMap encodeChar) := by
    simp [encode, inside?]
  have hbytes : String.fromUTF8? (text.toList.flatMap String.utf8EncodeChar).toByteArray =
      some text := by
    have hutf8 : (text.toList.flatMap String.utf8EncodeChar).toByteArray = text.toByteArray :=
      String.utf8Encode_toList
    rw [hutf8, String.fromUTF8?, dif_pos text.isValidUTF8]
    rfl
  rw [unquote?, hquote]
  refine ⟨takeLiteral?_encode _ _, lexeme_encode _ _, ?_, fun c hmem => ?_⟩
  · rw [hraw]
    simp only [hinside, Option.bind_some, bytesOf?_flatMap_encodeChar, hbytes]
  · have hprint := isPrintable_of_mem_encode hmem
    obtain ⟨hcontrol, hformat, hprivate, hnone, -⟩ := classes_of_isPrintable hprint
    refine ⟨hprint, ?_, ?_, hcontrol, hformat, hprivate, hnone⟩
    · rintro rfl
      exact absurd hcontrol (by decide)
    · rintro rfl
      exact absurd hcontrol (by decide)

end EntryProbe
