import EntryProbe.Text.Bytes

/-!
# The bytes of a text

A search that goes through a text byte by byte also meets offsets inside characters, which
denote no place. It is safe to cut the text at some of them all the same: the bytes of a
character outside ASCII are all 128 or greater, so that a byte below that is a character of
its own (`EntryProbe.exists_char_of_byte`).

* `EntryProbe.utf8` – the bytes of a text;
* `EntryProbe.textFrom?` – the text behind an offset;
* `EntryProbe.offsetOf?` – the offset at which a text occurs in another one for the first
  time.
-/

namespace EntryProbe

/-- The bytes of a text in UTF-8. -/
def utf8 (text : List Char) : List UInt8 :=
  text.flatMap String.utf8EncodeChar

/-- The text behind an offset. There is none if the offset lies inside a character or past
the end. -/
def textFrom? (offset : Nat) (text : List Char) : Option (List Char) :=
  (splitAtByte? offset text).map Prod.snd

/-- The offset at which a pattern occurs in a text for the first time. -/
def offsetOf? (pattern : List Char) : List Char → Option Nat
  | [] => if pattern = [] then some 0 else none
  | c :: rest =>
    if pattern.isPrefixOf (c :: rest) then some 0
    else (offsetOf? pattern rest).map (c.utf8Size + ·)

@[simp] theorem utf8_cons (c : Char) (text : List Char) :
    utf8 (c :: text) = String.utf8EncodeChar c ++ utf8 text :=
  List.flatMap_cons

@[simp] theorem utf8_append (text rest : List Char) :
    utf8 (text ++ rest) = utf8 text ++ utf8 rest :=
  List.flatMap_append

@[simp] theorem length_utf8 (text : List Char) : (utf8 text).length = byteLength text := by
  induction text with
  | nil => rfl
  | cons c text ih => simp [ih]

theorem byteLength_lt_append (before : List Char) (c : Char) (rest : List Char) :
    byteLength before < byteLength (before ++ c :: rest) := by
  have := c.utf8Size_pos
  rw [byteLength_append, byteLength_cons]
  omega

@[simp] theorem textFrom?_byteLength (before rest : List Char) :
    textFrom? (byteLength before) (before ++ rest) = some rest := by
  simp [textFrom?]

/-- The bytes behind a place are those of the text behind it. -/
theorem getElem?_utf8_append (before rest : List Char) (n : Nat) :
    (utf8 (before ++ rest))[byteLength before + n]? = (utf8 rest)[n]? := by
  rw [utf8_append, List.getElem?_append_right (by simp)]
  simp

/-! ### Characters of one byte -/

/-- The bytes of a character, by its number. -/
theorem map_toNat_utf8EncodeChar (c : Char) :
    (String.utf8EncodeChar c).map UInt8.toNat =
      if c.toNat ≤ 127 then [c.toNat]
      else if c.toNat ≤ 2047 then [c.toNat / 64 + 192, c.toNat % 64 + 128]
      else if c.toNat ≤ 65535 then
        [c.toNat / 4096 + 224, c.toNat / 64 % 64 + 128, c.toNat % 64 + 128]
      else [c.toNat / 262144 + 240, c.toNat / 4096 % 64 + 128, c.toNat / 64 % 64 + 128,
        c.toNat % 64 + 128] := by
  have hval : c.val.toNat = c.toNat := rfl
  have hlt : c.toNat < 1114112 := by
    have hvalid := c.valid
    simp only [UInt32.isValidChar, Nat.isValidChar, hval] at hvalid
    omega
  simp only [String.utf8EncodeChar, hval]
  generalize c.toNat = n at hlt
  split
  · simp only [List.map_cons, List.map_nil, UInt8.toNat_ofNat', List.cons.injEq, and_true]
    omega
  split
  · simp only [List.map_cons, List.map_nil, UInt8.toNat_ofNat', List.cons.injEq, and_true]
    omega
  split
  · simp only [List.map_cons, List.map_nil, UInt8.toNat_ofNat', List.cons.injEq, and_true]
    omega
  · simp only [List.map_cons, List.map_nil, UInt8.toNat_ofNat', List.cons.injEq, and_true]
    omega

/-- A byte of an ASCII character is a byte of no other one. -/
theorem eq_of_mem_utf8EncodeChar {c d : Char} (hc : c.toNat < 128)
    (h : c.toUInt8 ∈ String.utf8EncodeChar d) : d = c := by
  have hbyte : c.toUInt8.toNat = c.toNat :=
    (UInt32.toNat_toUInt8 _).trans (Nat.mod_eq_of_lt (Nat.lt_trans hc (by decide)))
  have hmem : c.toNat ∈ (String.utf8EncodeChar d).map UInt8.toNat := by
    rw [← hbyte]
    exact List.mem_map_of_mem h
  rw [map_toNat_utf8EncodeChar] at hmem
  split at hmem
  · exact (Char.toNat_inj.mp (List.mem_singleton.mp hmem)).symm
  -- the bytes of a longer character are all greater
  · repeat' split at hmem
    all_goals
      simp only [List.mem_cons, List.not_mem_nil, or_false] at hmem
      omega

theorem utf8EncodeChar_ascii {c : Char} (hc : c.toNat < 128) :
    String.utf8EncodeChar c = [c.toUInt8] := by
  have hval : c.val.toNat = c.toNat := rfl
  rw [String.utf8EncodeChar, hval, if_pos (by omega)]
  rfl

/-- **A byte below 128 is a character of its own**, so that its offset is a place. -/
theorem exists_char_of_byte {text : List Char} {offset : Nat} {c : Char} (hc : c.toNat < 128)
    (h : (utf8 text)[offset]? = some c.toUInt8) :
    ∃ before rest, text = before ++ c :: rest ∧ byteLength before = offset := by
  induction text generalizing offset with
  | nil => cases h
  | cons d text ih =>
    rw [utf8_cons] at h
    by_cases hoffset : offset < d.utf8Size
    · rw [List.getElem?_append_left (by simpa using hoffset)] at h
      obtain rfl := eq_of_mem_utf8EncodeChar hc (List.mem_of_getElem? h)
      rw [utf8EncodeChar_ascii hc] at h
      have hzero : offset = 0 := by
        obtain ⟨hlt, -⟩ := List.getElem?_eq_some_iff.mp h
        simpa using hlt
      exact ⟨[], text, rfl, hzero.symm⟩
    · rw [List.getElem?_append_right (by simpa using hoffset), String.length_utf8EncodeChar] at h
      obtain ⟨before, rest, rfl, hbefore⟩ := ih h
      refine ⟨d :: before, rest, rfl, ?_⟩
      rw [byteLength_cons]
      omega

end EntryProbe
