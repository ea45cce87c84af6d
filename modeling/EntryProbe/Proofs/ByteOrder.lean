import EntryProbe.Path
import EntryProbe.Text.Encoding

/-!
# Names in the order of their bytes

Names are ordered by their characters (`EntryProbe.Path.nameLe`). The encoding of texts as
bytes was made so that this is the order of the bytes as well
(`EntryProbe.Path.nameLe_eq_bytesLe`): of two different characters, the greater one has the
greater byte at the first place where their encodings differ, and no encoding is the front
of another one (`EntryProbe.Path.charBytes_lt`).
-/

namespace EntryProbe.Path

/-- The bytes of a character, as numbers. -/
def charBytes (c : Char) : List Nat :=
  (String.utf8EncodeChar c).map UInt8.toNat

/-- The bytes of a text, as numbers. -/
def bytes (text : String) : List Nat :=
  text.toUTF8.data.toList.map UInt8.toNat

/-- One name does not come after another in the order of their bytes. -/
def bytesLe (name other : String) : Bool :=
  (compareRanks (bytes name) (bytes other)).isLE

theorem bytes_eq (text : String) : bytes text = text.toList.flatMap charBytes := by
  have hutf8 : text.toUTF8 = text.toList.utf8Encode := String.utf8Encode_toList.symm
  simp only [bytes, hutf8, List.utf8Encode]
  simp only [List.data_toByteArray, List.map_flatMap]
  rfl

/-- Two lists of numbers differ at one place for the first time, and the first one is the
smaller one there. -/
def DropsBelow (ranks other : List Nat) : Prop :=
  ∃ front x y rest rest', ranks = front ++ x :: rest ∧ other = front ++ y :: rest' ∧ x < y

theorem dropsBelow_cons_of_lt {x y : Nat} {ranks other : List Nat} (h : x < y) :
    DropsBelow (x :: ranks) (y :: other) :=
  ⟨[], x, y, ranks, other, rfl, rfl, h⟩

theorem dropsBelow_cons_of_le {x y : Nat} {ranks other : List Nat} (h : x ≤ y)
    (hrest : x = y → DropsBelow ranks other) : DropsBelow (x :: ranks) (y :: other) := by
  rcases Nat.lt_or_eq_of_le h with hlt | rfl
  · exact dropsBelow_cons_of_lt hlt
  · obtain ⟨front, a, b, rest, rest', rfl, rfl, hlt⟩ := hrest rfl
    exact ⟨x :: front, a, b, rest, rest', rfl, rfl, hlt⟩

theorem DropsBelow.append {ranks other : List Nat} (h : DropsBelow ranks other)
    (rest rest' : List Nat) : DropsBelow (ranks ++ rest) (other ++ rest') := by
  obtain ⟨front, x, y, more, more', rfl, rfl, hlt⟩ := h
  exact ⟨front, x, y, more ++ rest, more' ++ rest', by simp, by simp, hlt⟩

theorem compareRanks_append (front ranks other : List Nat) :
    compareRanks (front ++ ranks) (front ++ other) = compareRanks ranks other := by
  induction front with
  | nil => rfl
  | cons x front ih =>
    rw [compareRanks] at ih ⊢
    simp [List.compareLex, ih]

theorem DropsBelow.compareRanks_eq {ranks other : List Nat} (h : DropsBelow ranks other) :
    compareRanks ranks other = .lt ∧ compareRanks other ranks = .gt := by
  obtain ⟨front, x, y, rest, rest', rfl, rfl, hlt⟩ := h
  rw [compareRanks_append, compareRanks_append, compareRanks]
  simp [List.compareLex, Nat.compare_eq_lt.mpr hlt, Nat.compare_eq_gt.mpr hlt]

/-- **The greater character has the greater byte** where two encodings differ for the first
time. -/
theorem charBytes_lt {c d : Char} (h : c.toNat < d.toNat) :
    DropsBelow (charBytes c) (charBytes d) := by
  rw [charBytes, charBytes, map_toNat_utf8EncodeChar, map_toNat_utf8EncodeChar]
  generalize c.toNat = n at h
  generalize d.toNat = m at h
  -- encodings of different lengths differ in the first byte; those of the same length are
  -- the digits of the two numbers, from the highest one on
  split
  · split
    · exact dropsBelow_cons_of_lt h
    split
    · exact dropsBelow_cons_of_lt (by omega)
    split
    · exact dropsBelow_cons_of_lt (by omega)
    · exact dropsBelow_cons_of_lt (by omega)
  rw [if_neg (show ¬ m ≤ 127 by omega)]
  split
  · split
    · exact dropsBelow_cons_of_le (by omega) fun _ => dropsBelow_cons_of_lt (by omega)
    split
    · exact dropsBelow_cons_of_lt (by omega)
    · exact dropsBelow_cons_of_lt (by omega)
  rw [if_neg (show ¬ m ≤ 2047 by omega)]
  split
  · split
    · exact dropsBelow_cons_of_le (by omega) fun _ => dropsBelow_cons_of_le (by omega) fun _ =>
        dropsBelow_cons_of_lt (by omega)
    · exact dropsBelow_cons_of_lt (by omega)
  rw [if_neg (show ¬ m ≤ 65535 by omega)]
  exact dropsBelow_cons_of_le (by omega) fun _ => dropsBelow_cons_of_le (by omega) fun _ =>
    dropsBelow_cons_of_le (by omega) fun _ => dropsBelow_cons_of_lt (by omega)

theorem charBytes_ne_nil (c : Char) : charBytes c ≠ [] := by
  rw [charBytes, map_toNat_utf8EncodeChar]
  split
  · simp
  split
  · simp
  split <;> simp

theorem compareRanks_flatMap_charBytes (text other : List Char) :
    compareRanks (text.flatMap charBytes) (other.flatMap charBytes) =
      compareRanks (text.map Char.toNat) (other.map Char.toNat) := by
  induction text generalizing other with
  | nil =>
    cases other with
    | nil => rfl
    | cons d other =>
      obtain ⟨y, rest, hbytes⟩ := List.exists_cons_of_ne_nil (charBytes_ne_nil d)
      simp [compareRanks, List.compareLex, hbytes]
  | cons c text ih =>
    cases other with
    | nil =>
      obtain ⟨x, rest, hbytes⟩ := List.exists_cons_of_ne_nil (charBytes_ne_nil c)
      simp [compareRanks, List.compareLex, hbytes]
    | cons d other =>
      rcases Nat.lt_trichotomy c.toNat d.toNat with hlt | heq | hgt
      · rw [List.flatMap_cons, List.flatMap_cons, ((charBytes_lt hlt).append _ _).compareRanks_eq.1,
          List.map_cons, List.map_cons, (dropsBelow_cons_of_lt hlt).compareRanks_eq.1]
      · obtain rfl : c = d := Char.toNat_inj.mp heq
        rw [List.flatMap_cons, List.flatMap_cons, compareRanks_append, ih]
        simp [compareRanks, List.compareLex]
      · rw [List.flatMap_cons, List.flatMap_cons, ((charBytes_lt hgt).append _ _).compareRanks_eq.2,
          List.map_cons, List.map_cons, (dropsBelow_cons_of_lt hgt).compareRanks_eq.2]

/-- **The order of names is the order of their bytes.** -/
theorem nameLe_eq_bytesLe (name other : String) : nameLe name other = bytesLe name other := by
  rw [nameLe, bytesLe, bytes_eq, bytes_eq, compareRanks_flatMap_charBytes]

end EntryProbe.Path
