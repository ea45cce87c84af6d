import EntryProbe.Go.Token

/-!
# Tokens and what follows them

The longest token at the start of a text may depend on all of the text. It does not depend
on what comes behind a *stop*, a character that no longer token goes on with
(`EntryProbe.Go.stops`): if the token ends in front of a stop, another stop with other text
behind it gives the same token (`EntryProbe.Go.lexeme_local`). White space, quotes, opening
braces, semicolons and slashes are stops. New text that is put into a source starts with one,
but never with a slash.

Numbers have the most cases. What is asked of a measure of their length is a structure,
`EntryProbe.Go.Measures`, and it is kept by each of the ways in which measures are put
together, so that the length of a number follows the rule for numbers.
-/

namespace EntryProbe.Go

/-- Characters that end every token but a string or a character literal, and that no
longer mark goes on with. -/
def stops : List Char := [' ', '\t', '\n', '\r', '\x0b', '\x0c', '\x7b', '"', ';', '/']

/-! ### Numbers -/

/-- A measure of the beginning of a text for which a stop is like the end of the
text. -/
structure Measures (length : List Char → Nat) : Prop where
  /-- The beginning is a part of the text. -/
  le (text : List Char) : length text ≤ text.length
  /-- A stop is like the end of the text. -/
  stop (text : List Char) {c : Char} (rest : List Char) : c ∈ stops →
    length (text ++ c :: rest) = length text

/-- A class of digits: no stop is one, and an underscore is none. -/
structure Digits (isDigit : Char → Bool) : Prop where
  /-- No stop is a digit. -/
  stop : ∀ c ∈ stops, isDigit c = false
  /-- An underscore is no digit. -/
  underscore : isDigit '_' = false

/-- To hold of no stop is checked on the list of them. -/
theorem forall_stops {test : Char → Bool} (h : stops.all (fun c => !test c) = true) :
    ∀ c ∈ stops, test c = false := by
  intro c hc
  simpa using List.all_eq_true.mp h c hc

theorem digits_decimal : Digits Char.isDigit := ⟨forall_stops (by decide), by decide⟩

theorem digits_binary : Digits isBinaryDigit := ⟨forall_stops (by decide), by decide⟩

theorem digits_octal : Digits isOctalDigit := ⟨forall_stops (by decide), by decide⟩

theorem digits_hex : Digits isHexDigit := ⟨forall_stops (by decide), by decide⟩

section

variable {isDigit : Char → Bool}

theorem digitTail_cons {c : Char} (hc : c ≠ '_') (rest : List Char) :
    digitTail isDigit (c :: rest) = if isDigit c then 1 + digitTail isDigit rest else 0 := by
  rw [digitTail]
  rintro d rest rfl
  exact absurd rfl hc

theorem Digits.digitTail (h : Digits isDigit) : Measures (digitTail isDigit) where
  le text := by
    fun_induction Go.digitTail isDigit text <;> simp <;> omega
  stop text := by
    intro c rest hc
    have hdigit := h.stop c hc
    have hne : c ≠ '_' := by
      rintro rfl
      revert hc
      decide
    fun_induction Go.digitTail isDigit text with
    | case1 d text hd ih => simp [Go.digitTail, hd, ih]
    | case2 d text hd => simp [Go.digitTail, hd]
    | case3 d text hno hd ih =>
      have hd' : d ≠ '_' := by
        rintro rfl
        rw [h.underscore] at hd
        cases hd
      rw [List.cons_append, digitTail_cons hd', if_pos hd, ih]
    | case4 d text hno hd =>
      by_cases hd' : d = '_'
      · subst hd'
        cases text with
        | nil => simp [Go.digitTail, hdigit]
        | cons e text => exact absurd rfl (hno e text rfl)
      · rw [List.cons_append, digitTail_cons hd', if_neg hd]
    | case5 => rw [List.nil_append, digitTail_cons hne, hdigit]; rfl

theorem Digits.digitRun (h : Digits isDigit) : Measures (digitRun isDigit) where
  le text := by
    cases text with
    | nil => exact Nat.le_refl 0
    | cons c text =>
      have := h.digitTail.le text
      simp only [Go.digitRun, List.length_cons]
      split <;> omega
  stop text := by
    intro c rest hc
    cases text with
    | nil => simp [Go.digitRun, h.stop c hc]
    | cons d text => simp [Go.digitRun, h.digitTail.stop text rest hc]

/-! #### Parts of a number -/

theorem measures_oneOf {choices : List Char} (h : ∀ c ∈ stops, choices.contains c = false) :
    Measures (oneOf choices) where
  le text := by
    cases text with
    | nil => exact Nat.le_refl 0
    | cons c text =>
      simp only [oneOf, List.length_cons]
      split <;> omega
  stop text := by
    intro c rest hc
    cases text with
    | nil => simp only [List.nil_append, oneOf, h c hc]; rfl
    | cons d text => rfl

theorem drop_append_stop {text : List Char} {n : Nat} (h : n ≤ text.length) (c : Char)
    (rest : List Char) : (text ++ c :: rest).drop n = text.drop n ++ c :: rest :=
  List.drop_append_of_le_length h

variable {first second : List Char → Nat}

theorem Measures.followedBy (h : Measures first) (h' : Measures second) :
    Measures fun text => followedBy (first text) second text where
  le text := by
    have hle := h'.le (text.drop (first text))
    rw [List.length_drop] at hle
    have := h.le text
    simp only [Go.followedBy]
    split <;> omega
  stop text := by
    intro c rest hc
    simp only [Go.followedBy, h.stop text rest hc]
    rw [drop_append_stop (h.le text), h'.stop _ _ hc]

theorem Measures.andPerhaps (h : Measures first) (h' : Measures second) :
    Measures fun text => andPerhaps (first text) second text where
  le text := by
    have hle := h'.le (text.drop (first text))
    rw [List.length_drop] at hle
    have := h.le text
    simp only [Go.andPerhaps]
    split <;> omega
  stop text := by
    intro c rest hc
    simp only [Go.andPerhaps, h.stop text rest hc]
    rw [drop_append_stop (h.le text), h'.stop _ _ hc]

variable {guard : List Char → Nat}

theorem Measures.ifZero (hguard : Measures guard) (h : Measures first) (h' : Measures second) :
    Measures fun text => if guard text = 0 then first text else second text where
  le text := by
    have := h.le text
    have := h'.le text
    split <;> omega
  stop text := by
    intro c rest hc
    simp only [hguard.stop text rest hc, h.stop text rest hc, h'.stop text rest hc]

theorem measures_zero : Measures fun _ => 0 where
  le _ := Nat.zero_le _
  stop _ _ _ _ := rfl

theorem Measures.unlessZero (hguard : Measures guard) (h : Measures first) :
    Measures fun text => if guard text = 0 then 0 else first text :=
  hguard.ifZero measures_zero h

theorem oneOf_eq_one {choices text : List Char} (h : oneOf choices text ≠ 0) :
    oneOf choices text = 1 := by
  cases text with
  | nil => exact absurd rfl h
  | cons c text =>
    simp only [oneOf] at h ⊢
    split at h
    · next hc => rw [if_pos hc]
    · exact absurd rfl h

theorem measures_exponent {letters : List Char} (h : ∀ c ∈ stops, letters.contains c = false) :
    Measures (exponent letters) := by
  have hletter := measures_oneOf h
  have hsign : Measures (oneOf ['+', '-']) := measures_oneOf (forall_stops (by decide))
  have heq : exponent letters = fun text =>
      if oneOf letters text = 0 then 0
      else followedBy (andPerhaps (oneOf letters text) (oneOf ['+', '-']) text)
        (digitRun Char.isDigit) text := by
    funext text
    simp only [exponent]
    split
    · rfl
    · next hone => simp [oneOf_eq_one hone, Go.andPerhaps]
  rw [heq]
  exact hletter.unlessZero ((hletter.andPerhaps hsign).followedBy digits_decimal.digitRun)

theorem Digits.looseDigits (h : Digits isDigit) : Measures (looseDigits isDigit) := by
  have hone : Measures (oneOf ['_']) := measures_oneOf (forall_stops (by decide))
  exact hone.followedBy h.digitRun

/-- The length of a zero and a letter for the base, or zero. -/
def baseMark (letters text : List Char) : Nat :=
  if oneOf ['0'] text = 0 then 0 else followedBy (oneOf ['0'] text) (oneOf letters) text

theorem measures_baseMark {letters : List Char} (h : ∀ c ∈ stops, letters.contains c = false) :
    Measures (baseMark letters) := by
  have hzero : Measures (oneOf ['0']) := measures_oneOf (forall_stops (by decide))
  exact hzero.unlessZero (hzero.followedBy (measures_oneOf h))

theorem baseMark_eq (letters text : List Char) :
    baseMark letters text =
      if oneOf ['0'] text = 0 ∨ oneOf letters (text.drop 1) = 0 then 0 else 2 := by
  simp only [baseMark]
  by_cases hzero : oneOf ['0'] text = 0
  · simp [hzero]
  · simp only [oneOf_eq_one hzero, Go.followedBy]
    by_cases hletter : oneOf letters (text.drop 1) = 0
    · simp [-List.drop_one, hletter]
    · simp [-List.drop_one, oneOf_eq_one hletter]

theorem Digits.basedInteger (h : Digits isDigit) {letters : List Char}
    (hletters : ∀ c ∈ stops, letters.contains c = false) :
    Measures (Go.basedInteger letters isDigit) := by
  have hmark := measures_baseMark hletters
  have heq : Go.basedInteger letters isDigit = fun text =>
      if baseMark letters text = 0 then 0
      else followedBy (baseMark letters text) (Go.looseDigits isDigit) text := by
    funext text
    simp only [Go.basedInteger, baseMark_eq]
    split <;> rfl
  rw [heq]
  exact hmark.unlessZero (hmark.followedBy h.looseDigits)

/-- Digits and a point that digits may follow, or a point that digits follow. -/
theorem measures_pointed {whole : List Char → Nat} (hwhole : Measures whole)
    (h : Digits isDigit) {bare : List Char → Nat} (hbare : Measures bare) :
    Measures fun text =>
      if whole text = 0 then
        if oneOf ['.'] text = 0 then 0 else followedBy 1 (Go.digitRun isDigit) text
      else if oneOf ['.'] (text.drop (whole text)) = 0 then bare text
      else andPerhaps (whole text + 1) (Go.digitRun isDigit) text := by
  have hpoint : Measures (oneOf ['.']) := measures_oneOf (forall_stops (by decide))
  have hstart := hpoint.unlessZero (hpoint.followedBy h.digitRun)
  have hfull := hwhole.followedBy hpoint
  have hmeasures := hwhole.ifZero hstart
    (hfull.ifZero hbare (hfull.andPerhaps h.digitRun))
  have heq : ∀ text, (if whole text = 0 then
        if oneOf ['.'] text = 0 then 0 else followedBy 1 (Go.digitRun isDigit) text
      else if oneOf ['.'] (text.drop (whole text)) = 0 then bare text
      else andPerhaps (whole text + 1) (Go.digitRun isDigit) text) =
      if whole text = 0 then
        if oneOf ['.'] text = 0 then 0
        else followedBy (oneOf ['.'] text) (Go.digitRun isDigit) text
      else if followedBy (whole text) (oneOf ['.']) text = 0 then bare text
      else andPerhaps (followedBy (whole text) (oneOf ['.']) text) (Go.digitRun isDigit) text := by
    intro text
    split
    · split
      · rfl
      · next hone => rw [oneOf_eq_one hone]
    · next hwhole =>
      by_cases hone : oneOf ['.'] (text.drop (whole text)) = 0
      · simp [Go.followedBy, hone]
      · simp [Go.followedBy, oneOf_eq_one hone]
  simp only [heq]
  exact hmeasures

/-! #### All of a number -/

/-- Measures of the beginning of a text, any number of them. -/
structure MeasuresEach (lengths : List Char → List Nat) : Prop where
  /-- Each beginning is a part of the text. -/
  le (text : List Char) : ∀ length ∈ lengths text, length ≤ text.length
  /-- A stop is like the end of the text. -/
  stop (text : List Char) {c : Char} (rest : List Char) : c ∈ stops →
    lengths (text ++ c :: rest) = lengths text

theorem measuresEach_nil : MeasuresEach fun _ => [] where
  le _ := by simp
  stop _ _ _ _ := rfl

theorem MeasuresEach.cons {lengths : List Char → List Nat} (h : MeasuresEach lengths)
    (hfirst : Measures first) : MeasuresEach fun text => first text :: lengths text where
  le text := by
    intro length hmem
    rcases List.mem_cons.mp hmem with rfl | hmem
    · exact hfirst.le text
    · exact h.le text length hmem
  stop text := by
    intro c rest hc
    rw [hfirst.stop text rest hc, h.stop text rest hc]

theorem MeasuresEach.append {lengths lengths' : List Char → List Nat} (h : MeasuresEach lengths)
    (h' : MeasuresEach lengths') : MeasuresEach fun text => lengths text ++ lengths' text where
  le text := by
    intro length hmem
    rcases List.mem_append.mp hmem with hmem | hmem
    · exact h.le text length hmem
    · exact h'.le text length hmem
  stop text := by
    intro c rest hc
    rw [h.stop text rest hc, h'.stop text rest hc]

theorem measuresEach_integers : MeasuresEach integers := by
  have hzero : Measures (oneOf ['0']) := measures_oneOf (forall_stops (by decide))
  have heq : integers = fun text =>
      [oneOf ['0'] text,
       if oneOf ['0'] text = 0 then digitRun Char.isDigit text
       else followedBy (oneOf ['0'] text) (looseDigits isOctalDigit) text,
       basedInteger ['o', 'O'] isOctalDigit text,
       basedInteger ['x', 'X'] isHexDigit text,
       basedInteger ['b', 'B'] isBinaryDigit text] := by
    funext text
    simp only [integers]
    by_cases hone : oneOf ['0'] text = 0
    · simp [hone]
    · simp [oneOf_eq_one hone]
  rw [heq]
  refine .cons (.cons (.cons (.cons (.cons measuresEach_nil ?_) ?_) ?_) ?_) hzero
  · exact digits_binary.basedInteger (forall_stops (by decide))
  · exact digits_hex.basedInteger (forall_stops (by decide))
  · exact digits_octal.basedInteger (forall_stops (by decide))
  · exact hzero.ifZero digits_decimal.digitRun (hzero.followedBy digits_octal.looseDigits)

theorem measuresEach_decimals : MeasuresEach decimals := by
  have hwhole := digits_decimal.digitRun
  have hexponent : Measures (exponent ['e', 'E']) := measures_exponent (forall_stops (by decide))
  have hpointed := measures_pointed hwhole digits_decimal measures_zero
  exact .cons (.cons measuresEach_nil (hwhole.unlessZero (hwhole.followedBy hexponent)))
    (hpointed.andPerhaps hexponent)

/-- The length of the digits and the point of a hexadecimal fraction. -/
def hexMantissa (text : List Char) : Nat :=
  if looseDigits isHexDigit text = 0 then
    if oneOf ['.'] text = 0 then 0 else followedBy 1 (digitRun isHexDigit) text
  else if oneOf ['.'] (text.drop (looseDigits isHexDigit text)) = 0 then
    looseDigits isHexDigit text
  else andPerhaps (looseDigits isHexDigit text + 1) (digitRun isHexDigit) text

theorem hexadecimal_eq (text : List Char) :
    hexadecimal text =
      if baseMark ['x', 'X'] text = 0 then 0
      else if followedBy (baseMark ['x', 'X'] text) hexMantissa text = 0 then 0
      else followedBy (followedBy (baseMark ['x', 'X'] text) hexMantissa text)
        (exponent ['p', 'P']) text := by
  simp only [hexadecimal, ← hexMantissa.eq_def, baseMark_eq]
  by_cases hmark : oneOf ['0'] text = 0 ∨ oneOf ['x', 'X'] (text.drop 1) = 0
  · rw [if_pos hmark, if_pos hmark, if_pos rfl]
  · simp only [if_neg hmark, Go.followedBy]
    by_cases hzero : hexMantissa (text.drop 2) = 0
    · simp [hzero]
    · simp [hzero]

theorem measures_hexadecimal : Measures hexadecimal := by
  have hmark : Measures (baseMark ['x', 'X']) := measures_baseMark (forall_stops (by decide))
  have hexponent : Measures (exponent ['p', 'P']) := measures_exponent (forall_stops (by decide))
  have hmantissa : Measures hexMantissa :=
    measures_pointed digits_hex.looseDigits digits_hex digits_hex.looseDigits
  have hboth := hmark.followedBy hmantissa
  rw [funext hexadecimal_eq]
  exact hmark.unlessZero (hboth.unlessZero (hboth.followedBy hexponent))

/-- Each of some measures may have to be followed by one and the same part. -/
theorem MeasuresEach.followedBy {lengths : List Char → List Nat} (h : MeasuresEach lengths)
    (hsecond : Measures second) :
    MeasuresEach fun text => (lengths text).map fun length =>
      if length = 0 then 0 else followedBy length second text where
  le text := by
    intro length hmem
    obtain ⟨n, hn, rfl⟩ := List.mem_map.mp hmem
    have hle := h.le text n hn
    have hrest := hsecond.le (text.drop n)
    rw [List.length_drop] at hrest
    simp only [Go.followedBy]
    split
    · exact Nat.zero_le _
    · split <;> omega
  stop text := by
    intro c rest hc
    simp only [h.stop text rest hc]
    refine List.map_congr_left fun n hn => ?_
    simp only [Go.followedBy]
    rw [drop_append_stop (h.le text n hn), hsecond.stop _ _ hc]

theorem foldl_max_le {lengths : List Nat} {n bound : Nat} (hn : n ≤ bound)
    (h : ∀ length ∈ lengths, length ≤ bound) : lengths.foldl max n ≤ bound := by
  induction lengths generalizing n with
  | nil => exact hn
  | cons length lengths ih =>
    refine ih (Nat.max_le.mpr ⟨hn, h length (by simp)⟩) fun length hmem => ?_
    exact h length (by simp [hmem])

/-- **A number is measured up to a stop.** -/
theorem measures_numberLength : Measures numberLength := by
  have hplain := (measuresEach_integers.cons measures_hexadecimal).append measuresEach_decimals
  have hwhole := (((measuresEach_integers.cons measures_hexadecimal).cons
    digits_decimal.digitRun).append measuresEach_decimals)
  have himaginary : Measures (oneOf ['i']) := measures_oneOf (forall_stops (by decide))
  have hall := hplain.append (hwhole.followedBy himaginary)
  refine ⟨fun text => foldl_max_le (Nat.zero_le _) (hall.le text), ?_⟩
  intro text c rest hc
  exact congrArg (List.foldl max 0) (hall.stop text rest hc)

end

/-- A number starts with a digit or a point. -/
theorem numberLength_eq_zero {c : Char} (hdigit : c.isDigit = false) (hpoint : c ≠ '.')
    (rest : List Char) : numberLength (c :: rest) = 0 := by
  have hzero : c ≠ '0' := by
    rintro rfl
    cases hdigit
  simp [numberLength, hexadecimal, integers, decimals, basedInteger, digitRun, oneOf, hdigit,
    hzero, hpoint, andPerhaps]

/-! ### Strings and characters -/

section

variable {text rest rest' : List Char} {n : Nat}

theorem hexAhead_append {count : Nat} (h : count ≤ text.length) (rest : List Char) :
    hexAhead count (text ++ rest) = hexAhead count text := by
  simp [hexAhead, List.take_append_of_le_length h]

theorem stringTail?_cons {c : Char} (hc : c ≠ '\\') (rest : List Char) :
    stringTail? (c :: rest) =
      if c = '"' then some 1
      else if c = '\n' ∨ c = '\\' ∨ c = nullChar then none
      else (stringTail? rest).map (1 + ·) := by
  rw [stringTail?]
  rintro d rest' rfl
  exact absurd rfl hc

theorem stringTail?_pos (h : stringTail? text = some n) : 0 < n := by
  fun_induction stringTail? text generalizing n <;> grind [Option.map_eq_some_iff]

/-- A string that digits are ahead in goes on behind them. -/
theorem lt_of_hexAhead {count : Nat} (hhex : hexAhead count text = true)
    (h : stringTail? text = some n) : count < n := by
  induction count generalizing text n with
  | zero => exact stringTail?_pos h
  | succ count ih =>
    cases text with
    | nil => cases h
    | cons c text =>
      have hdigit : isHexDigit c = true ∧ hexAhead count text = true := by
        simp only [hexAhead, List.take_succ_cons, List.length_cons, List.all_cons,
          Bool.and_eq_true, beq_iff_eq, Nat.add_right_cancel_iff] at hhex ⊢
        exact ⟨hhex.2.1, hhex.1, hhex.2.2⟩
      have hne : c ≠ '\\' ∧ c ≠ '"' := by
        refine ⟨?_, ?_⟩
        · rintro rfl
          exact absurd hdigit.1 (by decide)
        · rintro rfl
          exact absurd hdigit.1 (by decide)
      rw [stringTail?_cons hne.1, if_neg hne.2] at h
      split at h
      · cases h
      · obtain ⟨m, hm, rfl⟩ := Option.map_eq_some_iff.mp h
        have := ih hdigit.2 hm
        omega

theorem escapeIsComplete_local {c : Char} (h : escapeIsComplete c (text ++ rest) = true)
    (htail : stringTail? (text ++ rest) = some n) (hn : n ≤ text.length) :
    escapeIsComplete c (text ++ rest') = true := by
  have hahead : ∀ count, hexAhead count (text ++ rest) = true →
      hexAhead count (text ++ rest') = true := by
    intro count hhex
    have hlt := lt_of_hexAhead hhex htail
    have hle : count ≤ text.length := by omega
    rw [hexAhead_append hle] at hhex ⊢
    exact hhex
  unfold escapeIsComplete at h ⊢
  split
  · next hc =>
    rw [if_pos hc] at h
    exact hahead 2 h
  next hc =>
  rw [if_neg hc] at h
  split
  · next hc =>
    rw [if_pos hc] at h
    exact hahead 4 h
  next hc =>
  rw [if_neg hc] at h
  split
  · next hc =>
    rw [if_pos hc] at h
    exact hahead 8 h
  next hc =>
  rw [if_neg hc] at h
  exact h

/-- **A string literal ends at its closing quote**, whatever follows. -/
theorem stringTail?_local (h : stringTail? (text ++ rest) = some n) (hn : n ≤ text.length) :
    stringTail? (text ++ rest') = some n := by
  induction hlength : text.length using Nat.strongRecOn generalizing text n with
  | _ length ih =>
    subst hlength
    cases text with
    | nil =>
      have := stringTail?_pos h
      simp only [List.length_nil] at hn
      omega
    | cons c text =>
      by_cases hc : c = '\\'
      · subst hc
        cases text with
        | nil =>
          -- the character behind a backslash belongs to the literal
          cases rest with
          | nil => simp [stringTail?] at h
          | cons c rest =>
            simp only [List.cons_append, List.nil_append, stringTail?] at h
            split at h
            · obtain ⟨m, hm, rfl⟩ := Option.map_eq_some_iff.mp h
              simp only [List.length_cons, List.length_nil] at hn
              omega
            · cases h
        | cons c text =>
          simp only [List.cons_append, stringTail?] at h ⊢
          split at h
          · next hescape =>
            obtain ⟨m, hm, rfl⟩ := Option.map_eq_some_iff.mp h
            simp only [List.length_cons] at hn ih
            have hm' : m ≤ text.length := by omega
            rw [if_pos (escapeIsComplete_local hescape hm hm')]
            rw [ih text.length (by omega) hm hm' rfl]
            rfl
          · cases h
      · rw [List.cons_append, stringTail?_cons hc] at h ⊢
        split
        · next hquote => rwa [if_pos hquote] at h
        next hquote =>
        rw [if_neg hquote] at h
        split
        · next hbad =>
          rw [if_pos hbad] at h
          cases h
        next hbad =>
        rw [if_neg hbad] at h
        obtain ⟨m, hm, rfl⟩ := Option.map_eq_some_iff.mp h
        simp only [List.length_cons] at hn ih
        have hm' : m ≤ text.length := by omega
        rw [ih text.length (by omega) hm hm' rfl]
        rfl

@[inherit_doc stringTail?_local]
theorem rawTail?_local (h : rawTail? (text ++ rest) = some n) (hn : n ≤ text.length) :
    rawTail? (text ++ rest') = some n := by
  induction text generalizing n with
  | nil =>
    obtain rfl := Nat.le_zero.mp hn
    cases rest with
    | nil => cases h
    | cons c rest =>
      simp only [List.nil_append, rawTail?] at h
      grind [Option.map_eq_some_iff]
  | cons c text ih =>
    simp only [List.cons_append, rawTail?] at h ⊢
    split
    · next hquote => rwa [if_pos hquote] at h
    next hquote =>
    rw [if_neg hquote] at h
    split
    · next hnull =>
      rw [if_pos hnull] at h
      cases h
    next hnull =>
    rw [if_neg hnull] at h
    obtain ⟨m, hm, rfl⟩ := Option.map_eq_some_iff.mp h
    simp only [List.length_cons] at hn
    rw [ih hm (by omega)]
    rfl

theorem runeEscape_local (hpos : runeEscape (text ++ rest) ≠ 0)
    (hn : runeEscape (text ++ rest) ≤ text.length) :
    runeEscape (text ++ rest') = runeEscape (text ++ rest) := by
  cases text with
  | nil => exact absurd (Nat.le_zero.mp hn) hpos
  | cons c text =>
    have hahead : ∀ count, count ≤ text.length →
        hexAhead count (text ++ rest) = hexAhead count (text ++ rest') := by
      intro count hle
      rw [hexAhead_append hle, hexAhead_append hle]
    have htake : 2 ≤ text.length → (text ++ rest).take 2 = (text ++ rest').take 2 := by
      intro hle
      rw [List.take_append_of_le_length hle, List.take_append_of_le_length hle]
    simp only [List.cons_append, runeEscape, List.length_cons] at hpos hn ⊢
    grind

/-- The length of the content of a character literal that starts with `c`. -/
def runeContent (c : Char) (rest : List Char) : Nat :=
  if c = '\\' then andPerhaps (runeEscape rest) (fun _ => 1) rest
  else if c = runeQuote ∨ c = nullChar then 0
  else 1

theorem runeContent_local {c : Char} (hpos : runeContent c (text ++ rest) ≠ 0)
    (hn : runeContent c (text ++ rest) ≤ text.length) :
    runeContent c (text ++ rest') = runeContent c (text ++ rest) := by
  simp only [runeContent] at hpos hn ⊢
  split
  · next hc =>
    simp only [hc, ↓reduceIte, andPerhaps] at hpos hn ⊢
    have hzero : runeEscape (text ++ rest) ≠ 0 := by
      intro hzero
      rw [if_pos hzero] at hpos
      exact hpos rfl
    rw [if_neg hzero] at hn
    have hescape : runeEscape (text ++ rest') = runeEscape (text ++ rest) :=
      runeEscape_local hzero (by omega)
    rw [hescape]
  · rfl

@[inherit_doc stringTail?_local]
theorem runeTail?_local (h : runeTail? (text ++ rest) = some n) (hn : n ≤ text.length) :
    runeTail? (text ++ rest') = some n := by
  cases text with
  | nil =>
    obtain rfl := Nat.le_zero.mp hn
    cases rest with
    | nil => cases h
    | cons c rest =>
      simp only [List.nil_append, runeTail?] at h
      grind
  | cons c text =>
    simp only [List.cons_append, runeTail?, ← runeContent.eq_def, List.length_cons] at h hn ⊢
    obtain ⟨⟨hpos, hquote⟩, hlength⟩ := Option.ite_none_right_eq_some.mp h
    obtain rfl : _ = n := Option.some.inj hlength
    have hlt : runeContent c (text ++ rest) < (c :: text).length := by
      simp only [List.length_cons]
      omega
    rw [runeContent_local hpos (by omega)]
    have hdrop : ∀ tail, ((c :: (text ++ tail)).drop (runeContent c (text ++ rest))).head? =
        ((c :: text).drop (runeContent c (text ++ rest))).head? := by
      intro tail
      rw [← List.cons_append, List.head?_drop, List.head?_drop, List.getElem?_append_left hlt]
    rw [hdrop] at hquote ⊢
    rw [if_pos ⟨hpos, hquote⟩]

end

/-! ### Tokens -/

theorem isWordContinue_stop : ∀ c ∈ stops, isWordContinue c = false :=
  forall_stops (by decide)

theorem takeWhile_stop {c : Char} (hc : c ∈ stops) (text rest : List Char) :
    (text ++ c :: rest).takeWhile isWordContinue = text.takeWhile isWordContinue := by
  induction text with
  | nil => simp [isWordContinue_stop c hc]
  | cons d text ih => simp [List.takeWhile_cons, ih]

theorem stop_not_mem_marks : ∀ entry ∈ marks, ∀ d ∈ entry.1.tail, d ∉ stops := by
  have hall : marks.all (fun entry => entry.1.tail.all fun d => !stops.contains d) = true := by
    decide
  intro entry hentry d hd
  simpa using List.all_eq_true.mp (List.all_eq_true.mp hall entry hentry) d hd

theorem isPrefixOf_append_cons {spelled : List Char} {c : Char} (hc : c ∉ spelled)
    (text rest : List Char) : spelled.isPrefixOf (text ++ c :: rest) = spelled.isPrefixOf text := by
  induction spelled generalizing text with
  | nil => rfl
  | cons d spelled ih =>
    rw [List.mem_cons, not_or] at hc
    cases text with
    | nil => simp [List.isPrefixOf, Ne.symm hc.1]
    | cons e text => simp [List.isPrefixOf, ih hc.2]

/-- No mark goes on with a stop. -/
theorem isPrefixOf_stop {entry : List Char × Mark} {c : Char} (hentry : entry ∈ marks)
    (hc : c ∈ stops) (d : Char) (text rest : List Char) :
    entry.1.isPrefixOf (d :: (text ++ c :: rest)) = entry.1.isPrefixOf (d :: text) := by
  have hnot := stop_not_mem_marks entry hentry
  cases hspelled : entry.1 with
  | nil => rfl
  | cons e spelled =>
    rw [hspelled] at hnot
    have hfree : c ∉ spelled := fun hmem => hnot c hmem hc
    simp [List.isPrefixOf, isPrefixOf_append_cons hfree]

theorem find?_marks_stop {c : Char} (hc : c ∈ stops) (d : Char) (text rest : List Char) :
    (marks.find? fun entry => entry.1.isPrefixOf (d :: (text ++ c :: rest))) =
      marks.find? fun entry => entry.1.isPrefixOf (d :: text) := by
  have hall := fun entry hentry => @isPrefixOf_stop entry c hentry hc d text rest
  revert hall
  induction marks with
  | nil => intro; rfl
  | cons entry entries ih =>
    intro hall
    rw [List.find?_cons, List.find?_cons, hall entry (by simp)]
    rw [ih fun entry hentry => hall entry (by simp [hentry])]

section

variable {text rest rest' : List Char} {c c' : Char} {kind : Lexeme} {n : Nat}

/-- **A token that ends before a stop does not depend on what follows the stop**, unless
it is stray. -/
theorem lexeme_local (hc : c ∈ stops) (hc' : c' ∈ stops)
    (h : lexeme (text ++ c :: rest) = (kind, n)) (hkind : kind ≠ .stray)
    (hn : n ≤ text.length) (htext : text ≠ []) : lexeme (text ++ c' :: rest') = (kind, n) := by
  cases text with
  | nil => exact absurd rfl htext
  | cons d text =>
    have hnumber : ∀ e ∈ stops, ∀ tail, numberLength (d :: (text ++ e :: tail)) =
        numberLength (d :: text) := fun e he tail => measures_numberLength.stop (d :: text) tail he
    simp only [List.length_cons] at hn
    simp only [List.cons_append, lexeme, takeWhile_stop hc, takeWhile_stop hc', hnumber c hc,
      hnumber c' hc', find?_marks_stop hc, find?_marks_stop hc'] at h ⊢
    split
    · next hword =>
      -- a word ends before the stop, so that its text is known
      rw [if_pos hword] at h
      have hle : 1 + (text.takeWhile isWordContinue).length ≤ (d :: text).length := by
        have := (List.takeWhile_sublist isWordContinue (l := text)).length_le
        simp only [List.length_cons]
        omega
      have htake : ∀ tail, (d :: (text ++ tail)).take (1 + (text.takeWhile isWordContinue).length) =
          (d :: text).take (1 + (text.takeWhile isWordContinue).length) := fun tail =>
        List.take_append_of_le_length hle
      rw [htake] at h ⊢
      exact h
    next hword =>
    rw [if_neg hword] at h
    split
    · next hzero => rwa [if_pos hzero] at h
    next hzero =>
    rw [if_neg hzero] at h
    split
    · next hquote =>
      rw [if_pos hquote] at h
      split at h
      · next m hm =>
        cases h
        rw [stringTail?_local hm (by omega)]
      · cases h
        exact absurd rfl hkind
    next hquote =>
    rw [if_neg hquote] at h
    split
    · next hraw =>
      rw [if_pos hraw] at h
      split at h
      · next m hm =>
        cases h
        rw [rawTail?_local hm (by omega)]
      · cases h
        exact absurd rfl hkind
    next hraw =>
    rw [if_neg hraw] at h
    split
    · next hrune =>
      rw [if_pos hrune] at h
      split at h
      · next m hm =>
        cases h
        rw [runeTail?_local hm (by omega)]
      · cases h
        exact absurd rfl hkind
    next hrune =>
    rwa [if_neg hrune] at h

end

/-! #### The length of a token -/

theorem stringTail?_le {text : List Char} {n : Nat} (h : stringTail? text = some n) :
    n ≤ text.length := by
  fun_induction stringTail? text generalizing n <;> grind [Option.map_eq_some_iff]

theorem rawTail?_le {text : List Char} {n : Nat} (h : rawTail? text = some n) :
    n ≤ text.length := by
  fun_induction rawTail? text generalizing n <;> grind [Option.map_eq_some_iff]

theorem runeTail?_le {text : List Char} {n : Nat} (h : runeTail? text = some n) :
    n ≤ text.length := by
  cases text with
  | nil => cases h
  | cons c text =>
    simp only [runeTail?, ← runeContent.eq_def] at h
    obtain ⟨⟨-, hquote⟩, hlength⟩ := Option.ite_none_right_eq_some.mp h
    obtain rfl : _ = n := Option.some.inj hlength
    rw [List.head?_drop] at hquote
    exact (List.getElem?_eq_some_iff.mp hquote).1

theorem marks_nonempty : ∀ entry ∈ marks, 0 < entry.1.length := by
  decide

/-- **A token is a nonempty part of the text.** -/
theorem lexeme_length {c : Char} {rest : List Char} :
    0 < (lexeme (c :: rest)).2 ∧ (lexeme (c :: rest)).2 ≤ (c :: rest).length := by
  simp only [lexeme]
  split
  · have hle := (List.takeWhile_sublist (l := rest) isWordContinue).length_le
    have hlength : (c :: rest).length = rest.length + 1 := rfl
    split <;> exact ⟨by omega, by omega⟩
  split
  · next hzero => exact ⟨by simp only; omega, measures_numberLength.le _⟩
  split
  · split
    · next n hn =>
      have := stringTail?_le hn
      simp only [List.length_cons]
      omega
    · simp
  split
  · split
    · next n hn =>
      have := rawTail?_le hn
      simp only [List.length_cons]
      omega
    · simp
  split
  · split
    · next n hn =>
      have := runeTail?_le hn
      simp only [List.length_cons]
      omega
    · simp
  split
  · next spelled mark hfind =>
    have hprefix : spelled.isPrefixOf (c :: rest) = true := by
      simpa using List.find?_some hfind
    exact ⟨marks_nonempty _ (List.mem_of_find?_eq_some hfind),
      (List.isPrefixOf_iff_prefix.mp hprefix).length_le⟩
  · simp

/-! #### Words -/

/-- Only a word starts with a character that starts words. -/
theorem isWordStart_of_lexeme {c : Char} {rest : List Char}
    (h : (lexeme (c :: rest)).1 = .word ∨ ∃ keyword, (lexeme (c :: rest)).1 = .keyword keyword) :
    isWordStart c = true := by
  cases hword : isWordStart c with
  | true => rfl
  | false =>
    -- every other branch gives a token that is no word
    simp only [lexeme, hword, Bool.false_eq_true, ↓reduceIte] at h
    revert h
    repeat' split
    all_goals simp

/-- A word is made of what words start and go on with, whatever follows it. -/
theorem exists_of_lexeme_word {text tail : List Char} {kind : Lexeme}
    (h : lexeme (text ++ tail) = (kind, text.length))
    (hkind : kind = .word ∨ ∃ keyword, kind = .keyword keyword) :
    ∃ c rest, text = c :: rest ∧ isWordStart c = true ∧ ∀ d ∈ rest, isWordContinue d = true := by
  cases text with
  | nil =>
    cases tail with
    | nil =>
      cases h
      rcases hkind with hkind | ⟨keyword, hkind⟩ <;> cases hkind
    | cons c tail =>
      obtain ⟨hpos, -⟩ := @lexeme_length c tail
      rw [List.nil_append] at h
      simp [h] at hpos
  | cons c rest =>
    rw [List.cons_append] at h
    have hstart : isWordStart c = true := isWordStart_of_lexeme (by rw [h]; exact hkind)
    have hlength : 1 + ((rest ++ tail).takeWhile isWordContinue).length = (c :: rest).length := by
      have hsecond := congrArg Prod.snd h
      simp only [lexeme, hstart, if_true] at hsecond
      split at hsecond
      · exact hsecond
      · exact hsecond
    have hwhile : (rest ++ tail).takeWhile isWordContinue = rest := by
      refine (List.prefix_of_prefix_length_le (List.takeWhile_prefix _)
        (List.prefix_append rest tail) ?_).eq_of_length ?_
      all_goals
        rw [List.length_cons] at hlength
        omega
    have hall : rest.all isWordContinue = true := by
      rw [← hwhile]
      exact List.all_takeWhile
    exact ⟨c, rest, rfl, hstart, List.all_eq_true.mp hall⟩

/-! #### Single marks -/

/-- A character that starts no word, number or literal is the first mark that fits. -/
theorem lexeme_eq_mark (c : Char) {rest : List Char} {mark : Mark} (hword : isWordStart c = false)
    (hdigit : c.isDigit = false) (hplain : c ∉ ['.', '"', rawQuote, runeQuote])
    (hfind : (marks.find? fun entry => entry.1.isPrefixOf (c :: rest)) = some ([c], mark)) :
    lexeme (c :: rest) = (.mark mark, 1) := by
  simp only [List.mem_cons, List.not_mem_nil, or_false, not_or] at hplain
  obtain ⟨hdot, hquote, hraw, hrune⟩ := hplain
  simp [lexeme, hword, numberLength_eq_zero hdigit hdot rest, hquote, hraw, hrune, hfind]

theorem lexeme_openBrace (rest : List Char) : lexeme ('\x7b' :: rest) = (.mark .openBrace, 1) :=
  lexeme_eq_mark '\x7b' (by decide) (by decide) (by decide) rfl

/-- A slash and a star that start no comment are two tokens. -/
theorem lexeme_slashStar (rest : List Char) :
    lexeme ('/' :: '*' :: rest) = (.mark .slash, 1) :=
  lexeme_eq_mark '/' (by decide) (by decide) (by decide) rfl

end EntryProbe.Go
