import EntryProbe.Text.Quoted

/-!
# Reading string literals

The other direction of `EntryProbe.quote`: where a string literal of Go ends, and which text
it stands for.

A literal between double quotes ends with the first double quote that is not escaped, and no
line goes on beyond its end (`EntryProbe.Quoted.takeLiteral?`). What it stands for are bytes:
a character stands for the bytes of its encoding, an escape for one byte or for the bytes of
a character. The bytes have to be the encoding of a text (`EntryProbe.unquote?`). A literal
between back quotes stands for itself, carriage returns apart.
-/

namespace EntryProbe.Quoted

/-! ### Where a literal ends -/

/-- A literal after its opening quote, up to and including the closing one, and what
follows. -/
def takeInside? : List Char → Option (List Char × List Char)
  | [] => none
  | '\\' :: c :: rest =>
    if c = '\n' then none
    else (takeInside? rest).map fun (inside, after) => ('\\' :: c :: inside, after)
  | c :: rest =>
    if c = '"' then some ([c], rest)
    else if c = '\n' then none
    else (takeInside? rest).map fun (inside, after) => (c :: inside, after)

/-- The literal between double quotes that a text starts with, and what follows. -/
def takeLiteral? : List Char → Option (List Char × List Char)
  | [] => none
  | c :: rest =>
    if c = '"' then (takeInside? rest).map fun (inside, after) => (c :: inside, after) else none

/-! ### What a literal stands for -/

/-- The value of a digit. -/
def digitValue? (base : Nat) (c : Char) : Option Nat :=
  let value :=
    if '0' ≤ c ∧ c ≤ '9' then c.toNat - '0'.toNat
    else if 'a' ≤ c ∧ c ≤ 'f' then c.toNat - 'a'.toNat + 10
    else if 'A' ≤ c ∧ c ≤ 'F' then c.toNat - 'A'.toNat + 10
    else base
  if value < base then some value else none

/-- The value of digits, the highest first. -/
def valueOf (base : Nat) (digits : List Nat) : Nat :=
  digits.foldl (fun value digit => value * base + digit) 0

/-- The number that the next `count` characters are the digits of. -/
def number? (base count : Nat) (text : List Char) : Option Nat :=
  (text.take count).mapM (digitValue? base) |>.bind fun digits =>
    if digits.length = count then some (valueOf base digits) else none

/-- A number as one byte. -/
def byteOf? (value : Nat) : Option (List UInt8) :=
  if value < 256 then some [UInt8.ofNat value] else none

/-- The bytes of the character with a number. -/
def encodedOf? (value : Nat) : Option (List UInt8) :=
  if value.isValidChar then some (String.utf8EncodeChar (Char.ofNat value)) else none

/-- The byte that a letter stands for behind a backslash. -/
def letterByte? : Char → Option UInt8
  | 'a' => some 0x07
  | 'b' => some 0x08
  | 'f' => some 0x0c
  | 'n' => some 0x0a
  | 'r' => some 0x0d
  | 't' => some 0x09
  | 'v' => some 0x0b
  | '\\' => some 0x5c
  | '"' => some 0x22
  | _ => none

/-- The bytes that an escape stands for, and the number of its characters. The backslash is
left out. -/
def escaped? : List Char → Option (List UInt8 × Nat)
  | [] => none
  | c :: rest =>
    if c = 'x' then ((number? 16 2 rest).bind byteOf?).map fun bytes => (bytes, 3)
    else if '0' ≤ c ∧ c ≤ '7' then
      ((number? 8 3 (c :: rest)).bind byteOf?).map fun bytes => (bytes, 3)
    else if c = 'u' then ((number? 16 4 rest).bind encodedOf?).map fun bytes => (bytes, 5)
    else if c = 'U' then ((number? 16 8 rest).bind encodedOf?).map fun bytes => (bytes, 9)
    else (letterByte? c).map fun byte => ([byte], 1)

/-- The bytes that the inside of a literal between double quotes stands for. -/
def bytesOf? : List Char → Option (List UInt8)
  | [] => some []
  | c :: rest =>
    if c = '\\' then
      match escaped? rest with
      | some (bytes, length) => (bytesOf? (rest.drop length)).map (bytes ++ ·)
      | none => none
    else if c = '"' ∨ c = '\n' then none
    else (bytesOf? rest).map (String.utf8EncodeChar c ++ ·)
termination_by text => text.length
decreasing_by all_goals simp only [List.length_cons, List.length_drop]; omega

/-- What is between two quotes. -/
def inside? (mark : Char) : List Char → Option (List Char)
  | [] => none
  | c :: rest => if c = mark ∧ rest.getLast? = some mark then some rest.dropLast else none

end EntryProbe.Quoted

namespace EntryProbe

open Quoted in
/-- **The text that a string literal stands for**, if there is one. -/
def unquote? (literal : String) : Option String :=
  match inside? '\x60' literal.toList with
  | some raw => some (String.ofList (raw.filter fun c => c != '\r'))
  | none =>
    (inside? '"' literal.toList).bind fun inside =>
      (bytesOf? inside).bind fun bytes => String.fromUTF8? bytes.toByteArray

end EntryProbe
