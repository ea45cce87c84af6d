import EntryProbe.Text.Classes

/-!
# Quoted strings

A text is written as an interpreted string literal of Go: between double quotes,
with a quote and a backslash escaped, printable characters as themselves, and
everything else as the shortest escape Go has for it.

`EntryProbe.Quoted.encode` writes the literal, `EntryProbe.quote` is the same for
a `String`.
-/

namespace EntryProbe.Quoted

/-- The lower-case digit of a value below sixteen. -/
def hexDigit (n : Nat) : Char :=
  if n < 10 then Char.ofNat ('0'.toNat + n) else Char.ofNat ('a'.toNat + (n - 10))

/-- The last `width` hexadecimal digits of a number, the highest first. -/
def hexDigits : (width n : Nat) → List Char
  | 0, _ => []
  | width + 1, n => hexDigits width (n / 16) ++ [hexDigit (n % 16)]

@[simp] theorem length_hexDigits (width n : Nat) : (hexDigits width n).length = width := by
  induction width generalizing n with
  | zero => rfl
  | succ width ih => simp [hexDigits, ih]

/-- The letter that follows the backslash in the short escape of a control
code. -/
def escapeLetter? (c : Char) : Option Char :=
  if c = '\x07' then some 'a'
  else if c = '\x08' then some 'b'
  else if c = '\x0c' then some 'f'
  else if c = '\n' then some 'n'
  else if c = '\r' then some 'r'
  else if c = '\t' then some 't'
  else if c = '\x0b' then some 'v'
  else none

/-- One character as it is written inside a literal. -/
def encodeChar (c : Char) : List Char :=
  if c = '"' ∨ c = '\\' then ['\\', c]
  else if isPrintable c then [c]
  else
    match escapeLetter? c with
    | some letter => ['\\', letter]
    | none =>
      if c.toNat < 0x80 then '\\' :: 'x' :: hexDigits 2 c.toNat
      else if c.toNat < 0x10000 then '\\' :: 'u' :: hexDigits 4 c.toNat
      else '\\' :: 'U' :: hexDigits 8 c.toNat

/-- A text as a literal, the quotes included. -/
def encode (text : List Char) : List Char :=
  '"' :: (text.flatMap encodeChar ++ ['"'])

end EntryProbe.Quoted

namespace EntryProbe

/-- A text as an interpreted string literal. -/
def quote (text : String) : String :=
  String.ofList (Quoted.encode text.toList)

end EntryProbe
