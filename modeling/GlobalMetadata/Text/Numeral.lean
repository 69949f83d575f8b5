/-!
# Numerals

Numbers are written in decimal or in hexadecimal. Decimal comes from core (`Nat.repr`); this module
adds upper-case hexadecimal and the reading of a bounded decimal numeral.

* `hex` and `hexPadded` write a number in upper-case base 16;
* `bounded?` reads an optional plus sign and one or more digits, and refuses a value at or above
  its bound.
-/

namespace GlobalMetadata.Numeral

/-- The digits of `n` in base 16, most significant first, letters in upper case. -/
def hexDigits (n : Nat) : List Char :=
  (Nat.toDigits 16 n).map Char.toUpper

/-- A number in upper-case hexadecimal, without leading zeros. -/
def hex (n : Nat) : String :=
  String.ofList (hexDigits n)

/-- A number in upper-case hexadecimal, filled up with zeros to at least `width` digits. -/
def hexPadded (width n : Nat) : String :=
  let digits := hexDigits n
  String.ofList (List.replicate (width - digits.length) '0' ++ digits)

/-- The value of a digit character. -/
def digitValue (c : Char) : Nat :=
  c.toNat - '0'.toNat

/-- The value of decimal digits, most significant first. -/
def value (digits : List Char) : Nat :=
  digits.foldl (fun n c => 10 * n + digitValue c) 0

/-- The text after an optional plus sign. -/
def unsign : List Char → List Char
  | '+' :: rest => rest
  | text => text

/-- **Bounded numerals.** An optional plus sign and one or more ASCII digits whose value lies below
`bound`; leading zeros are allowed, anything else is refused. -/
def bounded? (bound : Nat) (text : List Char) : Option Nat :=
  let digits := unsign text
  if digits ≠ [] ∧ digits.all Char.isDigit ∧ value digits < bound then some (value digits) else none

end GlobalMetadata.Numeral
