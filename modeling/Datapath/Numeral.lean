/-!
# Numerals

How the machine writes a number. One positional rule serves every radix: the digits of a natural
number, most significant first, without leading zeros, capital letters from ten on. Decimal,
signed decimal and padded hexadecimal text are three uses of it, and the reverse, the number that a
digit stands for, is `digitValue?`.
-/

set_option autoImplicit false

namespace Datapath.Numeral

/-! ## Digits -/

/-- The digits of `n`, most significant first; zero has the one digit `0`. -/
def digits (radix n : Nat) : List Char :=
  (Nat.toDigits radix n).map Char.toUpper

/-- The number that a digit stands for, a letter in either case, as long as it is below the radix. -/
def digitValue? (radix : Nat) (c : Char) : Option Nat :=
  let value :=
    if '0' ≤ c ∧ c ≤ '9' then some (c.toNat - '0'.toNat)
    else if 'a' ≤ c ∧ c ≤ 'z' then some (c.toNat - 'a'.toNat + 10)
    else if 'A' ≤ c ∧ c ≤ 'Z' then some (c.toNat - 'A'.toNat + 10)
    else none
  value.filter (· < radix)

/-! ## Written forms -/

/-- Decimal digits. -/
def decimal (n : Nat) : String :=
  String.ofList (digits 10 n)

/-- Decimal digits after a minus sign for a number below zero. -/
def signed (i : Int) : String :=
  if i < 0 then "-" ++ decimal i.natAbs else decimal i.natAbs

/-- Hexadecimal digits, with leading zeros up to `width` of them. -/
def hex (width n : Nat) : String :=
  String.ofList (List.leftpad width '0' (digits 16 n))

/-- Hexadecimal digits after the marker `0x`, with leading zeros up to `width` digits. -/
def marked (width n : Nat) : String :=
  "0x" ++ hex width n

end Datapath.Numeral
