import Datapath.Blank
import Datapath.Cell

/-!
# Literals

How a person writes the contents of a cell. White space around a literal is dropped, and so is every
underscore in it; the rest is hexadecimal after `0x`, binary after `0b`, a negative decimal after a
minus sign, or an unsigned decimal. A plus sign may stand before the digits of all but the negative
ones. A negative literal means its two's complement.

Digits are taken from the left, and the first that is no digit or leads out of range decides what is
wrong with a literal. A refusal quotes the literal as it was after the clean-up.
-/

set_option autoImplicit false

namespace Datapath

/-- What is wrong with a literal. -/
inductive LiteralFault
  /-- There are no digits where digits have to be. -/
  | empty
  /-- A character is no digit of the radix. -/
  | invalidDigit
  /-- The number is beyond the greatest that fits. -/
  | tooLarge
  /-- The number is beyond the least that fits. -/
  | tooSmall
  deriving DecidableEq, Repr

/-- The fault in words. -/
def LiteralFault.message : LiteralFault → String
  | empty => "cannot parse integer from empty string"
  | invalidDigit => "invalid digit found in string"
  | tooLarge => "number too large to fit in target type"
  | tooSmall => "number too small to fit in target type"

namespace Literal

/-- The literal without white space at its ends and without underscores. -/
def clean (text : String) : List Char :=
  (trimmed text.toList).filter (· != '_')

/-! ## Digits -/

/-- Goes on with a number digit by digit, as long as it stays within the greatest that fits. -/
def readDigits (radix greatest : Nat) (beyond : LiteralFault) : Nat → List Char →
    Except LiteralFault Nat
  | n, [] => .ok n
  | n, c :: rest =>
    -- At one and the same character a strange digit is reported before a number out of range.
    match Numeral.digitValue? radix c with
    | none => .error .invalidDigit
    | some d =>
      if radix * n + d ≤ greatest then readDigits radix greatest beyond (radix * n + d) rest
      else .error beyond

/-- The greatest unsigned number that fits a cell. -/
def greatestUnsigned : Nat :=
  (BitVec.allOnes 64).toNat

/-- The greatest magnitude of a negative number that fits a cell. -/
def greatestNegative : Nat :=
  (BitVec.intMin 64).toNat

/-- An unsigned number of sixty-four bits, of which a plus sign may stand in front. -/
def readUnsigned (radix : Nat) (cs : List Char) : Except LiteralFault Nat :=
  match cs with
  | [] => .error .empty
  | ['+'] => .error .invalidDigit
  | '+' :: digits => readDigits radix greatestUnsigned .tooLarge 0 digits
  | digits => readDigits radix greatestUnsigned .tooLarge 0 digits

/-- The magnitude of a negative number of sixty-four bits, from what follows the minus sign. -/
def readNegative (cs : List Char) : Except LiteralFault Nat :=
  match cs with
  | [] => .error .invalidDigit
  | digits => readDigits 10 greatestNegative .tooSmall 0 digits

/-! ## Literals -/

/-- The cell that a cleaned literal means. -/
def readClean (cs : List Char) : Except LiteralFault Cell :=
  match cs with
  | '0' :: 'x' :: digits | '0' :: 'X' :: digits => (readUnsigned 16 digits).map (BitVec.ofNat 64)
  | '0' :: 'b' :: digits | '0' :: 'B' :: digits => (readUnsigned 2 digits).map (BitVec.ofNat 64)
  | '-' :: digits => (readNegative digits).map fun n => BitVec.ofInt 64 (-n)
  | digits => (readUnsigned 10 digits).map (BitVec.ofNat 64)

/-- A literal that was refused, after the clean-up, and why. -/
structure Refusal where
  literal : List Char
  fault : LiteralFault
  deriving DecidableEq, Repr

/-- The refusal in words, with the literal quoted. -/
def Refusal.message (r : Refusal) : String :=
  "invalid number '" ++ String.ofList r.literal ++ "': " ++ r.fault.message

/-- The cell that a literal means. -/
def read (text : String) : Except Refusal Cell :=
  let cs := clean text
  match readClean cs with
  | .ok c => .ok c
  | .error fault => .error ⟨cs, fault⟩

/-- The width that a text asks for by its number of bits, or what is wrong with the text. -/
def readWidth (text : String) : Except String Width :=
  let asked := trimmed text.toList
  match asked with
  | ['8'] => .ok .w8
  | ['1', '6'] => .ok .w16
  | ['3', '2'] => .ok .w32
  | ['6', '4'] => .ok .w64
  | _ => .error ("size must be 8, 16, 32 or 64, got '" ++ String.ofList asked ++ "'")

end Literal

end Datapath
