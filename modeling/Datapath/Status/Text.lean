import Datapath.Numeral
import Datapath.Status.Word

/-!
# The status word as text

The trace form of a status word: the raw pattern in hexadecimal, and after it the same pattern
decoded field by field. A set flag shows its letter and a clear one a dash, a mode shows its name, a
bank its number, and the two opaque bytes their hexadecimal digits. The decoded part leaves no field
out, so it says as much as the pattern does.
-/

set_option autoImplicit false

namespace Datapath.StatusWord

/-- The letter of a bit that is set, a dash for one that is clear. -/
def letter (c : Char) (on : Bool) : Char :=
  if on then c else '-'

/-- The five single-bit conditions, highest first. -/
def letters (w : StatusWord) : String :=
  String.ofList
    [letter 'C' (w.read .carry), letter 'V' (w.read .overflow), letter 'Z' (w.read .zero),
      letter 'N' (w.read .negative), letter 'I' (w.read .interruptDisable)]

/-- The number of a bank. -/
def bankNumber (b : Bank) : String :=
  Numeral.decimal (Coded.code b).toNat

/-- Every field of the word, decoded. -/
def decoded (w : StatusWord) : String :=
  "[" ++ w.letters ++ "] " ++ Named.name (w.read .addressMode) ++
    " " ++ Named.name (w.read .register) ++
    " " ++ Named.name (w.read .width) ++
    " " ++ Named.name (w.read .mathMode) ++
    " P" ++ bankNumber (w.read .pointerBank) ++
    " T" ++ bankNumber (w.read .counterBank) ++
    " sys=" ++ Numeral.hex 2 (w.read .system).toNat ++
    " usr=" ++ Numeral.hex 2 (w.read .user).toNat

/-- The raw pattern and its decoding, in one line. -/
def trace (w : StatusWord) : String :=
  "ST=" ++ Numeral.hex 8 w.bits.toNat ++ " " ++ w.decoded

end Datapath.StatusWord
