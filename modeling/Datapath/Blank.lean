/-!
# Blanks

The characters that Unicode counts as white space, and text without them at its ends. There are
twenty-five: six control characters, the space and the no-break space, the Ogham space mark, the
eleven spaces of general punctuation, the two separators, the narrow no-break space, the mathematical
space and the ideographic space.
-/

set_option autoImplicit false

namespace Datapath

/-- The code points that are white space. -/
def blankCodes : List Nat :=
  [0x0009, 0x000A, 0x000B, 0x000C, 0x000D, 0x0020, 0x0085, 0x00A0, 0x1680,
    0x2000, 0x2001, 0x2002, 0x2003, 0x2004, 0x2005, 0x2006, 0x2007, 0x2008, 0x2009, 0x200A,
    0x2028, 0x2029, 0x202F, 0x205F, 0x3000]

/-- A character is white space. -/
def isBlank (c : Char) : Bool :=
  blankCodes.contains c.toNat

/-- The text without the white space at its ends. -/
def trimmed (text : List Char) : List Char :=
  ((text.dropWhile isBlank).reverse.dropWhile isBlank).reverse

end Datapath
