import Datapath.Numeral

/-!
# JSON tokens

A JSON text is cut into tokens by a machine that takes one character at a time. Its state says what
it stands in: a gap between tokens, one of the three words, a number, a string. A number ends where a
character comes that cannot belong to it, and that character then starts in a gap.

Two kinds of legal token name nothing that the core can use, and they are kept apart so that a
reader may still skip them. A number with a sign, a fraction or an exponent is `real`; the others are
natural numbers of any size. A string may spell one half of a surrogate pair, and such a string is no
text: its content is `none`.
-/

set_option autoImplicit false

namespace Datapath.Json

/-- A token of a JSON text. -/
inductive Token
  | openArray | closeArray
  | openObject | closeObject
  | comma | colon
  | null
  | truth (b : Bool)
  /-- A number of digits alone. -/
  | natural (n : Nat)
  /-- Any other number. -/
  | real
  /-- A string, with its text if it is one. -/
  | string (content : Option String)
  deriving DecidableEq, Repr

/-! ## Strings under construction -/

/-- The part of a string that has been read. -/
structure Draft where
  /-- The characters, last one first; nothing once a half of a surrogate pair stood alone. -/
  chars : Option (List Char)
  /-- A leading half of a surrogate pair that waits for the other. -/
  leading : Option Nat
  deriving DecidableEq, Repr

namespace Draft

/-- Nothing has been read. -/
def empty : Draft := ⟨some [], none⟩

/-- A character comes; a half that waited stood alone. -/
def add (d : Draft) (c : Char) : Draft :=
  match d.leading with
  | none => { d with chars := d.chars.map (c :: ·) }
  | some _ => ⟨none, none⟩

/-- An escaped number from 0 to 65535 comes: a character, or half of a surrogate pair, of which the
leading half counts the upper ten bits and the trailing half the lower ten. -/
def addEscaped (d : Draft) (unit : Nat) : Draft :=
  if 0xD800 ≤ unit ∧ unit < 0xDC00 then
    match d.leading with
    | none => { d with leading := some unit }
    | some _ => ⟨none, none⟩
  else if 0xDC00 ≤ unit ∧ unit < 0xE000 then
    match d.leading with
    | none => ⟨none, none⟩
    | some high =>
      let c := Char.ofNat (0x10000 + (high - 0xD800) * 0x400 + (unit - 0xDC00))
      ⟨d.chars.map (c :: ·), none⟩
  else
    d.add (Char.ofNat unit)

/-- The text that was read, if every surrogate half found its other half. -/
def content (d : Draft) : Option String :=
  match d.leading with
  | none => d.chars.map fun chars => String.ofList chars.reverse
  | some _ => none

end Draft

/-! ## The machine -/

/-- How far a number that is not just digits has been read. -/
inductive RealPart
  /-- After the sign: the first digit has to follow. -/
  | sign
  /-- After a sign and a zero: no further digit may follow. -/
  | zero
  /-- Among the digits before a point. -/
  | whole
  /-- After the point: a digit has to follow. -/
  | point
  /-- Among the digits after the point. -/
  | fraction
  /-- After the exponent mark: a sign or a digit has to follow. -/
  | exponent
  /-- After the sign of the exponent: a digit has to follow. -/
  | exponentSign
  /-- Among the digits of the exponent. -/
  | power
  deriving DecidableEq, Repr

/-- What the machine stands in. -/
inductive ScanState
  /-- Between two tokens. -/
  | gap
  /-- In a word of which this character and these have to follow. -/
  | word (next : Char) (rest : List Char) (token : Token)
  /-- In the number 0. -/
  | zero
  /-- In a number of digits that does not begin with 0. -/
  | natural (n : Nat)
  /-- In another number. -/
  | real (part : RealPart)
  /-- In a string. -/
  | string (draft : Draft)
  /-- In a string, after a backslash. -/
  | escape (draft : Draft)
  /-- In a string, in an escaped number that lacks this many more digits. -/
  | escapedNumber (draft : Draft) (missing : Nat) (value : Nat)
  deriving DecidableEq, Repr

/-- The four characters that may stand between tokens. -/
def isSpace (c : Char) : Bool :=
  c == ' ' || c == '\n' || c == '\t' || c == '\r'

/-- The character starts or is a token, or stands between tokens. -/
def scanGap (c : Char) : Option (List Token × ScanState) :=
  match c with
  | '[' => some ([.openArray], .gap)
  | ']' => some ([.closeArray], .gap)
  | '\x7b' => some ([.openObject], .gap)
  | '\x7d' => some ([.closeObject], .gap)
  | ',' => some ([.comma], .gap)
  | ':' => some ([.colon], .gap)
  | 'n' => some ([], .word 'u' ['l', 'l'] .null)
  | 't' => some ([], .word 'r' ['u', 'e'] (.truth true))
  | 'f' => some ([], .word 'a' ['l', 's', 'e'] (.truth false))
  | '"' => some ([], .string .empty)
  | '-' => some ([], .real .sign)
  | '0' => some ([], .zero)
  | _ =>
    if isSpace c then some ([], .gap)
    else if c.isDigit then some ([], .natural (c.toNat - '0'.toNat))
    else none

/-- The token is complete, and the character comes after it. -/
def closeWith (token : Token) (c : Char) : Option (List Token × ScanState) :=
  (scanGap c).map fun next => (token :: next.1, next.2)

/-- Whether a number may end after a part of it. -/
def RealPart.isComplete : RealPart → Bool
  | zero | whole | fraction | power => true
  | sign | point | exponent | exponentSign => false

/-- The part of the number that a character leads to, if it can belong to the number. -/
def RealPart.next? (part : RealPart) (c : Char) : Option RealPart :=
  match part with
  | sign => if c == '0' then some zero else if c.isDigit then some whole else none
  | zero => if c == '.' then some point else if c == 'e' || c == 'E' then some exponent else none
  | whole =>
    if c.isDigit then some whole
    else if c == '.' then some point
    else if c == 'e' || c == 'E' then some exponent
    else none
  | point => if c.isDigit then some fraction else none
  | fraction =>
    if c.isDigit then some fraction else if c == 'e' || c == 'E' then some exponent else none
  | exponent =>
    if c.isDigit then some power else if c == '+' || c == '-' then some exponentSign else none
  | exponentSign | power => if c.isDigit then some power else none

/-- The character that a letter after a backslash stands for. -/
def escaped? (c : Char) : Option Char :=
  match c with
  | '"' => some '"'
  | '\\' => some '\\'
  | '/' => some '/'
  | 'b' => some '\x08'
  | 'f' => some '\x0c'
  | 'n' => some '\n'
  | 'r' => some '\r'
  | 't' => some '\t'
  | _ => none

/-- One character: the tokens that it completes and the state after it, or nothing if no JSON text
goes on like this. -/
def scanStep (state : ScanState) (c : Char) : Option (List Token × ScanState) :=
  match state with
  | .gap => scanGap c
  | .word expected rest token =>
    if c == expected then
      match rest with
      | [] => some ([token], .gap)
      | next :: more => some ([], .word next more token)
    else none
  | .zero =>
    -- No digit may follow a leading zero; a point or an exponent mark may.
    match RealPart.zero.next? c with
    | some part => some ([], .real part)
    | none => if c.isDigit then none else closeWith (.natural 0) c
  | .natural n =>
    if c.isDigit then some ([], .natural (10 * n + (c.toNat - '0'.toNat)))
    else
      match RealPart.whole.next? c with
      | some part => some ([], .real part)
      | none => closeWith (.natural n) c
  | .real part =>
    match part.next? c with
    | some next => some ([], .real next)
    -- Only a part after a leading zero is complete and yet has no room for a digit.
    | none => if part.isComplete && !c.isDigit then closeWith .real c else none
  | .string draft =>
    if c == '"' then some ([.string draft.content], .gap)
    else if c == '\\' then some ([], .escape draft)
    else if c.toNat < 0x20 then none
    else some ([], .string (draft.add c))
  | .escape draft =>
    if c == 'u' then some ([], .escapedNumber draft 3 0)
    else (escaped? c).map fun meant => ([], .string (draft.add meant))
  | .escapedNumber draft missing value =>
    -- Four digits in all: three are missing after the first.
    (Numeral.digitValue? 16 c).map fun digit =>
      match missing with
      | 0 => ([], .string (draft.addEscaped (16 * value + digit)))
      | more + 1 => ([], .escapedNumber draft more (16 * value + digit))

/-- The token that the end of the text completes, if the text may end here. -/
def scanEnd (state : ScanState) : Option (List Token) :=
  match state with
  | .gap => some []
  | .zero => some [.natural 0]
  | .natural n => some [.natural n]
  | .real part => if part.isComplete then some [.real] else none
  | .word _ _ _ | .string _ | .escape _ | .escapedNumber _ _ _ => none

/-- The tokens of the rest of a text, from a state on; the ones before them are given last one
first. -/
def scanFrom (state : ScanState) (before : List Token) : List Char → Option (List Token)
  | [] => (scanEnd state).map fun last => before.reverse ++ last
  | c :: rest =>
    match scanStep state c with
    | none => none
    | some (tokens, next) => scanFrom next (tokens.reverse ++ before) rest

/-- The tokens of a text, or nothing if it has characters that make none. -/
def tokens? (text : List Char) : Option (List Token) :=
  scanFrom .gap [] text

end Datapath.Json
