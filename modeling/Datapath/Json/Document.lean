import Datapath.Json.Value

/-!
# JSON documents

What the core writes as JSON: natural numbers, truth values, words, lists and records. A document has
two texts, one without any blank and one laid out over lines with two spaces for each level; both
spell the value `toJson`. Words and keys are letters, digits and underscores, so that they stand
between quotes as they are.
-/

set_option autoImplicit false

namespace Datapath

/-- A value that the core writes. -/
inductive Document
  | natural (n : Nat)
  | truth (b : Bool)
  | word (s : String)
  | list (items : List Document)
  | record (fields : List (String × Document))
  deriving Repr, Inhabited

namespace Document

/-- A word between quotes. -/
def quoted (s : String) : String :=
  "\"" ++ s ++ "\""

/-- The two truth values as JSON spells them. -/
def truthText (b : Bool) : String :=
  if b then "true" else "false"

/-! ## The value -/

mutual

/-- The JSON value that a document spells. -/
def toJson : Document → Json
  | natural n => .natural n
  | truth b => .truth b
  | word s => .string (some s)
  | list items => .array (itemsToJson items)
  | record fields => .object (fieldsToJson fields)

/-- The values of the items of a list. -/
def itemsToJson : List Document → List Json
  | [] => []
  | item :: rest => item.toJson :: itemsToJson rest

/-- The members that the fields of a record spell. -/
def fieldsToJson : List (String × Document) → List (Option String × Json)
  | [] => []
  | (key, value) :: rest => (some key, value.toJson) :: fieldsToJson rest

end

/-! ## The text without blanks -/

mutual

/-- The document in one line without blanks. -/
def compact : Document → String
  | natural n => Numeral.decimal n
  | truth b => truthText b
  | word s => quoted s
  | list items => "[" ++ compactItems items ++ "]"
  | record fields => "\x7b" ++ compactFields fields ++ "\x7d"

/-- The items of a list with commas between them. -/
def compactItems : List Document → String
  | [] => ""
  | [item] => item.compact
  | item :: rest => item.compact ++ "," ++ compactItems rest

/-- The fields of a record with commas between them. -/
def compactFields : List (String × Document) → String
  | [] => ""
  | [(key, value)] => quoted key ++ ":" ++ value.compact
  | (key, value) :: rest => quoted key ++ ":" ++ value.compact ++ "," ++ compactFields rest

end

/-! ## The text over lines -/

/-- A new line at a level. -/
def newLine (level : Nat) : String :=
  "\n" ++ String.ofList (List.replicate (2 * level) ' ')

mutual

/-- The document over lines, from a level on; an empty list or record stays in its line. -/
def layOut (level : Nat) : Document → String
  | natural n => Numeral.decimal n
  | truth b => truthText b
  | word s => quoted s
  | list [] => "[]"
  | list (item :: rest) =>
    "[" ++ newLine (level + 1) ++ item.layOut (level + 1) ++ layOutItems (level + 1) rest ++
      newLine level ++ "]"
  | record [] => "\x7b\x7d"
  | record ((key, value) :: rest) =>
    "\x7b" ++ newLine (level + 1) ++ quoted key ++ ": " ++ value.layOut (level + 1) ++
      layOutFields (level + 1) rest ++ newLine level ++ "\x7d"

/-- Further items of a list, each after a comma and on a line of its own. -/
def layOutItems (level : Nat) : List Document → String
  | [] => ""
  | item :: rest => "," ++ newLine level ++ item.layOut level ++ layOutItems level rest

/-- Further fields of a record, each after a comma and on a line of its own. -/
def layOutFields (level : Nat) : List (String × Document) → String
  | [] => ""
  | (key, value) :: rest =>
    "," ++ newLine level ++ quoted key ++ ": " ++ value.layOut level ++ layOutFields level rest

end

/-- The document over lines, two spaces for each level. -/
def pretty (d : Document) : String :=
  d.layOut 0

end Document

end Datapath
