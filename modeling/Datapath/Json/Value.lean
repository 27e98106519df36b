import Datapath.Json.Token

/-!
# JSON values

The value that a sequence of tokens spells, with no limit on its depth. The reader is a machine again
and takes one token at a time: `Frame` records the arrays and objects that are open around the place
reached, `Place` what may come next. An object keeps its members as they stand, repeated keys
included, because whether a repeated key matters is for the one who asks.
-/

set_option autoImplicit false

namespace Datapath

/-- A JSON value as far as the core can use it. -/
inductive Json
  | null
  | truth (b : Bool)
  /-- A number written with digits alone. -/
  | natural (n : Nat)
  /-- Any other number. -/
  | real
  /-- A string, with its text if it is one. -/
  | string (content : Option String)
  | array (items : List Json)
  /-- The members in order, each under the text of its key if that is one. -/
  | object (members : List (Option String × Json))
  deriving Repr, Inhabited

namespace Json

/-! ## The reader -/

/-- An array or object that is open, with what it holds so far, last part first. -/
inductive Frame
  /-- An array. -/
  | items (done : List Json)
  /-- An object between two members. -/
  | members (done : List (Option String × Json))
  /-- An object in the value of a member. -/
  | member (done : List (Option String × Json)) (key : Option String)

/-- What may come next. -/
inductive Place
  /-- A value. -/
  | value
  /-- The first item of an array, or its end. -/
  | itemOrEnd
  /-- The first key of an object, or its end. -/
  | keyOrEnd
  /-- A further key of an object. -/
  | key
  /-- The colon after a key. -/
  | colon (key : Option String)
  /-- What follows a value that is complete. -/
  | after (value : Json)

/-- Where the reader stands: the open frames, innermost first, and what may come next. -/
structure Reader where
  frames : List Frame
  place : Place

namespace Reader

/-- Nothing has been read. -/
def start : Reader := ⟨[], .value⟩

/-- A token at a place where a value has to start. -/
def openValue (frames : List Frame) (t : Token) : Option Reader :=
  match t with
  | .null => some ⟨frames, .after .null⟩
  | .truth b => some ⟨frames, .after (.truth b)⟩
  | .natural n => some ⟨frames, .after (.natural n)⟩
  | .real => some ⟨frames, .after .real⟩
  | .string content => some ⟨frames, .after (.string content)⟩
  | .openArray => some ⟨.items [] :: frames, .itemOrEnd⟩
  | .openObject => some ⟨.members [] :: frames, .keyOrEnd⟩
  | .closeArray | .closeObject | .comma | .colon => none

/-- A token after a complete value: the frame around it goes on or is complete in its turn. -/
def closeValue (frames : List Frame) (value : Json) (t : Token) : Option Reader :=
  match frames, t with
  | .items done :: outer, .comma => some ⟨.items (value :: done) :: outer, .value⟩
  | .items done :: outer, .closeArray =>
    some ⟨outer, .after (.array (value :: done).reverse)⟩
  | .member done key :: outer, .comma => some ⟨.members ((key, value) :: done) :: outer, .key⟩
  | .member done key :: outer, .closeObject =>
    some ⟨outer, .after (.object ((key, value) :: done).reverse)⟩
  | _, _ => none

/-- One token: where the reader stands after it, or nothing if no value goes on like this. -/
def step (r : Reader) (t : Token) : Option Reader :=
  match r.place, r.frames, t with
  | .value, frames, t => openValue frames t
  | .itemOrEnd, .items [] :: outer, .closeArray => some ⟨outer, .after (.array [])⟩
  | .itemOrEnd, frames, t => openValue frames t
  | .keyOrEnd, .members [] :: outer, .closeObject => some ⟨outer, .after (.object [])⟩
  | .keyOrEnd, frames, .string key => some ⟨frames, .colon key⟩
  | .key, frames, .string key => some ⟨frames, .colon key⟩
  | .colon key, .members done :: outer, .colon => some ⟨.member done key :: outer, .value⟩
  | .after value, frames, t => closeValue frames value t
  | _, _, _ => none

/-- The reader after a sequence of tokens. -/
def run (r : Reader) : List Token → Option Reader
  | [] => some r
  | t :: rest => (r.step t).bind fun next => next.run rest

/-- The value that was read, if it is complete and nothing is open. -/
def value? (r : Reader) : Option Json :=
  match r.place, r.frames with
  | .after value, [] => some value
  | _, _ => none

end Reader

/-- The value that a sequence of tokens spells. -/
def ofTokens? (tokens : List Token) : Option Json :=
  (Reader.start.run tokens).bind Reader.value?

/-- The value that a text spells; nothing but blanks may stand around it. -/
def read? (text : String) : Option Json :=
  (tokens? text.toList).bind ofTokens?

/-! ## Members -/

/-- The value of a key that an object has exactly once. -/
def member? (members : List (Option String × Json)) (key : String) : Option Json :=
  match members.filter (·.1 == some key) with
  | [(_, value)] => some value
  | _ => none

end Json

end Datapath
