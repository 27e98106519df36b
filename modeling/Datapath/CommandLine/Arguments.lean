import Datapath.CommandLine.UsageFault

/-!
# Command-line arguments

How the arguments of a command are told apart. A command has places, filled in order, and switches,
which may stand anywhere: `--name`, `--name value`, `--name=value`, a letter after one dash, letters
bundled after one dash, and the value of the last letter attached to it, with `=` or without. After
`--` every argument is for a place. A place may take arguments that look like negative numbers, which
would be letters after a dash otherwise.

What an argument is taken for is decided when it is met; whether its text will do is decided later,
when the next place or switch begins or the arguments end. So an argument that fits nowhere is
reported before a bad value that directly precedes it, and after every bad value further back.

The values of a command are kept in a record of the command's own, which places and switches fill.
-/

set_option autoImplicit false

namespace Datapath.CommandLine

/-! ## Stopping -/

/-- Why the arguments of a command are not run. -/
inductive Stop
  | fault (f : UsageFault)
  /-- The help page was asked for. -/
  | help

/-! ## Grammars -/

/-- What a switch does to the record of values. -/
inductive Effect (σ : Type)
  /-- It takes no value. -/
  | flag (set : σ → σ)
  /-- It takes a value, and says what is wrong with one that will not do. -/
  | value (set : String → σ → Except UsageFault σ)
  /-- It asks for the help page. -/
  | help

/-- An argument known by its name. -/
structure Switch (σ : Type) where
  /-- The name after two dashes. -/
  long : String
  /-- The letter after one dash. -/
  short : Option Char
  /-- The switch as messages show it. -/
  shown : String
  effect : Effect σ

/-- An argument known by its position. -/
structure Place (σ : Type) where
  /-- It takes every further argument as well. -/
  many : Bool
  /-- It takes arguments that look like negative numbers. -/
  negatives : Bool
  set : String → σ → Except UsageFault σ

/-- The arguments that a command knows. -/
structure Grammar (σ : Type) where
  places : List (Place σ)
  switches : List (Switch σ)

/-! ## Progress -/

/-- An argument that was met and whose text is still to be looked at. -/
inductive Pending (σ : Type)
  | nothing
  /-- A switch that waits for its value. -/
  | awaiting (s : Switch σ)
  /-- A switch with its value. -/
  | given (s : Switch σ) (set : String → σ → Except UsageFault σ) (value : String)
  /-- A place with the arguments taken for it, last one first. -/
  | placed (p : Place σ) (values : List String)

/-- How far the arguments have been taken. -/
structure Progress (σ : Type) where
  /-- The values that were looked at. -/
  values : σ
  /-- The switches that were looked at, as messages show them. -/
  seen : List String
  /-- The places that are still to be filled. -/
  places : List (Place σ)
  /-- The first of them takes every further argument and has taken one. -/
  begun : Bool
  pending : Pending σ
  /-- Every further argument is for a place. -/
  literal : Bool

namespace Progress

variable {σ : Type}

/-- Raises a usage fault. -/
def refuse {α : Type} (f : UsageFault) : Except Stop α :=
  .error (.fault f)

/-- A value looked at: its fault stops the command. -/
def check (r : Except UsageFault σ) : Except Stop σ :=
  r.mapError .fault

/-- Notes a switch and lets it act; it may not have been there before. -/
def note (p : Progress σ) (s : Switch σ) (act : σ → Except UsageFault σ) :
    Except Stop (Progress σ) :=
  if p.seen.contains s.shown then refuse (.repeated s.shown)
  else (check (act p.values)).map fun values =>
    { p with values := values, seen := s.shown :: p.seen }

/-- Looks at the text of what was met last. -/
def settle (p : Progress σ) : Except Stop (Progress σ) :=
  let free := { p with pending := .nothing }
  match p.pending with
  | .nothing => .ok free
  | .awaiting s => refuse (.noValue s.shown)
  | .given s set value => free.note s (set value)
  | .placed place values =>
    (check (values.reverse.foldlM (fun acc value => place.set value acc) p.values)).map
      fun values => { free with values := values }

/-- Takes an argument for a place. -/
def fill (p : Progress σ) (arg : String) : Except Stop (Progress σ) :=
  match p.places with
  -- What is pending stays unchecked: an argument that fits nowhere is reported first.
  | [] => refuse (.unexpected arg)
  | place :: rest =>
    match p.begun, p.pending with
    | true, .placed _ values => .ok { p with pending := .placed place (arg :: values) }
    | _, _ =>
      p.settle.map fun p =>
        { p with
          pending := .placed place [arg]
          begun := place.many
          places := if place.many then p.places else rest }

/-- Takes a switch that has no value attached. -/
def bare (p : Progress σ) (s : Switch σ) : Except Stop (Progress σ) :=
  p.settle.bind fun p =>
    match s.effect with
    | .help => .error .help
    | .flag set => p.note s fun values => .ok (set values)
    | .value _ => .ok { p with pending := .awaiting s }

/-- Takes a switch and the value attached to it. -/
def attached (p : Progress σ) (s : Switch σ) (value : String) : Except Stop (Progress σ) :=
  match s.effect with
  | .help | .flag _ => refuse (.extraValue value s.shown)
  | .value set => p.settle.bind fun p => p.note s (set value)

/-- Takes a name after two dashes, with the value after `=` if there is one. -/
def long (g : Grammar σ) (p : Progress σ) (body : List Char) : Except Stop (Progress σ) :=
  let name := String.ofList (body.takeWhile (· != '='))
  match g.switches.find? (·.long == name), body.dropWhile (· != '=') with
  | none, _ => refuse (.unexpected ("--" ++ name))
  | some s, [] => p.bare s
  | some s, _ :: value => p.attached s (String.ofList value)

/-- Takes the letters after one dash; the first that takes a value has the rest for it. -/
def letters (g : Grammar σ) (p : Progress σ) : List Char → Except Stop (Progress σ)
  | [] => .ok p
  | c :: rest =>
    match g.switches.find? (·.short == some c) with
    | none => refuse (.unexpected (String.ofList ['-', c]))
    | some s =>
      match s.effect, rest with
      | .value _, [] => p.bare s
      | .value _, '=' :: value => p.attached s (String.ofList value)
      | .value _, value => p.attached s (String.ofList value)
      | _, _ => (p.bare s).bind fun p => p.letters g rest

/-- Whether letters after a dash look like a number: digits, with a point after the first if need be,
and an exponent mark among them that is neither first nor last. -/
def looksNumeric (cs : List Char) : Bool :=
  let whole := cs.takeWhile fun c => c.isDigit || c == '.'
  let points := (whole.filter (· == '.')).length
  let mantissa := points ≤ 1 && whole.head? != some '.'
  match cs.dropWhile fun c => c.isDigit || c == '.' with
  | [] => mantissa
  | mark :: power =>
    mantissa && (mark == 'e' || mark == 'E') && !whole.isEmpty && !power.isEmpty &&
      power.all Char.isDigit

/-- The place that is next takes arguments that look like negative numbers. -/
def takesNegatives (p : Progress σ) : Bool :=
  match p.places with
  | [] => false
  | place :: _ => place.negatives

/-- Takes an argument that is no switch: the value that a switch waits for, or else for a place. -/
def value (p : Progress σ) (arg : String) : Except Stop (Progress σ) :=
  match p.pending with
  | .awaiting s =>
    match s.effect with
    | .value set => .ok { p with pending := .given s set arg }
    | .flag _ | .help => p.fill arg
  | _ => p.fill arg

/-- Takes one argument. -/
def take (g : Grammar σ) (p : Progress σ) (arg : String) : Except Stop (Progress σ) :=
  if p.literal then p.fill arg
  else
    match arg.toList with
    | ['-', '-'] => .ok { p with literal := true }
    | '-' :: '-' :: body => p.long g body
    -- A lone dash is no switch, so that at least one letter follows here.
    | '-' :: c :: rest =>
      if p.takesNegatives && looksNumeric (c :: rest) then p.value arg
      else p.letters g (c :: rest)
    | _ => p.value arg

/-- Whether every place was filled. -/
def isFilled (p : Progress σ) : Bool :=
  match p.places with
  | [] => true
  | [place] => place.many && p.begun
  | _ => false

end Progress

/-- The values of a command's arguments, starting from the record of those that may be left out. -/
def Grammar.read {σ : Type} (g : Grammar σ) (defaults : σ) (args : List String) :
    Except Stop σ := do
  let start : Progress σ := ⟨defaults, [], g.places, false, .nothing, false⟩
  let taken ← args.foldlM (Progress.take g) start
  let settled ← taken.settle
  if settled.isFilled then return settled.values
  else Progress.refuse .missing

end Datapath.CommandLine
