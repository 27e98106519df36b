import Datapath.Terminal

/-!
# Usage faults

What may be wrong with the arguments of a program, and how the error output shows it. A message is
composed for a terminal, where what it quotes is set off by the display, and is then written without
control sequences. So a control sequence in an argument does not show either; one that an argument
leaves open goes on after the argument, up to the next change of the display.
-/

set_option autoImplicit false

namespace Datapath.CommandLine

/-! ## Messages -/

/-- A piece of a message. -/
inductive Piece
  /-- Text in the common display. -/
  | text (s : String)
  /-- Text that is wrong, set off by colour. -/
  | wrong (s : String)
  /-- Text of the command line as it should be, set off by weight. -/
  | literal (s : String)
  deriving DecidableEq, Repr

/-- Text in a display of its own; the common display follows it. -/
def displayed (rendition text : String) : String :=
  "\x1b[" ++ rendition ++ "m" ++ text ++ "\x1b[0m"

/-- The piece as it is composed for a terminal. -/
def Piece.composed : Piece → String
  | text s => s
  | wrong s => displayed "33" s
  | literal s => displayed "1" s

/-- The message as it is composed for a terminal, over several lines if a piece has line breaks. -/
def composed (message : List Piece) : List Char :=
  message.flatMap (·.composed.toList)

/-! ## Faults -/

/-- What is wrong with the arguments of a program. -/
inductive UsageFault
  /-- The text is no value of the argument; a reason may be known. -/
  | badValue (value argument : String) (reason : Option String)
  /-- A switch that takes a value has none. -/
  | noValue (argument : String)
  /-- A switch that takes no value has one. -/
  | extraValue (value argument : String)
  /-- A switch stands there twice. -/
  | repeated (argument : String)
  /-- The argument fits nowhere. -/
  | unexpected (argument : String)
  /-- A place was not filled. -/
  | missing
  /-- There is no such command. -/
  | noCommand (name : String)
  deriving DecidableEq, Repr

namespace UsageFault

/-- The fault in words. A reason is not set off, whatever it quotes. -/
def message : UsageFault → List Piece
  | badValue value argument reason =>
    [.text "invalid value '", .wrong value, .text "' for '", .literal argument, .text "'"] ++
      reason.elim [] fun reason => [.text (": " ++ reason)]
  | noValue argument =>
    [.text "a value is required for '", .literal argument, .text "' but none was supplied"]
  | extraValue value argument =>
    [.text "unexpected value '", .wrong value, .text "' for '", .literal argument,
      .text "' found; no more were expected"]
  | repeated argument =>
    [.text "the argument '", .wrong argument, .text "' cannot be used multiple times"]
  | unexpected argument => [.text "unexpected argument '", .wrong argument, .text "' found"]
  | missing => [.text "the following required arguments were not provided:"]
  | noCommand name => [.text "unrecognized subcommand '", .wrong name, .text "'"]

/-- What follows every message. -/
def advice : List Piece :=
  [.text "\n\nFor more information, try '", .literal "--help", .text "'."]

/-- The message and the advice as the error output shows them. -/
def shown (f : UsageFault) : List Char :=
  Terminal.plain (composed (f.message ++ advice))

/-- The first line of what the error output shows. -/
def headline (f : UsageFault) : String :=
  String.ofList (f.shown.takeWhile (· != '\n'))

end UsageFault

end Datapath.CommandLine
