/-!
# Transcripts

What a run of the program leaves to be seen: lines on the standard output, lines on the error output,
and an exit code. A line may hold line breaks of its own.
-/

set_option autoImplicit false

namespace Datapath.CommandLine

/-- What is seen of a run. -/
structure Transcript where
  /-- The exit code. -/
  code : Nat
  output : List String
  errors : List String
  deriving DecidableEq, Repr

namespace Transcript

/-- A run that ends well and only prints. -/
def printed (lines : List String) : Transcript :=
  ⟨0, lines, []⟩

/-- A run that prints nothing and fails with a complaint. -/
def failed (complaint : String) : Transcript :=
  ⟨1, [], [complaint]⟩

/-- Lines as they stand in a stream, each with its line break. -/
def stream (lines : List String) : String :=
  String.join (lines.map (· ++ "\n"))

/-- A complaint as the error output shows it. -/
def complaint (message : String) : String :=
  "❌ " ++ message

end Transcript

end Datapath.CommandLine
