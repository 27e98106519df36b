import Datapath.CommandLine.Program

/-!
# Running the program

Prints what a run with the given arguments leaves to be seen and ends with its exit code.
-/

set_option autoImplicit false

open Datapath.CommandLine

def main (args : List String) : IO UInt32 := do
  let transcript :=
    match run args with
    | .ok transcript => transcript
    | .error fault => fault.transcript
  (← IO.getStdout).putStr (Transcript.stream transcript.output)
  (← IO.getStderr).putStr (Transcript.stream transcript.errors)
  return UInt32.ofNat transcript.code
