import Datapath.CommandLine.Transcript
import Datapath.Snapshot

/-!
# Showing the machine

The register file as it is after a reset, for people or as JSON, and the banner with three short
computations that the program shows when it is asked for nothing.
-/

set_option autoImplicit false

namespace Datapath.CommandLine

/-! ## The register file -/

/-- The line of a general register. -/
def generalLine (number : Nat) (c : Cell) : String :=
  "R" ++ Numeral.decimal number ++ "   = " ++ Cell.text c

/-- The line of the pointer registers of a bank. -/
def pointerLine (f : RegisterFile) (b : Bank) : String :=
  let number := Numeral.decimal (Coded.code b).toNat
  "PTR" ++ number ++ " = " ++ Numeral.hex 8 (f.pointers.get b).toNat ++
    "  OFS" ++ number ++ " = " ++ Numeral.hex 4 (f.offsets.get b).toNat ++
    "  IX" ++ number ++ " = " ++ Numeral.hex 4 (f.indexes.get b).toNat ++
    "  IS" ++ number ++ " = " ++ Numeral.hex 4 (f.indexSteps.get b).toNat

/-- The line of the counter registers of a bank. -/
def counterLine (f : RegisterFile) (b : Bank) : String :=
  let number := Numeral.decimal (Coded.code b).toNat
  "CTR" ++ number ++ " = " ++ Numeral.hex 8 (f.counters.get b).toNat ++
    "  CS" ++ number ++ " = " ++ Numeral.hex 4 (f.counterSteps.get b).toNat

/-- A register file for people. -/
def fileLines (f : RegisterFile) : List String :=
  f.general.toList.mapIdx generalLine ++
    [Bank.set0, Bank.set1].map (pointerLine f) ++
    [Bank.set0, Bank.set1].map (counterLine f) ++
    ["PC   = " ++ Numeral.hex 8 f.pc.toNat,
      "SB   = " ++ Numeral.hex 8 f.stackBase.toNat,
      "SP   = " ++ Numeral.hex 4 f.stackPointer.toNat,
      f.status.trace]

/-- The run that shows a register file. -/
def showFile (f : RegisterFile) (json : Bool) : Transcript :=
  .printed (if json then [(Snapshot.document f).pretty] else fileLines f)

/-! ## The demonstration -/

/-- Three computations on bytes, each from the status word that the one before it left: a sum that
overflows, an arithmetic shift, and a quotient with its remainder. -/
def demoLines : List String :=
  let byte (v : Byte) : Cell := Cell.ofUnsigned .w8 v
  let sum := (⟨byte 0x7F#8, 1#64, .clear⟩ : Operands).add
  let shifted := (⟨byte 0x85#8, 2#64, sum.status⟩ : Operands).shiftRightArithmetic
  let divided := (⟨byte 0xF9#8, 2#64, shifted.status⟩ : Operands).divide
  let quotient := divided.state
  ["━━━ ALU demo (8-bit) ━━━",
    "0x7F + 1      = " ++ Cell.text sum.target ++ " " ++ sum.status.trace,
    "0x85 >>> 2    = " ++ Cell.text shifted.target ++ " " ++ shifted.status.trace] ++
    match divided.result with
    | .error _ => []
    | .ok () =>
      ["-7 / 2        = " ++ Cell.text quotient.target ++ " rem " ++ Cell.text quotient.operand ++
        " " ++ quotient.status.trace]

/-- The program's name and version. -/
def bannerLines : List String :=
  ["vcpu-emu v0.1.0", "Register core of a 64-bit virtual CPU", "",
    "Use --help for available commands", ""]

/-- The run of a program that is asked for nothing. -/
def showDemo : Transcript :=
  .printed (bannerLines ++ demoLines)

end Datapath.CommandLine
