import Datapath.Buffer
import Datapath.Journal

/-!
# Stacks

A stack manages a buffer that it was handed and a pointer that descends: the pointer names the next
free slot, so the first byte lands on the starting pointer and a stack filled to the bottom points
at slot -1. The starting pointer also bounds the pops. A number is pushed most significant byte
first, and a pop of any width takes the newest bytes back, whatever the widths of the pushes were.

A push without room and a pop of more bytes than are in use are refused and change nothing.
-/

set_option autoImplicit false

namespace Datapath

/-- A descending stack over a buffer. -/
structure Stack where
  /-- The managed memory. -/
  memory : Buffer
  /-- The next free slot. -/
  pointer : Int
  /-- The starting pointer. -/
  top : Int
  deriving DecidableEq, Repr

namespace Stack

/-- A stack over a buffer with nothing pushed; its pointer has to name a slot of the buffer. -/
def ofBuffer (memory : Buffer) (pointer : BitVec 16) : Except StackFault Stack :=
  if pointer.toNat < memory.size then
    .ok ⟨memory, pointer.toNat, pointer.toNat⟩
  else
    .error (.pointerOutOfRange pointer memory.size)

/-- Number of bytes that are pushed. -/
def depth (s : Stack) : Nat :=
  (s.top - s.pointer).toNat

/-- Number of bytes that can still be pushed. -/
def available (s : Stack) : Nat :=
  (s.pointer + 1).toNat

/-! ## Single bytes -/

/-- Writes a byte to the free slot and moves down. -/
def pushByte (s : Stack) (byte : Byte) : Stack :=
  { s with memory := s.memory.setIfInBounds s.pointer.toNat byte, pointer := s.pointer - 1 }

/-- Moves up to the newest byte. -/
def dropByte (s : Stack) : Stack :=
  { s with pointer := s.pointer + 1 }

/-- The newest byte. -/
def newest (s : Stack) : Byte :=
  s.memory.getD (s.pointer + 1).toNat 0#8

/-- The `n` newest bytes, newest first. -/
def newestBytes : Nat → Stack → List Byte
  | 0, _ => []
  | n + 1, s => s.newest :: newestBytes n s.dropByte

/-- The stack without its `n` newest bytes. -/
def dropBytes : Nat → Stack → Stack
  | 0, s => s
  | n + 1, s => dropBytes n s.dropByte

/-! ## Numbers -/

/-- Pushes bytes in order, or none of them if there is no room for all. -/
def pushBytes (s : Stack) (bytes : List Byte) : Outcome Stack StackFault Unit :=
  if s.available < bytes.length then
    .refuse s (.overflow bytes.length s.available) (.overflow s.pointer bytes.length)
  else
    .done (bytes.foldl pushByte s) ()

/-- Pops `n` bytes and gives them in the order in which they were pushed, or refuses if fewer are in
use. -/
def popBytes (s : Stack) (n : Nat) : Outcome Stack StackFault (List Byte) :=
  if s.depth < n then
    .refuse s (.underflow n s.depth) (.underflow s.pointer n)
  else
    .done (dropBytes n s) (newestBytes n s).reverse

/-- Pushes a number of a width. -/
def push (s : Stack) (w : Width) (value : BitVec w.bits) : Outcome Stack StackFault Unit :=
  s.pushBytes (bigEndian w.bytes value.toNat)

/-- Pops a number of a width. -/
def pop (s : Stack) (w : Width) : Outcome Stack StackFault (BitVec w.bits) :=
  let taken := s.popBytes w.bytes
  { taken with result := taken.result.map fun bytes => BitVec.ofNat w.bits (ofBigEndian bytes) }

/-! ## Text -/

/-- The trace form of a stack; the buffer shows as its length. -/
def trace (s : Stack) : String :=
  traceRecord "Stack"
    [("ptr", Numeral.signed s.pointer), ("top", Numeral.signed s.top),
      ("len", Numeral.decimal s.memory.size)]

end Stack

end Datapath
