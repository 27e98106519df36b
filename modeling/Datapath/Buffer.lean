import Datapath.Code

/-!
# Byte buffers

The memory under a stack is a buffer of bytes, and a number enters it byte by byte. `bigEndian` cuts
a number into its bytes, most significant first, and `ofBigEndian` puts them together again. `runs`
describes a buffer by its stretches of bytes that differ from the byte it was filled with.
-/

set_option autoImplicit false

namespace Datapath

/-- Memory that a stack works on. -/
abbrev Buffer := Array Byte

/-! ## Numbers as bytes -/

/-- The low `n` bytes of a number, most significant first. -/
def bigEndian : Nat → Nat → List Byte
  | 0, _ => []
  | n + 1, value => bigEndian n (value / 256) ++ [BitVec.ofNat 8 value]

/-- The number whose bytes these are, most significant first. -/
def ofBigEndian (bytes : List Byte) : Nat :=
  bytes.foldl (fun value byte => 256 * value + byte.toNat) 0

/-- Taking a number apart gives as many bytes as were asked for. -/
@[simp] theorem length_bigEndian (n value : Nat) : (bigEndian n value).length = n := by
  induction n generalizing value with
  | zero => rfl
  | succ n ih => simp [bigEndian, ih]

/-! ## Contents of a buffer -/

/-- A buffer of equal bytes. -/
def Buffer.filled (length : Nat) (fill : Byte) : Buffer :=
  Array.replicate length fill

/-- The longest stretches of neighbouring bytes that differ from `fill`, in ascending order, each
with the index at which it starts. The bytes are taken from the end, each with the index after its
own and the stretches above it. -/
def Buffer.runs (fill : Byte) (buffer : Buffer) : List (Nat × List Byte) :=
  let step (byte : Byte) (above : Nat × List (Nat × List Byte)) : Nat × List (Nat × List Byte) :=
    let index := above.1 - 1
    if byte = fill then (index, above.2)
    else
      match above.2 with
      | (start, bytes) :: rest =>
        if start = above.1 then (index, (index, byte :: bytes) :: rest)
        else (index, (index, [byte]) :: above.2)
      | [] => (index, [(index, [byte])])
  (buffer.foldr step (buffer.size, [])).2

end Datapath
