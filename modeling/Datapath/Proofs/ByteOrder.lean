import Datapath.Buffer.Lemmas
import Datapath.Selector
import Mathlib.Data.Nat.Digits.Defs

/-!
# Bytes, least significant first

A stack takes a number most significant byte first, so the list of what is on it, newest first, has
the bytes the other way round. Here a number is cut into that list by position and put together from
it as a numeral to the base 256, and both are shown to be the reverse of what the stack writes and
reads.
-/

set_option autoImplicit false

namespace Datapath

variable {w : Width}

/-- The bytes of a number, least significant first: byte `i` has the bits from `8 * i` on. -/
def bytesOf (value : BitVec w.bits) : List Byte :=
  (List.range w.bytes).map fun i => value.extractLsb' (8 * i) 8

/-- The number whose bytes these are, least significant first. -/
def ofBytes (w : Width) (bytes : List Byte) : BitVec w.bits :=
  BitVec.ofNat w.bits (Nat.ofDigits 256 (bytes.map BitVec.toNat))

@[simp] theorem length_bytesOf (value : BitVec w.bits) : (bytesOf value).length = w.bytes := by
  rw [bytesOf, List.length_map, List.length_range]

/-- Byte `i` from the end of what is written is the number cut off `i` bytes up. -/
theorem reverse_bigEndian (n value : Nat) :
    (bigEndian n value).reverse =
      (List.range n).map fun i => BitVec.ofNat 8 (value / 256 ^ i) := by
  induction n generalizing value with
  | zero => rfl
  | succ n ih =>
    have hshift : ∀ i, value / 256 / 256 ^ i = value / 256 ^ (i + 1) := by
      intro i
      rw [Nat.div_div_eq_div_mul, Nat.pow_succ, Nat.mul_comm]
    -- The last byte written is the first from the end, and the others are those of `value / 256`.
    rw [bigEndian, List.reverse_append, List.reverse_singleton, ih, List.range_succ_eq_map]
    simp only [List.singleton_append, List.map_cons, List.map_map, Nat.pow_zero, Nat.div_one,
      hshift]
    rfl

theorem bytesOf_eq (value : BitVec w.bits) :
    bytesOf value = (bigEndian w.bytes value.toNat).reverse := by
  rw [reverse_bigEndian, bytesOf]
  refine List.map_congr_left (fun i _ => ?_)
  rw [BitVec.extractLsb', Nat.shiftRight_eq_div_pow, Nat.pow_mul]

/-- Reading backwards is reading a numeral to the base 256. -/
theorem ofBigEndian_reverse (bytes : List Byte) :
    ofBigEndian bytes.reverse = Nat.ofDigits 256 (bytes.map BitVec.toNat) := by
  induction bytes with
  | nil => rfl
  | cons byte rest ih =>
    unfold ofBigEndian at ih
    rw [List.map_cons, Nat.ofDigits_cons, ← ih, List.reverse_cons, ofBigEndian, List.foldl_append]
    exact Nat.add_comm _ _

theorem ofBytes_bytesOf (value : BitVec w.bits) : ofBytes w (bytesOf value) = value := by
  have hrange : (256 : Nat) ^ w.bytes = 2 ^ w.bits := by rw [Width.bits_eq, Nat.pow_mul]
  rw [ofBytes, bytesOf_eq, ← ofBigEndian_reverse, List.reverse_reverse, ofBigEndian_bigEndian,
    hrange, Nat.mod_eq_of_lt value.isLt, BitVec.ofNat_toNat, BitVec.setWidth_eq]

end Datapath
