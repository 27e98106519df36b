import Datapath.Buffer
import Mathlib.Algebra.Order.Ring.Nat

/-!
# Numbers as bytes: what is kept

Taking a number apart into bytes and putting it together again keeps what lies below the cut, and
nothing else.
-/

set_option autoImplicit false

namespace Datapath

/-- Taking a number apart and putting it together keeps its low `n` bytes. -/
theorem ofBigEndian_bigEndian (n value : Nat) :
    ofBigEndian (bigEndian n value) = value % 256 ^ n := by
  induction n generalizing value with
  | zero => simp [bigEndian, ofBigEndian, Nat.mod_one]
  | succ n ih =>
    have hfold := ih (value / 256)
    unfold ofBigEndian at hfold
    rw [bigEndian, ofBigEndian, List.foldl_append, hfold]
    have hpow : (256 : Nat) ^ (n + 1) = 256 * 256 ^ n := by rw [Nat.pow_succ, Nat.mul_comm]
    simp only [List.foldl_cons, List.foldl_nil, BitVec.toNat_ofNat]
    rw [hpow, Nat.mod_mul]
    omega

end Datapath
