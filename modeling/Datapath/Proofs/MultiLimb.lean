import Datapath.Proofs.Carry
import Mathlib.Data.Nat.Digits.Defs
import Mathlib.Tactic.Ring

/-!
# Numbers of many limbs

A number too wide for a cell is a list of limbs, and the carry flag is there to add or subtract two
of them limb by limb, from the low end, under one status word. `chain` is that loop.

What it computes is an equation, not a bound: the result, the carry that is left and the carries that
were dropped on the way account for both inputs exactly (`value_chain_add`, `value_chain_subtract`).
A carry is dropped where a set carry meets a limb of all ones, and each one counts for its place. The
flag ought to tell of it, for the cell does roll over there, but the comparison that it is taken from
cannot see it. So the chain is the arithmetic of the long numbers on just those inputs that never bring
the two together, and `chain_exact_iff_keepsCarries` says so in both directions.
-/

set_option autoImplicit false

namespace Datapath

/-! ## Limbs and columns -/

/-- A digit of a long number, of the size of an operand. -/
abbrev Limb (w : Width) : Type := BitVec w.bits

namespace Limb

variable {w : Width}

/-- The number that limbs spell, least significant first. -/
def value (limbs : List (Limb w)) : Nat :=
  Nat.ofDigits (2 ^ w.bits) (limbs.map BitVec.toNat)

@[simp] theorem value_nil : value ([] : List (Limb w)) = 0 := rfl

@[simp] theorem value_cons (limb : Limb w) (limbs : List (Limb w)) :
    value (limb :: limbs) = limb.toNat + 2 ^ w.bits * value limbs :=
  Nat.ofDigits_cons

theorem value_lt (limbs : List (Limb w)) : value limbs < 2 ^ (w.bits * limbs.length) := by
  have hbase : 1 < 2 ^ w.bits := by cases w <;> decide
  have hdigit : ∀ d ∈ limbs.map BitVec.toNat, d < 2 ^ w.bits := by
    intro d hd
    obtain ⟨limb, -, rfl⟩ := List.mem_map.mp hd
    exact limb.isLt
  have hlt := Nat.ofDigits_lt_base_pow_length hbase hdigit
  rwa [List.length_map, ← Nat.pow_mul] at hlt

end Limb

namespace Operands

variable {w : Width} {step : Operands → Operands} {st : StatusWord}

/-- Two limbs of one place, each stored in a cell. -/
def ofColumn (column : Limb w × Limb w) (st : StatusWord) : Operands :=
  ⟨Cell.ofUnsigned w column.1, Cell.ofUnsigned w column.2, st⟩

/-- Works on two long numbers, given place by place from the low end: the low bits of the results and
the status word that the last operation left. The status word goes from one place to the next
untouched. -/
def chain (step : Operands → Operands) :
    List (Limb w × Limb w) → StatusWord → List (Limb w) × StatusWord
  | [], st => ([], st)
  | column :: rest, st =>
    let after := step (ofColumn column st)
    let later := chain step rest after.status
    (Cell.unsigned w after.target :: later.1, later.2)

@[simp] theorem length_chain (columns : List (Limb w × Limb w)) (st : StatusWord) :
    (chain step columns st).1.length = columns.length := by
  induction columns generalizing st with
  | nil => rfl
  | cons column rest ih => simp only [chain, List.length_cons, ih]

/-! ## Dropped carries -/

/-- No place brings a set carry and an operand limb of all ones together. -/
def KeepsCarries (step : Operands → Operands) (columns : List (Limb w × Limb w))
    (st : StatusWord) : Prop :=
  ∀ before column after, columns = before ++ column :: after →
    ¬ ((chain step before st).2.carry = true ∧ column.2 = BitVec.allOnes w.bits)

/-- What the carries that a chain drops are worth. One that is dropped at a place is missing at the
next. -/
def dropped (step : Operands → Operands) : List (Limb w × Limb w) → StatusWord → Nat
  | [], _ => 0
  | column :: rest, st =>
    2 ^ w.bits * ((ofColumn column st).droppedCarry w
      + dropped step rest (step (ofColumn column st)).status)

/-- A chain keeps its carries if its first place does and the chain from there does. -/
theorem keepsCarries_cons (column : Limb w × Limb w) (rest : List (Limb w × Limb w)) :
    KeepsCarries step (column :: rest) st ↔
      ¬ (ofColumn column st).DropsCarry w ∧
        KeepsCarries step rest (step (ofColumn column st)).status := by
  have hfirst : (ofColumn column st).DropsCarry w ↔
      st.carry = true ∧ column.2 = BitVec.allOnes w.bits := by
    simp only [DropsCarry, ofColumn, Cell.unsigned_ofUnsigned]
  rw [hfirst]
  constructor
  · intro h
    refine ⟨h [] column rest rfl, ?_⟩
    intro before place after hsplit
    exact h (column :: before) place after (by rw [hsplit, List.cons_append])
  · rintro ⟨hnow, hlater⟩ before place after hsplit
    cases before with
    | nil =>
      obtain ⟨rfl, rfl⟩ := List.cons.inj hsplit
      exact hnow
    | cons first before =>
      obtain ⟨rfl, htail⟩ := List.cons.inj hsplit
      exact hlater before place after htail

/-- Nothing is missing from a chain that keeps its carries, and from no other. -/
theorem dropped_eq_zero_iff (columns : List (Limb w × Limb w)) :
    dropped step columns st = 0 ↔ KeepsCarries step columns st := by
  induction columns generalizing st with
  | nil =>
    simp only [dropped, true_iff]
    intro before column after hsplit
    exact absurd hsplit.symm (by simp)
  | cons column rest ih =>
    have hbase : 2 ^ w.bits ≠ 0 := Nat.ne_of_gt (Nat.two_pow_pos _)
    have hone : (ofColumn column st).droppedCarry w = 0 ↔
        ¬ (ofColumn column st).DropsCarry w := by
      simp [droppedCarry]
    -- The base is not zero, so the product is zero just if both parts of the sum are.
    rw [keepsCarries_cons, ← ih, ← hone, dropped, Nat.mul_eq_zero, Nat.add_eq_zero_iff]
    exact or_iff_right hbase

/-! ## What a chain computes -/

theorem add_column (column : Limb w × Limb w) (hw : st.width = w) :
    (Cell.unsigned w (ofColumn column st).add.target).toNat
        + 2 ^ w.bits * ((ofColumn column st).add.status.carry.toNat
          + (ofColumn column st).droppedCarry w) =
      column.1.toNat + column.2.toNat + st.carry.toNat := by
  have hlimb := add_limb (x := ofColumn column st) hw (Cell.isExtended_ofUnsigned w column.1)
    (Cell.isExtended_ofUnsigned w column.2)
  rw [hlimb]
  simp only [ofColumn, Cell.unsigned_ofUnsigned]

theorem subtract_column (column : Limb w × Limb w) (hw : st.width = w) :
    (Cell.unsigned w (ofColumn column st).subtract.target).toNat + column.2.toNat
        + st.carry.toNat =
      column.1.toNat
        + 2 ^ w.bits * ((ofColumn column st).subtract.status.carry.toNat
          + (ofColumn column st).droppedCarry w) := by
  have hlimb := subtract_limb (x := ofColumn column st) hw
    (Cell.isExtended_ofUnsigned w column.1) (Cell.isExtended_ofUnsigned w column.2)
  simpa only [ofColumn, Cell.unsigned_ofUnsigned] using hlimb

/-- **The account of a chain of additions.** The result, the carry that is left in its place above
the result, and what was dropped come to both inputs and the carry that came in. -/
theorem value_chain_add (columns : List (Limb w × Limb w)) (hw : st.width = w) :
    Limb.value (chain add columns st).1
        + 2 ^ (w.bits * columns.length) * (chain add columns st).2.carry.toNat
        + dropped add columns st =
      Limb.value (columns.map Prod.fst) + Limb.value (columns.map Prod.snd) + st.carry.toNat := by
  induction columns generalizing st with
  | nil => simp [chain, dropped]
  | cons column rest ih =>
    -- The carry out of this place is the carry into the rest: the two accounts share it.
    have hfirst := add_column column hw
    have hrest := ih (show (ofColumn column st).add.status.width = w by rw [width_add]; exact hw)
    simp only [chain, dropped, Limb.value_cons, List.map_cons, List.length_cons, Nat.mul_succ,
      Nat.pow_add]
    generalize (ofColumn column st).add = after at *
    generalize chain add rest after.status = later at *
    calc (Cell.unsigned w after.target).toNat + 2 ^ w.bits * Limb.value later.1
          + 2 ^ (w.bits * rest.length) * 2 ^ w.bits * later.2.carry.toNat
          + 2 ^ w.bits * ((ofColumn column st).droppedCarry w + dropped add rest after.status)
        = (Cell.unsigned w after.target).toNat + 2 ^ w.bits * (ofColumn column st).droppedCarry w
          + 2 ^ w.bits * (Limb.value later.1
            + 2 ^ (w.bits * rest.length) * later.2.carry.toNat + dropped add rest after.status) := by
          ring
      _ = (Cell.unsigned w after.target).toNat
          + 2 ^ w.bits * (after.status.carry.toNat + (ofColumn column st).droppedCarry w)
          + 2 ^ w.bits * (Limb.value (rest.map Prod.fst) + Limb.value (rest.map Prod.snd)) := by
          rw [hrest]
          ring
      _ = _ := by
          rw [hfirst]
          ring

/-- **The account of a chain of subtractions.** What was subtracted and the borrow that came in come
back from the result, the borrow that is left in its place above the result, and what was
dropped. -/
theorem value_chain_subtract (columns : List (Limb w × Limb w)) (hw : st.width = w) :
    Limb.value (chain subtract columns st).1 + Limb.value (columns.map Prod.snd)
        + st.carry.toNat =
      Limb.value (columns.map Prod.fst)
        + 2 ^ (w.bits * columns.length) * (chain subtract columns st).2.carry.toNat
        + dropped subtract columns st := by
  induction columns generalizing st with
  | nil => simp [chain, dropped]
  | cons column rest ih =>
    have hfirst := subtract_column column hw
    have hrest := ih (show (ofColumn column st).subtract.status.width = w by
      rw [width_subtract]; exact hw)
    simp only [chain, dropped, Limb.value_cons, List.map_cons, List.length_cons, Nat.mul_succ,
      Nat.pow_add]
    generalize (ofColumn column st).subtract = after at *
    generalize chain subtract rest after.status = later at *
    calc (Cell.unsigned w after.target).toNat + 2 ^ w.bits * Limb.value later.1
          + (column.2.toNat + 2 ^ w.bits * Limb.value (rest.map Prod.snd)) + st.carry.toNat
        = (Cell.unsigned w after.target).toNat + column.2.toNat + st.carry.toNat
          + 2 ^ w.bits * (Limb.value later.1 + Limb.value (rest.map Prod.snd)) := by
          ring
      _ = column.1.toNat + 2 ^ w.bits * (ofColumn column st).droppedCarry w
          + 2 ^ w.bits * (Limb.value later.1 + Limb.value (rest.map Prod.snd)
            + after.status.carry.toNat) := by
          rw [hfirst]
          ring
      _ = _ := by
          rw [hrest]
          ring

/-! ## When a chain is the arithmetic of the long numbers -/

/-- An account of a sum below twice the range is a division with remainder just when nothing was
dropped. -/
private theorem account_sum_iff {result range missing total : Nat} {carry : Bool}
    (haccount : result + range * carry.toNat + missing = total) (hresult : result < range)
    (htotal : total < 2 * range) :
    missing = 0 ↔ result = total % range ∧ (carry = true ↔ range ≤ total) := by
  by_cases hout : range ≤ total
  · rw [Nat.mod_eq_sub_mod hout, Nat.mod_eq_of_lt (by omega)]
    cases carry <;> simp [hout] at haccount ⊢ <;> omega
  · rw [Nat.mod_eq_of_lt (by omega)]
    cases carry <;> simp [hout] at haccount ⊢ <;> omega

/-- An account of a difference is a division with remainder just when nothing was dropped. -/
private theorem account_difference_iff {result range missing a b : Nat} {borrow : Bool}
    (haccount : result + b = a + range * borrow.toNat + missing) (hresult : result < range)
    (hb : b < range) :
    missing = 0 ↔ (result : Int) = ((a : Int) - b) % range ∧ (borrow = true ↔ a < b) := by
  by_cases hunder : a < b
  · have hmod : ((a : Int) - b) % range = a - b + range := by
      rw [← Int.add_emod_right, Int.emod_eq_of_lt (by omega) (by omega)]
    rw [hmod]
    cases borrow <;> simp [hunder] at haccount ⊢ <;> omega
  · rw [Int.emod_eq_of_lt (by omega) (by omega)]
    cases borrow <;> simp [hunder] at haccount ⊢ <;> omega

/-- **Long addition and subtraction.** A chain that starts with the carry clear gives the sum of the
long numbers, and their difference, round the end of as many places, and leaves the carry set if
there was something to carry, and set if there was something to borrow, exactly when it keeps its
carries. -/
theorem chain_exact_iff_keepsCarries (columns : List (Limb w × Limb w)) (hw : st.width = w)
    (hclear : st.carry = false) :
    let a := Limb.value (columns.map Prod.fst)
    let b := Limb.value (columns.map Prod.snd)
    let range := 2 ^ (w.bits * columns.length)
    let sum := chain add columns st
    let difference := chain subtract columns st
    (sum.1.length = columns.length ∧ difference.1.length = columns.length) ∧
      (KeepsCarries add columns st ↔
        Limb.value sum.1 = (a + b) % range ∧ (sum.2.carry = true ↔ range ≤ a + b)) ∧
      (KeepsCarries subtract columns st ↔
        (Limb.value difference.1 : Int) = ((a : Int) - b) % range ∧
          (difference.2.carry = true ↔ a < b)) := by
  intro a b range sum difference
  have ha : a < range := by
    have hlt := Limb.value_lt (columns.map Prod.fst)
    rwa [List.length_map] at hlt
  have hb : b < range := by
    have hlt := Limb.value_lt (columns.map Prod.snd)
    rwa [List.length_map] at hlt
  have hsum : Limb.value sum.1 < range := by
    have hlt := Limb.value_lt sum.1
    rwa [length_chain] at hlt
  have hdifference : Limb.value difference.1 < range := by
    have hlt := Limb.value_lt difference.1
    rwa [length_chain] at hlt
  have hadd := value_chain_add columns hw
  have hsubtract := value_chain_subtract columns hw
  rw [hclear, Bool.toNat_false, Nat.add_zero] at hadd hsubtract
  -- With the carry clear at first, both accounts are divisions by the range with something missing.
  refine ⟨⟨length_chain columns st, length_chain columns st⟩, ?_, ?_⟩
  · rw [← dropped_eq_zero_iff]
    exact account_sum_iff hadd hsum (by omega)
  · rw [← dropped_eq_zero_iff]
    exact account_difference_iff hsubtract hdifference hb

/-- Bytes as limbs: `01FF + 2001` carries from the first place to the second and keeps it, and so
does the borrow of the difference. -/
theorem chain_exact_of_two_bytes :
    let columns : List (Limb .w8 × Limb .w8) := [(0xFF#8, 0x01#8), (0x01#8, 0x20#8)]
    (StatusWord.clear.width = .w8 ∧ StatusWord.clear.carry = false) ∧
      (Limb.value (chain add columns .clear).1 = 0x2200 ∧
        (chain add columns .clear).2.carry = false) ∧
      Limb.value (chain subtract columns .clear).1 = 0xE1FE ∧
        (chain subtract columns .clear).2.carry = true := by
  intro columns
  have hexact := chain_exact_iff_keepsCarries columns
    (show StatusWord.clear.width = .w8 by decide) (by decide)
  have hadd : dropped add columns .clear = 0 := by decide
  have hsubtract : dropped subtract columns .clear = 0 := by decide
  rw [dropped_eq_zero_iff] at hadd hsubtract
  obtain ⟨hsum, hcarry⟩ := hexact.2.1.mp hadd
  obtain ⟨hdifference, hborrow⟩ := hexact.2.2.mp hsubtract
  refine ⟨⟨by decide, by decide⟩, ⟨hsum.trans (by decide), ?_⟩,
    Int.ofNat_inj.mp (hdifference.trans (by decide)), hborrow.mpr (by decide)⟩
  exact Bool.eq_false_iff.mpr (fun h => absurd (hcarry.mp h) (by decide))

/-- A chain need not be the arithmetic of the long numbers. `00FF + FF01` passes sixteen bits, and
`0000 - FF01` falls below zero, so that the flag ought to be set after both; but the second place meets
a set carry with an operand of all ones, and the carry out of it is lost. -/
theorem chain_drops_carry :
    let columns : List (Limb .w8 × Limb .w8) := [(0xFF#8, 0x01#8), (0x00#8, 0xFF#8)]
    let smaller : List (Limb .w8 × Limb .w8) := [(0x00#8, 0x01#8), (0x00#8, 0xFF#8)]
    (StatusWord.clear.width = .w8 ∧ StatusWord.clear.carry = false) ∧
      (2 ^ 16 ≤ Limb.value (columns.map Prod.fst) + Limb.value (columns.map Prod.snd) ∧
        (chain add columns .clear).2.carry = false) ∧
      Limb.value (smaller.map Prod.fst) < Limb.value (smaller.map Prod.snd) ∧
        (chain subtract smaller .clear).2.carry = false := by
  decide

end Operands

end Datapath
