import Datapath.Alu.Unit
import Datapath.Proofs.Operation

/-!
# What an operation depends on

Of the status word most operations take in the operand width, and addition and subtraction the
carry flag too; nothing else that the word holds makes a difference to what an operation answers,
leaves in its cells or writes into the word (`Matches.apply`). What it does not write it keeps
(`sameOn_apply_left`), and there is no field in the table of what it writes that it might as well
have kept (`mem_writes_iff`). `status_word_as_input_and_output` says all of this down to the bits of
the word.
-/

set_option autoImplicit false

namespace Datapath

/-! ## Words that are the same in some fields -/

namespace StatusWord

variable {fields : List Field} {w z : StatusWord}

/-- Two words hold the same in each of these fields. -/
def SameOn (fields : List Field) (w z : StatusWord) : Prop :=
  ∀ f ∈ fields, w.read f = z.read f

instance (fields : List Field) (w z : StatusWord) : Decidable (SameOn fields w z) :=
  inferInstanceAs (Decidable (∀ f ∈ fields, w.read f = z.read f))

theorem SameOn.refl (fields : List Field) (w : StatusWord) : SameOn fields w w :=
  fun _ _ => rfl

theorem SameOn.trans {u : StatusWord} (hwz : SameOn fields w z) (hzu : SameOn fields z u) :
    SameOn fields w u :=
  fun f hf => (hwz f hf).trans (hzu f hf)

theorem SameOn.mono {fewer : List Field} (h : SameOn fields w z) (hsub : fewer ⊆ fields) :
    SameOn fewer w z :=
  fun f hf => h f (hsub hf)

/-- One value written into both makes them the same there too. -/
theorem SameOn.write (h : SameOn fields w z) (g : Field) (v : g.Value) :
    SameOn (g :: fields) (w.write g v) (z.write g v) := by
  intro f hf
  by_cases heq : g = f
  · subst heq
    rw [read_write, read_write]
  · rw [read_write_of_ne w v heq, read_write_of_ne z v heq]
    exact h f (List.mem_of_ne_of_mem (Ne.symm heq) hf)

theorem SameOn.describe (h : SameOn fields w z) (result : Cell) :
    SameOn (.negative :: .zero :: fields) (w.describe result) (z.describe result) :=
  (h.write .zero _).write .negative _

/-- A write elsewhere makes no difference. -/
theorem SameOn.write_left (h : SameOn fields w z) {g : Field} (v : g.Value) (hg : g ∉ fields) :
    SameOn fields (w.write g v) z := by
  intro f hf
  have hne : g ≠ f := fun heq => hg (heq ▸ hf)
  rw [read_write_of_ne w v hne]
  exact h f hf

theorem SameOn.describe_left (h : SameOn fields w z) (result : Cell) (hzero : .zero ∉ fields)
    (hnegative : .negative ∉ fields) : SameOn fields (w.describe result) z :=
  (h.write_left _ hzero).write_left _ hnegative

end StatusWord

open StatusWord (SameOn)

/-! ## Tables -/

namespace AluOp

/-- The fields of the status word that the operation takes in. -/
def reads : AluOp → List Field
  | .add | .subtract => [.width, .carry]
  | .and | .or | .xor => [.width]
  | .compare => []
  | .shiftLeft | .shiftRight => [.width]
  | .shiftRightArithmetic => []
  | .multiply => [.width]
  | .divide => []

/-- The fields of the status word that the operation writes if it succeeds, the last one first. -/
def writes : AluOp → List Field
  | .add | .subtract => [.negative, .zero, .overflow, .carry]
  | .and | .or | .xor => [.negative, .zero]
  | .compare => [.zero, .overflow, .carry]
  | .shiftLeft | .shiftRight | .shiftRightArithmetic => [.negative, .zero]
  | .multiply => [.negative, .zero]
  | .divide => [.overflow, .negative, .zero]

theorem mem_reads {op : AluOp} {f : Field} (h : f ∈ op.reads) :
    f = .width ∨ f = .carry ∧ op ∈ [.add, .subtract] := by
  revert h
  cases op <;> cases f <;> decide

theorem width_not_mem_writes (op : AluOp) : .width ∉ op.writes := by
  cases op <;> decide

/-- All that is ever written are the four flags, which can be clear or set. -/
theorem exists_ne_of_mem_writes {op : AluOp} {f : Field} (h : f ∈ op.writes) :
    ∃ v v' : f.Value, v ≠ v' := by
  cases f with
  | carry | overflow | zero | negative => exact ⟨false, true, by decide⟩
  | _ => exact absurd h (by cases op <;> decide)

/-- The fields that the operation writes on an operand: a refused division writes none. -/
def written (op : AluOp) (operand : Cell) : List Field :=
  if op = .divide ∧ operand = 0#64 then [] else op.writes

theorem carry_mem_writes_iff (op : AluOp) :
    .carry ∈ op.writes ↔ op ∈ [.add, .subtract, .compare] := by
  cases op <;> decide

end AluOp

namespace Operands

variable {x y : Operands} {op : AluOp} {fields : List Field}

/-! ## What is kept -/

theorem sameOn_multiplyWide_left (x : Operands) (hzero : .zero ∉ fields)
    (hnegative : .negative ∉ fields) : SameOn fields x.multiplyWide.status x.status := by
  have hstart := SameOn.refl fields x.status
  rw [multiplyWide]
  by_cases hfits : (BitVec.ofInt 64 x.product).toInt = x.product
  · simp only [if_pos hfits]
    exact (hstart.write_left _ hzero).write_left _ hnegative
  · simp only [if_neg hfits]
    exact (hstart.write_left _ hzero).write_left _ hnegative

/-- **What an operation keeps.** The table of the fields that an operation writes leaves none of
them out. -/
theorem sameOn_apply_left (x : Operands) (h : ∀ g ∈ op.writes, g ∉ fields) :
    SameOn fields (x.apply op).state.status x.status := by
  have hstart := SameOn.refl fields x.status
  cases op with
  | add | subtract =>
    exact ((hstart.write_left _ (h .carry (by decide))).write_left _
      (h .overflow (by decide))).describe_left _ (h .zero (by decide)) (h .negative (by decide))
  | and | or | xor | shiftLeft | shiftRight | shiftRightArithmetic =>
    exact hstart.describe_left _ (h .zero (by decide)) (h .negative (by decide))
  | compare =>
    exact ((hstart.write_left _ (h .carry (by decide))).write_left _
      (h .overflow (by decide))).write_left _ (h .zero (by decide))
  | multiply =>
    have hzero := h .zero (by decide)
    have hnegative := h .negative (by decide)
    show SameOn fields x.multiply.status x.status
    rw [multiply]
    cases x.status.width with
    | w64 => exact sameOn_multiplyWide_left x hzero hnegative
    | _ => exact hstart.describe_left _ hzero hnegative
  | divide =>
    rw [apply, divide]
    by_cases hdivisor : x.operand.isZero
    · rw [if_pos hdivisor]
      exact hstart
    · rw [if_neg hdivisor]
      exact (hstart.describe_left _ (h .zero (by decide)) (h .negative (by decide))).write_left _
        (h .overflow (by decide))

theorem read_apply_of_not_mem (x : Operands) (op : AluOp) (f : Field) (h : f ∉ op.writes) :
    (x.apply op).state.status.read f = x.status.read f := by
  have hkept : SameOn [f] (x.apply op).state.status x.status := by
    refine sameOn_apply_left x ?_
    intro g hwritten hmem
    rw [List.mem_singleton.mp hmem] at hwritten
    exact h hwritten
  exact hkept f (List.mem_singleton_self f)

/-! ## What is left behind

Two runs on equal cells, from words that are the same in some fields. -/

theorem carryIn_congr (h : x.status.carry = y.status.carry) : x.carryIn = y.carryIn := by
  rw [carryIn, carryIn, h]

/-- All that two outcomes have in common: both cells, and some fields of the word. -/
structure Matches (fields : List Field) (x y : Operands) : Prop where
  target : x.target = y.target
  operand : x.operand = y.operand
  status : SameOn fields x.status y.status

theorem Matches.add (h : x.Matches fields y) (hwidth : x.status.width = y.status.width)
    (hcarry : x.status.carry = y.status.carry) :
    x.add.Matches (.negative :: .zero :: .overflow :: .carry :: fields) y.add := by
  have hin := carryIn_congr hcarry
  simp only [Operands.add, h.target, h.operand, hwidth, hin]
  exact ⟨rfl, rfl, ((h.status.write .carry _).write .overflow _).describe _⟩

theorem Matches.subtract (h : x.Matches fields y) (hwidth : x.status.width = y.status.width)
    (hcarry : x.status.carry = y.status.carry) :
    x.subtract.Matches (.negative :: .zero :: .overflow :: .carry :: fields) y.subtract := by
  have hin := carryIn_congr hcarry
  simp only [Operands.subtract, h.target, h.operand, hwidth, hin]
  exact ⟨rfl, rfl, ((h.status.write .carry _).write .overflow _).describe _⟩

theorem Matches.compare (h : x.Matches fields y) :
    x.compare.Matches (.zero :: .overflow :: .carry :: fields) y.compare := by
  simp only [Operands.compare, h.target, h.operand]
  exact ⟨rfl, rfl, ((h.status.write .carry _).write .overflow _).write .zero _⟩

theorem Matches.settle (h : x.Matches fields y) {c d : Cell} (hvalue : c = d) :
    (x.settle c).Matches (.negative :: .zero :: fields) (y.settle d) := by
  subst hvalue
  exact ⟨rfl, h.operand, h.status.describe c⟩

theorem Matches.settleExtended (h : x.Matches fields y) (hwidth : x.status.width = y.status.width)
    {c d : Cell} (hvalue : c = d) :
    (x.settleExtended c).Matches (.negative :: .zero :: fields) (y.settleExtended d) :=
  h.settle (by rw [hwidth, hvalue])

theorem Matches.multiplyWide (h : x.Matches fields y) :
    x.multiplyWide.Matches (.negative :: .zero :: fields) y.multiplyWide := by
  have hproduct : x.product = y.product := by rw [product, product, h.target, h.operand]
  rw [Operands.multiplyWide, Operands.multiplyWide, hproduct]
  by_cases hfits : (BitVec.ofInt 64 y.product).toInt = y.product
  · simp only [if_pos hfits]
    exact ⟨rfl, rfl, (h.status.write .zero _).write .negative _⟩
  · simp only [if_neg hfits]
    exact ⟨rfl, rfl, (h.status.write .zero _).write .negative _⟩

theorem Matches.multiply (h : x.Matches fields y) (hwidth : x.status.width = y.status.width) :
    x.multiply.Matches (.negative :: .zero :: fields) y.multiply := by
  have hproduct : x.product = y.product := by rw [product, product, h.target, h.operand]
  rw [Operands.multiply, Operands.multiply, hwidth]
  cases y.status.width with
  | w64 => exact h.multiplyWide
  | _ => exact h.settle (by rw [hproduct])

theorem Matches.divideNonzero (h : x.Matches fields y) :
    x.divideNonzero.Matches (.overflow :: .negative :: .zero :: fields) y.divideNonzero := by
  simp only [Operands.divideNonzero, h.target, h.operand]
  exact ⟨rfl, rfl, (h.status.describe _).write .overflow _⟩

theorem result_apply_congr (h : x.operand = y.operand) :
    (x.apply op).result = (y.apply op).result := by
  rw [apply_result, apply_result, h]

/-- **What an operation depends on.** From equal cells, and words that are the same in what the
operation takes in, a success leaves equal cells, and words that are the same where they were and
wherever it writes. -/
theorem Matches.apply (h : x.Matches fields y) (hreads : SameOn op.reads x.status y.status)
    (hok : (x.apply op).result = .ok ()) :
    (x.apply op).state.Matches (op.writes ++ fields) (y.apply op).state := by
  have htarget := h.target
  have hoperand := h.operand
  cases op with
  | add => exact h.add (hreads .width (by decide)) (hreads .carry (by decide))
  | subtract => exact h.subtract (hreads .width (by decide)) (hreads .carry (by decide))
  | and | or | xor | shiftLeft =>
    exact h.settleExtended (hreads .width (by decide)) (by rw [htarget, hoperand])
  | compare => exact h.compare
  | shiftRight =>
    have hwidth : x.status.width = y.status.width := hreads .width (by decide)
    exact h.settleExtended hwidth (by rw [htarget, hoperand, hwidth])
  | shiftRightArithmetic => exact h.settle (by rw [htarget, hoperand])
  | multiply => exact h.multiply (hreads .width (by decide))
  | divide =>
    have hnonzero : x.operand ≠ 0#64 := by
      intro hzero
      rw [apply_result, if_pos ⟨rfl, hzero⟩] at hok
      cases hok
    have hnonzero' : y.operand ≠ 0#64 := hoperand ▸ hnonzero
    rw [Operands.apply, Operands.apply, divide_of_nonzero hnonzero, divide_of_nonzero hnonzero']
    exact h.divideNonzero

/-! ## The status word as input and output -/

theorem matches_apply_written (target operand : Cell) {st st' : StatusWord}
    (hreads : SameOn op.reads st st') :
    ((⟨target, operand, st⟩ : Operands).apply op).state.Matches (op.written operand)
      ((⟨target, operand, st'⟩ : Operands).apply op).state := by
  have hnone : (⟨target, operand, st⟩ : Operands).Matches [] ⟨target, operand, st'⟩ :=
    ⟨rfl, rfl, fun _ hf => absurd hf List.not_mem_nil⟩
  rw [AluOp.written]
  by_cases hrefused : op = .divide ∧ operand = 0#64
  · -- A refused division gives both words back, which need not have anything in common.
    have hfails : ∀ w, ((⟨target, operand, w⟩ : Operands).apply op).result =
        .error .divisionByZero := by
      intro w
      rw [apply_result, if_pos hrefused]
    rw [if_pos hrefused, apply_state_of_error _ (hfails st), apply_state_of_error _ (hfails st')]
    exact hnone
  · have hok : ((⟨target, operand, st⟩ : Operands).apply op).result = .ok () := by
      rw [apply_result, if_neg hrefused]
    have hafter := hnone.apply hreads hok
    rw [List.append_nil] at hafter
    rw [if_neg hrefused]
    exact hafter

theorem read_apply_of_not_mem_written (x : Operands) (op : AluOp) {f : Field}
    (h : f ∉ op.written x.operand) : (x.apply op).state.status.read f = x.status.read f := by
  rw [AluOp.written] at h
  by_cases hrefused : op = .divide ∧ x.operand = 0#64
  · have hfails : (x.apply op).result = .error .divisionByZero := by
      rw [apply_result, if_pos hrefused]
    rw [apply_state_of_error x hfails]
  · rw [if_neg hrefused] at h
    exact read_apply_of_not_mem x op f h

/-- A bit that lies in no field that is written stays as it is. -/
theorem getLsbD_apply (x : Operands) (op : AluOp) {i : Nat} (hi : i < 32)
    (hout : ∀ f ∈ op.written x.operand, ¬ f.Covers i) :
    (x.apply op).state.status.bits.getLsbD i = x.status.bits.getLsbD i := by
  obtain ⟨f, -, hcover⟩ := Field.exists_covering i hi
  have hkept : f ∉ op.written x.operand := fun hwritten => hout f hwritten hcover
  exact StatusWord.getLsbD_of_read_eq (read_apply_of_not_mem_written x op hkept) hcover

/-- A field that is written without being taken in cannot be kept from two words that differ there,
as both are left with one value. -/
theorem exists_changed {f : Field} (hwrites : f ∈ op.writes) (hreads : f ∉ op.reads) :
    ∃ x : Operands, (x.apply op).state.status.read f ≠ x.status.read f := by
  obtain ⟨v, v', hne⟩ := AluOp.exists_ne_of_mem_writes hwrites
  -- The operand is one, so that a division is not refused.
  let x : Operands := ⟨0#64, 1#64, StatusWord.clear.write f v⟩
  let y : Operands := ⟨0#64, 1#64, StatusWord.clear.write f v'⟩
  have hstart : SameOn op.reads x.status y.status := by
    intro g hg
    have hother : f ≠ g := fun heq => hreads (heq ▸ hg)
    rw [StatusWord.read_write_of_ne _ v hother, StatusWord.read_write_of_ne _ v' hother]
  have hwritten : op.written 1#64 = op.writes := if_neg fun h => absurd h.2 (by decide)
  have hsame : (x.apply op).state.status.read f = (y.apply op).state.status.read f :=
    (matches_apply_written 0#64 1#64 hstart).status f (hwritten ▸ hwrites)
  by_cases hx : (x.apply op).state.status.read f = v
  · refine ⟨y, fun hy => hne ?_⟩
    rw [← hx, hsame, hy]
    exact StatusWord.read_write _ f v'
  · refine ⟨x, fun hkept => hx ?_⟩
    rw [hkept]
    exact StatusWord.read_write _ f v

/-- **The table of what is written is exact.** A field is in it just when some run changes it. -/
theorem mem_writes_iff (op : AluOp) (f : Field) :
    f ∈ op.writes ↔ ∃ x : Operands, (x.apply op).state.status.read f ≠ x.status.read f := by
  constructor
  · intro hwrites
    by_cases hreads : f ∈ op.reads
    · rcases AluOp.mem_reads hreads with rfl | ⟨rfl, hop⟩
      · exact absurd hwrites op.width_not_mem_writes
      · -- The carry is taken in and written. One and a carry make two, or nothing, and clear it.
        refine ⟨⟨1#64, 0#64, StatusWord.clear.write .carry true⟩, ?_⟩
        cases op with
        | add => decide
        | subtract => decide
        | _ => exact absurd hop (by decide)
    · exact exists_changed hwrites hreads
  · rintro ⟨x, hchanged⟩
    exact Decidable.byContradiction fun hkept => hchanged (read_apply_of_not_mem x op f hkept)

/-- **The status word as input and output.** From equal cells and two words that agree on what the
operation takes in, the outcome is the same, and so are both cells and every field that is written.
A bit outside the fields that are written is the same before and after, and the table of these fields
lists no field but those that some run changes. -/
theorem status_word_as_input_and_output (op : AluOp) :
    (∀ (target operand : Cell) (st st' : StatusWord), SameOn op.reads st st' →
      let ran := (⟨target, operand, st⟩ : Operands).apply op
      let ran' := (⟨target, operand, st'⟩ : Operands).apply op
      ran.result = ran'.result ∧ ran.state.Matches (op.written operand) ran'.state) ∧
    (∀ (x : Operands) (i : Nat), i < 32 → (∀ f ∈ op.written x.operand, ¬ f.Covers i) →
      (x.apply op).state.status.bits.getLsbD i = x.status.bits.getLsbD i) ∧
    ∀ f : Field, f ∈ op.writes ↔
      ∃ x : Operands, (x.apply op).state.status.read f ≠ x.status.read f := by
  refine ⟨?_, fun x i => getLsbD_apply x op, mem_writes_iff op⟩
  intro target operand st st' hreads ran ran'
  exact ⟨result_apply_congr rfl, matches_apply_written target operand hreads⟩

/-- Two words that have nothing but the width and the carry in common: the sum of a byte and itself
and the carry is the same from both, with the same overflow, and the mode bits of the second word
stay set. -/
theorem status_word_as_input_and_output_add :
    let st : StatusWord := ⟨0x80000000#32⟩
    let st' : StatusWord := ⟨0xFFF3FFFF#32⟩
    let sum : Operands := ((⟨100#64, 100#64, st⟩ : Operands).apply .add).state
    let sum' : Operands := ((⟨100#64, 100#64, st'⟩ : Operands).apply .add).state
    SameOn AluOp.add.reads st st' ∧ (∀ f ∈ AluOp.add.written 100#64, ¬ f.Covers 16) ∧
      (sum.target = -55#64 ∧ sum'.target = -55#64) ∧
      (sum.status.read .overflow = true ∧ sum'.status.read .overflow = true) ∧
      sum'.status.bits.getLsbD 16 = true := by
  intro st st' sum sum'
  have hreads : SameOn AluOp.add.reads st st' := by decide
  have hout : ∀ f ∈ AluOp.add.written 100#64, ¬ f.Covers 16 := by decide
  obtain ⟨hsame, hkept, -⟩ := status_word_as_input_and_output .add
  obtain ⟨-, hmatches⟩ := hsame 100#64 100#64 st st' hreads
  have htarget : sum.target = -55#64 := by decide
  have hoverflow : sum.status.read .overflow = true := by decide
  have hflag := hmatches.status .overflow (by decide)
  refine ⟨hreads, hout, ⟨htarget, ?_⟩, ⟨hoverflow, ?_⟩, ?_⟩
  · rw [← htarget]
    exact hmatches.target.symm
  · rw [← hoverflow]
    exact hflag.symm
  · rw [hkept ⟨100#64, 100#64, st'⟩ 16 (by decide) hout]
    decide

end Operands

end Datapath
