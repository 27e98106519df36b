import Datapath.CommandLine.Push
import Datapath.Proofs.Lifo
import Datapath.Proofs.RunLines
import Mathlib.Data.List.Induction

/-!
# A run that pushes and pops

What the command that pushes values leaves to be seen, in closed form. Of the values as many are
pushed as there is room for, the next one is refused, and the pops give the pushed ones back from the
last to the first.

Both loops are followed on the bounded list of bytes of `Lifo`. The list after the pushes is
`Lifo.pile`, so that how much room is left and where the pointer stands are facts about its length.
The popping loop of the program has no count of rounds and stops at a fault only; `PopLoop` is that
loop, and `popLoop_iff` says at once that it stops and that it does so in one way.

The lines that come of it are told as data (`Line`), whose texts are spelled out apart from the program;
`PushReport.transcript_series` is where the program's lines turn out to be these.
-/

set_option autoImplicit false

namespace Datapath

variable {w : Width} {s : Stack} {l : Lifo}

/-! ## A pile of values -/

/-- The bytes of a value that is cut to a width, least significant first. -/
def lowBytes (w : Width) (value : Cell) : List Byte :=
  (List.range w.bytes).map fun j => BitVec.ofNat 8 (value.toNat % 2 ^ w.bits / 256 ^ j)

theorem bytesOf_unsigned (value : Cell) : bytesOf (Cell.unsigned w value) = lowBytes w value := by
  rw [bytesOf_eq, reverse_bigEndian, Cell.unsigned, BitVec.toNat_setWidth, lowBytes]

theorem length_lowBytes (value : Cell) : (lowBytes w value).length = w.bytes := by
  rw [lowBytes, List.length_map, List.length_range]

namespace Lifo

/-- The list with values put on it one after the other, whether there is room or not. -/
def pile (l : Lifo) (w : Width) (values : List Cell) : Lifo :=
  { l with bytes := values.reverse.flatMap (lowBytes w) ++ l.bytes }

theorem pile_nil : l.pile w [] = l := rfl

theorem pile_cons (value : Cell) (rest : List Cell) :
    l.pile w (value :: rest) = (l.pile w [value]).pile w rest := by
  simp only [pile, List.reverse_cons, List.flatMap_append, List.append_assoc, List.reverse_nil,
    List.nil_append]

theorem pile_concat (values : List Cell) (value : Cell) :
    l.pile w (values ++ [value]) = (l.pile w values).pile w [value] := by
  simp only [pile, List.reverse_append, List.reverse_singleton, List.flatMap_append,
    List.append_assoc]

theorem pile_singleton (value : Cell) :
    l.pile w [value] = { l with bytes := bytesOf (Cell.unsigned w value) ++ l.bytes } := by
  simp only [pile, List.reverse_singleton, List.flatMap_singleton, bytesOf_unsigned]

theorem depth_pile (values : List Cell) :
    (l.pile w values).depth = l.depth + values.length * w.bytes := by
  induction values generalizing l with
  | nil => rw [pile_nil, List.length_nil, Nat.zero_mul, Nat.add_zero]
  | cons value rest ih =>
    have hone : (l.pile w [value]).depth = w.bytes + l.depth := by
      rw [pile_singleton, depth, List.length_append, length_bytesOf, depth]
    rw [pile_cons, ih, hone, List.length_cons, Nat.succ_mul]
    omega

theorem available_pile (values : List Cell) :
    (l.pile w values).available = l.available - values.length * w.bytes := by
  rw [available, depth_pile, available, ← Nat.sub_sub]
  rfl

theorem pointer_pile (values : List Cell) :
    (l.pile w values).pointer = l.pointer - values.length * w.bytes := by
  rw [pointer, depth_pile, pointer, pile]
  push_cast
  omega

end Lifo

namespace Stack

theorem Represents.push_ok (h : s.Represents l) (hroom : l.depth + w.bytes ≤ l.capacity)
    (value : Cell) :
    (s.push w (Cell.unsigned w value)).result = .ok () ∧
      (s.push w (Cell.unsigned w value)).state.Represents (l.pile w [value]) := by
  obtain ⟨hstate, hresult, -⟩ := h.push w (Cell.unsigned w value)
  rw [Lifo.push, if_pos hroom] at hstate hresult
  rw [Lifo.pile_singleton]
  exact ⟨hresult, hstate⟩

theorem Represents.push_refused (h : s.Represents l) (hroom : ¬ l.depth + w.bytes ≤ l.capacity)
    (value : Cell) :
    (s.push w (Cell.unsigned w value)).result = .error (.overflow w.bytes l.available) := by
  obtain ⟨-, hresult, -⟩ := h.push w (Cell.unsigned w value)
  rw [Lifo.push, if_neg hroom] at hresult
  exact hresult

theorem Represents.pop_ok {value : Cell} (h : s.Represents (l.pile w [value])) :
    (s.pop w).result = .ok (Cell.unsigned w value) ∧ (s.pop w).state.Represents l := by
  obtain ⟨hstate, hresult, -⟩ := h.pop w
  rw [Lifo.pile_singleton, Lifo.pop_push] at hstate hresult
  exact ⟨hresult, hstate⟩

theorem Represents.pop_empty {capacity : Nat} (h : s.Represents (.empty capacity)) :
    (s.pop w).result = .error (.underflow w.bytes 0) ∧ (s.pop w).state = s := by
  have hdepth : s.depth < w.bytes := by
    rw [h.depth_eq]
    exact w.bytes_pos
  rw [pop_of_lt hdepth, h.depth_eq]
  exact ⟨rfl, rfl⟩

/-- The slice of the memory that is shown after a push is the newest bytes of the list. -/
theorem Represents.lastPushed_eq (h : s.Represents l) (hused : w.bytes ≤ l.depth) :
    CommandLine.lastPushed w s = l.bytes.take w.bytes := by
  have hpointer := h.pointer_eq
  have htop := h.top_eq
  have hsize := h.top_lt
  have hdepth := h.depth_le
  unfold Lifo.pointer at hpointer
  apply List.ext_getElem?
  intro i
  -- Place `i` of the slice is the slot `i` above the lowest one in use.
  rw [CommandLine.lastPushed, Array.toList_extract, List.extract_eq_take_drop,
    Nat.add_sub_cancel_left, List.getElem?_take, List.getElem?_take]
  by_cases hi : i < w.bytes
  · rw [if_pos hi, if_pos hi, List.getElem?_drop, Array.getElem?_toList]
    exact h.slot_eq i (by omega)
  · rw [if_neg hi, if_neg hi]

end Stack

namespace CommandLine

/-! ## The pushing loop -/

/-- What is reported of values that are pushed from a pointer on. -/
def pushSeries (w : Width) (pointer : Int) (values : List Cell) : List Pushed :=
  values.mapIdx fun i value => ⟨value, pointer - (i + 1) * w.bytes, lowBytes w value⟩

theorem pushSeries_cons (pointer : Int) (value : Cell) (rest : List Cell) :
    pushSeries w pointer (value :: rest) =
      ⟨value, pointer - w.bytes, lowBytes w value⟩ :: pushSeries w (pointer - w.bytes) rest := by
  rw [pushSeries, List.mapIdx_cons, pushSeries]
  congr 2
  · simp
  · funext i other
    congr 1
    push_cast
    rw [Int.add_mul, Int.one_mul]
    omega

/-- **The pushing loop** takes the values that there is room for, in order, and stops at the next. -/
theorem pushAll_eq (h : s.Represents l) (values : List Cell) :
    let m := min values.length (l.available / w.bytes)
    ∃ full, full.Represents (l.pile w (values.take m)) ∧
      pushAll w values s =
        (pushSeries w l.pointer (values.take m),
          values[m]?.map fun value => (value, .overflow w.bytes (l.available - m * w.bytes)),
          full) := by
  -- On the values still to come; the list is generalised because every push extends it.
  induction values generalizing s l with
  | nil => exact ⟨s, h, rfl⟩
  | cons value rest ih =>
    intro m
    have hpos := w.bytes_pos
    by_cases hroom : l.depth + w.bytes ≤ l.capacity
    · obtain ⟨hresult, hstate⟩ := h.push_ok hroom value
      obtain ⟨full, hfull, hrest⟩ := ih hstate
      -- The first value takes one place of `l.available / w.bytes`.
      have havailable : (l.pile w [value]).available = l.available - w.bytes := by
        rw [Lifo.available_pile, List.length_singleton, Nat.one_mul]
      have hpointer : (l.pile w [value]).pointer = l.pointer - w.bytes := by
        rw [Lifo.pointer_pile, List.length_singleton, Int.natCast_one, Int.one_mul]
      have hm : m = min rest.length ((l.available - w.bytes) / w.bytes) + 1 := by
        have hfits : w.bytes ≤ l.available := by
          unfold Lifo.available
          omega
        simp only [m]
        rw [List.length_cons, Nat.div_eq_sub_div hpos hfits, Nat.succ_min_succ]
      have hshown : lastPushed w (s.push w (Cell.unsigned w value)).state = lowBytes w value := by
        rw [hstate.lastPushed_eq (by rw [Lifo.depth_pile, List.length_singleton]; omega),
          Lifo.pile_singleton, bytesOf_unsigned, List.take_left' (length_lowBytes value)]
      rw [havailable, hpointer] at hrest
      rw [havailable, ← Lifo.pile_cons] at hfull
      refine ⟨full, by rw [hm, List.take_succ_cons]; exact hfull, ?_⟩
      rw [pushAll]
      simp only [hresult, hrest, hshown, hstate.pointer_eq, hpointer]
      rw [hm, List.take_succ_cons, pushSeries_cons, List.getElem?_cons_succ, Nat.succ_mul,
        Nat.sub_sub, Nat.add_comm w.bytes]
    · have hresult := h.push_refused hroom value
      have hm : m = 0 := by
        have hless : l.available < w.bytes := by
          unfold Lifo.available
          omega
        simp only [m]
        rw [Nat.div_eq_of_lt hless, Nat.min_zero]
      rw [hm]
      refine ⟨s, h, ?_⟩
      rw [pushAll]
      simp only [hresult, Stack.state_of_push_error hresult]
      rw [Nat.zero_mul]
      rfl

/-! ## The popping loop -/

/-- The loop that pops, from a stack on: the pops that it reports, the fault at which it breaks off if
that is another than the regular one, and the stack that it leaves. -/
inductive PopLoop (w : Width) : Stack → List Popped → Option StackFault → Stack → Prop
  | stop {s : Stack} {needed available : Nat}
      (h : (s.pop w).result = .error (.underflow needed available)) :
      PopLoop w s [] none (s.pop w).state
  | broken {s : Stack} {fault : StackFault} (h : (s.pop w).result = .error fault)
      (hfault : ∀ needed available, fault ≠ .underflow needed available) :
      PopLoop w s [] (some fault) (s.pop w).state
  | next {s last : Stack} {value : BitVec w.bits} {rest : List Popped} {fault : Option StackFault}
      (h : (s.pop w).result = .ok value) (hrest : PopLoop w (s.pop w).state rest fault last) :
      PopLoop w s (⟨value.toNat, (s.pop w).state.pointer⟩ :: rest) fault last

/-- Rounds enough do what the loop does. -/
theorem popAll_of_popLoop {last : Stack} {popped : List Popped} {fault : Option StackFault}
    (h : PopLoop w s popped fault last) {rounds : Nat} (hrounds : popped.length < rounds) :
    popAll w rounds s = (popped, fault, last) := by
  -- On the course of the loop; every constructor takes one round, also the two that end it.
  induction h generalizing rounds with
  | stop h =>
    cases rounds with
    | zero => exact absurd hrounds (Nat.not_lt_zero _)
    | succ rounds => simp only [popAll, h]
  | @broken s fault h hfault =>
    cases rounds with
    | zero => exact absurd hrounds (Nat.not_lt_zero _)
    | succ rounds =>
      cases fault with
      | underflow needed available => exact absurd rfl (hfault needed available)
      | overflow needed available => simp only [popAll, h]
      | pointerOutOfRange pointer length => simp only [popAll, h]
  | next h hrest ih =>
    cases rounds with
    | zero => exact absurd hrounds (Nat.not_lt_zero _)
    | succ rounds =>
      simp only [popAll, h, ih (Nat.lt_of_succ_lt_succ hrounds)]

/-- What is reported of the pops that undo pushes from a pointer on: the last value comes first, cut
to the width, and the pointer comes back up. -/
def popSeries (w : Width) (pointer : Int) (values : List Cell) : List Popped :=
  (values.mapIdx fun i value => ⟨value.toNat % 2 ^ w.bits, pointer - i * w.bytes⟩).reverse

theorem length_popSeries (pointer : Int) (values : List Cell) :
    (popSeries w pointer values).length = values.length := by
  rw [popSeries, List.length_reverse, List.length_mapIdx]

/-- The loop takes a pile down to the empty list and stops there. -/
theorem exists_popLoop {capacity : Nat} {values : List Cell}
    (h : s.Represents ((Lifo.empty capacity).pile w values)) :
    ∃ emptied, emptied.Represents (.empty capacity) ∧
      PopLoop w s (popSeries w (Lifo.empty capacity).pointer values) none emptied := by
  -- The last value lies on top, so the induction takes values off the end of the list.
  induction values using List.reverseRecOn generalizing s with
  | nil =>
    obtain ⟨hresult, hstate⟩ := h.pop_empty (w := w)
    have hstop := PopLoop.stop hresult
    rw [hstate] at hstop
    exact ⟨s, h, hstop⟩
  | append_singleton values value ih =>
    rw [Lifo.pile_concat] at h
    obtain ⟨hresult, hstate⟩ := h.pop_ok
    obtain ⟨emptied, hemptied, hrest⟩ := ih hstate
    have hnext := PopLoop.next hresult hrest
    rw [hstate.pointer_eq, Lifo.pointer_pile, Cell.unsigned, BitVec.toNat_setWidth] at hnext
    refine ⟨emptied, hemptied, ?_⟩
    rw [popSeries, List.mapIdx_concat, List.reverse_concat]
    exact hnext

/-- **The popping loop** ends, in one way: at the bottom of the pile, with every value popped. -/
theorem popLoop_iff {capacity : Nat} {values : List Cell}
    (h : s.Represents ((Lifo.empty capacity).pile w values)) :
    ∃ emptied, emptied.Represents (.empty capacity) ∧ ∀ popped fault last,
      PopLoop w s popped fault last ↔
        popped = popSeries w (Lifo.empty capacity).pointer values ∧ fault = none ∧
          last = emptied := by
  obtain ⟨emptied, hemptied, hloop⟩ := exists_popLoop h
  refine ⟨emptied, hemptied, fun popped fault last => ⟨fun hother => ?_, ?_⟩⟩
  · -- Two runs of the loop are both what enough rounds give.
    let rounds := popped.length + (popSeries w (Lifo.empty capacity).pointer values).length + 1
    have hrounds : popAll w rounds s = (popped, fault, last) := popAll_of_popLoop hother (by omega)
    rw [popAll_of_popLoop hloop (by omega), Prod.mk.injEq, Prod.mk.injEq] at hrounds
    exact ⟨hrounds.1.symm, hrounds.2.1.symm, hrounds.2.2.symm⟩
  · rintro ⟨rfl, rfl, rfl⟩
    exact hloop

/-! ## Lines -/

open Numeral

theorem append_marked (word : String) (n : Nat) : word ++ marked 0 n = word ++ "0x" ++ hex 0 n := by
  rw [marked, String.append_assoc]

theorem Pushed.line_eq (p : Pushed) : p.line = (Line.push p.value.toNat p.pointer p.bytes).text := by
  rw [line, append_marked]
  rfl

theorem Popped.line_eq (p : Popped) : p.line = (Line.pop p.value p.pointer).text := by
  rw [line, append_marked]
  rfl

theorem refusedLine_eq (value : Cell) (needed available : Nat) :
    refusedLine value (.overflow needed available) =
      (Line.refused value.toNat needed available).text := by
  have hlead : "❌ push 0x" = "❌ " ++ ("push " ++ "0x") := by decide
  have hcause : ": stack overflow: need " = ": " ++ "stack overflow: need " := by decide
  unfold refusedLine Transcript.complaint StackFault.message Line.text
  rw [append_marked, hlead, hcause]
  simp only [String.append_assoc]

theorem misplaced_eq (value : Cell) :
    Transcript.complaint (PushRequest.Refusal.pointer value).message =
      (Line.misplaced value.toNat).text := by
  have hlead : "❌ Stack pointer 0x" = "❌ " ++ ("Stack pointer " ++ "0x") := by decide
  unfold Transcript.complaint
  rw [PushRequest.Refusal.message, append_marked]
  show _ = "❌ Stack pointer 0x" ++ hex 0 value.toNat ++ " does not fit in 16 bits"
  rw [hlead]
  simp only [String.append_assoc]

theorem map_line_pushSeries (pointer : Int) (values : List Cell) :
    (pushSeries w pointer values).map Pushed.line =
      (values.mapIdx fun i value =>
        Line.push value.toNat (pointer - (i + 1) * w.bytes) (lowBytes w value)).map Line.text := by
  rw [pushSeries, List.mapIdx_eq_zipIdx_map, List.mapIdx_eq_zipIdx_map, List.map_map, List.map_map]
  exact List.map_congr_left fun entry _ => Pushed.line_eq _

theorem map_line_popSeries (pointer : Int) (values : List Cell) :
    (popSeries w pointer values).map Popped.line =
      (values.mapIdx fun i value =>
        Line.pop (value.toNat % 2 ^ w.bits) (pointer - i * w.bytes)).reverse.map Line.text := by
  rw [popSeries, List.map_reverse, List.map_reverse, List.mapIdx_eq_zipIdx_map,
    List.mapIdx_eq_zipIdx_map, List.map_map, List.map_map]
  exact congrArg List.reverse (List.map_congr_left fun entry _ => Popped.line_eq _)

/-- The report of pushes and pops that were not broken off is seen as their lines, the refusal of the
next value, and a last line of how the stack stands. -/
theorem PushReport.transcript_series (pointer : Int) (values : List Cell) (next : Option Cell)
    (needed free : Nat) (pop : Bool) (used unused : Nat) :
    PushReport.transcript
        { pushed := pushSeries w pointer values
          refused := next.map fun value => (value, .overflow needed free)
          popped := if pop then popSeries w pointer values else []
          broken := none
          depth := used
          available := unused } =
      ⟨0,
        ((values.mapIdx fun i value =>
            Line.push value.toNat (pointer - (i + 1) * w.bytes) (lowBytes w value)) ++
          (if pop then
            (values.mapIdx fun i value =>
              Line.pop (value.toNat % 2 ^ w.bits) (pointer - i * w.bytes)).reverse
          else []) ++ [Line.depth used unused]).map Line.text,
        (next.map fun value => Line.refused value.toNat needed free).toList.map Line.text⟩ := by
  have hrefused : (next.map fun value => Line.refused value.toNat needed free).toList.map Line.text =
      (next.map fun value => (value, StackFault.overflow needed free)).toList.map
        fun entry => refusedLine entry.1 entry.2 := by
    rw [Option.toList_map, Option.toList_map, List.map_map, List.map_map]
    exact List.map_congr_left fun value _ => (refusedLine_eq value needed free).symm
  rw [List.map_append, List.map_append, ← map_line_pushSeries, hrefused]
  cases pop with
  | true =>
    rw [if_pos rfl, if_pos rfl, ← map_line_popSeries]
    rfl
  | false => rfl

/-! ## The run -/

namespace PushRequest

/-- Number of values that there is room for. -/
def room (r : PushRequest) : Nat :=
  min r.values.length ((r.pointer.toNat + 1) / r.width.bytes)

/-- A pointer of sixteen bits names a slot of the fresh buffer, and the stack opens empty. -/
theorem exists_fresh (r : PushRequest) (hpointer : r.pointer.toNat ≤ 0xFFFF) :
    ∃ fresh,
      Stack.ofBuffer (.filled RegisterFile.stackSize 0#8) (r.pointer.setWidth 16) = .ok fresh ∧
        fresh.Represents (.empty (r.pointer.toNat + 1)) := by
  have hstart : (r.pointer.setWidth 16).toNat = r.pointer.toNat := by
    rw [BitVec.toNat_setWidth, Nat.mod_eq_of_lt (Nat.lt_of_le_of_lt hpointer (by decide))]
  have hsize : (Buffer.filled RegisterFile.stackSize 0#8).size = 0x10000 := by
    rw [Buffer.filled, Array.size_replicate, RegisterFile.stackSize]
  have hinside : (r.pointer.setWidth 16).toNat < (Buffer.filled RegisterFile.stackSize 0#8).size := by
    rw [hstart, hsize]
    omega
  refine ⟨_, Stack.ofBuffer_eq_ok_iff.mpr ⟨hinside, rfl⟩, ?_⟩
  rw [← hstart]
  exact Stack.represents_ofBuffer _ _ hinside

/-- The report of a run whose pointer fits, and its two loops. -/
theorem evaluate_eq (r : PushRequest) (hpointer : r.pointer.toNat ≤ 0xFFFF) :
    let taken := r.values.take r.room
    let free := r.pointer.toNat + 1 - r.room * r.width.bytes
    let inUse := if r.pop then 0 else r.room * r.width.bytes
    ∃ fresh full emptied,
      Stack.ofBuffer (.filled RegisterFile.stackSize 0#8) (r.pointer.setWidth 16) = .ok fresh ∧
      full = (pushAll r.width r.values fresh).2.2 ∧
      full.Represents ((Lifo.empty (r.pointer.toNat + 1)).pile r.width taken) ∧
      emptied.Represents (.empty (r.pointer.toNat + 1)) ∧
      (∀ popped fault last, PopLoop r.width full popped fault last ↔
        popped = popSeries r.width r.pointer.toNat taken ∧ fault = none ∧ last = emptied) ∧
      r.evaluate = .ok
        { pushed := pushSeries r.width r.pointer.toNat taken
          refused := r.values[r.room]?.map fun value => (value, .overflow r.width.bytes free)
          popped := if r.pop then popSeries r.width r.pointer.toNat taken else []
          broken := none
          depth := inUse
          available := r.pointer.toNat + 1 - inUse } := by
  intro taken free inUse
  have htop : (Lifo.empty (r.pointer.toNat + 1)).pointer = r.pointer.toNat := by
    simp only [Lifo.pointer, Lifo.empty, Lifo.depth, List.length_nil]
    omega
  have hlength : taken.length = r.room := by
    rw [List.length_take]
    exact Nat.min_eq_left (Nat.min_le_left _ _)
  -- The pushes leave a pile of the values that fit, and the pops undo it.
  obtain ⟨fresh, hopened, hfresh⟩ := r.exists_fresh hpointer
  obtain ⟨full, hfull, hpush⟩ := pushAll_eq (w := r.width) hfresh r.values
  have hpile : full.Represents ((Lifo.empty (r.pointer.toNat + 1)).pile r.width taken) := hfull
  obtain ⟨emptied, hemptied, hloop⟩ := popLoop_iff hpile
  rw [htop] at hpush hloop
  refine ⟨fresh, full, emptied, hopened, by rw [hpush], hpile, hemptied, hloop, ?_⟩
  have hused : full.depth = r.room * r.width.bytes := by
    rw [hpile.depth_eq, Lifo.depth_pile, hlength]
    exact Nat.zero_add _
  have hfree : full.available = free := by
    rw [hpile.available_eq, Lifo.available_pile, hlength]
    rfl
  -- Every value takes a byte at least, so the rounds outlast the loop.
  have hrounds : (popSeries r.width r.pointer.toNat taken).length < full.depth + 1 := by
    rw [length_popSeries, hused, hlength]
    exact Nat.lt_succ_of_le (Nat.le_mul_of_pos_right r.room r.width.bytes_pos)
  have hpopped := popAll_of_popLoop ((hloop _ _ _).mpr ⟨rfl, rfl, rfl⟩) hrounds
  rw [evaluate, if_pos (Nat.lt_of_le_of_lt hpointer (by decide)), hopened]
  simp only [hpush, inUse]
  cases r.pop with
  | true =>
    simp only [if_true, hpopped, hemptied.depth_eq, hemptied.available_eq]
    rfl
  | false =>
    simp only [Bool.false_eq_true, if_false, hused, hfree]
    rfl

/-- Lines that are texts of lines have no line break in them. -/
theorem isLine_of_eq {t : Transcript} {code : Nat} {output errors : List Line}
    (h : t = ⟨code, output.map Line.text, errors.map Line.text⟩) {line : String}
    (hline : line ∈ t.output ++ t.errors) : IsLine line := by
  rw [h, ← List.map_append] at hline
  obtain ⟨l, -, rfl⟩ := List.mem_map.mp hline
  exact l.isLine_text

/-- **A run that pushes and pops.** A pointer beyond sixteen bits is refused with one line and nothing
else. Otherwise the run ends well. It pushes the first `m` values, the number that there is room for,
and a line shows of each the value whole, the pointer after it and its bytes; of the next value, if
there is one, a line on the error output says that it found no room, with the bytes that it needs and
those that are free, and no other is tried. Asked to pop, the run pops these `m` and no more, last
first: the loop ends, for every course that it can take is that one and ends in an underflow, so that
the way out for another fault is never taken. Each text names the line that it stands for and no
other, and none has a line break inside. -/
theorem run_pushes_what_fits (r : PushRequest) :
    let k := r.width.bytes
    let p := r.pointer.toNat
    let m := min r.values.length ((p + 1) / k)
    let taken := r.values.take m
    let pushed := taken.mapIdx fun i value =>
      Line.push value.toNat (p - (i + 1) * k) (lowBytes r.width value)
    let popped := (taken.mapIdx fun i value =>
      Line.pop (value.toNat % 2 ^ r.width.bits) (p - i * k)).reverse
    let refused := r.values[m]?.map fun value => Line.refused value.toNat k (p + 1 - m * k)
    let inUse := if r.pop then 0 else m * k
    (if 0xFFFF < p then r.run = ⟨1, [], [(Line.misplaced p).text]⟩
    else
      r.run =
        ⟨0,
          (pushed ++ (if r.pop then popped else []) ++ [Line.depth inUse (p + 1 - inUse)]).map Line.text,
          refused.toList.map Line.text⟩ ∧
      ∃ fresh full emptied,
        Stack.ofBuffer (.filled RegisterFile.stackSize 0#8) (r.pointer.setWidth 16) = .ok fresh ∧
        full = (pushAll r.width r.values fresh).2.2 ∧
        full.Represents ((Lifo.empty (p + 1)).pile r.width taken) ∧
        emptied.Represents (.empty (p + 1)) ∧
        (∀ pops fault last, PopLoop r.width full pops fault last ↔
          pops = popSeries r.width p taken ∧ fault = none ∧ last = emptied) ∧
        ∀ rounds, m < rounds →
          popAll r.width rounds full = (popSeries r.width p taken, none, emptied)) ∧
    (∀ line other : Line, Line.Names line.text other ↔ other = line) ∧
    ∀ line ∈ r.run.output ++ r.run.errors, IsLine line := by
  intro k p m taken pushed popped refused inUse
  by_cases hpointer : 0xFFFF < p
  · have hlarge : ¬ r.pointer.toNat < RegisterFile.stackSize := Nat.not_lt.mpr hpointer
    have hrun : r.run =
        ⟨1, ([] : List Line).map Line.text, [Line.misplaced p].map Line.text⟩ := by
      rw [run, evaluate, if_neg hlarge]
      exact congrArg Transcript.failed (misplaced_eq r.pointer)
    rw [if_pos hpointer]
    exact ⟨hrun, Line.names_text_iff, fun line => isLine_of_eq hrun⟩
  · rw [if_neg hpointer]
    obtain ⟨fresh, full, emptied, hfresh, hfull, hpile, hemptied, hloop, hreport⟩ :=
      r.evaluate_eq (Nat.le_of_not_lt hpointer)
    have hrounds : ∀ rounds, m < rounds →
        popAll r.width rounds full = (popSeries r.width p taken, none, emptied) := by
      intro rounds hrounds
      refine popAll_of_popLoop ((hloop _ _ _).mpr ⟨rfl, rfl, rfl⟩) ?_
      rw [length_popSeries]
      exact Nat.lt_of_le_of_lt (List.length_take_le _ _) hrounds
    have hrun : r.run =
        ⟨0,
          (pushed ++ (if r.pop then popped else []) ++ [Line.depth inUse (p + 1 - inUse)]).map Line.text,
          refused.toList.map Line.text⟩ := by
      rw [run, hreport]
      exact PushReport.transcript_series _ _ _ _ _ _ _ _
    exact ⟨⟨hrun, fresh, full, emptied, hfresh, hfull, hpile, hemptied, hloop, hrounds⟩,
      Line.names_text_iff, fun line => isLine_of_eq hrun⟩

/-- Five bytes hold two values of two bytes. The third finds one byte, and the first, too wide for two
bytes, is shown whole when it is pushed and cut when it is popped. -/
theorem run_pushes_what_fits_five_bytes :
    (⟨.w16, [0x12345#64, 0xABCD#64, 0x1#64], 4#64, true⟩ : PushRequest).run =
      ⟨0,
        ["push 0x12345: ptr=2 [45 23]", "push 0xABCD: ptr=0 [CD AB]", "pop  0xABCD: ptr=2",
          "pop  0x2345: ptr=4", "depth 0 bytes, 5 free"],
        ["❌ push 0x1: stack overflow: need 2 bytes, 1 free"]⟩ := by
  obtain ⟨hrun, -⟩ :=
    run_pushes_what_fits ⟨.w16, [0x12345#64, 0xABCD#64, 0x1#64], 4#64, true⟩
  rw [if_neg (by decide)] at hrun
  exact hrun.1.trans (by decide)

end PushRequest

end CommandLine

end Datapath
