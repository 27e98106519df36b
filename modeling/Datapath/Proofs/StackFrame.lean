import Datapath.Buffer.Lemmas
import Datapath.Proofs.Session
import Datapath.Session.Stack

/-!
# Where a stack writes

A stack moves between the bottom of its memory and the pointer that it was opened at, and writes
nowhere else. The two byte loops come first, by what they do to the pointer and to the slots; their
lemmas hold for any number of bytes, so they also say where a loop stands that is half done.

`Confined` is what every step of a session keeps. It carries a number that the stack itself does not
have, the lowest pointer so far: no slot at or below it was ever written.
-/

set_option autoImplicit false

namespace Datapath.Stack

variable {s : Stack} {memory : Buffer} {start : BitVec 16} {low : Int} {w : Width}

/-! ## The byte loops -/

theorem pointer_pushByte (s : Stack) (byte : Byte) : (s.pushByte byte).pointer = s.pointer - 1 :=
  rfl

theorem pointer_foldl_pushByte (bytes : List Byte) (s : Stack) :
    (bytes.foldl pushByte s).pointer = s.pointer - bytes.length := by
  induction bytes generalizing s with
  | nil => exact (Int.sub_zero _).symm
  | cons byte rest ih =>
    rw [List.foldl_cons, ih, pointer_pushByte, List.length_cons]
    omega

theorem top_foldl_pushByte (bytes : List Byte) (s : Stack) :
    (bytes.foldl pushByte s).top = s.top := by
  induction bytes generalizing s with
  | nil => rfl
  | cons byte rest ih => rw [List.foldl_cons, ih, pushByte]

theorem size_foldl_pushByte (bytes : List Byte) (s : Stack) :
    (bytes.foldl pushByte s).memory.size = s.memory.size := by
  induction bytes generalizing s with
  | nil => rfl
  | cons byte rest ih => rw [List.foldl_cons, ih, pushByte, Array.size_setIfInBounds]

/-- The loop that writes leaves the slots above the pointer and those under its last byte. -/
theorem getElem?_foldl_pushByte {bytes : List Byte} (hroom : bytes.length ≤ s.pointer + 1) {i : Nat}
    (hi : i ≤ s.pointer - bytes.length ∨ s.pointer < i) :
    (bytes.foldl pushByte s).memory[i]? = s.memory[i]? := by
  induction bytes generalizing s with
  | nil => rfl
  | cons byte rest ih =>
    rw [List.length_cons] at hroom hi
    -- The first byte goes to the pointer, the others below it; slot `i` is neither.
    have hslot : s.pointer.toNat ≠ i := by omega
    have hpointer := pointer_pushByte s byte
    rw [List.foldl_cons, ih (by omega) (by omega), pushByte, Array.getElem?_setIfInBounds_ne hslot]

/-- The loop that reads moves the pointer and nothing else. -/
theorem dropBytes_eq (n : Nat) (s : Stack) :
    dropBytes n s = { s with pointer := s.pointer + n } := by
  induction n generalizing s with
  | zero => rw [dropBytes, Int.natCast_zero, Int.add_zero]
  | succ n ih =>
    have hpointer : s.pointer + 1 + n = s.pointer + (n + 1 : Nat) := by omega
    rw [dropBytes, ih, dropByte, hpointer]

/-! ## Pushes and pops

Room decides a push and depth a pop, and there is no third outcome: each either goes through whole
or leaves the stack as it was. -/

theorem push_of_le {w : Width} (value : BitVec w.bits) (h : w.bytes ≤ s.available) :
    s.push w value = .done ((bigEndian w.bytes value.toNat).foldl Stack.pushByte s) () := by
  rw [Stack.push, Stack.pushBytes, length_bigEndian, if_neg (Nat.not_lt.mpr h)]

theorem push_of_lt {w : Width} (value : BitVec w.bits) (h : s.available < w.bytes) :
    s.push w value =
      .refuse s (.overflow w.bytes s.available) (.overflow s.pointer w.bytes) := by
  rw [Stack.push, Stack.pushBytes, length_bigEndian, if_pos h]

theorem pop_of_le {w : Width} (h : w.bytes ≤ s.depth) :
    s.pop w =
      .done (dropBytes w.bytes s)
        (BitVec.ofNat w.bits (ofBigEndian (newestBytes w.bytes s).reverse)) := by
  rw [Stack.pop, Stack.popBytes, if_neg (Nat.not_lt.mpr h)]
  rfl

theorem pop_of_lt {w : Width} (h : s.depth < w.bytes) :
    s.pop w = .refuse s (.underflow w.bytes s.depth) (.underflow s.pointer w.bytes) := by
  rw [Stack.pop, Stack.popBytes, if_pos h]
  rfl

/-- A pop writes no byte, whether it succeeds or not. -/
theorem memory_pop (s : Stack) (w : Width) : (s.pop w).state.memory = s.memory := by
  by_cases hused : w.bytes ≤ s.depth
  · rw [pop_of_le hused, dropBytes_eq]
    rfl
  · rw [pop_of_lt (Nat.lt_of_not_le hused)]
    rfl

theorem room_of_push_ok {value : BitVec w.bits} (h : (s.push w value).result = .ok ()) :
    w.bytes ≤ s.available := by
  by_contra hroom
  rw [push_of_lt value (Nat.lt_of_not_le hroom)] at h
  exact nomatch h

/-- A push writes its own slots at most. -/
theorem getElem?_memory_push {value : BitVec w.bits} (hok : (s.push w value).result = .ok ())
    {i : Nat} (hi : i < s.pointer - w.bytes + 1 ∨ s.pointer < i) :
    (s.push w value).state.memory[i]? = s.memory[i]? := by
  have hpos := w.bytes_pos
  have hroom := room_of_push_ok hok
  have hlength := length_bigEndian w.bytes value.toNat
  rw [push_of_le value hroom]
  unfold available at hroom
  exact getElem?_foldl_pushByte (by omega) (by omega)

theorem state_of_push_error {value : BitVec w.bits} {fault : StackFault}
    (h : (s.push w value).result = .error fault) : (s.push w value).state = s := by
  by_cases hroom : w.bytes ≤ s.available
  · rw [push_of_le value hroom] at h
    exact nomatch h
  · rw [push_of_lt value (Nat.lt_of_not_le hroom)]
    rfl

theorem used_of_pop_ok {value : BitVec w.bits} (h : (s.pop w).result = .ok value) :
    w.bytes ≤ s.depth := by
  by_contra hused
  rw [pop_of_lt (Nat.lt_of_not_le hused)] at h
  exact nomatch h

/-! ## The invariant -/

/-- A stack that was opened over this memory at this pointer, and whose pointer was never below
`low`, lies inside the memory and has written only between the two. -/
structure Confined (memory : Buffer) (start : BitVec 16) (low : Int) (s : Stack) : Prop where
  top_eq : s.top = start.toNat
  top_lt : start.toNat < memory.size
  bottom_le : -1 ≤ low
  low_le : low ≤ s.pointer
  pointer_le : s.pointer ≤ start.toNat
  size_eq : s.memory.size = memory.size
  above_eq : ∀ i, start.toNat < i → s.memory[i]? = memory[i]?
  below_eq : ∀ i : Nat, i ≤ low → s.memory[i]? = memory[i]?

theorem ofBuffer_eq_ok_iff {opened : Stack} :
    Stack.ofBuffer memory start = .ok opened ↔
      start.toNat < memory.size ∧ opened = ⟨memory, start.toNat, start.toNat⟩ := by
  rw [Stack.ofBuffer]
  by_cases h : start.toNat < memory.size
  · rw [if_pos h, Except.ok.injEq]
    exact ⟨fun hopened => ⟨h, hopened.symm⟩, fun hopened => hopened.2.symm⟩
  · rw [if_neg h]
    exact ⟨fun hopened => (nomatch hopened), fun hopened => absurd hopened.1 h⟩

theorem confined_ofBuffer (h : start.toNat < memory.size) :
    Confined memory start start.toNat ⟨memory, start.toNat, start.toNat⟩ where
  top_eq := rfl
  top_lt := h
  bottom_le := by omega
  low_le := Int.le_refl _
  pointer_le := Int.le_refl _
  size_eq := rfl
  above_eq _ _ := rfl
  below_eq _ _ := rfl

/-- Bytes that there is room for go into slots above the lowest pointer, which is then the one that
they leave. -/
theorem Confined.pushBytes (h : s.Confined memory start low) {bytes : List Byte}
    (hroom : bytes.length ≤ s.pointer + 1) :
    (bytes.foldl pushByte s).Confined memory start (min low (s.pointer - bytes.length)) := by
  have hlow := h.low_le
  have hbottom := h.bottom_le
  have hpointer := h.pointer_le
  refine ⟨?_, h.top_lt, by omega, ?_, ?_, ?_, ?_, ?_⟩
  · rw [top_foldl_pushByte, h.top_eq]
  · rw [pointer_foldl_pushByte]
    omega
  · rw [pointer_foldl_pushByte]
    omega
  · rw [size_foldl_pushByte, h.size_eq]
  · intro i hi
    rw [getElem?_foldl_pushByte hroom (by omega), h.above_eq i hi]
  · intro i hi
    rw [getElem?_foldl_pushByte hroom (by omega), h.below_eq i (by omega)]

theorem Confined.dropBytes (h : s.Confined memory start low) {n : Nat} (hused : n ≤ s.depth) :
    (dropBytes n s).Confined memory start low := by
  have hlow := h.low_le
  have hpointer := h.pointer_le
  have htop := h.top_eq
  unfold depth at hused
  rw [dropBytes_eq]
  refine ⟨htop, h.top_lt, h.bottom_le, ?_, ?_, h.size_eq, h.above_eq, h.below_eq⟩
  · show low ≤ s.pointer + n
    omega
  · show s.pointer + n ≤ start.toNat
    omega

/-- **One step** keeps a stack confined. The lowest pointer follows it down and never comes up. -/
theorem Confined.act (h : s.Confined memory start low) (step : Step) :
    (Stack.act step s).state.Confined memory start (min low (Stack.act step s).state.pointer) := by
  -- A step that does not come below the lowest pointer leaves it where it was.
  have hstay : ∀ {t : Stack}, t.Confined memory start low →
      t.Confined memory start (min low t.pointer) := by
    intro t ht
    rw [Int.min_eq_left ht.low_le]
    exact ht
  cases step with
  | push w value =>
    have hstate : (Stack.act (.push w value) s).state = (s.push w value).state := rfl
    rw [hstate]
    by_cases hroom : w.bytes ≤ s.available
    · have hfits : (bigEndian w.bytes value.toNat).length ≤ s.pointer + 1 := by
        rw [length_bigEndian]
        unfold available at hroom
        have hbottom := h.bottom_le
        have hlow := h.low_le
        omega
      have hpushed := h.pushBytes hfits
      rw [← pointer_foldl_pushByte] at hpushed
      rw [push_of_le value hroom]
      exact hpushed
    · rw [push_of_lt value (Nat.lt_of_not_le hroom)]
      exact hstay h
  | pop w =>
    have hstate : (Stack.act (.pop w) s).state = (s.pop w).state := rfl
    rw [hstate]
    by_cases hused : w.bytes ≤ s.depth
    · rw [pop_of_le hused]
      exact hstay (h.dropBytes hused)
    · rw [pop_of_lt (Nat.lt_of_not_le hused)]
      exact hstay h
  | top => exact hstay h
  | trace => exact hstay h

/-- The lowest pointer of a session that has seen these standings. -/
def lowest (pointer : Int) (seen : List Standing) : Int :=
  (seen.map Standing.pointer).foldl min pointer

/-- **A session** keeps a stack confined. -/
theorem Confined.run (h : s.Confined memory start low) (steps : List Step) :
    (Session.run Stack.act standing steps s).last.Confined memory start
      (lowest low (Session.run Stack.act standing steps s).seen) := by
  -- The first step moves the lowest pointer, so the induction is for any.
  induction steps generalizing s low with
  | nil => exact h
  | cons step rest ih => exact ih (h.act step)

theorem Confined.depth_add_available (h : s.Confined memory start low) :
    s.depth + s.available = start.toNat + 1 := by
  have hlow := h.low_le
  have hbottom := h.bottom_le
  have hpointer := h.pointer_le
  have htop := h.top_eq
  unfold depth available
  omega

/-! ## Loops half done -/

/-- Before each byte of a push that succeeds the pointer names a slot of the memory. -/
theorem Confined.push_slot (h : s.Confined memory start low) {value : BitVec w.bits}
    (hok : (s.push w value).result = .ok ()) {k : Nat} (hk : k < w.bytes) :
    let written := ((bigEndian w.bytes value.toNat).take k).foldl pushByte s
    0 ≤ written.pointer ∧ written.pointer < written.memory.size := by
  intro written
  have hpointer : written.pointer = s.pointer - k := by
    rw [pointer_foldl_pushByte, List.length_take, length_bigEndian, Nat.min_eq_left hk.le]
  have hsize : written.memory.size = memory.size := by
    rw [size_foldl_pushByte, h.size_eq]
  have hroom := room_of_push_ok hok
  have htop := h.pointer_le
  have hstart := h.top_lt
  unfold available at hroom
  omega

/-- Before each byte of a pop that succeeds the slot above the pointer is one of the memory. -/
theorem Confined.pop_slot (h : s.Confined memory start low) {value : BitVec w.bits}
    (hok : (s.pop w).result = .ok value) {k : Nat} (hk : k < w.bytes) :
    let read := Stack.dropBytes k s
    0 ≤ read.pointer + 1 ∧ read.pointer + 1 < read.memory.size := by
  intro read
  have hpointer : read.pointer = s.pointer + k := congrArg Stack.pointer (dropBytes_eq k s)
  have hsize : read.memory.size = memory.size :=
    (congrArg (·.memory.size) (dropBytes_eq k s)).trans h.size_eq
  have hused := used_of_pop_ok hok
  have hlow := h.low_le
  have hbottom := h.bottom_le
  have htop := h.top_eq
  have hstart := h.top_lt
  unfold depth at hused
  omega

/-! ## Sessions -/

/-- **A stack stays between its bottom and its top and writes only there.** It opens just when its
pointer names a slot of the memory. After every session, and so after every step of one, its pointer
lies between the slot under the bottom and the starting pointer, depth and room make up the slots in
between, and the memory has its size and its old bytes above the starting pointer and at and below
the lowest pointer so far. The next pop writes nothing, the next push nothing if it is refused and
at most its own slots if it succeeds, and neither loop leaves the memory on its way. -/
theorem session_confined (memory : Buffer) (start : BitVec 16) :
    ((∃ opened, Stack.ofBuffer memory start = .ok opened) ↔ start.toNat < memory.size) ∧
    ∀ opened, Stack.ofBuffer memory start = .ok opened → ∀ steps : List Step,
      let session := Session.run Stack.act standing steps opened
      let s := session.last
      (-1 ≤ s.pointer ∧ s.pointer ≤ s.top ∧ s.top = start.toNat ∧ start.toNat < memory.size) ∧
      s.depth + s.available = start.toNat + 1 ∧
      (s.memory.size = memory.size ∧
        (∀ i, start.toNat < i → s.memory[i]? = memory[i]?) ∧
        ∀ i : Nat, i ≤ lowest start.toNat session.seen → s.memory[i]? = memory[i]?) ∧
      (∀ w, (s.pop w).state.memory = s.memory ∧
        ∀ value, (s.pop w).result = .ok value → ∀ k, k < w.bytes →
          let read := Stack.dropBytes k s
          0 ≤ read.pointer + 1 ∧ read.pointer + 1 < read.memory.size) ∧
      ∀ w value,
        (∀ fault, (s.push w value).result = .error fault → (s.push w value).state = s) ∧
        ((s.push w value).result = .ok () →
          (∀ i : Nat, i < s.pointer - w.bytes + 1 ∨ s.pointer < i →
            (s.push w value).state.memory[i]? = s.memory[i]?) ∧
          ∀ k, k < w.bytes →
            let written := ((bigEndian w.bytes value.toNat).take k).foldl pushByte s
            0 ≤ written.pointer ∧ written.pointer < written.memory.size) := by
  constructor
  · constructor
    · rintro ⟨opened, hopened⟩
      exact (ofBuffer_eq_ok_iff.mp hopened).1
    · intro h
      exact ⟨_, ofBuffer_eq_ok_iff.mpr ⟨h, rfl⟩⟩
  · intro opened hopened steps session s
    obtain ⟨hstart, rfl⟩ := ofBuffer_eq_ok_iff.mp hopened
    have h : s.Confined memory start (lowest start.toNat session.seen) :=
      (confined_ofBuffer hstart).run steps
    have hbottom : -1 ≤ s.pointer := Int.le_trans h.bottom_le h.low_le
    have htop : s.pointer ≤ s.top := by
      rw [h.top_eq]
      exact h.pointer_le
    refine ⟨⟨hbottom, htop, h.top_eq, h.top_lt⟩, h.depth_add_available,
      ⟨h.size_eq, h.above_eq, h.below_eq⟩, ?_, ?_⟩
    · intro w
      exact ⟨memory_pop s w, fun value hok k hk => h.pop_slot hok hk⟩
    · intro w value
      refine ⟨fun fault => state_of_push_error, fun hok => ⟨?_, ?_⟩⟩
      · intro i hi
        exact getElem?_memory_push hok hi
      · intro k hk
        exact h.push_slot hok hk

/-- A session that comes down to slot 1 and up again, and is refused four bytes: the bytes above the
top and at the lowest pointer are those of the memory it was given. -/
theorem session_confined_between :
    let memory : Buffer := #[0xA0#8, 0xA1#8, 0xA2#8, 0xA3#8, 0xA4#8]
    let steps : List Step := [.push .w16 0x1234#16, .pop .w8, .push .w32 0xDEADBEEF#32]
    ∃ opened, Stack.ofBuffer memory 3#16 = .ok opened ∧
      lowest 3 (Session.run Stack.act standing steps opened).seen = 1 ∧
      (Session.run Stack.act standing steps opened).last.memory[1]? = some 0xA1#8 ∧
      (Session.run Stack.act standing steps opened).last.memory[4]? = some 0xA4#8 := by
  intro memory steps
  obtain ⟨opened, hopened⟩ := (session_confined memory 3#16).1.mpr (by decide)
  obtain ⟨-, -, ⟨-, habove, hbelow⟩, -⟩ := (session_confined memory 3#16).2 opened hopened steps
  have hlowest : lowest 3 (Session.run Stack.act standing steps opened).seen = 1 := by
    obtain ⟨-, rfl⟩ := ofBuffer_eq_ok_iff.mp hopened
    decide
  refine ⟨opened, hopened, hlowest, ?_, ?_⟩
  · have hlow : (1 : Nat) ≤ lowest 3 (Session.run Stack.act standing steps opened).seen := by
      rw [hlowest]
      rfl
    rw [hbelow 1 hlow]
    rfl
  · rw [habove 4 (by decide)]
    rfl

end Datapath.Stack
