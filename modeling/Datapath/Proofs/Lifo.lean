import Datapath.Proofs.ByteOrder
import Datapath.Proofs.StackFrame

/-!
# A stack is a bounded list of bytes

`Lifo` says what a stack is for without memory or pointer: a list of bytes, newest first, that holds
so many and no more. `session_refines_lifo` says that a stack over any buffer is seen to do exactly
what the list does, in every session and whatever the widths of its pushes and pops.

The relation behind it, `Stack.Represents`, ties every slot between the pointer and the top to its
place in the list. It is kept byte by byte: a number is pushed and popped one byte at a time, and
each of these steps moves the pointer by one slot and the list by one place.
-/

set_option autoImplicit false

namespace Datapath

/-- A step that moves a number onto a stack or off it. -/
inductive Stack.Transfer
  | push (w : Width) (value : BitVec w.bits)
  | pop (w : Width)

/-- The transfer as a step of a session on a stack. -/
def Stack.Transfer.step : Transfer → Stack.Step
  | push w value => .push w value
  | pop w => .pop w

open Stack (Transfer)

/-! ## The bounded list -/

/-- Bytes, newest first, and how many there may be. -/
structure Lifo where
  bytes : List Byte
  capacity : Nat

namespace Lifo

/-- Nothing pushed. -/
def empty (capacity : Nat) : Lifo := ⟨[], capacity⟩

/-- Number of bytes in the list. -/
def depth (l : Lifo) : Nat := l.bytes.length

/-- Number of bytes that the list can still take. -/
def available (l : Lifo) : Nat := l.capacity - l.depth

/-- Where a pointer that comes down from the last place stands. -/
def pointer (l : Lifo) : Int := (l.capacity : Int) - 1 - l.depth

/-- Puts the bytes of a number on the list, the least significant last, if there is room for all. -/
def push (l : Lifo) (w : Width) (value : BitVec w.bits) : Outcome Lifo StackFault Unit :=
  if l.depth + w.bytes ≤ l.capacity then
    .done { l with bytes := bytesOf value ++ l.bytes } ()
  else
    .refuse l (.overflow w.bytes l.available) (.overflow l.pointer w.bytes)

/-- Takes the newest bytes off the list, if there are as many, and reads them as a number whose
least significant byte is the newest. -/
def pop (l : Lifo) (w : Width) : Outcome Lifo StackFault (BitVec w.bits) :=
  if w.bytes ≤ l.depth then
    .done { l with bytes := l.bytes.drop w.bytes } (ofBytes w (l.bytes.take w.bytes))
  else
    .refuse l (.underflow w.bytes l.depth) (.underflow l.pointer w.bytes)

/-- Takes one step. -/
def act (transfer : Transfer) (l : Lifo) : Turn Lifo Reply :=
  match transfer with
  | .push w value => .ofUnit .stack (l.push w value)
  | .pop w => .ofOutcome .stack (.unsigned w) (l.pop w)

/-- How a stack stands that the list describes. -/
def standing (t : Turn Lifo Reply) : Stack.Standing :=
  ⟨t.state.pointer, t.state.depth, t.state.available, t.reply⟩

end Lifo

/-! ## Byte by byte -/

namespace Stack

variable {s : Stack} {l : Lifo}

/-- The list describes the stack: it says where the pointer is, it fits between the bottom and the
top, and the slots from just above the pointer hold its bytes. -/
structure Represents (s : Stack) (l : Lifo) : Prop where
  pointer_eq : s.pointer = l.pointer
  top_eq : s.top + 1 = l.capacity
  top_lt : s.top < s.memory.size
  depth_le : l.depth ≤ l.capacity
  slot_eq : ∀ i, i < l.depth → s.memory[(s.pointer + 1).toNat + i]? = l.bytes[i]?

/-- Opened over a buffer, a stack is the empty list. -/
theorem represents_ofBuffer (memory : Buffer) (start : BitVec 16)
    (h : start.toNat < memory.size) :
    Represents ⟨memory, start.toNat, start.toNat⟩ (.empty (start.toNat + 1)) where
  pointer_eq := by simp only [Lifo.pointer, Lifo.depth, Lifo.empty, List.length_nil]; omega
  top_eq := by simp only [Lifo.empty]; omega
  top_lt := by simpa using h
  depth_le := Nat.zero_le _
  slot_eq := by
    intro i hi
    exact absurd hi (Nat.not_lt_zero i)

theorem Represents.depth_eq (h : s.Represents l) : s.depth = l.depth := by
  have hpointer := h.pointer_eq
  have htop := h.top_eq
  unfold Lifo.pointer at hpointer
  unfold Stack.depth
  omega

theorem Represents.available_eq (h : s.Represents l) : s.available = l.available := by
  have hpointer := h.pointer_eq
  have hdepth := h.depth_le
  unfold Lifo.pointer at hpointer
  unfold Stack.available Lifo.available
  omega

/-- A byte that is pushed becomes the newest of the list. -/
theorem Represents.pushByte (h : s.Represents l) (hroom : l.depth < l.capacity) (byte : Byte) :
    (s.pushByte byte).Represents { l with bytes := byte :: l.bytes } := by
  have hpointer := h.pointer_eq
  have htop := h.top_eq
  have hsize := h.top_lt
  unfold Lifo.pointer at hpointer
  refine ⟨?_, htop, ?_, ?_, ?_⟩
  · simp only [Stack.pushByte, Lifo.pointer, Lifo.depth, List.length_cons] at hpointer ⊢
    omega
  · simpa only [Stack.pushByte, Array.size_setIfInBounds] using hsize
  · exact hroom
  · intro i hi
    have hslot : (s.pointer - 1 + 1).toNat + i = s.pointer.toNat + i := by omega
    simp only [Stack.pushByte]
    rw [hslot]
    -- The new byte went into the slot of the old pointer; every older byte has moved one place on.
    cases i with
    | zero =>
      rw [Nat.add_zero, Array.getElem?_setIfInBounds_self_of_lt (by omega), List.getElem?_cons_zero]
    | succ i =>
      have hold : s.pointer.toNat + (i + 1) = (s.pointer + 1).toNat + i := by omega
      rw [Array.getElem?_setIfInBounds_ne (by omega), hold, List.getElem?_cons_succ]
      exact h.slot_eq i (Nat.lt_of_succ_lt_succ hi)

theorem Represents.newest_eq {byte : Byte} {rest : List Byte} {capacity : Nat}
    (h : s.Represents ⟨byte :: rest, capacity⟩) : s.newest = byte := by
  have hslot := h.slot_eq 0 (Nat.zero_lt_succ _)
  rw [Nat.add_zero, List.getElem?_cons_zero] at hslot
  rw [newest, Array.getD_eq_getD_getElem?, hslot, Option.getD_some]

theorem Represents.dropByte {byte : Byte} {rest : List Byte} {capacity : Nat}
    (h : s.Represents ⟨byte :: rest, capacity⟩) : s.dropByte.Represents ⟨rest, capacity⟩ := by
  have hpointer := h.pointer_eq
  have hdepth := h.depth_le
  simp only [Lifo.pointer, Lifo.depth, List.length_cons] at hpointer hdepth
  refine ⟨?_, h.top_eq, h.top_lt, Nat.le_of_succ_le hdepth, ?_⟩
  · simp only [Stack.dropByte, Lifo.pointer, Lifo.depth]
    omega
  · intro i hi
    have hslot := h.slot_eq (i + 1) (Nat.succ_lt_succ hi)
    have hnext : (s.pointer + 1 + 1).toNat + i = (s.pointer + 1).toNat + (i + 1) := by omega
    simp only [Stack.dropByte]
    rw [hnext, hslot, List.getElem?_cons_succ]

/-! ## Number by number -/

/-- Bytes that are pushed in order come to lie on the list in the opposite order. -/
theorem Represents.pushBytes {bytes : List Byte} (h : s.Represents l)
    (hroom : l.depth + bytes.length ≤ l.capacity) :
    (bytes.foldl Stack.pushByte s).Represents { l with bytes := bytes.reverse ++ l.bytes } := by
  -- On the bytes still to come; the list is generalised because each byte of the number extends it.
  induction bytes generalizing s l with
  | nil => exact h
  | cons byte rest ih =>
    rw [List.length_cons] at hroom
    have hnext := ih (h.pushByte (by omega) byte)
      (by simp only [Lifo.depth, List.length_cons] at hroom ⊢; omega)
    rw [List.foldl_cons, List.reverse_cons, List.append_assoc]
    exact hnext

/-- The newest bytes of a stack are the newest of the list, and the rest is described by the rest of
the list. -/
theorem Represents.popBytes {n : Nat} (h : s.Represents l) (hn : n ≤ l.depth) :
    newestBytes n s = l.bytes.take n ∧
      (dropBytes n s).Represents { l with bytes := l.bytes.drop n } := by
  induction n generalizing s l with
  | zero => exact ⟨rfl, h⟩
  | succ n ih =>
    obtain ⟨bytes, capacity⟩ := l
    cases bytes with
    -- An empty list has no byte to give.
    | nil => exact absurd hn (Nat.not_succ_le_zero n)
    | cons byte rest =>
      obtain ⟨hbytes, hdrop⟩ := ih h.dropByte (Nat.le_of_succ_le_succ hn)
      refine ⟨?_, hdrop⟩
      rw [newestBytes, h.newest_eq, hbytes, List.take_succ_cons]

/-! ## Transfers -/

/-- **Pushes agree.** A push on a stack and on the list that describes it have the same result and
raise the same events, and the list still describes the stack. -/
theorem Represents.push (h : s.Represents l) (w : Width) (value : BitVec w.bits) :
    (s.push w value).state.Represents (l.push w value).state ∧
      (s.push w value).result = (l.push w value).result ∧
        (s.push w value).events = (l.push w value).events := by
  have hdepth := h.depth_le
  have havailable := h.available_eq
  unfold Lifo.available at havailable
  by_cases hroom : l.depth + w.bytes ≤ l.capacity
  · have hpushed := h.pushBytes (by rw [length_bigEndian w.bytes value.toNat]; exact hroom)
    rw [← bytesOf_eq] at hpushed
    rw [push_of_le value (by omega), Lifo.push, if_pos hroom]
    exact ⟨hpushed, rfl, rfl⟩
  · rw [push_of_lt value (by omega), Lifo.push, if_neg hroom, h.available_eq, h.pointer_eq]
    exact ⟨h, rfl, rfl⟩

theorem Represents.pop (h : s.Represents l) (w : Width) :
    (s.pop w).state.Represents (l.pop w).state ∧ (s.pop w).result = (l.pop w).result ∧
      (s.pop w).events = (l.pop w).events := by
  by_cases hused : w.bytes ≤ l.depth
  · obtain ⟨hbytes, hdrop⟩ := h.popBytes hused
    rw [pop_of_le (by rw [h.depth_eq]; exact hused), Lifo.pop, if_pos hused, hbytes,
      ofBigEndian_reverse]
    exact ⟨hdrop, rfl, rfl⟩
  · rw [pop_of_lt (by rw [h.depth_eq]; omega), Lifo.pop, if_neg hused, h.depth_eq, h.pointer_eq]
    exact ⟨h, rfl, rfl⟩

theorem Represents.act (h : s.Represents l) (transfer : Transfer) :
    (Stack.act transfer.step s).state.Represents (Lifo.act transfer l).state ∧
      standing (Stack.act transfer.step s) = Lifo.standing (Lifo.act transfer l) ∧
        (Stack.act transfer.step s).events = (Lifo.act transfer l).events := by
  have hstate : (Stack.act transfer.step s).state.Represents (Lifo.act transfer l).state := by
    cases transfer with
    | push w value => exact (h.push w value).1
    | pop w => exact (h.pop w).1
  have hreply : (Stack.act transfer.step s).reply = (Lifo.act transfer l).reply := by
    cases transfer with
    | push w value =>
      simp only [Stack.act, Transfer.step, Lifo.act, Turn.ofUnit, Turn.ofOutcome,
        (h.push w value).2.1]
    | pop w =>
      simp only [Stack.act, Transfer.step, Lifo.act, Turn.ofOutcome, (h.pop w).2.1]
  have hevents : (Stack.act transfer.step s).events = (Lifo.act transfer l).events := by
    cases transfer with
    | push w value => exact (h.push w value).2.2
    | pop w => exact (h.pop w).2.2
  refine ⟨hstate, ?_, hevents⟩
  rw [standing, Lifo.standing, hstate.pointer_eq, hstate.depth_eq, hstate.available_eq, hreply]

/-- **Sessions agree.** From a stack and a list that describes it every session is seen to do the
same. -/
theorem Represents.run (h : s.Represents l) (transfers : List Transfer) :
    (Session.run Stack.act standing (transfers.map Transfer.step) s).seen =
        (Session.run Lifo.act Lifo.standing transfers l).seen ∧
      (Session.run Stack.act standing (transfers.map Transfer.step) s).events =
          (Session.run Lifo.act Lifo.standing transfers l).events ∧
        (Session.run Stack.act standing (transfers.map Transfer.step) s).last.Represents
          (Session.run Lifo.act Lifo.standing transfers l).last := by
  rw [Session.run_map]
  exact Session.run_of_simulation (fun transfer _ _ hs => hs.act transfer) transfers h

/-- A transfer that is refused leaves the stack as it was, memory and all. -/
theorem state_of_refused {transfer : Transfer} {fault : Fault}
    (h : (Stack.act transfer.step s).reply = .fault fault) :
    (Stack.act transfer.step s).state = s := by
  cases transfer with
  | push w value =>
    simp only [Transfer.step, Stack.act] at h ⊢
    by_cases hroom : w.bytes ≤ s.available
    · rw [push_of_le value hroom] at h
      exact absurd h (by simp [Turn.ofUnit, Turn.ofOutcome, Outcome.done])
    · rw [push_of_lt value (Nat.lt_of_not_le hroom)]
      rfl
  | pop w =>
    simp only [Transfer.step, Stack.act] at h ⊢
    by_cases hused : w.bytes ≤ s.depth
    · rw [pop_of_le hused] at h
      exact absurd h (by simp [Turn.ofOutcome, Outcome.done])
    · rw [pop_of_lt (Nat.lt_of_not_le hused)]
      rfl

end Stack

/-! ## Nested transfers -/

/-- Transfers in which every push has its pop: how much room they need, and what they answer if each
pop is to give back what its push put there. -/
inductive Nested : Nat → List Transfer → List Reply → Prop
  | nil : Nested 0 [] []
  | append {room room' : Nat} {transfers transfers' : List Transfer} {replies replies' : List Reply}
      (first : Nested room transfers replies) (second : Nested room' transfers' replies') :
      Nested (max room room') (transfers ++ transfers') (replies ++ replies')
  | wrap {room : Nat} {transfers : List Transfer} {replies : List Reply} (w : Width)
      (value : BitVec w.bits) (inner : Nested room transfers replies) :
      Nested (w.bytes + room) (.push w value :: (transfers ++ [.pop w]))
        (.done :: (replies ++ [.unsigned w value]))

namespace Lifo

variable {l : Lifo}

theorem pop_push {w : Width} (value : BitVec w.bits) :
    Lifo.pop { l with bytes := bytesOf value ++ l.bytes } w = .done l value := by
  have hlength : (bytesOf value).length = w.bytes := length_bytesOf value
  rw [Lifo.pop, if_pos (by rw [Lifo.depth, List.length_append]; omega)]
  simp only [List.drop_left' hlength, List.take_left' hlength, ofBytes_bytesOf]

/-- **Nested transfers** with room for them give every pushed number back to its pop and leave the
list as it was. -/
theorem run_nested {room : Nat} {transfers : List Transfer} {replies : List Reply}
    (h : Nested room transfers replies) (hroom : l.depth + room ≤ l.capacity) :
    (Session.run act standing transfers l).seen.map Stack.Standing.reply = replies ∧
      (Session.run act standing transfers l).last = l := by
  induction h generalizing l with
  | nil => exact ⟨rfl, rfl⟩
  | append first second ih ih' =>
    obtain ⟨hseen, hlast⟩ := ih (l := l) (by omega)
    obtain ⟨hseen', hlast'⟩ := ih' (l := l) (by omega)
    rw [Session.seen_append, Session.last_append, List.map_append, hlast, hseen, hseen']
    exact ⟨rfl, hlast'⟩
  | @wrap room transfers replies w value inner ih =>
    have hpush : act (.push w value) l =
        ⟨{ l with bytes := bytesOf value ++ l.bytes }, .done, []⟩ := by
      simp only [act, Lifo.push]
      rw [if_pos (by omega)]
      rfl
    have hpop : act (.pop w) { l with bytes := bytesOf value ++ l.bytes } =
        ⟨l, .unsigned w value, []⟩ := by
      simp only [act, pop_push]
      rfl
    -- What is inside runs on a longer list and gives it back: the pop finds the bytes on top.
    obtain ⟨hseen, hlast⟩ := ih (l := { l with bytes := bytesOf value ++ l.bytes }) (by
      simp only [Lifo.depth, List.length_append, length_bytesOf] at hroom ⊢
      omega)
    rw [Session.run_cons, hpush]
    simp only [List.map_cons, Session.seen_append, Session.last_append, List.map_append, hseen,
      hlast, Session.run_cons, Session.run_nil, hpop, standing, List.map_nil]
    exact ⟨trivial, trivial⟩

end Lifo

/-! ## The refinement -/

namespace Stack

/-- **A stack is a bounded list of bytes.** Over every buffer and from every starting pointer inside
it a stack opens, and every session of pushes and pops of any widths is seen to do what the list
does that starts empty and holds the starting pointer and one more: the same replies and faults, the
same pointer, depth and room after every step, the same events. After every session the slots of the
stack hold the list, a transfer that is then refused changes nothing, and nested transfers that
there is room for give back what they pushed. -/
theorem session_refines_lifo (memory : Buffer) (start : BitVec 16)
    (h : start.toNat < memory.size) :
    ∃ opened, Stack.ofBuffer memory start = .ok opened ∧ ∀ transfers : List Transfer,
      let session := Session.run Stack.act standing (transfers.map Transfer.step) opened
      let list := Session.run Lifo.act Lifo.standing transfers (.empty (start.toNat + 1))
      (session.seen = list.seen ∧ session.events = list.events) ∧
        session.last.Represents list.last ∧
        (∀ (transfer : Transfer) (fault : Fault),
          (Stack.act transfer.step session.last).reply = .fault fault →
            (Stack.act transfer.step session.last).state = session.last) ∧
        ∀ room inner replies, Nested room inner replies →
          list.last.depth + room ≤ list.last.capacity →
          (Session.run Stack.act standing (inner.map Transfer.step) session.last).seen.map
            Standing.reply = replies := by
  refine ⟨⟨memory, start.toNat, start.toNat⟩, by rw [Stack.ofBuffer, if_pos h], ?_⟩
  intro transfers session list
  obtain ⟨hseen, hevents, hlast⟩ := (represents_ofBuffer memory start h).run transfers
  refine ⟨⟨hseen, hevents⟩, hlast, fun _ _ hfault => state_of_refused hfault, ?_⟩
  intro room inner replies hnested hroom
  rw [(hlast.run inner).1]
  exact (Lifo.run_nested hnested hroom).1

/-- Four bytes: two pushes of two bytes fill them, one byte more is refused, and a pop of four bytes
reads both numbers as one. -/
theorem session_over_four_bytes :
    let memory : Buffer := .filled 4 0xAA#8
    let transfers : List Transfer :=
      [.push .w16 0x1234#16, .push .w16 0x5678#16, .push .w8 0x9A#8, .pop .w32]
    3 < memory.size ∧ ∃ opened, Stack.ofBuffer memory 3#16 = .ok opened ∧
      (Session.run Stack.act standing (transfers.map Transfer.step) opened).seen =
        [⟨1, 2, 2, .done⟩, ⟨-1, 4, 0, .done⟩, ⟨-1, 4, 0, .fault (.stack (.overflow 1 0))⟩,
          ⟨3, 0, 4, .unsigned .w32 0x12345678#32⟩] := by
  intro memory transfers
  obtain ⟨opened, hopened, hsession⟩ := session_refines_lifo memory 3#16 (by decide)
  refine ⟨by decide, opened, hopened, ?_⟩
  rw [(hsession transfers).1.1]
  decide

end Stack

end Datapath
