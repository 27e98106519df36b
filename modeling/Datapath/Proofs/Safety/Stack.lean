import Datapath.Proofs.Safety.Primitive
import Datapath.Proofs.StackFrame

/-!
# A stack never traps

A stack over primitives that have a domain. Its pointer is a signed number of thirty-two bits, which
may be -1 when the stack is full to the bottom; it becomes an index only where a byte is written or
read. That it names a slot there is no matter of one step: it rests on the bounds that every session
keeps (`Confined`), and in the loops on the room or the depth that was asked for before the first
byte.
-/

set_option autoImplicit false

namespace Datapath

/-! ## Sessions -/

/-- A session whose steps and whose observer may trap. -/
def Session.checkedRun {κ σ ρ β : Type} (act : κ → σ → Checked (Turn σ ρ))
    (observe : Turn σ ρ → Checked β) : List κ → σ → Checked (Session σ β)
  | [], s => .ok ⟨[], [], s⟩
  | step :: rest, s => do
    let turn ← act step s
    let seen ← observe turn
    let later ← checkedRun act observe rest turn.state
    .ok ⟨seen :: later.seen, turn.events ++ later.events, later.last⟩

/-- **Safe steps make a safe run.** If under an invariant no step traps and no observer of its turn,
and steps keep the invariant, then no session traps. -/
theorem Session.checkedRun_eq {κ σ ρ β : Type} {act : κ → σ → Turn σ ρ} {observe : Turn σ ρ → β}
    {checkedAct : κ → σ → Checked (Turn σ ρ)} {checkedObserve : Turn σ ρ → Checked β}
    {P : σ → Prop} (hact : ∀ step s, P s → checkedAct step s = .ok (act step s))
    (hobserve : ∀ t : Turn σ ρ, P t.state → checkedObserve t = .ok (observe t))
    (hkeep : ∀ step s, P s → P (act step s).state) (steps : List κ) {s : σ} (hs : P s) :
    checkedRun checkedAct checkedObserve steps s = .ok (run act observe steps s) := by
  induction steps generalizing s with
  | nil => rfl
  | cons step rest ih =>
    have hnext := hkeep step s hs
    simp [checkedRun, hact step s hs, hobserve _ hnext, ih hnext]

namespace Stack

variable {s : Stack}

/-! ## The pointer -/

/-- The bounds of a stack: the pointer lies between the slot under the bottom and the top, the top
in the memory, and sixteen bits hold it. -/
structure InRange (s : Stack) : Prop where
  bottom_le : -1 ≤ s.pointer
  pointer_le : s.pointer ≤ s.top
  top_lt_size : s.top < s.memory.size
  top_lt : s.top < 2 ^ 16

theorem Confined.inRange {memory : Buffer} {start : BitVec 16} {low : Int}
    (h : s.Confined memory start low) : s.InRange where
  bottom_le := Int.le_trans h.bottom_le h.low_le
  pointer_le := by
    rw [h.top_eq]
    exact h.pointer_le
  top_lt_size := by
    rw [h.top_eq, h.size_eq]
    exact Int.ofNat_lt.mpr h.top_lt
  top_lt := by
    have hstart := start.isLt
    rw [h.top_eq]
    omega

theorem InRange.pushByte (h : s.InRange) (hroom : 0 ≤ s.pointer) (byte : Byte) :
    (s.pushByte byte).InRange := by
  obtain ⟨hbottom, hpointer, hsize, htop⟩ := h
  refine ⟨?_, ?_, ?_, htop⟩
  · rw [pointer_pushByte]
    omega
  · rw [pointer_pushByte]
    exact Int.le_trans (Int.sub_le_self _ (by decide)) hpointer
  · simpa [Stack.pushByte] using hsize

theorem InRange.dropByte (h : s.InRange) (hused : s.pointer < s.top) : s.dropByte.InRange := by
  obtain ⟨hbottom, hpointer, hsize, htop⟩ := h
  refine ⟨?_, hused, hsize, htop⟩
  show -1 ≤ s.pointer + 1
  omega

def checkedDepth (s : Stack) : Checked Nat :=
  Checked.span (s.top - s.pointer)

theorem InRange.checkedDepth_eq (h : s.InRange) : s.checkedDepth = .ok s.depth := by
  obtain ⟨hbottom, hpointer, hsize, htop⟩ := h
  exact Checked.span_of (by omega) (by omega)

def checkedAvailable (s : Stack) : Checked Nat :=
  Checked.span (s.pointer + 1)

theorem InRange.checkedAvailable_eq (h : s.InRange) : s.checkedAvailable = .ok s.available := by
  obtain ⟨hbottom, hpointer, hsize, htop⟩ := h
  exact Checked.span_of (by omega) (by omega)

/-! ## The byte loops -/

def checkedPushByte (s : Stack) (byte : Byte) : Checked Stack := do
  let i ← Checked.toIndex s.pointer
  let memory ← Checked.store s.memory i byte
  let pointer ← Checked.signed 32 (s.pointer - 1)
  .ok { s with memory := memory, pointer := pointer }

theorem InRange.checkedPushByte_eq (h : s.InRange) (hroom : 0 ≤ s.pointer) (byte : Byte) :
    s.checkedPushByte byte = .ok (s.pushByte byte) := by
  obtain ⟨hbottom, hpointer, hsize, htop⟩ := h
  rw [checkedPushByte, Checked.toIndex, Checked.within_of hroom, Checked.ok_bind, Checked.store,
    Checked.within_of (by omega), Checked.ok_bind, Checked.signed, Checked.within_of (by omega),
    Checked.ok_bind, Stack.pushByte]

theorem InRange.foldlM_checkedPushByte {bytes : List Byte} (h : s.InRange)
    (hroom : bytes.length ≤ s.pointer + 1) :
    bytes.foldlM checkedPushByte s = .ok (bytes.foldl Stack.pushByte s) := by
  induction bytes generalizing s with
  | nil => rfl
  | cons byte rest ih =>
    rw [List.length_cons] at hroom
    have hfree : 0 ≤ s.pointer := by omega
    have hrest : rest.length ≤ (s.pushByte byte).pointer + 1 := by
      rw [pointer_pushByte]
      omega
    rw [List.foldlM_cons, h.checkedPushByte_eq hfree, Checked.ok_bind,
      ih (h.pushByte hfree byte) hrest, List.foldl_cons]

/-- The newest byte and the stack without it. -/
def checkedPopByte (s : Stack) : Checked (Byte × Stack) := do
  let pointer ← Checked.signed 32 (s.pointer + 1)
  let i ← Checked.toIndex pointer
  let byte ← Checked.element s.memory.toList i
  .ok (byte, { s with pointer := pointer })

theorem InRange.checkedPopByte_eq (h : s.InRange) (hused : s.pointer < s.top) :
    s.checkedPopByte = .ok (s.newest, s.dropByte) := by
  obtain ⟨hbottom, hpointer, hsize, htop⟩ := h
  have hslot : (s.pointer + 1).toNat < s.memory.size := by omega
  have hbyte : s.memory.toList[(s.pointer + 1).toNat]? = some s.newest := by
    rw [newest, Array.getD_eq_getD_getElem?, Array.getElem?_toList, Array.getElem?_eq_getElem hslot,
      Option.getD_some]
  rw [checkedPopByte, Checked.signed, Checked.within_of (by omega), Checked.ok_bind, Checked.toIndex,
    Checked.within_of (by omega), Checked.ok_bind, Checked.element_of hbyte, Checked.ok_bind,
    Stack.dropByte]

/-- The `n` newest bytes, newest first, and the stack without them. -/
def checkedTake : Nat → Stack → Checked (List Byte × Stack)
  | 0, s => .ok ([], s)
  | n + 1, s => do
    let (byte, below) ← s.checkedPopByte
    let (bytes, rest) ← checkedTake n below
    .ok (byte :: bytes, rest)

theorem InRange.checkedTake_eq {n : Nat} (h : s.InRange) (hused : n ≤ s.top - s.pointer) :
    checkedTake n s = .ok (newestBytes n s, dropBytes n s) := by
  induction n generalizing s with
  | zero => rfl
  | succ n ih =>
    have hnewest : s.pointer < s.top := by omega
    have hrest : n ≤ s.dropByte.top - s.dropByte.pointer := by
      show n ≤ s.top - (s.pointer + 1)
      omega
    simp [checkedTake, h.checkedPopByte_eq hnewest, ih (h.dropByte hnewest) hrest, newestBytes,
      dropBytes]

/-! ## Pushes and pops -/

def checkedPush (s : Stack) (w : Width) (value : BitVec w.bits) :
    Checked (Outcome Stack StackFault Unit) := do
  let bytes := bigEndian w.bytes value.toNat
  let available ← s.checkedAvailable
  if available < bytes.length then
    .ok (.refuse s (.overflow bytes.length available) (.overflow s.pointer bytes.length))
  else
    .ok (.done (← bytes.foldlM checkedPushByte s) ())

theorem InRange.checkedPush_eq (h : s.InRange) (w : Width) (value : BitVec w.bits) :
    s.checkedPush w value = .ok (s.push w value) := by
  rw [checkedPush, h.checkedAvailable_eq, Checked.ok_bind, push, pushBytes]
  by_cases hroom : s.available < (bigEndian w.bytes value.toNat).length
  · simp only [if_pos hroom]
  · have hfits : (bigEndian w.bytes value.toNat).length ≤ s.pointer + 1 := by
      have hbottom := h.bottom_le
      unfold available at hroom
      omega
    simp only [if_neg hroom, h.foldlM_checkedPushByte hfits, Checked.ok_bind]

def checkedPop (s : Stack) (w : Width) : Checked (Outcome Stack StackFault (BitVec w.bits)) := do
  let depth ← s.checkedDepth
  if depth < w.bytes then
    .ok (.refuse s (.underflow w.bytes depth) (.underflow s.pointer w.bytes))
  else
    let (newest, rest) ← checkedTake w.bytes s
    .ok (.done rest (BitVec.ofNat w.bits (ofBigEndian newest.reverse)))

theorem InRange.checkedPop_eq (h : s.InRange) (w : Width) :
    s.checkedPop w = .ok (s.pop w) := by
  rw [checkedPop, h.checkedDepth_eq, Checked.ok_bind]
  by_cases hused : w.bytes ≤ s.depth
  · have htaken : w.bytes ≤ s.top - s.pointer := by
      have hpointer := h.pointer_le
      unfold depth at hused
      omega
    rw [if_neg (Nat.not_lt.mpr hused), h.checkedTake_eq htaken, Checked.ok_bind, pop_of_le hused]
  · rw [if_pos (Nat.lt_of_not_le hused), pop_of_lt (Nat.lt_of_not_le hused)]

/-! ## Steps and sessions -/

def checkedAct (step : Step) (s : Stack) : Checked (Turn Stack Reply) :=
  match step with
  | .push w value => do .ok (.ofUnit .stack (← s.checkedPush w value))
  | .pop w => do .ok (.ofOutcome .stack (.unsigned w) (← s.checkedPop w))
  | .top => .ok (.answer s (.slot s.top))
  | .trace => .ok (.answer s (.text s.trace))

theorem InRange.checkedAct_eq (h : s.InRange) (step : Step) :
    checkedAct step s = .ok (Stack.act step s) := by
  cases step with
  | push w value => simp [checkedAct, Stack.act, h.checkedPush_eq]
  | pop w => simp [checkedAct, Stack.act, h.checkedPop_eq]
  | top => rfl
  | trace => rfl

def checkedStanding (t : Turn Stack Reply) : Checked Standing := do
  let depth ← t.state.checkedDepth
  let available ← t.state.checkedAvailable
  .ok ⟨t.state.pointer, depth, available, t.reply⟩

theorem checkedStanding_eq {t : Turn Stack Reply} (h : t.state.InRange) :
    checkedStanding t = .ok (standing t) := by
  simp [checkedStanding, h.checkedDepth_eq, h.checkedAvailable_eq, standing]

/-- A session on a stack that is opened over a buffer, or the fault if it cannot be opened. -/
def checkedSession (memory : Buffer) (start : BitVec 16) (steps : List Step) :
    Checked (Except StackFault (Session Stack Standing)) :=
  match Stack.ofBuffer memory start with
  | .error fault => .ok (.error fault)
  | .ok opened => do
    let session ← Session.checkedRun checkedAct checkedStanding steps opened
    .ok (.ok session)

/-- **No session on a stack traps**, over whatever buffer and at whatever pointer. -/
theorem checkedSession_eq (memory : Buffer) (start : BitVec 16) (steps : List Step) :
    checkedSession memory start steps =
      .ok ((Stack.ofBuffer memory start).map (Session.run Stack.act standing steps)) := by
  rw [checkedSession]
  by_cases h : start.toNat < memory.size
  · have hopened := ofBuffer_eq_ok_iff.mpr ⟨h, rfl⟩
    have hrun : Session.checkedRun checkedAct checkedStanding steps
        ⟨memory, start.toNat, start.toNat⟩ =
          .ok (Session.run Stack.act standing steps ⟨memory, start.toNat, start.toNat⟩) :=
      Session.checkedRun_eq (P := fun s => ∃ low, s.Confined memory start low)
        (fun step s ⟨low, hs⟩ => hs.inRange.checkedAct_eq step)
        (fun t ⟨low, ht⟩ => checkedStanding_eq ht.inRange)
        (fun step s ⟨low, hs⟩ => ⟨_, hs.act step⟩) steps ⟨_, confined_ofBuffer h⟩
    rw [hopened, Except.map]
    simp only [hrun, Checked.ok_bind]
  · rw [Stack.ofBuffer, if_neg h]
    rfl

end Stack

end Datapath
