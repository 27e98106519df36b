import Datapath.CommandLine.Evaluate
import Datapath.CommandLine.Push
import Datapath.Proofs.Safety.Machine

/-!
# The commands never trap

The two commands that compute, over primitives that have a domain: the one that evaluates an
operation and the one that pushes values and pops them again. Pushing prints a slice of the memory
after each value, which lies between the new pointer and the old one. Popping goes on as long as a pop
succeeds; each takes a byte at least, so a loop with more rounds than bytes in use comes to its own
end, and running out of rounds is counted as a trap (`Trap.endless`).

`never_traps` puts together what the modules before have said about their parts.
-/

set_option autoImplicit false

namespace Datapath

open CommandLine (AluRequest AluReport PushRequest)

namespace CommandLine

/-! ## Evaluating an operation -/

def AluRequest.checkedEvaluate (r : AluRequest) :
    Checked (Except ArithmeticFault AluReport) := do
  let sized ← StatusWord.clear.checkedWrite .width r.width
  let status ← sized.checkedAssign .carry r.carry
  let run ← (⟨r.a, r.b, status⟩ : Operands).checkedApply r.op
  .ok <| run.result.map fun () =>
    { op := r.op, a := r.a, b := r.b, width := r.width
      result := run.state.target, operand := run.state.operand, status := run.state.status }

@[simp] theorem AluRequest.checkedEvaluate_eq (r : AluRequest) :
    r.checkedEvaluate = .ok r.evaluate := by
  simp [AluRequest.checkedEvaluate, AluRequest.evaluate, AluRequest.status]

/-- What a report shows, after the bits of the width, the four flags and, for people, every field of
the status word were read. -/
def AluReport.checkedShow (r : AluReport) (json : Bool) : Checked (List String) := do
  let _ ← r.width.checkedBits
  Named.all.forM fun flag => do
    let _ ← r.status.checkedFlag flag
    .ok ()
  if json then .ok [r.document.pretty]
  else do
    let _ ← r.status.checkedTrace
    .ok r.lines

@[simp] theorem AluReport.checkedShow_eq (r : AluReport) (json : Bool) :
    r.checkedShow json = .ok (if json then [r.document.pretty] else r.lines) := by
  cases json <;> simp [AluReport.checkedShow, Named.all]

def AluRequest.checkedRun (r : AluRequest) : Checked Transcript := do
  match ← r.checkedEvaluate with
  | .error fault => .ok (.failed (Transcript.complaint (Named.name r.op ++ ": " ++ fault.message)))
  | .ok report => do .ok (.printed (← report.checkedShow r.json))

theorem AluRequest.checkedRun_eq (r : AluRequest) : r.checkedRun = .ok r.run := by
  rw [AluRequest.checkedRun, AluRequest.checkedEvaluate_eq, Checked.ok_bind, AluRequest.run]
  cases r.evaluate with
  | error fault => rfl
  | ok report => simp

/-! ## Pushing values -/

section

variable {memory : Buffer} {start : BitVec 16} {low : Int} {s : Stack} {w : Width}

/-- The bytes of the last push, sliced out from just above the pointer. -/
def checkedLastPushed (w : Width) (s : Stack) : Checked (List Byte) := do
  let first ← Checked.span (s.pointer + 1)
  let bits ← w.checkedBits
  let stop ← Checked.sum first (bits / 8)
  Checked.slice s.memory first stop

theorem checkedLastPushed_eq (h : s.InRange) (hused : w.bytes ≤ s.depth) :
    checkedLastPushed w s = .ok (lastPushed w s) := by
  obtain ⟨hbottom, hpointer, hsize, htop⟩ := h
  have hbytes : w.bits / 8 = w.bytes := by
    rw [w.bits_eq, Nat.mul_div_cancel_left _ (by decide)]
  have hlast : (s.pointer + 1).toNat + w.bytes ≤ (s.top + 1).toNat := by
    unfold Stack.depth at hused
    omega
  rw [checkedLastPushed, Checked.span_of (by omega) (by omega), Checked.ok_bind,
    Width.checkedBits_eq, Checked.ok_bind, hbytes, Checked.sum, Checked.within_of (by omega),
    Checked.ok_bind, Checked.slice, Checked.within_of (by omega), lastPushed]

theorem bytes_le_depth_push (h : s.InRange) {value : BitVec w.bits}
    (hok : (s.push w value).result = .ok ()) : w.bytes ≤ (s.push w value).state.depth := by
  have hpointer := h.pointer_le
  rw [Stack.push_of_le value (Stack.room_of_push_ok hok)]
  show w.bytes ≤ ((bigEndian w.bytes value.toNat).foldl Stack.pushByte s).depth
  rw [Stack.depth, Stack.top_foldl_pushByte, Stack.pointer_foldl_pushByte, length_bigEndian]
  omega

def checkedPushAll (w : Width) :
    List Cell → Stack → Checked (List Pushed × Option (Cell × StackFault) × Stack)
  | [], s => .ok ([], none, s)
  | value :: rest, s => do
    let run ← s.checkedPush w (Cell.unsigned w value)
    match run.result with
    | .error fault => .ok ([], some (value, fault), run.state)
    | .ok () => do
      let bytes ← checkedLastPushed w run.state
      let (pushed, refused, last) ← checkedPushAll w rest run.state
      .ok (⟨value, run.state.pointer, bytes⟩ :: pushed, refused, last)

/-- No push of a series traps, and the stack that it leaves is still confined. -/
theorem checkedPushAll_eq (h : s.Confined memory start low) (values : List Cell) :
    checkedPushAll w values s = .ok (pushAll w values s) ∧
      ∃ low', (pushAll w values s).2.2.Confined memory start low' := by
  induction values generalizing s low with
  | nil => exact ⟨rfl, low, h⟩
  | cons value rest ih =>
    have hstate : (s.push w (Cell.unsigned w value)).state.Confined memory start _ :=
      h.act (.push w (Cell.unsigned w value))
    rw [checkedPushAll, h.inRange.checkedPush_eq, Checked.ok_bind, pushAll]
    cases hresult : (s.push w (Cell.unsigned w value)).result with
    | error fault => exact ⟨rfl, _, hstate⟩
    | ok done =>
      have hbytes := checkedLastPushed_eq hstate.inRange (bytes_le_depth_push h.inRange hresult)
      obtain ⟨hrest, hlast⟩ := ih hstate
      exact ⟨by simp only [hbytes, hrest, Checked.ok_bind], hlast⟩

/-- The loop that pops; it should end before its rounds do. -/
def checkedPopAll (w : Width) :
    Nat → Stack → Checked (List Popped × Option StackFault × Stack)
  | 0, _ => .error .endless
  | rounds + 1, s => do
    let run ← s.checkedPop w
    match run.result with
    | .error (.underflow _ _) => .ok ([], none, run.state)
    | .error fault => .ok ([], some fault, run.state)
    | .ok value => do
      let (popped, broken, last) ← checkedPopAll w rounds run.state
      .ok (⟨value.toNat, run.state.pointer⟩ :: popped, broken, last)

theorem depth_pop_lt {value : BitVec w.bits} (hok : (s.pop w).result = .ok value) :
    (s.pop w).state.depth < s.depth := by
  have hpos := w.bytes_pos
  have hused := Stack.used_of_pop_ok hok
  rw [Stack.pop_of_le hused]
  show (Stack.dropBytes w.bytes s).depth < s.depth
  rw [Stack.dropBytes_eq]
  unfold Stack.depth at hused ⊢
  show (s.top - (s.pointer + w.bytes)).toNat < (s.top - s.pointer).toNat
  omega

/-- With more rounds than there are bytes in use the loop ends by itself and does not trap. -/
theorem checkedPopAll_eq {rounds : Nat} (h : s.Confined memory start low)
    (hrounds : s.depth < rounds) :
    checkedPopAll w rounds s = .ok (popAll w rounds s) ∧
      ∃ low', (popAll w rounds s).2.2.Confined memory start low' := by
  induction rounds generalizing s low with
  | zero => exact absurd hrounds (Nat.not_lt_zero _)
  | succ rounds ih =>
    have hstate : (s.pop w).state.Confined memory start _ := h.act (.pop w)
    rw [checkedPopAll, h.inRange.checkedPop_eq, Checked.ok_bind, popAll]
    cases hresult : (s.pop w).result with
    | error fault =>
      cases fault <;> exact ⟨rfl, _, hstate⟩
    | ok value =>
      have hless := depth_pop_lt hresult
      obtain ⟨hrest, hlast⟩ := ih hstate (by omega)
      exact ⟨by simp only [hrest, Checked.ok_bind], hlast⟩

end

def PushRequest.checkedEvaluate (r : PushRequest) :
    Checked (Except PushRequest.Refusal PushReport) :=
  if r.pointer.toNat < RegisterFile.stackSize then
    match Stack.ofBuffer (.filled RegisterFile.stackSize 0#8) (r.pointer.setWidth 16) with
    | .error fault => .ok (.error (.stack fault))
    | .ok fresh => do
      let (pushed, refused, full) ← checkedPushAll r.width r.values fresh
      let (popped, broken, last) ←
        if r.pop then do
          let used ← full.checkedDepth
          checkedPopAll r.width (used + 1) full
        else .ok ([], none, full)
      let depth ← last.checkedDepth
      let available ← last.checkedAvailable
      .ok (.ok ⟨pushed, refused, popped, broken, depth, available⟩)
  else .ok (.error (.pointer r.pointer))

theorem PushRequest.checkedEvaluate_eq (r : PushRequest) :
    r.checkedEvaluate = .ok r.evaluate := by
  rw [PushRequest.checkedEvaluate, PushRequest.evaluate]
  by_cases hpointer : r.pointer.toNat < RegisterFile.stackSize
  · rw [if_pos hpointer, if_pos hpointer]
    cases hopened : Stack.ofBuffer (.filled RegisterFile.stackSize 0#8) (r.pointer.setWidth 16) with
    | error fault => rfl
    | ok fresh =>
      obtain ⟨hstart, hfresh⟩ := Stack.ofBuffer_eq_ok_iff.mp hopened
      have hconfined := Stack.confined_ofBuffer hstart
      rw [← hfresh] at hconfined
      obtain ⟨hpush, low, hfull⟩ := checkedPushAll_eq (w := r.width) hconfined r.values
      have hused := hfull.inRange.checkedDepth_eq
      have hfree := hfull.inRange.checkedAvailable_eq
      by_cases hpop : r.pop
      · obtain ⟨hloop, low', hlast⟩ :=
          checkedPopAll_eq (w := r.width) hfull (Nat.lt_succ_self _)
        simp only [hpush, Checked.ok_bind, hpop, if_true, hused, hloop,
          hlast.inRange.checkedDepth_eq, hlast.inRange.checkedAvailable_eq]
      · simp only [hpush, Checked.ok_bind, hpop, hused, hfree, Bool.false_eq_true, if_false]
  · rw [if_neg hpointer, if_neg hpointer]

def PushRequest.checkedRun (r : PushRequest) : Checked Transcript := do
  match ← r.checkedEvaluate with
  | .error refusal => .ok (.failed (Transcript.complaint refusal.message))
  | .ok report => .ok report.transcript

theorem PushRequest.checkedRun_eq (r : PushRequest) : r.checkedRun = .ok r.run := by
  rw [PushRequest.checkedRun, PushRequest.checkedEvaluate_eq, Checked.ok_bind, PushRequest.run]
  cases r.evaluate <;> rfl

end CommandLine

/-! ## The whole core -/

/-- **The core never traps.** Over primitives that stop the program outside their domain, every
operation on whatever operands, every session on a status word, on a stack over any buffer and on the
whole machine, and every run of the two commands goes through to the end. What it gives is what the
core gives: a value, or one of the faults that the core has a type for. -/
theorem never_traps :
    (∀ (op : AluOp) (x : Operands), x.checkedApply op = .ok (x.apply op)) ∧
    (∀ (steps : List StatusWord.Step) (w : StatusWord),
      Session.checkedRun StatusWord.checkedAct .ok steps w =
        .ok (Session.run StatusWord.act id steps w)) ∧
    (∀ (memory : Buffer) (start : BitVec 16) (steps : List Stack.Step),
      Stack.checkedSession memory start steps =
        .ok ((Stack.ofBuffer memory start).map (Session.run Stack.act Stack.standing steps))) ∧
    (∀ (steps : List Machine.Step) (m : Machine),
      Session.checkedRun Machine.checkedAct .ok steps m =
        .ok (Session.run Machine.act id steps m)) ∧
    (∀ r : AluRequest, r.checkedRun = .ok r.run) ∧
    ∀ r : PushRequest, r.checkedRun = .ok r.run := by
  refine ⟨fun op x => x.checkedApply_eq op, ?_, Stack.checkedSession_eq, Machine.checkedRun_eq,
    AluRequest.checkedRun_eq, PushRequest.checkedRun_eq⟩
  intro steps w
  exact Session.checkedRun_eq (P := fun _ => True) (fun step w _ => StatusWord.checkedAct_eq step w)
    (fun _ _ => rfl) (fun _ _ _ => trivial) steps trivial

end Datapath
