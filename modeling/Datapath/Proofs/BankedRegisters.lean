import Datapath.Proofs.Dependence
import Datapath.Proofs.Execute
import Datapath.Proofs.StatusRecord
import Datapath.Session.Machine

/-!
# Banked and selected registers

An executor stores through the status word: into the pointer and the counter whose bank is active,
and into the general register that is selected. Which ones these are is held in three fields of the
word, and every operation rewrites the same word.

The three fields change only when a step selects (`read_status_act`), a banked register only when a
step stores while its bank is active (`get_group_act`), and a general register only when a step writes
it (`get_act_of_not_writes`). Carried over a run, each banked register holds what was stored into it
last while it was active, each of the three fields what was selected last, and the selected register
the cell that was stored in it for as long as no step writes it; what is asked for is always the
register that is active then.
-/

set_option autoImplicit false

namespace Datapath

/-! ## The steps of an executor -/

/-- A step that changes the status word, flag by flag or field by field. -/
inductive StatusWord.Mutation
  | assign (flag : Flag) (on : Bool)
  | write (f : Field) (v : f.Value)
  | select (c : Choice) (value : Byte)

/-- The mutation as a step of a session on a status word. -/
def StatusWord.Mutation.step : Mutation → StatusWord.Step
  | assign flag on => .assign flag on
  | write f v => .write f v
  | select c value => .select c value

namespace Machine

/-- A step of an executor: it runs an operation, changes the status word, stores into an active, a
selected or a named register, or moves the program counter on. -/
inductive Drive
  | execute (op : AluOp) (target source : Register)
  | status (mutation : StatusWord.Mutation)
  | storePointer (v : BitVec 32)
  | storeCounter (v : BitVec 32)
  | selected (step : Cell.Step)
  | general (r : Register) (step : Cell.Step)
  | advance (n : BitVec 32)

namespace Drive

/-- The step of a session on the machine that an executor takes. -/
def step : Drive → Step
  | execute op target source => .execute op target source
  | status mutation => .status mutation.step
  | storePointer v => .setPointer v
  | storeCounter v => .setCounter v
  | selected step => .selected step
  | general r step => .general r step
  | advance n => .advance n

/-- What the step puts into a field of the status word by name. -/
def written : Drive → (f : Field) → Option f.Value
  | status mutation, f => mutation.step.written f
  | _, _ => none

/-- What the step stores into a register of a group, if the register's bank is active. -/
def stored? (drive : Drive) (st : StatusWord) (g : Group) (b : Bank) : Option g.Value :=
  match drive, g with
  | storePointer v, .pointers => if st.read .pointerBank = b then some v else none
  | storeCounter v, .counters => if st.read .counterBank = b then some v else none
  | _, _ => none

/-- The step may change a general register, as the status word selects when it is taken. -/
def Writes (drive : Drive) (st : StatusWord) (r : Register) : Prop :=
  match drive with
  | execute op target source => (Instruction.mk op target source).Writes r
  | selected _ => r = st.read .register
  | general s _ => r = s
  | _ => False

instance (drive : Drive) (st : StatusWord) (r : Register) : Decidable (drive.Writes st r) :=
  match drive with
  | execute op target source => inferInstanceAs (Decidable ((Instruction.mk op target source).Writes r))
  | selected _ => inferInstanceAs (Decidable (r = st.read .register))
  | general s _ => inferInstanceAs (Decidable (r = s))
  | status _ | storePointer _ | storeCounter _ | advance _ => .isFalse id

end Drive

/-- The fields that say which registers are active and which is selected. -/
def steering : List Field := [.register, .pointerBank, .counterBank]

/-- Everything that a run stores into a register of a group, in order. The bank is looked at when a
step stores, so the list follows the states of the run. -/
def stores (g : Group) (b : Bank) : List Drive → Machine → List g.Value
  | [], _ => []
  | drive :: rest, m =>
    (drive.stored? m.file.status g b).toList ++ stores g b rest (act drive.step m).state

/-- No step of a run writes a general register. What is selected is looked at when a step is taken. -/
def Untouched (r : Register) : List Drive → Machine → Prop
  | [], _ => True
  | drive :: rest, m =>
    ¬ drive.Writes m.file.status r ∧ Untouched r rest (act drive.step m).state

instance decidableUntouched (r : Register) :
    (drives : List Drive) → (m : Machine) → Decidable (Untouched r drives m)
  | [], _ => .isTrue trivial
  | drive :: rest, m =>
    have := decidableUntouched r rest (act drive.step m).state
    inferInstanceAs (Decidable (_ ∧ _))

/-! ## One step -/

theorem not_mem_steering_of_mem_writes {op : AluOp} {f : Field} (h : f ∈ op.writes) :
    f ∉ steering := by
  revert h
  cases op <;> cases f <;> decide

theorem file_act_execute (m : Machine) (op : AluOp) (target source : Register) :
    (act (.execute op target source) m).state.file = (m.file.execute op target source).state := rfl

/-- An operation keeps the fields that say what is active. -/
theorem sameOn_steering_execute (f : RegisterFile) (op : AluOp) (target source : Register) :
    StatusWord.SameOn steering (f.execute op target source).state.status f.status := by
  rw [RegisterFile.status_execute]
  exact Operands.sameOn_apply_left _ fun g hg => not_mem_steering_of_mem_writes hg

/-- **One step and what is active.** The active banks and the selected register are what a step puts
there by name, and stay what they were if it puts nothing there. -/
theorem read_status_act (drive : Drive) (m : Machine) {f : Field} (hf : f ∈ steering) :
    (act drive.step m).state.file.status.read f =
      (drive.written f).getD (m.file.status.read f) := by
  cases drive with
  | execute op target source => exact sameOn_steering_execute m.file op target source f hf
  | status mutation => exact StatusWord.read_act mutation.step m.file.status f
  | _ => rfl

/-- **One step and a banked register.** It holds what the step stores into it, and what it held
before if the step stores nothing there. -/
theorem get_group_act (drive : Drive) (m : Machine) (g : Group) (b : Bank) :
    ((act drive.step m).state.file.group g).get b =
      (drive.stored? m.file.status g b).getD ((m.file.group g).get b) := by
  have hput : ∀ {α : Type} (p : Banked α) (active : Bank) (v : α),
      (p.put active v).get b = (if active = b then some v else none).getD (p.get b) := by
    intro α p active v
    by_cases h : active = b
    · rw [if_pos h, h, Banked.get_put, Option.getD_some]
    · rw [if_neg h, Banked.get_put_of_ne p v h, Option.getD_none]
  cases drive with
  | execute op target source =>
    rw [Drive.step, file_act_execute,
      (RegisterFile.sameFrame_execute m.file op target source).group g]
    rfl
  | storePointer v =>
    cases g with
    | pointers => exact hput m.file.pointers m.file.status.pointerBank v
    | _ => rfl
  | storeCounter v =>
    cases g with
    | counters => exact hput m.file.counters m.file.status.counterBank v
    | _ => rfl
  | _ => cases g <;> rfl

/-- A step on the selected register changes the register that the word selects then, as a step on a
cell does, and no other. -/
theorem get_act_selected (step : Cell.Step) (m : Machine) (r : Register) :
    (act (.selected step) m).state.file.general.get r =
      if r = m.file.status.read .register then (Cell.act step (m.file.general.get r)).state
      else m.file.general.get r := by
  have hfile : (act (.selected step) m).state.file =
      m.file.putGeneral (m.file.status.read .register)
        (Cell.act step (m.file.general.get (m.file.status.read .register))).state := rfl
  rw [hfile, RegisterFile.putGeneral]
  by_cases h : r = m.file.status.read .register
  · rw [if_pos h, h, GeneralRegisters.get_put]
  · rw [if_neg h, GeneralRegisters.get_put_of_ne _ _ (Ne.symm h)]

/-- A cell that is stored in the selected register is what it holds then. -/
theorem get_act_selected_replace (c : Cell) (m : Machine) (r : Register) :
    (act (.selected (.replace c)) m).state.file.general.get r =
      if r = m.file.status.read .register then c else m.file.general.get r :=
  get_act_selected (.replace c) m r

/-- **One step and a general register.** It keeps what it holds unless the step writes it. -/
theorem get_act_of_not_writes {drive : Drive} {m : Machine} {r : Register}
    (h : ¬ drive.Writes m.file.status r) :
    (act drive.step m).state.file.general.get r = m.file.general.get r := by
  cases drive with
  | execute op target source =>
    exact RegisterFile.get_act_of_not_writes (i := ⟨op, target, source⟩) h m.file
  | selected step => exact (get_act_selected step m r).trans (if_neg h)
  | general s step => exact GeneralRegisters.get_put_of_ne _ _ (Ne.symm h)
  | _ => rfl

/-! ## Which steps select -/

theorem eq_of_only_eq_some {f g : Field} {u : g.Value} {v : f.Value}
    (h : Field.only g u f = some v) : g = f := by
  by_contra hne
  rw [Field.only_of_ne u hne] at h
  exact nomatch h

/-- What is put by name into one of the fields that steer is written there as a value, or chosen by a
raw byte within the bound. -/
theorem Drive.of_written {drive : Drive} {f : Field} (hf : f ∈ steering) {v : f.Value}
    (h : drive.written f = some v) :
    (∃ u, drive = .status (.write f u)) ∨
      ∃ c value, c.field = f ∧ value.toNat ≤ c.greatest ∧ drive = .status (.select c value) := by
  cases drive with
  | status mutation =>
    cases mutation with
    | assign flag on =>
      -- A condition flag is none of the three.
      cases flag <;> exact absurd (eq_of_only_eq_some h ▸ hf) (by decide)
    | write g u =>
      obtain rfl := eq_of_only_eq_some h
      exact .inl ⟨u, rfl⟩
    | select c value =>
      obtain ⟨u, hnamed, honly⟩ := Option.bind_eq_some_iff.mp h
      refine .inr ⟨c, value, eq_of_only_eq_some honly, ?_, rfl⟩
      by_contra hbound
      rw [Choice.named?_of_lt (Nat.lt_of_not_le hbound)] at hnamed
      exact nomatch hnamed
  | _ => exact nomatch h

/-- What is active changes only by being put there. -/
theorem Drive.of_read_ne {drive : Drive} {m : Machine} {f : Field} (hf : f ∈ steering)
    (h : (act drive.step m).state.file.status.read f ≠ m.file.status.read f) :
    (∃ u, drive = .status (.write f u)) ∨
      ∃ c value, c.field = f ∧ value.toNat ≤ c.greatest ∧ drive = .status (.select c value) := by
  rw [read_status_act drive m hf] at h
  cases hwritten : drive.written f with
  | none => exact absurd (by rw [hwritten, Option.getD_none]) h
  | some v => exact Drive.of_written hf hwritten

/-- A bank is never chosen by a raw byte. -/
theorem Drive.of_bank_ne {drive : Drive} {m : Machine} {f : Field} (hf : f ∈ steering)
    (hbank : ∀ c : Choice, c.field ≠ f)
    (h : (act drive.step m).state.file.status.read f ≠ m.file.status.read f) :
    ∃ u, drive = .status (.write f u) := by
  rcases Drive.of_read_ne hf h with hwritten | ⟨c, -, hc, -, -⟩
  · exact hwritten
  · exact absurd hc (hbank c)

theorem Drive.of_register_ne {drive : Drive} {m : Machine}
    (h : (act drive.step m).state.file.status.read .register ≠ m.file.status.read .register) :
    (∃ r, drive = .status (.write .register r)) ∨
      ∃ value, value.toNat ≤ Choice.register.greatest ∧
        drive = .status (.select .register value) := by
  rcases Drive.of_read_ne (by decide) h with hwritten | ⟨c, value, hc, hbound, hdrive⟩
  · exact .inl hwritten
  · cases c with
    | register => exact .inr ⟨value, hbound, hdrive⟩
    | _ => exact nomatch hc

/-! ## Runs -/

variable {β : Type} (observe : Turn Machine Answer → β)

theorem get_group_run (drives : List Drive) (m : Machine) (g : Group) (b : Bank) :
    ((Session.run act observe (drives.map Drive.step) m).last.file.group g).get b =
      ((stores g b drives m).getLast?).getD ((m.file.group g).get b) := by
  induction drives generalizing m with
  | nil => rfl
  | cons drive rest ih =>
    -- What this step stores is what the register holds when the rest begins.
    rw [List.map_cons, Session.run_cons, ih, get_group_act, stores]
    cases drive.stored? m.file.status g b with
    | none => rw [Option.toList_none, List.nil_append, Option.getD_none]
    | some v =>
      rw [Option.toList_some, List.singleton_append, List.getLast?_cons, Option.getD_some,
        Option.getD_some]

theorem read_status_run (drives : List Drive) (m : Machine) {f : Field} (hf : f ∈ steering) :
    (Session.run act observe (drives.map Drive.step) m).last.file.status.read f =
      ((drives.filterMap (Drive.written · f)).getLast?).getD (m.file.status.read f) := by
  induction drives generalizing m with
  | nil => rfl
  | cons drive rest ih =>
    rw [List.map_cons, Session.run_cons, ih, read_status_act drive m hf]
    cases hput : drive.written f with
    | none => rw [List.filterMap_cons, hput, Option.getD_none]
    | some v =>
      rw [List.filterMap_cons, hput, List.getLast?_cons, Option.getD_some, Option.getD_some]

theorem get_general_run {drives : List Drive} {m : Machine} {r : Register}
    (h : Untouched r drives m) :
    (Session.run act observe (drives.map Drive.step) m).last.file.general.get r =
      m.file.general.get r := by
  induction drives generalizing m with
  | nil => rfl
  | cons drive rest ih =>
    rw [List.map_cons, Session.run_cons, ih h.2, get_act_of_not_writes h.1]

/-- **A store into the selected register** lasts until a step writes that register, whatever is
selected in the meantime. -/
theorem get_general_run_replace (before : List Drive) (c : Cell) {after : List Drive} {m : Machine} :
    let opened := (Session.run act observe (before.map Drive.step) m).last
    let r := opened.file.status.read .register
    Untouched r after (act (.selected (.replace c)) opened).state →
      (Session.run act observe ((before ++ .selected (.replace c) :: after).map Drive.step)
        m).last.file.general.get r = c := by
  intro opened r h
  rw [List.map_append, List.map_cons, Session.last_append, Session.run_cons]
  exact (get_general_run observe h).trans ((get_act_selected_replace c opened r).trans (if_pos rfl))

/-- **Banked and selected registers.** After any run of an executor each banked register holds what
was stored into it last while its bank was active, and each of the fields that say what is active
holds what was selected last. What is asked for is the register of the bank that is active then: the
counters and their steps go with one bank bit, the other groups with the other. A store into the
selected register changes that register alone. A step that changes what is active selects it: a bank
by value only, the register by value or by a raw byte within the bound. And a cell that is stored in
the selected register stays there until a step writes that register, and is what is asked for whenever
the register is the selected one. -/
theorem banks_hold_last_store :
    (∀ (drives : List Drive) (m : Machine),
      let last := (Session.run act observe (drives.map Drive.step) m).last
      (∀ g b, (last.file.group g).get b =
        ((stores g b drives m).getLast?).getD ((m.file.group g).get b)) ∧
      (∀ f ∈ steering, last.file.status.read f =
        ((drives.filterMap (Drive.written · f)).getLast?).getD (m.file.status.read f)) ∧
      (∀ g ∈ [Group.pointers, .offsets, .indexes, .indexSteps], act (.active g) last =
        .answer last (.plain (.unsigned g.width
          ((last.file.group g).get (last.file.status.read .pointerBank))))) ∧
      ∀ g ∈ [Group.counters, .counterSteps], act (.active g) last =
        .answer last (.plain (.unsigned g.width
          ((last.file.group g).get (last.file.status.read .counterBank))))) ∧
    (∀ m : Machine,
      (∀ step,
        let after := (act (Drive.selected step).step m).state
        (∀ r, after.file.general.get r =
          if r = m.file.status.read .register then (Cell.act step (m.file.general.get r)).state
          else m.file.general.get r) ∧
        after = { m with file := { m.file with general := after.file.general } }) ∧
      ∀ drive : Drive,
        let after := (act drive.step m).state.file.status
        let before := m.file.status
        (after.read .pointerBank ≠ before.read .pointerBank →
          ∃ b, drive = .status (.write .pointerBank b)) ∧
        (after.read .counterBank ≠ before.read .counterBank →
          ∃ b, drive = .status (.write .counterBank b)) ∧
        (after.read .register ≠ before.read .register →
          (∃ r, drive = .status (.write .register r)) ∨
            ∃ value, value.toNat ≤ Choice.register.greatest ∧
              drive = .status (.select .register value))) ∧
    ∀ (before after : List Drive) (c : Cell) (m : Machine),
      let opened := (Session.run act observe (before.map Drive.step) m).last
      let r := opened.file.status.read .register
      let stored := (act (Drive.selected (.replace c)).step opened).state
      let last := (Session.run act observe
        ((before ++ .selected (.replace c) :: after).map Drive.step) m).last
      (∀ s, stored.file.general.get s = if s = r then c else opened.file.general.get s) ∧
      (Untouched r after stored →
        last.file.general.get r = c ∧
          (last.file.status.read .register = r →
            act .getSelected last = .answer last (.plain (.unsigned .w64 c)))) := by
  refine ⟨?_, ?_, ?_⟩
  · intro drives m last
    refine ⟨get_group_run observe drives m, fun f hf => read_status_run observe drives m hf, ?_, ?_⟩
    · intro g hg
      cases g <;> first | rfl | exact absurd hg (by decide)
    · intro g hg
      cases g <;> first | rfl | exact absurd hg (by decide)
  · intro m
    refine ⟨fun step => ⟨get_act_selected step m, rfl⟩, ?_⟩
    intro drive after before
    have hchoice : ∀ c : Choice, c.field ≠ .pointerBank ∧ c.field ≠ .counterBank := by
      intro c
      cases c <;> decide
    exact ⟨Drive.of_bank_ne (by decide) fun c => (hchoice c).1,
      Drive.of_bank_ne (by decide) fun c => (hchoice c).2, Drive.of_register_ne⟩
  · intro before after c m opened r stored last
    refine ⟨get_act_selected_replace c opened, fun h => ?_⟩
    have hcell : last.file.general.get r = c := get_general_run_replace observe before c h
    refine ⟨hcell, fun hselected => ?_⟩
    have hasked : act .getSelected last =
        .answer last (.plain (.unsigned .w64 (last.file.general.get (last.file.status.read .register)))) :=
      rfl
    rw [hasked, hselected, hcell]

/-- Both banks are stored into, with a sum and a refused choice in between: each keeps its own value,
the second one is asked for, and the register is what the accepted choice made it. A cell that is stored
in the third register lasts while another is selected, stored into and summed with it. -/
theorem banks_hold_last_store_by_turns :
    let drives : List Drive :=
      [.status (.write .pointerBank .set1), .storePointer 7#32, .execute .add .r0 .r1,
        .status (.select .register 9#8), .status (.write .pointerBank .set0), .storePointer 5#32,
        .status (.write .pointerBank .set1)]
    let last := (Session.run act id (drives.map Drive.step) (.initial 0)).last
    let choice : Drive := .status (.select .register 2#8)
    let after : List Drive :=
      [.status (.write .register .r1), .selected (.replace 4#64), .execute .add .r1 .r2,
        .status (.write .register .r2)]
    let chosen := (act choice.step (.initial 0)).state
    let kept := (Session.run act id
      (([choice] ++ .selected (.replace 9#64) :: after).map Drive.step) (.initial 0)).last
    (Field.pointerBank ∈ steering ∧ (act choice.step last).state.file.status.read .register ≠
        last.file.status.read .register) ∧
      ((last.file.group .pointers).get .set0 = 5#32 ∧
        (last.file.group .pointers).get .set1 = 7#32) ∧
      last.file.status.read .pointerBank = .set1 ∧
      act (.active .pointers) last = .answer last (.plain (.unsigned .w32 7#32)) ∧
      ((∃ r, choice = .status (.write .register r)) ∨
        ∃ value, value.toNat ≤ Choice.register.greatest ∧
          choice = .status (.select .register value)) ∧
      Untouched .r2 after (act (.selected (.replace 9#64)) chosen).state ∧
      kept.file.status.read .register = .r2 ∧
      kept.file.general.get .r1 = 13#64 ∧ kept.file.general.get .r2 = 9#64 ∧
      act .getSelected kept = .answer kept (.plain (.unsigned .w64 9#64)) := by
  intro drives last choice after chosen kept
  obtain ⟨hruns, hsteps, hstores⟩ := banks_hold_last_store id
  obtain ⟨hbanks, hfields, hactive, -⟩ := hruns drives (.initial 0)
  have hmem : Field.pointerBank ∈ steering := by decide
  have hchanged : (act choice.step last).state.file.status.read .register ≠
      last.file.status.read .register := by decide
  have hset1 : (last.file.group .pointers).get .set1 = 7#32 := (hbanks .pointers .set1).trans rfl
  have hbank : last.file.status.read .pointerBank = .set1 := (hfields .pointerBank hmem).trans rfl
  have hpointer : act (.active .pointers) last = .answer last (.plain (.unsigned .w32 7#32)) := by
    rw [hactive .pointers (by decide), hbank, hset1]
    rfl
  have huntouched : Untouched .r2 after (act (.selected (.replace 9#64)) chosen).state := by decide
  have hselected : kept.file.status.read .register = .r2 := by decide
  have hchosen : chosen.file.status.read .register = .r2 := by decide
  have hstored : Untouched (chosen.file.status.read .register) after
        (act (.selected (.replace 9#64)) chosen).state →
      kept.file.general.get (chosen.file.status.read .register) = 9#64 ∧
        (kept.file.status.read .register = chosen.file.status.read .register →
          act .getSelected kept = .answer kept (.plain (.unsigned .w64 9#64))) :=
    (hstores [choice] after 9#64 (.initial 0)).2
  rw [hchosen] at hstored
  obtain ⟨hcell, hasked⟩ := hstored huntouched
  exact ⟨⟨hmem, hchanged⟩, ⟨(hbanks .pointers .set0).trans rfl, hset1⟩, hbank, hpointer,
    ((hsteps last).2 choice).2.2 hchanged, huntouched, hselected, by decide, hcell, hasked hselected⟩

end Machine

end Datapath
