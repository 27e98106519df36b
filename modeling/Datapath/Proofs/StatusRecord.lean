import Datapath.Proofs.Session
import Datapath.Session.Status
import Mathlib.Logic.Function.Basic

/-!
# The status word as a record

The thirteen fields share one pattern of bits, and nothing in the pattern keeps them apart but the
positions. Read as a record, the word has no such tie: its fields can hold any values together, a
step fills the fields it is meant for and no others, and after a session each field holds what was
put into it last.

The step lemma is `read_act`, with one case for each step; `read_run` carries it over a session. The
rest follows from these two: a record can be written into any word, field by field and in any order,
and is read back whole.
-/

set_option autoImplicit false

namespace Datapath

/-! ## Records with one field filled -/

namespace Field

/-- The record that holds a value in one field and nothing in the others. -/
def only (f : Field) (v : f.Value) (g : Field) : Option g.Value :=
  if h : f = g then some (h ▸ v) else none

@[simp] theorem only_self (f : Field) (v : f.Value) : only f v f = some v := by
  rw [only, dif_pos rfl]

theorem only_of_ne {f g : Field} (v : f.Value) (h : f ≠ g) : only f v g = none := by
  rw [only, dif_neg h]

end Field

/-! ## Choosing by a raw byte -/

/-- The greatest byte that a choice accepts: the place of its last value. -/
def Choice.greatest (c : Choice) : Nat :=
  (Named.all : List c.field.Value).length - 1

/-- What a choice is about, as error messages put it. -/
def Choice.label (c : Choice) : String :=
  Selector.label c.field.Value

/-- The value that a byte names: the one at that place of the list, if there is one. -/
def Choice.named? (c : Choice) (value : Byte) : Option c.field.Value :=
  Named.all[value.toNat]?

namespace Choice

/-- The fields that choices fill hold all patterns of two or three bits, so the last place is the
greatest code. -/
theorem greatest_eq (c : Choice) : c.greatest = Coded.greatest c.field.Value := by
  cases c <;> rfl

theorem named?_of_lt {c : Choice} {value : Byte} (h : c.greatest < value.toNat) :
    c.named? value = none := by
  have hlength : (Named.all : List c.field.Value).length = c.greatest + 1 := by cases c <;> rfl
  rw [named?]
  refine List.getElem?_eq_none ?_
  rw [hlength]
  exact h

/-- Place and code say the same, so a byte that names a value is its code. -/
theorem named?_of_le {c : Choice} {value : Byte} (h : value.toNat ≤ c.greatest) :
    c.named? value = some (Coded.decode (value.setWidth (Coded.size c.field.Value))) := by
  have hall : (Named.all : List c.field.Value) =
      (List.range (c.greatest + 1)).map fun i => Coded.decode (BitVec.ofNat _ i) := by
    cases c <;> rfl
  have hplace : (List.range (c.greatest + 1))[value.toNat]? = some value.toNat :=
    List.getElem?_range (Nat.lt_succ_of_le h)
  rw [named?, hall, List.getElem?_map, hplace, Option.map_some, BitVec.ofNat_toNat]

/-- A byte is accepted if it names a value, and refused with the bound that it broke otherwise. -/
theorem ofByte_eq (c : Choice) (value : Byte) :
    (Selector.ofByte value : Except SelectorFault c.field.Value) =
      match c.named? value with
      | some v => .ok v
      | none => .error ⟨c.label, value, c.greatest⟩ := by
  have hbound : @Coded.greatest c.field.Value c.selector.toCoded = c.greatest := by
    cases c <;> rfl
  rw [Selector.ofByte, hbound]
  by_cases h : value.toNat ≤ c.greatest
  · rw [if_pos h, named?_of_le h]
    cases c <;> rfl
  · rw [if_neg h, named?_of_lt (Nat.lt_of_not_le h)]
    rfl

end Choice

namespace StatusWord

/-! ## What a step puts into a field -/

/-- What a step puts into the fields. A question and a refused byte put nothing anywhere, a whole
new pattern fills every field. -/
def Step.written : Step → (f : Field) → Option f.Value
  | .replace pattern, f => some (StatusWord.read ⟨pattern⟩ f)
  | .reset, f => some (StatusWord.clear.read f)
  | .assign .carry on, f => Field.only .carry on f
  | .assign .overflow on, f => Field.only .overflow on f
  | .assign .zero on, f => Field.only .zero on f
  | .assign .negative on, f => Field.only .negative on f
  | .write g v, f => Field.only g v f
  | .select c value, f => (c.named? value).bind fun v => Field.only c.field v f
  | _, _ => none

theorem read_write_eq (w : StatusWord) (g : Field) (v : g.Value) (f : Field) :
    (w.write g v).read f = (Field.only g v f).getD (w.read f) := by
  by_cases h : g = f
  · subst h
    rw [read_write, Field.only_self, Option.getD_some]
  · rw [read_write_of_ne w v h, Field.only_of_ne v h, Option.getD_none]

/-- A choice writes the value that the byte names, and nothing when there is none. -/
theorem select_eq (w : StatusWord) (c : Choice) (value : Byte) :
    w.select c value =
      match c.named? value with
      | some v => .done (w.write c.field v) ()
      | none => .refuse w ⟨c.label, value, c.greatest⟩ (.refused ⟨c.label, value, c.greatest⟩) := by
  rw [select, Choice.ofByte_eq]
  cases c.named? value <;> rfl

/-- **One step.** A field holds what the step put into it, and what it held before if the step put
nothing there. -/
theorem read_act (step : Step) (w : StatusWord) (f : Field) :
    (act step w).state.read f = (step.written f).getD (w.read f) := by
  cases step with
  | assign flag on =>
    cases flag with
    | carry => exact read_write_eq w .carry on f
    | overflow => exact read_write_eq w .overflow on f
    | zero => exact read_write_eq w .zero on f
    | negative => exact read_write_eq w .negative on f
  | write g v => exact read_write_eq w g v f
  | select c value =>
    have hstate : (act (.select c value) w).state = (w.select c value).state := rfl
    rw [hstate, select_eq, Step.written]
    cases c.named? value with
    | none => rfl
    | some v => exact read_write_eq w c.field v f
  | _ => rfl

/-! ## Sessions -/

variable {β : Type} (observe : Turn StatusWord Reply → β)

/-- **A session.** A field holds what was put into it last, and what it held at the start if nothing
was. -/
theorem read_run (steps : List Step) (w : StatusWord) (f : Field) :
    (Session.run act observe steps w).last.read f =
      ((steps.filterMap (Step.written · f)).getLast?).getD (w.read f) := by
  induction steps generalizing w with
  | nil => rfl
  | cons step rest ih =>
    rw [Session.run_cons, ih, read_act]
    -- What the step puts there is where the rest starts, and stays if the rest puts nothing there.
    cases hput : step.written f with
    | none => rw [List.filterMap_cons, hput, Option.getD_none]
    | some v =>
      rw [List.filterMap_cons, hput, List.getLast?_cons, Option.getD_some, Option.getD_some]

/-! ## Writing a record -/

/-- The steps that write a record into a word, field by field in some order. -/
def fillSteps (r : (f : Field) → f.Value) (order : List Field) : List Step :=
  order.map fun f => .write f (r f)

/-- Whatever the order, a field that is written holds what the record has there. -/
theorem read_run_fillSteps (r : (f : Field) → f.Value) {order : List Field} (w : StatusWord)
    {f : Field} (h : f ∈ order) :
    (Session.run act observe (fillSteps r order) w).last.read f = r f := by
  rw [read_run]
  have hput : ∀ v ∈ (fillSteps r order).filterMap (Step.written · f), v = r f := by
    intro v hv
    obtain ⟨step, hstep, hwritten⟩ := List.mem_filterMap.mp hv
    obtain ⟨g, -, rfl⟩ := List.mem_map.mp hstep
    by_cases heq : g = f
    · subst heq
      simpa [Step.written] using hwritten.symm
    · simp [Step.written, Field.only_of_ne _ heq] at hwritten
  have hsome : r f ∈ (fillSteps r order).filterMap (Step.written · f) := by
    refine List.mem_filterMap.mpr ⟨.write f (r f), List.mem_map_of_mem h, ?_⟩
    exact Field.only_self f (r f)
  -- Something is written there, and whatever is written there is the same, so the last write is.
  have hlast := List.getLast?_eq_some_getLast (List.ne_nil_of_mem hsome)
  rw [hlast, Option.getD_some]
  exact hput _ (List.getLast_mem _)

/-- Every record is the fields of a word, and of one word only. -/
theorem read_bijective : Function.Bijective fun (w : StatusWord) (f : Field) => w.read f := by
  constructor
  · intro w z h
    exact ext_read fun f => congrFun h f
  · intro r
    refine ⟨(Session.run act id (fillSteps r Field.all) .clear).last, ?_⟩
    funext f
    exact read_run_fillSteps id r .clear f.mem_all

/-! ## Independence -/

/-- A byte up to the bound writes the value whose code it is; a byte beyond it is refused and leaves
the word as it was. -/
theorem select_iff (w : StatusWord) (c : Choice) (value : Byte) :
    if value.toNat ≤ c.greatest then
      ∃ v, (Coded.code v).toNat = value.toNat ∧
        w.select c value = .done (w.write c.field v) ()
    else
      w.select c value =
        .refuse w ⟨c.label, value, c.greatest⟩ (.refused ⟨c.label, value, c.greatest⟩) := by
  rw [select_eq]
  by_cases h : value.toNat ≤ c.greatest
  · rw [if_pos h, Choice.named?_of_le h]
    refine ⟨_, ?_, rfl⟩
    have hfits : value.toNat < 2 ^ Coded.size c.field.Value := by
      have hgreatest := c.greatest_eq
      rw [Coded.greatest, BitVec.toNat_allOnes] at hgreatest
      have hpos := Nat.two_pow_pos (Coded.size c.field.Value)
      omega
    rw [Coded.code_decode, BitVec.toNat_setWidth, Nat.mod_eq_of_lt hfits]
  · rw [if_neg h, Choice.named?_of_lt (Nat.lt_of_not_le h)]

/-- **A word is a record of independent fields.** Its thirteen fields can hold any values together
and leave nothing else in the word; after any session each field holds what was put into it last; a
choice accepts the bytes up to its bound and a byte beyond it changes nothing; and the fields of one
word, written into another in any order, make it the first. -/
theorem independent_fields :
    (Function.Bijective fun (w : StatusWord) (f : Field) => w.read f) ∧
    (∀ (steps : List Step) (w : StatusWord) (f : Field),
      (Session.run act observe steps w).last.read f =
        ((steps.filterMap (Step.written · f)).getLast?).getD (w.read f)) ∧
    (∀ (w : StatusWord) (c : Choice) (value : Byte),
      if value.toNat ≤ c.greatest then
        ∃ v, (Coded.code v).toNat = value.toNat ∧
          w.select c value = .done (w.write c.field v) ()
      else
        w.select c value =
          .refuse w ⟨c.label, value, c.greatest⟩ (.refused ⟨c.label, value, c.greatest⟩)) ∧
    ∀ (x y : StatusWord) (order : List Field), (∀ f, f ∈ order) →
      (Session.run act observe (fillSteps x.read order) y).last = x := by
  refine ⟨read_bijective, read_run observe, select_iff, ?_⟩
  intro x y order hall
  exact ext_read fun f => read_run_fillSteps observe x.read y (hall f)

/-- Written from the lowest bits upwards, the fields of one word replace another. -/
theorem independent_fields_upwards :
    (∀ f, f ∈ Field.all.reverse) ∧
      (Session.run act id (fillSteps (StatusWord.mk 0xa7c3915e#32).read Field.all.reverse)
        ⟨0x583c6ea1#32⟩).last = ⟨0xa7c3915e#32⟩ := by
  have hall : ∀ f, f ∈ Field.all.reverse := fun f => List.mem_reverse.mpr f.mem_all
  exact ⟨hall, (independent_fields id).2.2.2 _ _ Field.all.reverse hall⟩

end StatusWord

end Datapath
