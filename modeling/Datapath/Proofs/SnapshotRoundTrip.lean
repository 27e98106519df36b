import Datapath.Session.Machine
import Datapath.Proofs.DocumentText
import Datapath.Proofs.Session

/-!
# A snapshot is read back

What a state is saved as spells that state and no other (`Snapshot.Faithful`). The text of a document
spells the value of the document, whatever the state is, so two things are left to show for each type
of state: its documents hold only plain words, and the value of a document is read as the state that
it was made from. `Snapshot.Lawful` is these two, and a group of registers has them from its parts.

The file is the one state whose document is a record, and its keys are looked up one by one in what
was read. They are found because no key stands there twice (`member?_fieldsToJson`), and each with the
value of its own register.

A machine whose file is loaded from its own snapshot is the machine it was, so reloading it at any
point of a session is not seen by anyone.
-/

set_option autoImplicit false

namespace Datapath

/-! ## Types of state that are read back -/

namespace Snapshot

/-- The documents of a type are plain, and their values are read back. -/
class Lawful (α : Type) [Snapshot α] : Prop where
  plain : ∀ a : α, (document a).Plain
  ofJson?_toJson : ∀ a : α, ofJson? (document a).toJson = some a

attribute [simp] Lawful.plain Lawful.ofJson?_toJson

/-- Every state is loaded from what it was saved as, and two states are never saved alike. -/
structure Faithful (α : Type) [Snapshot α] : Prop where
  load_save : ∀ a : α, load? (save a) = some a
  save_injective : Function.Injective (save : α → String)

variable {α : Type} [Snapshot α] [Lawful α]

theorem load?_save (a : α) : load? (save a) = some a := by
  rw [load?, save, Document.read?_compact (Lawful.plain a), Option.bind_some,
    Lawful.ofJson?_toJson]

theorem faithful : Faithful α where
  load_save := load?_save
  save_injective := by
    intro a b h
    have hload := congrArg (load? : String → Option α) h
    rwa [load?_save, load?_save, Option.some.injEq] at hload

end Snapshot

open Snapshot (Lawful)

/-! ## Numbers and names -/

instance (n : Nat) : Lawful (BitVec n) where
  plain _ := trivial
  ofJson?_toJson v := by
    simp [Snapshot.document, Document.toJson, Snapshot.ofJson?]

instance : Lawful StatusWord where
  plain w := Lawful.plain w.bits
  ofJson?_toJson w := by
    show (Snapshot.ofJson? (Snapshot.document w.bits).toJson).map StatusWord.mk = some w
    rw [Lawful.ofJson?_toJson, Option.map_some]

-- Decided by going through the word; another instance would go through all characters.
instance (s : String) : Decidable (Document.IsPlainWord s) :=
  List.decidableBAll Json.StandsForItself s.toList

theorem Named.ofJson?_toJson {α : Type} [Named α] (a : α) :
    Named.ofJson? (Named.document a).toJson = some a := by
  rw [Named.document, Document.toJson]
  exact Named.ofName?_name a

theorem lawful_named {α : Type} [Named α]
    (hwords : ∀ a ∈ (Named.all : List α), Document.IsPlainWord (Named.name a)) :
    @Lawful α ⟨Named.document, Named.ofJson?⟩ :=
  @Lawful.mk α ⟨Named.document, Named.ofJson?⟩ (fun a => hwords a (Named.mem_all a))
    Named.ofJson?_toJson

instance : Lawful AluOp := lawful_named (by decide)

instance : Lawful Flag := lawful_named (by decide)

instance : Lawful AddressMode := lawful_named (by decide)

instance : Lawful Register := lawful_named (by decide)

instance : Lawful Width := lawful_named (by decide)

instance : Lawful MathMode := lawful_named (by decide)

instance : Lawful Bank := lawful_named (by decide)

/-! ## Groups of registers -/

instance {α : Type} [Snapshot α] [Lawful α] : Lawful (Banked α) where
  plain p := by
    simp [Snapshot.document, Banked.toList, Document.Plain, Document.PlainItems]
  ofJson?_toJson p := by
    simp [Snapshot.document, Banked.toList, Document.toJson, Document.itemsToJson,
      Snapshot.ofJson?]

instance : Lawful GeneralRegisters where
  plain g := by
    simp [Snapshot.document, GeneralRegisters.toList, Document.Plain, Document.PlainItems]
  ofJson?_toJson g := by
    simp [Snapshot.document, GeneralRegisters.toList, Document.toJson, Document.itemsToJson,
      Snapshot.ofJson?]

/-! ## Records -/

namespace Document

variable {fields : List (String × Document)}

theorem fieldsToJson_eq_map (fields : List (String × Document)) :
    fieldsToJson fields = fields.map fun field => (some field.1, field.2.toJson) := by
  induction fields with
  | nil => rfl
  | cons field rest ih => rw [fieldsToJson, ih, List.map_cons]

theorem plainFields_of_forall (hkeys : ∀ key ∈ fields.map Prod.fst, IsPlainWord key)
    (hvalues : ∀ field ∈ fields, field.2.Plain) : PlainFields fields := by
  induction fields with
  | nil => trivial
  | cons field rest ih =>
    simp only [List.map_cons, List.forall_mem_cons] at hkeys hvalues
    exact ⟨hkeys.1, hvalues.1, ih hkeys.2 hvalues.2⟩

/-- A key that stands in a record once leads to its own value. -/
theorem member?_fieldsToJson (hkeys : (fields.map Prod.fst).Nodup) {field : String × Document}
    (hfield : field ∈ fields) :
    Json.member? (fieldsToJson fields) field.1 = some field.2.toJson := by
  have hfilter : fields.filter (fun other => other.1 == field.1) = [field] := by
    induction fields with
    | nil => exact absurd hfield List.not_mem_nil
    | cons first rest ih =>
      rw [List.map_cons, List.nodup_cons] at hkeys
      obtain ⟨hfirst, hrest⟩ := hkeys
      rw [List.filter_cons]
      rcases List.mem_cons.mp hfield with rfl | hlater
      · have hnone : rest.filter (fun other => other.1 == field.1) = [] := by
          rw [List.filter_eq_nil_iff]
          intro other hother hsame
          rw [beq_iff_eq] at hsame
          exact hfirst (hsame ▸ List.mem_map_of_mem hother)
        rw [if_pos (beq_self_eq_true _), hnone]
      · have hother : first.1 ≠ field.1 := by
          intro hsame
          exact hfirst (hsame ▸ List.mem_map_of_mem hlater)
        rw [if_neg (by simpa using hother)]
        exact ih hrest hlater
  have hmembers : (fieldsToJson fields).filter (·.1 == some field.1) =
      [(some field.1, field.2.toJson)] := by
    have hsame : (fun member : Option String × Json => member.1 == some field.1) ∘
        (fun other : String × Document => (some other.1, other.2.toJson)) =
          fun other => other.1 == field.1 := by
      funext other
      simp
    rw [fieldsToJson_eq_map, List.filter_map, hsame, hfilter, List.map_singleton]
  rw [Json.member?, hmembers]

/-- All keys of a record together lead to all its values. -/
theorem mapM_member?_fieldsToJson (hkeys : (fields.map Prod.fst).Nodup) :
    (fields.map Prod.fst).mapM (Json.member? (fieldsToJson fields)) =
      some (fields.map (·.2.toJson)) := by
  have hlookup : ∀ part : List (String × Document), part ⊆ fields →
      (part.map Prod.fst).mapM (Json.member? (fieldsToJson fields)) =
        some (part.map (·.2.toJson)) := by
    intro part hpart
    induction part with
    | nil => rfl
    | cons field rest ih =>
      obtain ⟨hfield, hrest⟩ := List.cons_subset.mp hpart
      rw [List.map_cons, List.mapM_cons, member?_fieldsToJson hkeys hfield, ih hrest]
      rfl
  exact hlookup fields (List.Subset.refl fields)

end Document

/-! ## The register file -/

namespace RegisterFile

theorem ofValues?_map_fields (f : RegisterFile) :
    ofValues? (f.fields.map (·.2.toJson)) = some f := by
  simp [fields, ofValues?]

theorem plainFields_fields (f : RegisterFile) : Document.PlainFields f.fields := by
  apply Document.plainFields_of_forall
  · rw [map_fst_fields]
    decide
  · simp [fields]

instance : Lawful RegisterFile where
  plain := plainFields_fields
  ofJson?_toJson f := by
    have hsome : (Document.fieldsToJson f.fields).all (·.1.isSome) = true := by
      simp [Document.fieldsToJson_eq_map]
    have hkeys : (f.fields.map Prod.fst).Nodup := by
      rw [map_fst_fields]
      decide
    have hvalues := Document.mapM_member?_fieldsToJson hkeys
    rw [map_fst_fields] at hvalues
    show (if (Document.fieldsToJson f.fields).all (·.1.isSome) then
      (keys.mapM (Json.member? (Document.fieldsToJson f.fields))).bind ofValues? else none) = some f
    rw [if_pos hsome, hvalues, Option.bind_some, ofValues?_map_fields]

end RegisterFile

/-! ## Sessions that reload the file -/

namespace Machine

/-- The machine whose file is what its own snapshot spells. A snapshot that spelt no file would leave
a new one. -/
def reloaded (m : Machine) : Machine :=
  { m with file := (Snapshot.load? (Snapshot.save m.file)).getD .initial }

/-- Takes a step, on the reloaded machine if the step is marked. -/
def actReloading (marked : Bool × Step) (m : Machine) : Turn Machine Answer :=
  act marked.2 (if marked.1 then m.reloaded else m)

theorem reloaded_eq (m : Machine) : m.reloaded = m := by
  rw [reloaded, Snapshot.load?_save, Option.getD_some]

theorem act_load_save (m : Machine) :
    act (.load (Snapshot.save m.file)) m = .answer m (.plain .done) := by
  simp only [act, Snapshot.load?_save, change]

theorem actReloading_eq (marked : Bool × Step) (m : Machine) :
    actReloading marked m = act marked.2 m := by
  rw [actReloading, reloaded_eq, ite_self]

/-- **Snapshots are read back.** A file, a status word, a cell, and every named value is loaded from
what it was saved as, and no other value is saved alike. So the file of a machine can be replaced by
its reloaded snapshot before any steps of a session: every answer, every event and the machine at the
end are the same as without. -/
theorem snapshots_round_trip :
    (Snapshot.Faithful RegisterFile ∧ Snapshot.Faithful StatusWord ∧ Snapshot.Faithful Cell ∧
      Snapshot.Faithful AluOp ∧ Snapshot.Faithful Flag ∧ Snapshot.Faithful AddressMode ∧
      Snapshot.Faithful Register ∧ Snapshot.Faithful Width ∧ Snapshot.Faithful MathMode ∧
      Snapshot.Faithful Bank) ∧
    (∀ m : Machine, act (.load (Snapshot.save m.file)) m = .answer m (.plain .done)) ∧
    ∀ {β : Type} (observe : Turn Machine Answer → β) (steps : List (Bool × Step)) (m : Machine),
      Session.run actReloading observe steps m =
        Session.run act observe (steps.map Prod.snd) m := by
  refine ⟨?_, act_load_save, ?_⟩
  · exact ⟨Snapshot.faithful, Snapshot.faithful, Snapshot.faithful, Snapshot.faithful,
      Snapshot.faithful, Snapshot.faithful, Snapshot.faithful, Snapshot.faithful,
      Snapshot.faithful, Snapshot.faithful⟩
  · intro β observe steps m
    have hact : actReloading = fun marked => act marked.2 := by
      funext marked m
      exact actReloading_eq marked m
    rw [hact, Session.run_map]

end Machine

end Datapath
