import Datapath.Json.Document
import Datapath.RegisterFile

/-!
# Snapshots

The state of the machine as a JSON document, and back. A cell, a status word and every narrower
register is a bare natural number, read back only if it is in range; a named value is its name, or an
object that has the name as its only key over a null; banks and general registers are arrays of their
length; the register file is an object with a key for every register.

Reading is more generous than writing in the layout alone. The keys of a file may stand in any order
and among keys that mean nothing here, as long as each of the eleven stands there once; or the file
may be the array of its eleven values in the order in which they are written.
-/

set_option autoImplicit false

namespace Datapath

/-- A type of state that is saved as a document and loaded from a JSON value. -/
class Snapshot (α : Type) where
  /-- The document of a state. -/
  document : α → Document
  /-- The state that a JSON value spells, if it spells one. -/
  ofJson? : Json → Option α

namespace Snapshot

variable {α : Type} [Snapshot α]

/-- The text that a state is saved as. -/
def save (a : α) : String :=
  (document a).compact

/-- The state that a text spells. -/
def load? (text : String) : Option α :=
  (Json.read? text).bind ofJson?

end Snapshot

/-! ## Numbers and names -/

instance (n : Nat) : Snapshot (BitVec n) where
  document v := .natural v.toNat
  ofJson?
    | .natural m =>
      -- In range is what the bits can hold unchanged.
      let v := BitVec.ofNat n m
      if v.toNat = m then some v else none
    | _ => none

instance : Snapshot StatusWord where
  document w := Snapshot.document w.bits
  ofJson? v := (Snapshot.ofJson? v).map StatusWord.mk

/-- The document of a named value is its name. -/
def Named.document {α : Type} [Named α] (a : α) : Document :=
  .word (Named.name a)

/-- A named value is spelt by its name, or by an object with its name over a null. -/
def Named.ofJson? {α : Type} [Named α] : Json → Option α
  | .string (some word) => Named.ofName? word
  | .object [(some word, .null)] => Named.ofName? word
  | _ => none

instance : Snapshot AluOp := ⟨Named.document, Named.ofJson?⟩

instance : Snapshot Flag := ⟨Named.document, Named.ofJson?⟩

instance : Snapshot AddressMode := ⟨Named.document, Named.ofJson?⟩

instance : Snapshot Register := ⟨Named.document, Named.ofJson?⟩

instance : Snapshot Width := ⟨Named.document, Named.ofJson?⟩

instance : Snapshot MathMode := ⟨Named.document, Named.ofJson?⟩

instance : Snapshot Bank := ⟨Named.document, Named.ofJson?⟩

/-! ## Groups of registers -/

instance {α : Type} [Snapshot α] : Snapshot (Banked α) where
  document p := .list (p.toList.map Snapshot.document)
  ofJson?
    | .array [a, b] => do some ⟨← Snapshot.ofJson? a, ← Snapshot.ofJson? b⟩
    | _ => none

instance : Snapshot GeneralRegisters where
  document g := .list (g.toList.map Snapshot.document)
  ofJson?
    | .array [a, b, c, d] => do
      some ⟨← Snapshot.ofJson? a, ← Snapshot.ofJson? b, ← Snapshot.ofJson? c,
        ← Snapshot.ofJson? d⟩
    | _ => none

/-! ## The register file -/

namespace RegisterFile

/-- The keys of a file with the documents of its registers, in the order in which they are
written. -/
def fields (f : RegisterFile) : List (String × Document) :=
  [("general", Snapshot.document f.general),
    ("pointers", Snapshot.document f.pointers),
    ("offsets", Snapshot.document f.offsets),
    ("indexes", Snapshot.document f.indexes),
    ("index_steps", Snapshot.document f.indexSteps),
    ("counters", Snapshot.document f.counters),
    ("counter_steps", Snapshot.document f.counterSteps),
    ("pc", Snapshot.document f.pc),
    ("status", Snapshot.document f.status),
    ("stack_base", Snapshot.document f.stackBase),
    ("stack_pointer", Snapshot.document f.stackPointer)]

/-- The keys of a file, in the order in which they are written. -/
def keys : List String :=
  ["general", "pointers", "offsets", "indexes", "index_steps", "counters", "counter_steps", "pc",
    "status", "stack_base", "stack_pointer"]

/-- A file is written under its keys. -/
theorem map_fst_fields (f : RegisterFile) : f.fields.map Prod.fst = keys := rfl

/-- The file that the values of the eleven keys spell, taken in order. -/
def ofValues? : List Json → Option RegisterFile
  | [general, pointers, offsets, indexes, indexSteps, counters, counterSteps, pc, status, stackBase,
      stackPointer] => do
    some
      { general := ← Snapshot.ofJson? general
        pointers := ← Snapshot.ofJson? pointers
        offsets := ← Snapshot.ofJson? offsets
        indexes := ← Snapshot.ofJson? indexes
        indexSteps := ← Snapshot.ofJson? indexSteps
        counters := ← Snapshot.ofJson? counters
        counterSteps := ← Snapshot.ofJson? counterSteps
        pc := ← Snapshot.ofJson? pc
        status := ← Snapshot.ofJson? status
        stackBase := ← Snapshot.ofJson? stackBase
        stackPointer := ← Snapshot.ofJson? stackPointer }
  | _ => none

instance : Snapshot RegisterFile where
  document f := .record f.fields
  ofJson?
    | .array values => ofValues? values
    | .object members =>
      if members.all (·.1.isSome) then
        (keys.mapM (Json.member? members)).bind ofValues?
      else none
    | _ => none

end RegisterFile

end Datapath
