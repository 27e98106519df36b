import Datapath.Proofs.Lists
import Datapath.Proofs.SnapshotRoundTrip

/-!
# Which texts spell a file

A file is read from any text whose value has the right form, and from no other (`isSome_load?_iff`). The
form is a table of eleven keys, each with the shape of what it holds. An object has to have each key
once and may have any others; an array has to have the eleven values in the order of the table.
Neither the order of the members nor the blanks between the tokens make a difference, because the text
is read as its value first (`Json.read?_of_isText`) and the members of the value are found by their keys.

Every part of a file has just one JSON value (`Canonical`). So where a value is read as a file, it is
the value of the file up to the order of its members and the keys that mean nothing.
-/

set_option autoImplicit false

namespace Datapath

/-! ## States with one value -/

namespace Snapshot

/-- No value but that of its document is read as a state. -/
class Canonical (α : Type) [Snapshot α] : Prop where
  eq_of_ofJson? : ∀ {v : Json} {a : α}, ofJson? v = some a → v = (document a).toJson

theorem ofJson?_eq_some_iff {α : Type} [Snapshot α] [Lawful α] [Canonical α] {v : Json} {a : α} :
    ofJson? v = some a ↔ v = (document a).toJson := by
  refine ⟨Canonical.eq_of_ofJson?, ?_⟩
  rintro rfl
  exact Lawful.ofJson?_toJson a

instance (n : Nat) : Canonical (BitVec n) where
  eq_of_ofJson? := by
    intro v a h
    cases v with
    | natural m =>
      by_cases hfits : (BitVec.ofNat n m).toNat = m
      · have hread : some (BitVec.ofNat n m) = some a := (if_pos hfits).symm.trans h
        rw [← Option.some.inj hread]
        exact congrArg Json.natural hfits.symm
      · exact nomatch (if_neg hfits).symm.trans h
    | _ => exact nomatch h

instance : Canonical StatusWord where
  eq_of_ofJson? := by
    intro v w h
    obtain ⟨bits, hbits, rfl⟩ := Option.map_eq_some_iff.mp h
    have hv : v = (document bits).toJson := Canonical.eq_of_ofJson? hbits
    exact hv

instance {α : Type} [Snapshot α] [Canonical α] : Canonical (Banked α) where
  eq_of_ofJson? := by
    intro v p h
    match v with
    | .array [a, b] =>
      obtain ⟨set0, h0, h⟩ := Option.bind_eq_some_iff.mp h
      obtain ⟨set1, h1, h⟩ := Option.bind_eq_some_iff.mp h
      rw [← Option.some.inj h, Canonical.eq_of_ofJson? h0, Canonical.eq_of_ofJson? h1]
      rfl

instance : Canonical GeneralRegisters where
  eq_of_ofJson? := by
    intro v g h
    match v with
    | .array [a, b, c, d] =>
      obtain ⟨r0, h0, h⟩ := Option.bind_eq_some_iff.mp h
      obtain ⟨r1, h1, h⟩ := Option.bind_eq_some_iff.mp h
      obtain ⟨r2, h2, h⟩ := Option.bind_eq_some_iff.mp h
      obtain ⟨r3, h3, h⟩ := Option.bind_eq_some_iff.mp h
      rw [← Option.some.inj h, Canonical.eq_of_ofJson? h0, Canonical.eq_of_ofJson? h1,
        Canonical.eq_of_ofJson? h2, Canonical.eq_of_ofJson? h3]
      rfl

end Snapshot

open Snapshot (Canonical)
open Json (IsText)

/-! ## Members by their keys -/

namespace Json

theorem member?_eq_some_iff {members : List (Option String × Json)} {key : String} {v : Json} :
    member? members key = some v ↔ members.filter (·.1 == some key) = [(some key, v)] := by
  have hkey : ∀ m ∈ members.filter (·.1 == some key), m.1 = some key := by
    intro m hm
    exact eq_of_beq (List.mem_filter.mp hm).2
  rw [member?]
  split
  next k x hfilter =>
    have hk : k = some key := hkey (k, x) (hfilter ▸ List.mem_singleton_self _)
    rw [hfilter, hk]
    simp
  next hother =>
    constructor
    · intro h
      cases h
    · intro h
      exact absurd h (hother _ _)

end Json

/-! ## The table of a file -/

/-- What a register or a group of registers holds. -/
inductive Shape
  /-- A natural number of so many bits. -/
  | number (bits : Nat)
  /-- An array of so many numbers of so many bits. -/
  | numbers (length bits : Nat)
  deriving DecidableEq, Repr

/-- The value has the shape. -/
def Shape.Fits : Shape → Json → Prop
  | number bits, v => ∃ n, n < 2 ^ bits ∧ v = .natural n
  | numbers length bits, v => ∃ ns : List Nat,
      ns.length = length ∧ (∀ n ∈ ns, n < 2 ^ bits) ∧ v = .array (ns.map .natural)

theorem Shape.fits_number_iff {bits : Nat} {v : Json} :
    (number bits).Fits v ↔ ∃ a : BitVec bits, (Snapshot.document a).toJson = v := by
  constructor
  · rintro ⟨n, hn, rfl⟩
    exact ⟨BitVec.ofNat bits n, congrArg Json.natural (Nat.mod_eq_of_lt hn)⟩
  · rintro ⟨a, rfl⟩
    exact ⟨a.toNat, a.isLt, rfl⟩

theorem Shape.fits_pair_iff {bits : Nat} {v : Json} :
    (numbers 2 bits).Fits v ↔ ∃ p : Banked (BitVec bits), (Snapshot.document p).toJson = v := by
  constructor
  · rintro ⟨ns, hlength, hall, rfl⟩
    obtain ⟨m, n, rfl⟩ := List.length_eq_two.mp hlength
    obtain ⟨a, ha⟩ := fits_number_iff.mp ⟨m, hall m (by simp), rfl⟩
    obtain ⟨b, hb⟩ := fits_number_iff.mp ⟨n, hall n (by simp), rfl⟩
    refine ⟨⟨a, b⟩, ?_⟩
    rw [List.map_cons, List.map_singleton, ← ha, ← hb]
    rfl
  · rintro ⟨p, rfl⟩
    exact ⟨[p.set0.toNat, p.set1.toNat], rfl, by simp [BitVec.isLt], rfl⟩

theorem Shape.fits_general_iff {v : Json} :
    (numbers 4 64).Fits v ↔ ∃ g : GeneralRegisters, (Snapshot.document g).toJson = v := by
  constructor
  · rintro ⟨ns, hlength, hall, rfl⟩
    obtain ⟨k, l, m, n, rfl⟩ := List.length_eq_four.mp hlength
    obtain ⟨a, ha⟩ := fits_number_iff.mp ⟨k, hall k (by simp), rfl⟩
    obtain ⟨b, hb⟩ := fits_number_iff.mp ⟨l, hall l (by simp), rfl⟩
    obtain ⟨c, hc⟩ := fits_number_iff.mp ⟨m, hall m (by simp), rfl⟩
    obtain ⟨d, hd⟩ := fits_number_iff.mp ⟨n, hall n (by simp), rfl⟩
    refine ⟨⟨a, b, c, d⟩, ?_⟩
    rw [List.map_cons, List.map_cons, List.map_cons, List.map_singleton, ← ha, ← hb, ← hc, ← hd]
    rfl
  · rintro ⟨g, rfl⟩
    refine ⟨[g.r0.toNat, g.r1.toNat, g.r2.toNat, g.r3.toNat], rfl, fun n hn => ?_, rfl⟩
    simp only [List.mem_cons, List.not_mem_nil, or_false] at hn
    rcases hn with rfl | rfl | rfl | rfl <;> exact BitVec.isLt _

namespace RegisterFile

/-- The keys of a file with the shapes of what they hold. -/
def table : List (String × Shape) :=
  [("general", .numbers 4 64), ("pointers", .numbers 2 32), ("offsets", .numbers 2 16),
    ("indexes", .numbers 2 16), ("index_steps", .numbers 2 16), ("counters", .numbers 2 32),
    ("counter_steps", .numbers 2 16), ("pc", .number 32), ("status", .number 32),
    ("stack_base", .number 32), ("stack_pointer", .number 16)]

theorem map_fst_table : table.map Prod.fst = keys := rfl

/-- The values of a file in the order in which they are written. -/
def values (f : RegisterFile) : List Json :=
  f.fields.map (·.2.toJson)

/-- The members of a file in the order in which they are written. -/
def members (f : RegisterFile) : List (Option String × Json) :=
  Document.fieldsToJson f.fields

theorem ofValues?_eq_some_iff {vs : List Json} {f : RegisterFile} :
    ofValues? vs = some f ↔ vs = f.values := by
  constructor
  · intro h
    match vs with
    | [_, _, _, _, _, _, _, _, _, _, _] =>
      simp only [ofValues?, bind, Option.bind_eq_some_iff, Option.some.injEq,
        Snapshot.ofJson?_eq_some_iff] at h
      obtain ⟨_, rfl, _, rfl, _, rfl, _, rfl, _, rfl, _, rfl, _, rfl, _, rfl, _, rfl, _, rfl,
        _, rfl, rfl⟩ := h
      rfl
  · rintro rfl
    exact ofValues?_map_fields f

/-! ## Files of the right form -/

/-- Every value of a file has the shape of the table. -/
theorem fits_values (f : RegisterFile) :
    List.Forall₂ (fun row v => row.2.Fits v) table f.values := by
  have hnumber {n : Nat} (a : BitVec n) : (Shape.number n).Fits (Snapshot.document a).toJson :=
    Shape.fits_number_iff.mpr ⟨a, rfl⟩
  have hpair {n : Nat} (p : Banked (BitVec n)) :
      (Shape.numbers 2 n).Fits (Snapshot.document p).toJson :=
    Shape.fits_pair_iff.mpr ⟨p, rfl⟩
  exact .cons (Shape.fits_general_iff.mpr ⟨f.general, rfl⟩) <|
    .cons (hpair f.pointers) <| .cons (hpair f.offsets) <| .cons (hpair f.indexes) <|
    .cons (hpair f.indexSteps) <| .cons (hpair f.counters) <| .cons (hpair f.counterSteps) <|
    .cons (hnumber f.pc) <| .cons (hnumber f.status.bits) <| .cons (hnumber f.stackBase) <|
    .cons (hnumber f.stackPointer) .nil

/-- Values of the shapes of the table are those of a file. -/
theorem exists_values_of_fits {vs : List Json}
    (h : List.Forall₂ (fun row v => row.2.Fits v) table vs) : ∃ f : RegisterFile, vs = f.values := by
  match vs, h with
  | [_, _, _, _, _, _, _, _, _, _, _],
    .cons h1 (.cons h2 (.cons h3 (.cons h4 (.cons h5 (.cons h6 (.cons h7 (.cons h8 (.cons h9
      (.cons h10 (.cons h11 .nil)))))))))) =>
    obtain ⟨general, rfl⟩ := Shape.fits_general_iff.mp h1
    obtain ⟨pointers, rfl⟩ := Shape.fits_pair_iff.mp h2
    obtain ⟨offsets, rfl⟩ := Shape.fits_pair_iff.mp h3
    obtain ⟨indexes, rfl⟩ := Shape.fits_pair_iff.mp h4
    obtain ⟨indexSteps, rfl⟩ := Shape.fits_pair_iff.mp h5
    obtain ⟨counters, rfl⟩ := Shape.fits_pair_iff.mp h6
    obtain ⟨counterSteps, rfl⟩ := Shape.fits_pair_iff.mp h7
    obtain ⟨pc, rfl⟩ := Shape.fits_number_iff.mp h8
    obtain ⟨bits, rfl⟩ := Shape.fits_number_iff.mp h9
    obtain ⟨stackBase, rfl⟩ := Shape.fits_number_iff.mp h10
    obtain ⟨stackPointer, rfl⟩ := Shape.fits_number_iff.mp h11
    exact ⟨⟨general, pointers, offsets, indexes, indexSteps, counters, counterSteps, pc, ⟨bits⟩,
      stackBase, stackPointer⟩, rfl⟩

/-- Every key of the table stands there once, with a value of its shape, and no key is half of a
surrogate pair. -/
structure WellFormedMembers (ms : List (Option String × Json)) : Prop where
  isSome_key : ∀ m ∈ ms, m.1.isSome = true
  once : ∀ row ∈ table, ∃ v, ms.filter (·.1 == some row.1) = [(some row.1, v)] ∧ row.2.Fits v

/-- The value has the form of a file. -/
def WellFormed : Json → Prop
  | .array vs => List.Forall₂ (fun row v => row.2.Fits v) table vs
  | .object ms => WellFormedMembers ms
  | _ => False

theorem ofJson?_object (ms : List (Option String × Json)) :
    (Snapshot.ofJson? (.object ms) : Option RegisterFile) =
      if ms.all (·.1.isSome) then (keys.mapM (Json.member? ms)).bind ofValues? else none := rfl

/-- An object is read as a file if its keys lead to the values of the file. -/
theorem ofJson?_object_eq_some_iff {ms : List (Option String × Json)} {f : RegisterFile} :
    Snapshot.ofJson? (.object ms) = some f ↔
      (∀ m ∈ ms, m.1.isSome = true) ∧
        List.Forall₂ (fun row v => ms.filter (·.1 == some row.1) = [(some row.1, v)]) table
          f.values := by
  have hlookup {vs : List Json} : keys.mapM (Json.member? ms) = some vs ↔
      List.Forall₂ (fun row v => ms.filter (·.1 == some row.1) = [(some row.1, v)]) table vs := by
    rw [← map_fst_table, mapM_eq_some_iff, List.forall₂_map_left_iff]
    simp only [Json.member?_eq_some_iff]
  rw [ofJson?_object, Option.ite_none_right_eq_some, List.all_eq_true, Option.bind_eq_some_iff]
  simp only [hlookup, ofValues?_eq_some_iff]
  constructor
  · rintro ⟨hkeys, vs, hvs, rfl⟩
    exact ⟨hkeys, hvs⟩
  · rintro ⟨hkeys, hvs⟩
    exact ⟨hkeys, f.values, hvs, rfl⟩

theorem wellFormed_iff {v : Json} :
    WellFormed v ↔ ∃ f : RegisterFile, Snapshot.ofJson? v = some f := by
  cases v with
  | array vs =>
    constructor
    · intro h
      obtain ⟨f, rfl⟩ := exists_values_of_fits h
      exact ⟨f, ofValues?_eq_some_iff.mpr rfl⟩
    · rintro ⟨f, hf⟩
      obtain rfl := ofValues?_eq_some_iff.mp hf
      exact fits_values f
  | object ms =>
    constructor
    · rintro ⟨hkeys, honce⟩
      obtain ⟨vs, hvs⟩ := exists_forall₂ honce
      obtain ⟨f, rfl⟩ := exists_values_of_fits (hvs.imp fun _ _ h => h.2)
      exact ⟨f, ofJson?_object_eq_some_iff.mpr ⟨hkeys, hvs.imp fun _ _ h => h.1⟩⟩
    · rintro ⟨f, hf⟩
      obtain ⟨hkeys, hvs⟩ := ofJson?_object_eq_some_iff.mp hf
      refine ⟨hkeys, fun row hrow => ?_⟩
      obtain ⟨v, _, honce, hfits⟩ := exists_of_forall₂ hvs (fits_values f) hrow
      exact ⟨v, honce, hfits⟩
  | _ => exact ⟨fun h => h.elim, fun ⟨_, h⟩ => (nomatch h)⟩

/-! ## Texts of files -/

/-- **A file is read from any text of a value of its form**, and from no text of another. -/
theorem isSome_load?_iff {v : Json} {text : String} (h : IsText v text) :
    (Snapshot.load? text : Option RegisterFile).isSome ↔ WellFormed v := by
  rw [Snapshot.load?, Json.read?_of_isText h, Option.bind_some, Option.isSome_iff_exists,
    wellFormed_iff]

theorem load?_eq_none_of_not_wellFormed {v : Json} {text : String} (h : IsText v text)
    (hv : ¬ WellFormed v) : (Snapshot.load? text : Option RegisterFile) = none := by
  rwa [← isSome_load?_iff h, Option.not_isSome_iff_eq_none] at hv

theorem load?_eq_some_of_isText {v : Json} {text : String} {f : RegisterFile} (h : IsText v text)
    (hv : Snapshot.ofJson? v = some f) : Snapshot.load? text = some f := by
  rw [Snapshot.load?, Json.read?_of_isText h, Option.bind_some, hv]

/-! ## Layouts of a file -/

variable {f : RegisterFile} {junk ms : List (Option String × Json)}

/-- Members that stand among those of a file without meaning, whatever their values are: each has a
text for its key, and none that is a key of a file. A key with half of a surrogate pair is no text, and
spoils the object (`WellFormedMembers.isSome_key`). -/
def Meaningless (junk : List (Option String × Json)) : Prop :=
  ∀ m ∈ junk, ∃ key ∉ keys, m.1 = some key

theorem filter_members {field : String × Document} (h : field ∈ f.fields) :
    f.members.filter (·.1 == some field.1) = [(some field.1, field.2.toJson)] := by
  have hkeys : (f.fields.map Prod.fst).Nodup := by
    rw [map_fst_fields]
    decide
  exact Json.member?_eq_some_iff.mp (Document.member?_fieldsToJson hkeys h)

theorem filter_meaningless (hjunk : Meaningless junk) {key : String} (hkey : key ∈ keys) :
    junk.filter (·.1 == some key) = [] := by
  rw [List.filter_eq_nil_iff]
  intro m hm hsame
  obtain ⟨other, hother, hm⟩ := hjunk m hm
  rw [hm, beq_iff_eq, Option.some.injEq] at hsame
  exact hother (hsame ▸ hkey)

/-- The members of a file in any order among others lead each key of the file to its value. -/
theorem filter_of_perm (hjunk : Meaningless junk) (hperm : ms.Perm (f.members ++ junk))
    {field : String × Document} (h : field ∈ f.fields) :
    ms.filter (·.1 == some field.1) = [(some field.1, field.2.toJson)] := by
  have hkey : field.1 ∈ keys := List.mem_map_of_mem h
  -- Under this key the file has one member and the others have none.
  have hfilter := hperm.filter (·.1 == some field.1)
  rw [List.filter_append, filter_members h, filter_meaningless hjunk hkey, List.append_nil] at hfilter
  exact List.perm_singleton.mp hfilter

theorem isSome_key_of_perm (hjunk : Meaningless junk) (hperm : ms.Perm (f.members ++ junk)) :
    ∀ m ∈ ms, m.1.isSome = true := by
  intro m hm
  rcases List.mem_append.mp (hperm.mem_iff.mp hm) with hfile | hother
  · rw [members, Document.fieldsToJson_eq_map] at hfile
    obtain ⟨field, _, rfl⟩ := List.mem_map.mp hfile
    rfl
  · obtain ⟨key, _, hkey⟩ := hjunk m hother
    rw [hkey, Option.isSome_some]

theorem ofJson?_of_perm (hjunk : Meaningless junk) (hperm : ms.Perm (f.members ++ junk)) :
    Snapshot.ofJson? (.object ms) = some f := by
  refine ofJson?_object_eq_some_iff.mpr ⟨isSome_key_of_perm hjunk hperm, ?_⟩
  have hrows : List.Forall₂ (fun key v => ms.filter (·.1 == some key) = [(some key, v)])
      (table.map Prod.fst) f.values := by
    rw [map_fst_table, ← map_fst_fields f, values, List.forall₂_map_left_iff,
      List.forall₂_map_right_iff, List.forall₂_same]
    exact fun field hfield => filter_of_perm hjunk hperm hfield
  exact List.forall₂_map_left_iff.mp hrows

/-! ## Values of another form -/

theorem not_wellFormed_of_count {key : String} (hkey : key ∈ keys)
    (hcount : (ms.filter (·.1 == some key)).length ≠ 1) : ¬ WellFormed (.object ms) := by
  rintro ⟨_, honce⟩
  obtain ⟨row, hrow, rfl⟩ := List.mem_map.mp (map_fst_table ▸ hkey)
  obtain ⟨v, hfilter, _⟩ := honce row hrow
  exact hcount (congrArg List.length hfilter)

theorem not_wellFormed_of_length {vs : List Json} (h : vs.length ≠ keys.length) :
    ¬ WellFormed (.array vs) := by
  intro hform
  exact h hform.length_eq.symm

theorem not_wellFormed_of_member {row : String × Shape} (hrow : row ∈ table) {v : Json}
    (hv : (some row.1, v) ∈ ms) (hfits : ¬ row.2.Fits v) : ¬ WellFormed (.object ms) := by
  rintro ⟨_, honce⟩
  obtain ⟨w, hfilter, hw⟩ := honce row hrow
  have hmem : (some row.1, v) ∈ ms.filter (·.1 == some row.1) :=
    List.mem_filter.mpr ⟨hv, beq_self_eq_true _⟩
  -- The key stands there once, so this is the member that fits.
  rw [hfilter, List.mem_singleton] at hmem
  obtain rfl : v = w := congrArg Prod.snd hmem
  exact hfits hw

theorem not_wellFormed_of_item {row : String × Shape} {vs : List Json} {v : Json}
    (hv : (row, v) ∈ table.zip vs) (hfits : ¬ row.2.Fits v) : ¬ WellFormed (.array vs) := by
  intro hform
  exact hfits ((List.forall₂_iff_zip.mp hform).2 hv)

/-- **The layout of a snapshot makes no difference.** A file is read from every text of an object
that has its eleven members in any order, among any others whose keys mean nothing, and from every
text of the array of its eleven values, whatever blanks stand between the tokens and however each
token is spelt. No file is read from a text of an object that lacks a key or has it more than once, of
an array of another length, or of a value that has something of another shape in the place of a
register: a number that is negative or too large for it, or an array of another length. -/
theorem loads_from_any_layout {text : String} :
    (∀ (f : RegisterFile) (junk ms : List (Option String × Json)), Meaningless junk →
      ms.Perm (f.members ++ junk) → IsText (.object ms) text → Snapshot.load? text = some f) ∧
    (∀ f : RegisterFile, IsText (.array f.values) text → Snapshot.load? text = some f) ∧
    (∀ (ms : List (Option String × Json)) (key : String), key ∈ keys →
      (ms.filter (·.1 == some key)).length ≠ 1 → IsText (.object ms) text →
        (Snapshot.load? text : Option RegisterFile) = none) ∧
    (∀ vs : List Json, vs.length ≠ 11 → IsText (.array vs) text →
      (Snapshot.load? text : Option RegisterFile) = none) ∧
    (∀ (ms : List (Option String × Json)) (row : String × Shape) (v : Json), row ∈ table →
      (some row.1, v) ∈ ms → ¬ row.2.Fits v → IsText (.object ms) text →
        (Snapshot.load? text : Option RegisterFile) = none) ∧
    (∀ (vs : List Json) (row : String × Shape) (v : Json), (row, v) ∈ table.zip vs →
      ¬ row.2.Fits v → IsText (.array vs) text →
        (Snapshot.load? text : Option RegisterFile) = none) := by
  refine ⟨?anyOrder, ?array, ?count, ?length, ?member, ?item⟩
  case anyOrder =>
    intro f junk ms hjunk hperm htext
    exact load?_eq_some_of_isText htext (ofJson?_of_perm hjunk hperm)
  case array =>
    intro f htext
    exact load?_eq_some_of_isText htext (ofValues?_map_fields f)
  case count =>
    intro ms key hkey hcount htext
    exact load?_eq_none_of_not_wellFormed htext (not_wellFormed_of_count hkey hcount)
  case length =>
    intro vs hlength htext
    exact load?_eq_none_of_not_wellFormed htext (not_wellFormed_of_length hlength)
  case member =>
    intro ms row v hrow hv hfits htext
    exact load?_eq_none_of_not_wellFormed htext (not_wellFormed_of_member hrow hv hfits)
  case item =>
    intro vs row v hv hfits htext
    exact load?_eq_none_of_not_wellFormed htext (not_wellFormed_of_item hv hfits)

theorem loads_from_any_layout_initial :
    Snapshot.load? (Document.record (("note", .list [.truth true]) ::
      initial.fields.reverse)).pretty = some initial ∧
    Snapshot.load? (Document.list (initial.fields.map Prod.snd)).pretty = some initial ∧
    (Snapshot.load? (Document.record initial.fields.tail).pretty : Option RegisterFile) = none ∧
    (Snapshot.load? (Document.list []).pretty : Option RegisterFile) = none ∧
    (Snapshot.load? (Document.record (("pc", .natural (2 ^ 32)) ::
      initial.fields.filter (·.1 != "pc"))).pretty : Option RegisterFile) = none ∧
    (Snapshot.load? (Document.list (.list [.natural 0] ::
      initial.fields.tail.map Prod.snd)).pretty : Option RegisterFile) = none := by
  have hplain := Document.plainFields_iff.mp (plainFields_fields initial)
  have hitems : ∀ fields ⊆ initial.fields, Document.PlainItems (fields.map Prod.snd) := by
    intro fields hfields
    refine Document.plainItems_iff.mpr fun item hitem => ?_
    obtain ⟨field, hfield, rfl⟩ := List.mem_map.mp hitem
    exact (hplain field (hfields hfield)).2
  refine ⟨?anyOrder, ?array, ?count, ?length, ?member, ?item⟩
  case anyOrder =>
    have hperm : (("note", Document.list [.truth true]) :: initial.fields.reverse).Perm
        (initial.fields ++ [("note", .list [.truth true])]) :=
      ((List.reverse_perm _).cons _).trans (List.perm_append_singleton _ _).symm
    have hmembers := hperm.map fun field => (some field.1, field.2.toJson)
    rw [List.map_append, ← Document.fieldsToJson_eq_map, ← Document.fieldsToJson_eq_map] at hmembers
    have hnote : (Document.record (("note", .list [.truth true]) :: initial.fields.reverse)).Plain :=
      ⟨by decide, ⟨trivial, trivial⟩, Document.plainFields_iff.mpr fun field hfield =>
        hplain field (List.mem_reverse.mp hfield)⟩
    have hjunk : Meaningless (Document.fieldsToJson [("note", .list [.truth true])]) := by
      intro m hm
      obtain rfl := List.mem_singleton.mp hm
      exact ⟨"note", by decide, rfl⟩
    exact loads_from_any_layout.1 initial _ _ hjunk hmembers (Document.isText_pretty hnote)
  case array =>
    have hvalues : (Document.list (initial.fields.map Prod.snd)).Plain :=
      hitems _ (List.Subset.refl _)
    exact loads_from_any_layout.2.1 initial (Document.isText_pretty hvalues)
  case count =>
    have htail : (Document.record initial.fields.tail).Plain :=
      Document.plainFields_iff.mpr fun field hfield => hplain field (List.mem_of_mem_tail hfield)
    exact loads_from_any_layout.2.2.1 _ "general" (by decide) (by decide) (Document.isText_pretty htail)
  case length =>
    exact loads_from_any_layout.2.2.2.1 [] (by decide) (Document.isText_pretty (d := .list []) trivial)
  case member =>
    have hpc : (Document.record (("pc", .natural (2 ^ 32)) ::
        initial.fields.filter (·.1 != "pc"))).Plain :=
      ⟨by decide, trivial, Document.plainFields_iff.mpr fun field hfield =>
        hplain field (List.mem_of_mem_filter hfield)⟩
    have hlarge : ¬ (Shape.number 32).Fits (.natural (2 ^ 32)) := by
      rintro ⟨n, hn, hv⟩
      rw [← Json.natural.inj hv] at hn
      exact Nat.lt_irrefl _ hn
    exact loads_from_any_layout.2.2.2.2.1 _ ("pc", .number 32) _ (by decide) List.mem_cons_self hlarge
      (Document.isText_pretty hpc)
  case item =>
    have hlist : (Document.list (.list [.natural 0] :: initial.fields.tail.map Prod.snd)).Plain :=
      ⟨⟨trivial, trivial⟩, hitems _ fun field => List.mem_of_mem_tail⟩
    have hshort : ¬ (Shape.numbers 4 64).Fits (.array [.natural 0]) := by
      rintro ⟨ns, hlength, _, hv⟩
      have hone := congrArg List.length (Json.array.inj hv)
      rw [List.length_map, hlength] at hone
      exact absurd hone (by decide)
    exact loads_from_any_layout.2.2.2.2.2 _ ("general", .numbers 4 64) _ List.mem_cons_self hshort
      (Document.isText_pretty hlist)

end RegisterFile

end Datapath
