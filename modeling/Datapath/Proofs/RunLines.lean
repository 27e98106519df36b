import Datapath.Proofs.Lines
import Datapath.Proofs.Lists
import Datapath.Proofs.SpelledDigits

/-!
# The lines of a run on a stack

What a run that pushes and pops leaves to be read, as data (`Line`) and as text (`Line.text`). A line is
judged by what it names: `Line.Names` says of a text, without a word on how it was made, between which
fixed words it has digits and which numbers they spell. A text names one line only (`Line.Names.unique`),
because no fixed word after a number begins with a character of numbers.
-/

set_option autoImplicit false

namespace Datapath

/-! ## Numbers in a line -/

namespace Numeral

/-- The characters write a number below zero with a minus sign, and any other by its digits alone. -/
def SpellsSigned (cs : List Char) (i : Int) : Prop :=
  if i < 0 then ∃ digits, cs = '-' :: digits ∧ Spells 10 digits i.natAbs else Spells 10 cs i.natAbs

/-- The characters write bytes in hexadecimal digits, with a blank between each two. -/
def SpellsBytes (cs : List Char) (bytes : List Byte) : Prop :=
  ∃ pieces, cs = [' '].intercalate pieces ∧
    List.Forall₂ (fun piece b => Spells 16 piece b.toNat) pieces bytes

variable {i j : Int} {cs : List Char}

theorem SpellsSigned.isMark (h : SpellsSigned cs i) : ∀ c ∈ cs, isMark c = true := by
  rw [SpellsSigned] at h
  split at h
  next =>
    obtain ⟨digits, rfl, hdigits⟩ := h
    exact List.forall_mem_cons.mpr ⟨rfl, hdigits.isMark (by decide)⟩
  next => exact h.isMark (by decide)

theorem SpellsSigned.unique (hi : SpellsSigned cs i) (hj : SpellsSigned cs j) : i = j := by
  -- A minus sign is no digit.
  have hminus : ∀ digits n, ¬ Spells 10 ('-' :: digits) n :=
    fun digits n h => h.digitValue?_ne_none (by decide) List.mem_cons_self rfl
  rw [SpellsSigned] at hi hj
  split at hi
  next hneg =>
    obtain ⟨digits, rfl, hdigits⟩ := hi
    split at hj
    next hneg' =>
      obtain ⟨digits', hcons, hdigits'⟩ := hj
      obtain rfl := (List.cons.inj hcons).2
      have habs := hdigits.unique (by decide) hdigits'
      omega
    next => exact absurd hj (hminus digits _)
  next hpos =>
    split at hj
    next =>
      obtain ⟨digits', rfl, -⟩ := hj
      exact absurd hi (hminus digits' _)
    next hpos' =>
      have habs := hi.unique (by decide) hj
      omega

theorem SpellsBytes.unique {bytes bytes' : List Byte} (h : SpellsBytes cs bytes)
    (h' : SpellsBytes cs bytes') : bytes = bytes' := by
  obtain ⟨pieces, hcs, hpieces⟩ := h
  obtain ⟨pieces', hcs', hpieces'⟩ := h'
  have hfield : ∀ {pieces : List (List Char)} {bytes : List Byte},
      List.Forall₂ (fun piece b => Spells 16 piece b.toNat) pieces bytes →
        ∀ piece ∈ pieces, piece ≠ [] ∧ ' ' ∉ piece := by
    intro pieces bytes h piece hpiece
    obtain ⟨b, -, hspells, -⟩ := exists_of_forall₂ h h hpiece
    exact ⟨hspells.1, fun hblank => absurd (hspells.isMark (by decide) ' ' hblank) (by decide)⟩
  obtain rfl := intercalate_inj (hfield hpieces) (hfield hpieces') (hcs.symm.trans hcs')
  have hright : Relator.RightUnique fun (piece : List Char) (b : Byte) => Spells 16 piece b.toNat :=
    fun piece b b' hb hb' => BitVec.eq_of_toNat_eq (hb.unique (by decide) hb')
  exact hright.forall₂ hpieces hpieces'

theorem spellsSigned_signed (i : Int) : SpellsSigned (signed i).toList i := by
  rw [SpellsSigned, signed]
  by_cases hneg : i < 0
  · rw [if_pos hneg, if_pos hneg, String.toList_append]
    exact ⟨_, rfl, spells_decimal _⟩
  · rw [if_neg hneg, if_neg hneg]
    exact spells_decimal _

theorem spellsBytes_hex (bytes : List Byte) :
    SpellsBytes (" ".intercalate (bytes.map fun b => hex 2 b.toNat)).toList bytes := by
  refine ⟨bytes.map fun b => (hex 2 b.toNat).toList, ?_, ?_⟩
  · rw [String.toList_intercalate, List.map_map]
    rfl
  · rw [List.forall₂_map_left_iff]
    exact List.forall₂_same.mpr fun b _ => spells_hex 2 b.toNat

theorem SpellsSigned.append_inj {field field' rest rest' : String} (word : String)
    (hword : word.toList.head?.map Numeral.isMark = some false)
    (hi : SpellsSigned field.toList i) (hj : SpellsSigned field'.toList j)
    (h : field ++ (word ++ rest) = field' ++ (word ++ rest')) : i = j ∧ rest = rest' := by
  obtain ⟨rfl, hrest⟩ := append_inj_of_word word hword hi.isMark hj.isMark h
  exact ⟨hi.unique hj, hrest⟩

end Numeral

namespace CommandLine

open Numeral

/-! ## Lines -/

/-- A line that a run leaves. -/
inductive Line
  /-- A value was pushed: the pointer after it, and the bytes from the lowest address up. -/
  | push (value : Nat) (pointer : Int) (bytes : List Byte)
  /-- A value was popped: the pointer after it. -/
  | pop (value : Nat) (pointer : Int)
  /-- How many bytes are in use at the end, and how many are free. -/
  | depth (used free : Nat)
  /-- A value found no room: the bytes that it needs, and those that are free. -/
  | refused (value needed available : Nat)
  /-- The pointer to start from is too large. -/
  | misplaced (pointer : Nat)
  deriving DecidableEq, Repr

namespace Line

/-- The line in words. -/
def text : Line → String
  | push value pointer bytes =>
    "push 0x" ++ hex 0 value ++ ": ptr=" ++ signed pointer ++
      " [" ++ " ".intercalate (bytes.map fun b => hex 2 b.toNat) ++ "]"
  | pop value pointer => "pop  0x" ++ hex 0 value ++ ": ptr=" ++ signed pointer
  | depth used free => "depth " ++ decimal used ++ " bytes, " ++ decimal free ++ " free"
  | refused value needed available =>
    "❌ push 0x" ++ hex 0 value ++ ": stack overflow: need " ++ decimal needed ++ " bytes, " ++
      decimal available ++ " free"
  | misplaced pointer => "❌ Stack pointer 0x" ++ hex 0 pointer ++ " does not fit in 16 bits"

/-- The text names what the line says: its numbers are what the digits between the words spell. -/
def Names (text : String) : Line → Prop
  | push value pointer bytes => ∃ v p b,
    text = "push 0x" ++ v ++ ": ptr=" ++ p ++ " [" ++ b ++ "]" ∧
      Spells 16 v.toList value ∧ SpellsSigned p.toList pointer ∧ SpellsBytes b.toList bytes
  | pop value pointer => ∃ v p,
    text = "pop  0x" ++ v ++ ": ptr=" ++ p ∧
      Spells 16 v.toList value ∧ SpellsSigned p.toList pointer
  | depth used free => ∃ u f,
    text = "depth " ++ u ++ " bytes, " ++ f ++ " free" ∧
      Spells 10 u.toList used ∧ Spells 10 f.toList free
  | refused value needed available => ∃ v n a,
    text = "❌ push 0x" ++ v ++ ": stack overflow: need " ++ n ++ " bytes, " ++ a ++ " free" ∧
      Spells 16 v.toList value ∧ Spells 10 n.toList needed ∧ Spells 10 a.toList available
  | misplaced pointer => ∃ p,
    text = "❌ Stack pointer 0x" ++ p ++ " does not fit in 16 bits" ∧ Spells 16 p.toList pointer

/-- The characters by which the five kinds of lines can be told apart. -/
def lead : Line → List Char
  | push .. => ['p', 'u', 's']
  | pop .. => ['p', 'o', 'p']
  | depth .. => ['d', 'e', 'p']
  | refused .. => ['❌', ' ', 'p']
  | misplaced .. => ['❌', ' ', 'S']

variable {text : String} {line other : Line}

theorem names_text (line : Line) : Names line.text line := by
  cases line with
  | push value pointer bytes =>
    exact ⟨_, _, _, rfl, spells_hex 0 value, spellsSigned_signed pointer, spellsBytes_hex bytes⟩
  | pop value pointer => exact ⟨_, _, rfl, spells_hex 0 value, spellsSigned_signed pointer⟩
  | depth used free => exact ⟨_, _, rfl, spells_decimal used, spells_decimal free⟩
  | refused value needed available =>
    exact ⟨_, _, _, rfl, spells_hex 0 value, spells_decimal needed, spells_decimal available⟩
  | misplaced pointer => exact ⟨_, rfl, spells_hex 0 pointer⟩

theorem Names.take_eq_lead (h : Names text line) : text.toList.take 3 = line.lead := by
  cases line with
  | push value pointer bytes =>
    obtain ⟨v, p, b, rfl, -⟩ := h
    simp [lead]
  | pop value pointer =>
    obtain ⟨v, p, rfl, -⟩ := h
    simp [lead]
  | depth used free =>
    obtain ⟨u, f, rfl, -⟩ := h
    simp [lead]
  | refused value needed available =>
    obtain ⟨v, n, a, rfl, -⟩ := h
    simp [lead]
  | misplaced pointer =>
    obtain ⟨p, rfl, -⟩ := h
    simp [lead]

/-- **A text names one line only.** -/
theorem Names.unique (h : Names text line) (h' : Names text other) : line = other := by
  have hlead : line.lead = other.lead := h.take_eq_lead.symm.trans h'.take_eq_lead
  -- In two lines of one kind the numbers are read off one after the other, each up to the next word.
  cases line with
  | push value pointer bytes =>
    cases other with
    | push value' pointer' bytes' =>
      obtain ⟨v, p, b, rfl, hv, hp, hb⟩ := h
      obtain ⟨v', p', b', htext, hv', hp', hb'⟩ := h'
      simp only [String.append_assoc, String.append_right_inj] at htext
      obtain ⟨rfl, hpointer⟩ := hv.append_inj ": ptr=" (by decide) (by decide) hv' htext
      obtain ⟨rfl, hbytes⟩ := hp.append_inj " [" (by decide) hp' hpointer
      obtain rfl := (String.append_left_inj "]").mp hbytes
      rw [hb.unique hb']
    | _ => simp [lead] at hlead
  | pop value pointer =>
    cases other with
    | pop value' pointer' =>
      obtain ⟨v, p, rfl, hv, hp⟩ := h
      obtain ⟨v', p', htext, hv', hp'⟩ := h'
      simp only [String.append_assoc, String.append_right_inj] at htext
      obtain ⟨rfl, rfl⟩ := hv.append_inj ": ptr=" (by decide) (by decide) hv' htext
      rw [hp.unique hp']
    | _ => simp [lead] at hlead
  | depth used free =>
    cases other with
    | depth used' free' =>
      obtain ⟨u, f, rfl, hu, hf⟩ := h
      obtain ⟨u', f', htext, hu', hf'⟩ := h'
      simp only [String.append_assoc, String.append_right_inj] at htext
      obtain ⟨rfl, hfree⟩ := hu.append_inj " bytes, " (by decide) (by decide) hu' htext
      obtain rfl := (String.append_left_inj " free").mp hfree
      rw [hf.unique (by decide) hf']
    | _ => simp [lead] at hlead
  | refused value needed available =>
    cases other with
    | refused value' needed' available' =>
      obtain ⟨v, n, a, rfl, hv, hn, ha⟩ := h
      obtain ⟨v', n', a', htext, hv', hn', ha'⟩ := h'
      simp only [String.append_assoc, String.append_right_inj] at htext
      obtain ⟨rfl, hneeded⟩ :=
        hv.append_inj ": stack overflow: need " (by decide) (by decide) hv' htext
      obtain ⟨rfl, havailable⟩ := hn.append_inj " bytes, " (by decide) (by decide) hn' hneeded
      obtain rfl := (String.append_left_inj " free").mp havailable
      rw [ha.unique (by decide) ha']
    | _ => simp [lead] at hlead
  | misplaced pointer =>
    cases other with
    | misplaced pointer' =>
      obtain ⟨p, rfl, hp⟩ := h
      obtain ⟨p', htext, hp'⟩ := h'
      simp only [String.append_assoc, String.append_right_inj, String.append_left_inj] at htext
      rw [htext] at hp
      rw [hp.unique (by decide) hp']
    | _ => simp [lead] at hlead

/-- The text of a line names this line and no other. -/
theorem names_text_iff (line other : Line) : Names line.text other ↔ other = line :=
  ⟨fun h => h.unique line.names_text, fun h => h ▸ line.names_text⟩

/-- A line has no line break in it. -/
theorem isLine_text (line : Line) : IsLine line.text := by
  unfold Line.text
  cases line with
  | push value pointer bytes =>
    have hblank : IsLine " " := by decide
    have hbytes : IsLine (" ".intercalate (bytes.map fun b => hex 2 b.toNat)) := by
      refine IsLine.intercalate hblank fun piece hpiece => ?_
      obtain ⟨b, -, rfl⟩ := List.mem_map.mp hpiece
      exact isLine_hex _ _
    simp only [IsLine.append_iff, isLine_hex, isLine_signed, hbytes]
    decide
  | pop value pointer =>
    simp only [IsLine.append_iff, isLine_hex, isLine_signed]
    decide
  | depth used free =>
    simp only [IsLine.append_iff, isLine_decimal]
    decide
  | refused value needed available =>
    simp only [IsLine.append_iff, isLine_hex, isLine_decimal]
    decide
  | misplaced pointer =>
    simp only [IsLine.append_iff, isLine_hex]
    decide

end Line

end CommandLine

end Datapath
