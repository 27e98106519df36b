import Datapath.Proofs.SpelledDigits
import Datapath.Proofs.StatusRecord
import Datapath.Status.Text

/-!
# The trace line of a status word read back

A trace line shows a status word twice: as the eight digits of its pattern, and decoded, field by
field. Each half says all there is to say, and the two say the same. For the digits this is the grammar
of numbers. The decoded half is read here by `fields?`, which cuts the line at its blanks, reads each
piece as the field that stands at that place, and has not seen the digits. What it read, written into
any word, makes that word the one that was printed (`rebuilt_of_trace`). If the line left a field out,
or showed one field in the place of another, two words would share a decoding and there would be no
such reader.

Two facts about single fields carry it: a piece is read as the value it was printed for
(`Field.ofText?_shown`), and no piece has a blank in it (`Field.blank_not_mem_shown`), so the line is cut
where the pieces were joined.
-/

set_option autoImplicit false

namespace Datapath

open Numeral (digitValue? hex length_hex spells_hex mem_hex digitValue?_eq_some_iff Spells)

namespace StatusWord

/-! ## Kinds of pieces -/

/-- A condition is its letter when it is set and a dash when it is clear. -/
def readLetter (c : Char) : List Char → Option Bool
  | [d] => if d = c then some true else if d = '-' then some false else none
  | _ => none

/-- A mode is a name from its list. -/
def readName {α : Type} [Named α] (text : List Char) : Option α :=
  Named.ofName? (String.ofList text)

/-- A bank is a mark and a number. -/
def readBank (mark : Char) (text : List Char) : Option Bank :=
  if text = [mark, '0'] then some .set0
  else if text = [mark, '1'] then some .set1
  else none

/-- A byte is a label of three letters and two hexadecimal digits. -/
def readByte (label : List Char) : List Char → Option Byte
  | [a, b, c, '=', high, low] =>
    if [a, b, c] = label then do
      let h ← digitValue? 16 high
      let l ← digitValue? 16 low
      return BitVec.ofNat 8 (16 * h + l)
    else none
  | _ => none

theorem readLetter_letter {c : Char} (h : c ≠ '-') (on : Bool) :
    readLetter c [letter c on] = some on := by
  cases on with
  | true => exact if_pos rfl
  | false => exact (if_neg (Ne.symm h)).trans (if_pos rfl)

theorem readName_name {α : Type} [Named α] (a : α) : readName (Named.name a).toList = some a := by
  rw [readName, String.ofList_toList, Named.ofName?_name]

theorem readBank_bankNumber (mark : Char) (b : Bank) :
    readBank mark (mark :: (bankNumber b).toList) = some b := by
  cases b with
  | set0 =>
    have hnumber : (bankNumber .set0).toList = ['0'] := by decide
    rw [readBank, hnumber, if_pos rfl]
  | set1 =>
    have hnumber : (bankNumber .set1).toList = ['1'] := by decide
    have hother : [mark, '1'] ≠ [mark, '0'] := by simp
    rw [readBank, hnumber, if_neg hother, if_pos rfl]

/-- Two digits are enough for a byte, and they spell it. -/
theorem readByte_hex (a b c : Char) (v : Byte) :
    readByte [a, b, c] ([a, b, c, '='] ++ (hex 2 v.toNat).toList) = some v := by
  have hlength : (hex 2 v.toNat).toList.length = 2 := length_hex (by decide) v.isLt
  obtain ⟨high, low, htext⟩ := List.length_eq_two.mp hlength
  obtain ⟨-, ds, hdigits, hvalue⟩ := spells_hex 2 v.toNat
  rw [htext] at hdigits
  obtain ⟨h, hs, hhigh, hrest, rfl⟩ := List.forall₂_cons_left_iff.mp hdigits
  obtain ⟨l, ls, hlow, hnone, rfl⟩ := List.forall₂_cons_left_iff.mp hrest
  obtain rfl := List.forall₂_nil_left_iff.mp hnone
  have hsum : 16 * h + l = v.toNat := by
    simp only [List.reverse_cons, List.reverse_nil, List.nil_append, List.cons_append,
      Nat.ofDigits_cons, Nat.ofDigits_nil] at hvalue
    omega
  have hh : digitValue? 16 high = some h := (digitValue?_eq_some_iff (by decide)).mpr hhigh
  have hl : digitValue? 16 low = some l := (digitValue?_eq_some_iff (by decide)).mpr hlow
  simp [htext, readByte, hh, hl, hsum]

end StatusWord

/-! ## The pieces of a line -/

namespace Field

open StatusWord

/-- What a field is printed as. -/
def shown : (f : Field) → f.Value → List Char
  | carry, on => [letter 'C' on]
  | overflow, on => [letter 'V' on]
  | zero, on => [letter 'Z' on]
  | negative, on => [letter 'N' on]
  | interruptDisable, on => [letter 'I' on]
  | addressMode, m => (Named.name m).toList
  | register, r => (Named.name r).toList
  | width, w => (Named.name w).toList
  | mathMode, m => (Named.name m).toList
  | pointerBank, b => 'P' :: (bankNumber b).toList
  | counterBank, b => 'T' :: (bankNumber b).toList
  | system, v => ['s', 'y', 's', '='] ++ (hex 2 v.toNat).toList
  | user, v => ['u', 's', 'r', '='] ++ (hex 2 v.toNat).toList

/-- The value that a piece of the line gives a field. -/
def ofText? : (f : Field) → List Char → Option f.Value
  | carry => readLetter 'C'
  | overflow => readLetter 'V'
  | zero => readLetter 'Z'
  | negative => readLetter 'N'
  | interruptDisable => readLetter 'I'
  | addressMode | register | width | mathMode => readName
  | pointerBank => readBank 'P'
  | counterBank => readBank 'T'
  | system => readByte ['s', 'y', 's']
  | user => readByte ['u', 's', 'r']

/-- A piece is read as the value it was printed for. -/
theorem ofText?_shown (f : Field) (v : f.Value) : f.ofText? (f.shown v) = some v := by
  cases f with
  | carry | overflow | zero | negative | interruptDisable => exact readLetter_letter (by decide) v
  | addressMode => exact readName_name (α := AddressMode) v
  | register => exact readName_name (α := Register) v
  | width => exact readName_name (α := Width) v
  | mathMode => exact readName_name (α := MathMode) v
  | pointerBank => exact readBank_bankNumber 'P' v
  | counterBank => exact readBank_bankNumber 'T' v
  | system => exact readByte_hex 's' 'y' 's' v
  | user => exact readByte_hex 'u' 's' 'r' v

theorem blank_not_mem_shown (f : Field) (v : f.Value) : ' ' ∉ f.shown v := by
  cases f with
  | system | user =>
    have hdigit : ∀ d, d < 16 → ' ' ≠ d.digitChar.toUpper := by decide
    intro h
    rcases List.mem_append.mp h with hlabel | hdigits
    · exact absurd hlabel (by decide)
    · obtain ⟨d, hd, hblank⟩ := mem_hex hdigits
      exact hdigit d hd hblank
  | _ => cases v <;> decide

end Field

namespace StatusWord

/-! ## The line -/

/-- The fields in the order of the line. -/
def inLine : List Field :=
  [.carry, .overflow, .zero, .negative, .interruptDisable, .addressMode, .register, .width, .mathMode,
    .pointerBank, .counterBank, .system, .user]

theorem mem_inLine (f : Field) : f ∈ inLine := by
  cases f <;> decide

/-- The digits of the pattern, which follow the mark of three characters. -/
def digitsOf (line : String) : List Char :=
  (line.toList.drop 3).take 8

/-- What the line says after its mark and its eight digits. -/
def decodingOf (line : String) : List Char :=
  line.toList.drop 11

/-- The pieces of a decoding, in the order of the fields. The conditions stand together in brackets. -/
def pieces? (decoding : List Char) : Option (List (List Char)) :=
  match decoding.splitOn ' ' with
  | [] :: ['[', c, v, z, n, i, ']'] :: rest => some ([c] :: [v] :: [z] :: [n] :: [i] :: rest)
  | _ => none

/-- Reads one piece for each field, and none besides. -/
def readFields : List Field → List (List Char) → Option (List ((f : Field) × f.Value))
  | [], [] => some []
  | f :: fs, piece :: rest => do
    let v ← f.ofText? piece
    let entries ← readFields fs rest
    return ⟨f, v⟩ :: entries
  | _, _ => none

/-- The fields and values that a decoding tells. -/
def fields? (decoding : List Char) : Option (List ((f : Field) × f.Value)) :=
  (pieces? decoding).bind (readFields inLine)

theorem readFields_shown (r : (f : Field) → f.Value) (fs : List Field) :
    readFields fs (fs.map fun f => f.shown (r f)) = some (fs.map fun f => ⟨f, r f⟩) := by
  induction fs with
  | nil => rfl
  | cons f fs ih =>
    rw [List.map_cons, readFields, Field.ofText?_shown, ih]
    rfl

variable (w : StatusWord)

theorem toList_trace :
    w.trace.toList =
      "ST=".toList ++ ((hex 8 w.bits.toNat).toList ++ ' ' :: w.decoded.toList) := by
  have hblank : " ".toList = [' '] := rfl
  simp only [trace, String.toList_append, List.append_assoc, hblank, List.singleton_append]

theorem length_digits : (hex 8 w.bits.toNat).toList.length = 8 :=
  length_hex (by decide) w.bits.isLt

theorem digitsOf_trace : digitsOf w.trace = (hex 8 w.bits.toNat).toList := by
  have hmark : "ST=".toList.length = 3 := rfl
  rw [digitsOf, toList_trace, List.drop_left' hmark, List.take_left' w.length_digits]

theorem decodingOf_trace : decodingOf w.trace = ' ' :: w.decoded.toList := by
  have hlength : ("ST=".toList ++ (hex 8 w.bits.toNat).toList).length = 11 := by
    rw [List.length_append, w.length_digits]
    rfl
  rw [decodingOf, toList_trace, ← List.append_assoc, List.drop_left' hlength]

/-- What stands between the blanks of a decoding: nothing before the first, then the conditions in
their brackets, then each other field by itself. -/
def betweenBlanks : List (List Char) :=
  [] :: ('[' :: (inLine.take 5).flatMap (fun f => f.shown (w.read f)) ++ [']']) ::
    (inLine.drop 5).map fun f => f.shown (w.read f)

theorem decoding_eq_intercalate :
    ' ' :: w.decoded.toList = [' '].intercalate w.betweenBlanks := by
  have hletters : w.letters.toList = (inLine.take 5).flatMap fun f => f.shown (w.read f) :=
    String.toList_ofList
  have hopen : "[".toList = ['['] := rfl
  have hclose : "] ".toList = [']', ' '] := rfl
  have hblank : " ".toList = [' '] := rfl
  have hpointer : " P".toList = [' ', 'P'] := rfl
  have hcounter : " T".toList = [' ', 'T'] := rfl
  have hsystem : " sys=".toList = [' ', 's', 'y', 's', '='] := rfl
  have huser : " usr=".toList = [' ', 'u', 's', 'r', '='] := rfl
  rw [betweenBlanks, ← hletters]
  unfold decoded
  simp only [String.toList_append, hopen, hclose, hblank, hpointer, hcounter, hsystem, huser, inLine,
    List.drop, List.map, Field.shown, List.intercalate_cons_cons, List.intercalate_singleton,
    List.append_assoc, List.cons_append, List.nil_append]

theorem blank_not_mem_betweenBlanks {piece : List Char} (h : piece ∈ w.betweenBlanks) :
    ' ' ∉ piece := by
  rcases List.mem_cons.mp h with rfl | h
  · exact List.not_mem_nil
  rcases List.mem_cons.mp h with rfl | h
  · intro hblank
    simp only [List.cons_append, List.mem_cons, List.mem_append, List.mem_flatMap] at hblank
    rcases hblank with hopen | ⟨f, -, hshown⟩ | hclose
    · exact absurd hopen (by decide)
    · exact f.blank_not_mem_shown _ hshown
    · exact absurd hclose (by decide)
  · obtain ⟨f, -, rfl⟩ := List.mem_map.mp h
    exact f.blank_not_mem_shown _

/-- The line is cut where its pieces were joined. -/
theorem pieces?_trace :
    pieces? (decodingOf w.trace) = some (inLine.map fun f => f.shown (w.read f)) := by
  have hcut : (decodingOf w.trace).splitOn ' ' = w.betweenBlanks := by
    rw [decodingOf_trace, decoding_eq_intercalate]
    exact List.splitOn_intercalate ' ' (fun _ => w.blank_not_mem_betweenBlanks) (List.cons_ne_nil _ _)
  rw [pieces?, hcut]
  rfl

/-! ## The word told by its decoding -/

variable {β : Type} (observe : Turn StatusWord Reply → β)

/-- A word after the fields are written into it, one after another. -/
def rebuilt (entries : List ((f : Field) × f.Value)) (start : StatusWord) : StatusWord :=
  (Session.run act observe (entries.map fun entry => .write entry.1 entry.2) start).last

/-- **The decoding tells the word.** It is read, and the values it gives the fields, written into
any word, make it the one that was printed. -/
theorem rebuilt_of_trace :
    ∃ entries, fields? (decodingOf w.trace) = some entries ∧
      ∀ start, rebuilt observe entries start = w := by
  refine ⟨inLine.map fun f => ⟨f, w.read f⟩, ?_, fun start => ?_⟩
  · rw [fields?, pieces?_trace]
    exact readFields_shown w.read inLine
  · rw [rebuilt, List.map_map]
    exact ext_read fun f => read_run_fillSteps observe w.read start (mem_inLine f)

/-- **A trace line is a complete and consistent decoding.** Two words whose lines agree after the mark
and the eight digits are the same word. And in every line both halves tell the same word: the eight
characters after the mark are hexadecimal digits, the rest is read as values of fields, and these
values, written into any word, leave a word whose pattern is the number that the digits spell. -/
theorem trace_decodes :
    (∀ w z : StatusWord, decodingOf w.trace = decodingOf z.trace ↔ w = z) ∧
    ∀ w : StatusWord, w.trace.toList.take 3 = "ST=".toList ∧ (digitsOf w.trace).length = 8 ∧
      ∃ entries, fields? (decodingOf w.trace) = some entries ∧
        ∀ start, rebuilt observe entries start = w ∧
          ∀ n, Spells 16 (digitsOf w.trace) n ↔ n = (rebuilt observe entries start).bits.toNat := by
  constructor
  · intro w z
    refine ⟨fun h => ?_, fun h => h ▸ rfl⟩
    obtain ⟨entries, hread, hw⟩ := rebuilt_of_trace w observe
    obtain ⟨entries', hread', hz⟩ := rebuilt_of_trace z observe
    rw [h, hread'] at hread
    obtain rfl := Option.some.inj hread
    rw [← hw clear, hz clear]
  · intro w
    have hspells : Spells 16 (digitsOf w.trace) w.bits.toNat := by
      rw [digitsOf_trace]
      exact spells_hex 8 _
    obtain ⟨entries, hread, hrebuilt⟩ := rebuilt_of_trace w observe
    refine ⟨?_, ?_, entries, hread, fun start => ⟨hrebuilt start, fun n => ?_⟩⟩
    · rw [toList_trace]
      exact List.take_left' rfl
    · rw [digitsOf_trace, length_digits]
    · rw [hrebuilt start]
      exact ⟨fun hn => hn.unique (by decide) hspells, fun hn => hn ▸ hspells⟩

end StatusWord

end Datapath
