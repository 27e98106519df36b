import Datapath.Proofs.SpelledDigits
import Datapath.Snapshot

/-!
# Printed numbers are literals

A cell is printed in four ways: its sixteen hexadecimal digits, which make a literal once a marker
stands before them, the marked form without leading zeros, the signed decimal number that stands for
the cell in parentheses, and the unsigned decimal number of a snapshot. Each is a literal of the
grammar and means the cell.

The signed form is the one whose literal is not the number that its digits write: there the magnitude
goes up to `2 ^ 63`, and the grammar's greatest negative literal is just that. Underscores and white
space are no part of the grammar, so a text in such disguise is cleaned first (`clean_of_dresses`).
-/

set_option autoImplicit false

namespace Datapath.Literal

open Numeral

/-! ## Literals in disguise -/

/-- The text has blanks around it, and without them and without its underscores it is the other. -/
def Dresses (text plain : String) : Prop :=
  ∃ before core after, text.toList = before ++ core ++ after ∧
    (∀ c ∈ before, isBlank c = true) ∧ (∀ c ∈ after, isBlank c = true) ∧
    core.filter (· != '_') = plain.toList

/-- A literal is the same in disguise. -/
theorem clean_of_dresses {text plain : String} (h : Dresses text plain)
    (hplain : ∀ c ∈ plain.toList, keeps c = true) : clean text = plain.toList := by
  obtain ⟨before, core, after, htext, hbefore, hafter, hcore⟩ := h
  have hblank : ∀ c ∈ core, isBlank c = false := by
    intro c hc
    by_cases hunder : c = '_'
    · rw [hunder]
      rfl
    · refine (keeps_iff.mp (hplain c ?_)).1
      rw [← hcore]
      exact List.mem_filter.mpr ⟨hc, bne_iff_ne.mpr hunder⟩
  rw [clean, htext, trimmed_around hbefore hafter hblank, hcore]

/-! ## The forms in which cells are printed -/

/-- The text is a literal and means the cell, as it stands. -/
def Names (text : String) (c : Cell) : Prop :=
  Means text.toList c.toNat

theorem names_marked (width : Nat) (c : Cell) : Names (marked width c.toNat) c := by
  have hle : c.toNat ≤ 2 ^ 64 - 1 := Nat.le_sub_one_of_lt c.isLt
  have htext : (marked width c.toNat).toList = ['0', 'x'] ++ ([] ++ (hex width c.toNat).toList) := by
    have hmarker : "0x".toList = ['0', 'x'] := rfl
    rw [marked, String.toList_append, hmarker, List.nil_append]
  exact ⟨.hexadecimal, ['0', 'x'], [], _, c.toNat,
    ⟨by decide, by decide, htext, spells_hex width c.toNat, hle⟩, rfl⟩

theorem names_decimal (c : Cell) : Names (decimal c.toNat) c := by
  have hle : c.toNat ≤ 2 ^ 64 - 1 := Nat.le_sub_one_of_lt c.isLt
  exact ⟨.decimal, [], [], _, c.toNat, ⟨by decide, by decide, rfl, spells_decimal c.toNat, hle⟩, rfl⟩

theorem signed_whole (c : Cell) : Cell.signed .w64 c = c.toInt := by
  rw [Cell.signed, Cell.unsigned]
  exact congrArg BitVec.toInt (BitVec.setWidth_eq c)

/-- A cell that is negative is what its magnitude lacks to `2 ^ 64`. -/
theorem names_signedText (c : Cell) : Names (Cell.signedText c) c := by
  rw [Cell.signedText, signed_whole, signed]
  by_cases hsign : c.toInt < 0
  · have hvalue : c.toInt = (c.toNat : Int) - 2 ^ 64 := by
      have heq := BitVec.toInt_eq_toNat_cond c
      split at heq
      · omega
      · exact heq
    have hlow := c.le_toInt
    have hlt : c.toNat < 2 ^ 64 := c.isLt
    have hmagnitude : c.toInt.natAbs = 2 ^ 64 - c.toNat := by omega
    have hle : c.toInt.natAbs ≤ 2 ^ 63 := by omega
    have hback : (2 ^ 64 - c.toInt.natAbs) % 2 ^ 64 = c.toNat := by
      rw [hmagnitude]
      omega
    have htext : ("-" ++ decimal c.toInt.natAbs).toList =
        [] ++ (['-'] ++ (decimal c.toInt.natAbs).toList) := by
      have hminus : "-".toList = ['-'] := rfl
      rw [String.toList_append, hminus, List.nil_append]
    rw [if_pos hsign]
    exact ⟨.negative, [], ['-'], _, c.toInt.natAbs,
      ⟨by decide, by decide, htext, spells_decimal _, hle⟩, hback⟩
  · have hvalue : c.toInt.natAbs = c.toNat := by
      have heq := BitVec.toInt_eq_toNat_cond c
      split at heq
      · omega
      · have hlt : c.toNat < 2 ^ 64 := c.isLt
        omega
    rw [if_neg hsign, hvalue]
    exact names_decimal c

theorem read_of_names {text dressed : String} {c : Cell} (h : Names text c)
    (hdressed : Dresses dressed text) : read dressed = .ok c := by
  have hclean := clean_of_dresses hdressed fun _ hmem => Means.keeps h hmem
  rw [read_eq_ok_iff, hclean]
  exact readClean_eq_ok_iff.mpr h

theorem dresses_self {text : String} {c : Cell} (h : Names text c) : Dresses text text := by
  refine ⟨[], text.toList, [], ?_, fun _ hmem => absurd hmem List.not_mem_nil,
    fun _ hmem => absurd hmem List.not_mem_nil, ?_⟩
  · rw [List.nil_append, List.append_nil]
  · rw [List.filter_eq_self]
    intro d hd
    exact bne_iff_ne.mpr (keeps_iff.mp (Means.keeps h hd)).2

/-- The texts under which a cell is printed. -/
def printed (c : Cell) : List String :=
  ["0x" ++ Cell.text c, marked 0 c.toNat, Cell.signedText c, Snapshot.save c]

theorem names_of_mem_printed {c : Cell} {text : String} (h : text ∈ printed c) : Names text c := by
  rcases List.mem_cons.mp h with rfl | h
  · exact names_marked 16 c
  rcases List.mem_cons.mp h with rfl | h
  · exact names_marked 0 c
  rcases List.mem_cons.mp h with rfl | h
  · exact names_signedText c
  · rw [List.mem_singleton.mp h]
    exact names_decimal c

/-! ## Printed numbers can be fed back -/

/-- **Every printed form of a cell is read as the cell.** The sixteen capital hexadecimal digits after
a marker, the short form with the marker, the signed and the unsigned decimal number are all literals
of the cell, as they are printed and with underscores anywhere in them and white space around them. -/
theorem printed_reads_back (c : Cell) :
    (Cell.text c).toList.length = 16 ∧ (∀ d ∈ (Cell.text c).toList, d ∈ "0123456789ABCDEF".toList) ∧
    ∀ text ∈ printed c, read text = .ok c ∧
      ∀ dressed, Dresses dressed text → read dressed = .ok c := by
  refine ⟨length_hex (by decide) c.isLt, ?_, ?_⟩
  · intro d hd
    obtain ⟨value, hvalue, rfl⟩ := mem_hex hd
    have hcapital : ∀ value, value < 16 →
        value.digitChar.toUpper ∈ "0123456789ABCDEF".toList := by decide
    exact hcapital value hvalue
  · intro text htext
    have hnames := names_of_mem_printed htext
    exact ⟨read_of_names hnames (dresses_self hnames), fun _ => read_of_names hnames⟩

/-- The least signed number, whose magnitude no positive literal of its kind could have. -/
theorem printed_reads_back_least :
    "-9223372036854775808" ∈ printed (BitVec.intMin 64) ∧
      Dresses "\t-9_223372036854775808_\n" "-9223372036854775808" ∧
      read "\t-9_223372036854775808_\n" = .ok (BitVec.intMin 64) := by
  have hprinted : "-9223372036854775808" ∈ printed (BitVec.intMin 64) := by decide +kernel
  have hdressed : Dresses "\t-9_223372036854775808_\n" "-9223372036854775808" :=
    ⟨['\t'], "-9_223372036854775808_".toList, ['\n'], by decide,
      List.forall_mem_singleton.mpr rfl, List.forall_mem_singleton.mpr rfl, by decide⟩
  exact ⟨hprinted, hdressed,
    ((printed_reads_back (BitVec.intMin 64)).2.2 _ hprinted).2 _ hdressed⟩

end Datapath.Literal
