import Datapath.Proofs.Digits

/-!
# Texts of one line

A transcript lists the lines of a run, and nothing in its type keeps a line from having line breaks of
its own. Numbers have none, in whatever form they are written, and so neither have the texts that are
put together from numbers and fixed words.
-/

set_option autoImplicit false

namespace Datapath

/-- The text has no line break. -/
def IsLine (text : String) : Prop :=
  '\n' ∉ text.toList

instance (text : String) : Decidable (IsLine text) :=
  inferInstanceAs (Decidable (¬ _))

namespace IsLine

@[simp] theorem append_iff {s t : String} : IsLine (s ++ t) ↔ IsLine s ∧ IsLine t := by
  rw [IsLine, String.toList_append, List.mem_append, not_or]
  rfl

theorem intercalate {separator : String} {texts : List String} (hseparator : IsLine separator)
    (h : ∀ text ∈ texts, IsLine text) : IsLine (separator.intercalate texts) := by
  -- The separator stands before every text but the first, so the rest is split once more.
  induction texts with
  | nil => exact List.not_mem_nil
  | cons text rest ih =>
    obtain ⟨htext, hrest⟩ := List.forall_mem_cons.mp h
    cases rest with
    | nil => rwa [String.intercalate_singleton]
    | cons next rest =>
      rw [String.intercalate_cons_cons, append_iff, append_iff]
      exact ⟨⟨htext, hseparator⟩, ih hrest⟩

end IsLine

namespace Numeral

theorem isLine_ofList_digits (radix n : Nat) (hlow : 1 < radix) (hhigh : radix ≤ 16) :
    IsLine (String.ofList (digits radix n)) := by
  rw [IsLine, String.toList_ofList]
  intro hmem
  -- No digit, capital or small, is a line break.
  obtain ⟨d, hd, hbreak⟩ := exists_of_mem_digits hlow hmem
  have hnone : ∀ d, d < 16 → '\n' ≠ d.digitChar.toUpper := by decide
  exact hnone d (Nat.lt_of_lt_of_le hd hhigh) hbreak

@[simp] theorem isLine_decimal (n : Nat) : IsLine (decimal n) :=
  isLine_ofList_digits 10 n (by decide) (by decide)

@[simp] theorem isLine_signed (i : Int) : IsLine (signed i) := by
  rw [signed]
  split
  · exact IsLine.append_iff.mpr ⟨by decide, isLine_decimal _⟩
  · exact isLine_decimal _

@[simp] theorem isLine_hex (width n : Nat) : IsLine (hex width n) := by
  have hdigits := isLine_ofList_digits 16 n (by decide) (by decide)
  rw [IsLine, String.toList_ofList] at hdigits
  rw [IsLine, hex, String.toList_ofList, List.leftpad, List.mem_append, not_or]
  exact ⟨fun hmem => absurd (List.eq_of_mem_replicate hmem) (by decide), hdigits⟩

end Numeral

end Datapath
