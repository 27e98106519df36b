import Datapath.Proofs.Digits
import Datapath.Proofs.LiteralGrammar
import Mathlib.Data.List.Forall2

/-!
# Digits spell their number

What a number is printed as, in any radix, is what the grammar of numbers reads (`spells_digits`). The
induction takes away the last digit, as the printer does, while the grammar counts from the first one;
`Spells.concat` is where the two meet. Digits spell one number only (`Spells.unique`), so a number can
be told from its digits, also inside a longer text: there it ends where a word follows that does not
begin as numbers do (`Spells.append_inj`).
-/

set_option autoImplicit false

namespace Datapath.Numeral

variable {radix n m d : Nat} {cs : List Char}

/-! ## Printing -/

theorem isDigit_toUpper (h : d < radix) : IsDigit radix d.digitChar.toUpper d :=
  ⟨h, .inr rfl⟩

theorem spells_singleton (h : d < radix) : Spells radix [d.digitChar.toUpper] d := by
  refine ⟨List.cons_ne_nil _ _, [d], .cons (isDigit_toUpper h) .nil, ?_⟩
  rw [List.reverse_singleton, Nat.ofDigits_singleton]

/-- One more digit at the end counts once, and all before it the radix times. -/
theorem Spells.concat (h : Spells radix cs m) (hd : d < radix) :
    Spells radix (cs ++ [d.digitChar.toUpper]) (d + radix * m) := by
  obtain ⟨-, ds, hds, hm⟩ := h
  have hlast : List.Forall₂ (IsDigit radix) [d.digitChar.toUpper] [d] :=
    .cons (isDigit_toUpper hd) .nil
  refine ⟨List.append_ne_nil_of_right_ne_nil _ (List.cons_ne_nil _ _), ds ++ [d],
    List.rel_append hds hlast, ?_⟩
  rw [List.reverse_append, List.reverse_singleton, List.singleton_append, Nat.ofDigits_cons, hm]

/-- **The digits of a number spell it.** -/
theorem spells_digits (hradix : 1 < radix) (n : Nat) : Spells radix (digits radix n) n := by
  induction n using Nat.strongRecOn with
  | ind n ih =>
    by_cases hn : n < radix
    · rw [digits, Nat.toDigits_of_lt_base hn]
      exact spells_singleton hn
    · have hless : n / radix < n := Nat.div_lt_self (by omega) hradix
      have hinit := (ih (n / radix) hless).concat (Nat.mod_lt n (by omega))
      rw [Nat.mod_add_div] at hinit
      rw [digits, Nat.toDigits_of_base_le hradix (Nat.le_of_not_lt hn), List.map_append]
      exact hinit

theorem spells_decimal (n : Nat) : Spells 10 (decimal n).toList n := by
  rw [decimal, String.toList_ofList]
  exact spells_digits (by decide) n

theorem spells_hex (width n : Nat) : Spells 16 (hex width n).toList n := by
  rw [hex, String.toList_ofList, List.leftpad]
  exact (spells_digits (by decide) n).zeros_append (by decide) _

theorem length_hex {width : Nat} (hwidth : 0 < width) (hn : n < 16 ^ width) :
    (hex width n).toList.length = width := by
  have hdigits : (digits 16 n).length ≤ width := by
    rw [digits, List.length_map, Nat.length_toDigits_le_iff (by decide) hwidth]
    exact hn
  rw [hex, String.toList_ofList, List.length_leftpad, Nat.max_eq_left hdigits]

theorem mem_hex {width : Nat} {c : Char} (h : c ∈ (hex width n).toList) :
    ∃ d, d < 16 ∧ c = d.digitChar.toUpper := by
  rw [hex, String.toList_ofList, List.leftpad] at h
  rcases List.mem_append.mp h with hzero | hdigit
  · exact ⟨0, by decide, List.eq_of_mem_replicate hzero⟩
  · exact exists_of_mem_digits (by decide) hdigit

/-! ## Reading back -/

/-- A digit stands for one number. -/
theorem IsDigit.rightUnique (hradix : radix ≤ 16) : Relator.RightUnique (IsDigit radix) := by
  intro c d e hd he
  have hvalue := (digitValue?_eq_some_iff hradix).mpr hd
  rw [(digitValue?_eq_some_iff hradix).mpr he] at hvalue
  exact (Option.some.inj hvalue).symm

/-- Digits spell one number. -/
theorem Spells.unique (hradix : radix ≤ 16) (hm : Spells radix cs m) (hn : Spells radix cs n) :
    m = n := by
  obtain ⟨-, ds, hds, rfl⟩ := hm
  obtain ⟨-, es, hes, rfl⟩ := hn
  rw [(IsDigit.rightUnique hradix).forall₂ hds hes]

/-! ## Where a number ends -/

/-- A character of numbers: a digit or a minus sign. -/
def isMark (c : Char) : Bool :=
  c == '-' || (digitValue? 16 c).isSome

theorem Spells.isMark (h : Spells radix cs n) (hradix : radix ≤ 16) : ∀ c ∈ cs, isMark c = true := by
  intro c hc
  obtain ⟨d, hlt, hd⟩ := h.exists_isDigit hc
  have hvalue := (digitValue?_eq_some_iff (Nat.le_refl 16)).mpr ⟨Nat.lt_of_lt_of_le hlt hradix, hd⟩
  rw [Numeral.isMark, hvalue, Option.isSome_some, Bool.or_true]

/-- A number ends where a word follows that does not begin as numbers do. -/
theorem append_inj_of_word {field field' rest rest' : String} (word : String)
    (hword : word.toList.head?.map Numeral.isMark = some false)
    (hfield : ∀ c ∈ field.toList, Numeral.isMark c = true)
    (hfield' : ∀ c ∈ field'.toList, Numeral.isMark c = true)
    (h : field ++ (word ++ rest) = field' ++ (word ++ rest')) : field = field' ∧ rest = rest' := by
  have hboundary : ∀ rest : String, ∀ c ∈ (word ++ rest).toList.head?, Numeral.isMark c = false := by
    obtain ⟨first, hfirst, hmark⟩ := Option.map_eq_some_iff.mp hword
    intro rest c hc
    rw [String.toList_append, List.head?_append, hfirst, Option.some_or] at hc
    rwa [← Option.some.inj hc]
  have hchars : field.toList ++ (word ++ rest).toList = field'.toList ++ (word ++ rest').toList := by
    rw [← String.toList_append, h, String.toList_append]
  obtain ⟨hsame, hlater⟩ :=
    append_inj_of_boundary hfield hfield' (hboundary rest) (hboundary rest') hchars
  exact ⟨String.toList_inj.mp hsame, (String.append_right_inj word).mp (String.toList_inj.mp hlater)⟩

theorem Spells.append_inj {field field' rest rest' : String} (word : String)
    (hword : word.toList.head?.map Numeral.isMark = some false) (hradix : radix ≤ 16)
    (hn : Spells radix field.toList n) (hm : Spells radix field'.toList m)
    (h : field ++ (word ++ rest) = field' ++ (word ++ rest')) : n = m ∧ rest = rest' := by
  obtain ⟨rfl, hrest⟩ := append_inj_of_word word hword (hn.isMark hradix) (hm.isMark hradix) h
  exact ⟨hn.unique hradix hm, hrest⟩

end Datapath.Numeral
