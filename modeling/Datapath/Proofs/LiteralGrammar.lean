import Datapath.Literal
import Datapath.Proofs.Lists
import Mathlib.Data.List.DropRight
import Mathlib.Data.Nat.Digits.Defs

/-!
# What a literal means

The grammar of literals, apart from the program that reads them. There are four forms of a literal
(`Form`). Each has what may lead it, the marker with the sign, and after that come digits of its radix,
one at least, up to a greatest number; `Parse` says this of one text. The forms exclude one another
without saying so (`Parse.ofText_eq`): no marker and no minus sign can pass for decimal digits.

`read_iff_means` is the two ways between grammar and program. The program decides on the form by the
first characters (`Form.ofText`), and that is where the two could come apart: `ofText_of_spells` shows
that a text of decimal digits is never taken for one of the other forms.
-/

set_option autoImplicit false

namespace Datapath

/-! ## Digits -/

namespace Numeral

/-- The character is the digit `d` of the radix, a letter in either case. -/
def IsDigit (radix : Nat) (c : Char) (d : Nat) : Prop :=
  d < radix ∧ (c = d.digitChar ∨ c = d.digitChar.toUpper)

/-- The characters are one or more digits of the radix and write the number `n`, the most significant
digit first. -/
def Spells (radix : Nat) (cs : List Char) (n : Nat) : Prop :=
  cs ≠ [] ∧ ∃ ds, List.Forall₂ (IsDigit radix) cs ds ∧ Nat.ofDigits radix ds.reverse = n

variable {radix n d : Nat} {c : Char} {cs : List Char}

theorem digitValue?_eq_some_iff (hradix : radix ≤ 16) :
    digitValue? radix c = some d ↔ IsDigit radix c d := by
  constructor
  · intro h
    obtain ⟨hvalue, hbelow⟩ := Option.filter_eq_some_iff.mp h
    have hlt : d < radix := of_decide_eq_true hbelow
    refine ⟨hlt, ?_⟩
    -- In each of the three ranges the character is the one that its value counts to.
    split at hvalue
    next hrange =>
      have hdigit : ∀ d, d < 10 → Char.ofNat (d + 48) = d.digitChar := by decide
      have hlow : 48 ≤ c.toNat := hrange.1
      have hhigh : c.toNat ≤ 57 := hrange.2
      have hd : c.toNat - 48 = d := Option.some.inj hvalue
      have hc : c.toNat = d + 48 := by omega
      rw [← hdigit d (by omega), ← hc, Char.ofNat_toNat]
      exact .inl rfl
    next =>
      split at hvalue
      next hrange =>
        have hletter : ∀ d, d < 16 → 10 ≤ d → Char.ofNat (d + 87) = d.digitChar := by decide
        have hlow : 97 ≤ c.toNat := hrange.1
        have hd : c.toNat - 97 + 10 = d := Option.some.inj hvalue
        have hc : c.toNat = d + 87 := by omega
        rw [← hletter d (by omega) (by omega), ← hc, Char.ofNat_toNat]
        exact .inl rfl
      next =>
        split at hvalue
        next hrange =>
          have hcapital : ∀ d, d < 16 → 10 ≤ d → Char.ofNat (d + 55) = d.digitChar.toUpper := by
            decide
          have hlow : 65 ≤ c.toNat := hrange.1
          have hd : c.toNat - 65 + 10 = d := Option.some.inj hvalue
          have hc : c.toNat = d + 55 := by omega
          rw [← hcapital d (by omega) (by omega), ← hc, Char.ofNat_toNat]
          exact .inr rfl
        next => exact nomatch hvalue
  · intro ⟨hlt, hc⟩
    have hsixteen : digitValue? 16 c = some d := by
      have hsmall : ∀ d, d < 16 → digitValue? 16 d.digitChar = some d := by decide
      have hcapital : ∀ d, d < 16 → digitValue? 16 d.digitChar.toUpper = some d := by decide
      rcases hc with rfl | rfl
      · exact hsmall d (by omega)
      · exact hcapital d (by omega)
    obtain ⟨hvalue, -⟩ := Option.filter_eq_some_iff.mp hsixteen
    exact Option.filter_eq_some_iff.mpr ⟨hvalue, decide_eq_true hlt⟩

theorem Spells.exists_isDigit (h : Spells radix cs n) (hc : c ∈ cs) : ∃ d, IsDigit radix c d := by
  obtain ⟨-, ds, hds, -⟩ := h
  induction hds with
  | nil => exact nomatch hc
  | cons hdigit hrest ih =>
    rcases List.mem_cons.mp hc with rfl | hc
    · exact ⟨_, hdigit⟩
    · exact ih hc

theorem Spells.digitValue?_ne_none (h : Spells radix cs n) (hradix : radix ≤ 16) (hc : c ∈ cs) :
    digitValue? radix c ≠ none := by
  obtain ⟨d, hdigit⟩ := h.exists_isDigit hc
  rw [(digitValue?_eq_some_iff hradix).mpr hdigit]
  exact Option.some_ne_none d

theorem Spells.zero_cons (h : Spells radix cs n) (hradix : 0 < radix) :
    Spells radix ('0' :: cs) n := by
  obtain ⟨-, ds, hds, hn⟩ := h
  refine ⟨List.cons_ne_nil _ _, 0 :: ds, .cons ⟨hradix, .inl rfl⟩ hds, ?_⟩
  rw [Nat.ofDigits_reverse_zero_cons, hn]

/-- Zeros in front do not change a number. -/
theorem Spells.zeros_append (h : Spells radix cs n) (hradix : 0 < radix) (zeros : Nat) :
    Spells radix (List.replicate zeros '0' ++ cs) n := by
  induction zeros with
  | zero => exact h
  | succ zeros ih => exact ih.zero_cons hradix

/-- A number grows with every digit that is taken. -/
theorem le_foldl_digits (hradix : 0 < radix) (ds : List Nat) (n : Nat) :
    n ≤ ds.foldl (fun n d => radix * n + d) n := by
  induction ds generalizing n with
  | nil => exact Nat.le_refl n
  | cons d rest ih =>
    calc n ≤ radix * n := Nat.le_mul_of_pos_left n hradix
      _ ≤ radix * n + d := Nat.le_add_right _ _
      _ ≤ _ := ih _

theorem ofDigits_reverse_eq_foldl (radix : Nat) (ds : List Nat) :
    Nat.ofDigits radix ds.reverse = ds.foldl (fun n d => radix * n + d) 0 := by
  rw [Nat.ofDigits_eq_foldr, List.foldr_reverse]
  simp only [Nat.cast_id, Nat.add_comm]

end Numeral

namespace Literal

open Numeral

/-! ## The grammar -/

/-- The four forms of a literal. -/
inductive Form
  | hexadecimal
  | binary
  | negative
  | decimal
  deriving DecidableEq, Repr

/-- No sign or a plus sign. -/
def optionalPlus : List (List Char) := [[], ['+']]

namespace Form

def radix : Form → Nat
  | hexadecimal => 16
  | binary => 2
  | negative | decimal => 10

/-- The markers with which a literal of the form may begin. -/
def markers : Form → List (List Char)
  | hexadecimal => [['0', 'x'], ['0', 'X']]
  | binary => [['0', 'b'], ['0', 'B']]
  | negative | decimal => [[]]

/-- The signs that may follow the marker. -/
def signs : Form → List (List Char)
  | negative => [['-']]
  | hexadecimal | binary | decimal => optionalPlus

/-- The greatest number that the digits may write. -/
def greatest : Form → Nat
  | negative => 2 ^ 63
  | hexadecimal | binary | decimal => 2 ^ 64 - 1

/-- The form that a text asks for with its first characters, whether it goes on as a literal or not. -/
def ofText : List Char → Form
  | '0' :: 'x' :: _ | '0' :: 'X' :: _ => hexadecimal
  | '0' :: 'b' :: _ | '0' :: 'B' :: _ => binary
  | '-' :: _ => negative
  | _ => decimal

/-- What a literal means whose digits write this number. -/
def value (form : Form) (written : Nat) : Nat :=
  match form with
  | negative => (2 ^ 64 - written) % 2 ^ 64
  | hexadecimal | binary | decimal => written

end Form

/-- The text is a literal of the form: a marker, a sign, and digits that write a number in range. -/
structure Parse (form : Form) (marker sign digits : List Char) (written : Nat) (u : List Char) :
    Prop where
  marker_mem : marker ∈ form.markers
  sign_mem : sign ∈ form.signs
  eq_append : u = marker ++ (sign ++ digits)
  spells : Spells form.radix digits written
  le_greatest : written ≤ form.greatest

/-- The text is a literal and means this number. -/
def Means (u : List Char) (n : Nat) : Prop :=
  ∃ form marker sign digits written,
    Parse form marker sign digits written u ∧ form.value written = n

/-! ## Reading digits -/

variable {radix greatest n m : Nat} {beyond : LiteralFault} {cs : List Char} {c : Cell}

theorem exists_digits_cons (hhigh : radix ≤ 16) {c : Char} {P : List Nat → Prop} :
    (∃ ds, List.Forall₂ (IsDigit radix) (c :: cs) ds ∧ P ds) ↔
      ∃ d, digitValue? radix c = some d ∧
        ∃ ds, List.Forall₂ (IsDigit radix) cs ds ∧ P (d :: ds) := by
  constructor
  · rintro ⟨ds, hds, hP⟩
    cases hds with
    | cons hdigit hrest => exact ⟨_, (digitValue?_eq_some_iff hhigh).mpr hdigit, _, hrest, hP⟩
  · rintro ⟨d, hvalue, ds, hrest, hP⟩
    exact ⟨d :: ds, .cons ((digitValue?_eq_some_iff hhigh).mp hvalue) hrest, hP⟩

/-- The number is checked after every digit; because it only grows, checking the last one would do. -/
theorem readDigits_eq_ok_iff (hlow : 0 < radix) (hhigh : radix ≤ 16) (hn : n ≤ greatest) :
    readDigits radix greatest beyond n cs = .ok m ↔
      ∃ ds, List.Forall₂ (IsDigit radix) cs ds ∧
        ds.foldl (fun n d => radix * n + d) n = m ∧ m ≤ greatest := by
  -- On the characters still to come; the number is generalised because every digit moves it on.
  induction cs generalizing n with
  | nil =>
    rw [readDigits, Except.ok.injEq]
    constructor
    · rintro rfl
      exact ⟨[], .nil, rfl, hn⟩
    · rintro ⟨ds, hds, hfold, -⟩
      cases hds
      exact hfold
  | cons c rest ih =>
    rw [readDigits, exists_digits_cons hhigh]
    cases hvalue : digitValue? radix c with
    | none => exact ⟨fun h => (nomatch h), fun ⟨d, hd, _⟩ => (nomatch hd)⟩
    | some d =>
      simp only [Option.some.injEq, exists_eq_left', List.foldl_cons]
      by_cases hfits : radix * n + d ≤ greatest
      · rw [if_pos hfits, ih hfits]
      · rw [if_neg hfits]
        refine ⟨fun h => (nomatch h), ?_⟩
        rintro ⟨ds, -, hfold, hle⟩
        have hgrown := le_foldl_digits hlow ds (radix * n + d)
        omega

theorem readDigits_zero_eq_ok_iff (hlow : 0 < radix) (hhigh : radix ≤ 16) (hcs : cs ≠ []) :
    readDigits radix greatest beyond 0 cs = .ok m ↔ Spells radix cs m ∧ m ≤ greatest := by
  rw [readDigits_eq_ok_iff hlow hhigh (Nat.zero_le _)]
  simp only [Spells, ofDigits_reverse_eq_foldl]
  constructor
  · rintro ⟨ds, hds, hfold, hle⟩
    exact ⟨⟨hcs, ds, hds, hfold⟩, hle⟩
  · rintro ⟨⟨-, ds, hds, hfold⟩, hle⟩
    exact ⟨ds, hds, hfold, hle⟩

theorem readUnsigned_plus (hlow : 0 < radix) (hhigh : radix ≤ 16) :
    readUnsigned radix ('+' :: cs) = .ok m ↔ Spells radix cs m ∧ m ≤ greatestUnsigned := by
  cases cs with
  | nil => exact ⟨fun h => (nomatch h), fun h => absurd rfl h.1.1⟩
  | cons c rest => exact readDigits_zero_eq_ok_iff hlow hhigh (List.cons_ne_nil _ _)

theorem readUnsigned_cons {c : Char} (hc : c ≠ '+') :
    readUnsigned radix (c :: cs) = readDigits radix greatestUnsigned .tooLarge 0 (c :: cs) := by
  rw [readUnsigned.eq_def]
  split
  next h => exact nomatch h
  next h => exact absurd (List.cons.inj h).1 hc
  next h => exact absurd (List.cons.inj h).1 hc
  next => rfl

theorem readUnsigned_eq_ok_iff (hlow : 0 < radix) (hhigh : radix ≤ 16) :
    readUnsigned radix cs = .ok m ↔
      ∃ sign ∈ optionalPlus, ∃ digits, cs = sign ++ digits ∧ Spells radix digits m ∧
        m ≤ greatestUnsigned := by
  -- A plus sign is no digit, so of the two ways to cut a text at most one is left.
  have hplus : ∀ digits, ¬ Spells radix ('+' :: digits) m :=
    fun digits hspells => hspells.digitValue?_ne_none hhigh List.mem_cons_self rfl
  simp only [optionalPlus, List.mem_cons, List.not_mem_nil, or_false, exists_eq_or_imp,
    exists_eq_left, List.nil_append, List.singleton_append]
  cases cs with
  | nil =>
    refine ⟨fun h => (nomatch h), ?_⟩
    rintro (⟨digits, rfl, hspells, -⟩ | ⟨digits, hcs, -⟩)
    · exact absurd rfl hspells.1
    · exact nomatch hcs
  | cons c rest =>
    by_cases hc : c = '+'
    · subst hc
      rw [readUnsigned_plus hlow hhigh]
      constructor
      · exact fun h => .inr ⟨rest, rfl, h⟩
      · rintro (⟨digits, rfl, hspells, -⟩ | ⟨digits, hcs, h⟩)
        · exact absurd hspells (hplus rest)
        · obtain rfl := (List.cons.inj hcs).2
          exact h
    · rw [readUnsigned_cons hc, readDigits_zero_eq_ok_iff hlow hhigh (List.cons_ne_nil _ _)]
      constructor
      · exact fun h => .inl ⟨c :: rest, rfl, h⟩
      · rintro (⟨digits, rfl, h⟩ | ⟨digits, hcs, -⟩)
        · exact h
        · exact absurd (List.cons.inj hcs).1 hc

theorem readNegative_eq_ok_iff :
    readNegative cs = .ok m ↔ Spells 10 cs m ∧ m ≤ greatestNegative := by
  cases cs with
  | nil => exact ⟨fun h => (nomatch h), fun h => absurd rfl h.1.1⟩
  | cons c rest => exact readDigits_zero_eq_ok_iff (by decide) (by decide) (List.cons_ne_nil _ _)

/-! ## Reading a literal -/

/-- Digits that write a number are never taken for a marker or a minus sign. -/
theorem ofText_of_spells (h : Spells 10 cs m) : Form.ofText cs = .decimal := by
  -- In all branches but the last the text has a character that is no decimal digit.
  have hnone : ∀ c ∈ cs, digitValue? 10 c ≠ none := fun c => h.digitValue?_ne_none (by decide)
  rw [Form.ofText.eq_def]
  split
  · exact absurd rfl (hnone 'x' (by simp))
  · exact absurd rfl (hnone 'X' (by simp))
  · exact absurd rfl (hnone 'b' (by simp))
  · exact absurd rfl (hnone 'B' (by simp))
  · exact absurd rfl (hnone '-' (by simp))
  · rfl

theorem readClean_of_decimal (h : Form.ofText cs = .decimal) :
    readClean cs = (readUnsigned 10 cs).map (BitVec.ofNat 64) := by
  rw [readClean.eq_def]
  split
  · exact nomatch (show Form.hexadecimal = .decimal from h)
  · exact nomatch (show Form.hexadecimal = .decimal from h)
  · exact nomatch (show Form.binary = .decimal from h)
  · exact nomatch (show Form.binary = .decimal from h)
  · exact nomatch (show Form.negative = .decimal from h)
  · rfl

theorem readClean_minus (digits : List Char) :
    readClean ('-' :: digits) =
      (readNegative digits).map fun (m : Nat) => BitVec.ofInt 64 (-(m : Int)) := by
  rw [readClean]
  cases readNegative digits <;> rfl

theorem toNat_ofNat_of_le (h : m ≤ greatestUnsigned) : (BitVec.ofNat 64 m).toNat = m := by
  have hgreatest : greatestUnsigned = 2 ^ 64 - 1 := rfl
  rw [BitVec.toNat_ofNat, Nat.mod_eq_of_lt (by omega)]

theorem toNat_ofInt_neg (h : m ≤ greatestNegative) :
    (BitVec.ofInt 64 (-m)).toNat = (2 ^ 64 - m) % 2 ^ 64 := by
  have hgreatest : greatestNegative = 2 ^ 63 := by decide
  rw [BitVec.toNat_ofInt]
  omega

variable {form : Form} {marker sign digits rest u : List Char}

theorem readUnsigned_eq_ok_iff_parse (hform : form ≠ .negative) (hmarker : marker ∈ form.markers) :
    readUnsigned form.radix rest = .ok m ↔
      ∃ sign digits, Parse form marker sign digits m (marker ++ rest) := by
  have hsigns : form.signs = optionalPlus := by
    cases form <;> first | rfl | exact absurd rfl hform
  have hgreatest : form.greatest = greatestUnsigned := by
    cases form <;> first | rfl | exact absurd rfl hform
  have hradix : 0 < form.radix ∧ form.radix ≤ 16 := by
    cases form <;> decide
  rw [readUnsigned_eq_ok_iff hradix.1 hradix.2]
  constructor
  · rintro ⟨sign, hsign, digits, rfl, hspells, hle⟩
    exact ⟨sign, digits, hmarker, hsigns ▸ hsign, rfl, hspells, hgreatest ▸ hle⟩
  · rintro ⟨sign, digits, h⟩
    exact ⟨sign, hsigns ▸ h.sign_mem, digits, List.append_cancel_left h.eq_append, h.spells,
      hgreatest ▸ h.le_greatest⟩

theorem means_of_unsigned (form : Form) (marker : List Char) (hform : form ≠ .negative)
    (hmarker : marker ∈ form.markers)
    (h : (readUnsigned form.radix rest).map (BitVec.ofNat 64) = .ok c) :
    Means (marker ++ rest) c.toNat := by
  obtain ⟨m, hm, rfl⟩ := map_eq_ok_iff.mp h
  obtain ⟨sign, digits, hparse⟩ := (readUnsigned_eq_ok_iff_parse hform hmarker).mp hm
  refine ⟨form, marker, sign, digits, m, hparse, ?_⟩
  have hle := hparse.le_greatest
  cases form with
  | negative => exact absurd rfl hform
  | hexadecimal | binary | decimal => exact (toNat_ofNat_of_le hle).symm

/-- What is read off a text is what it means. -/
theorem means_of_readClean (h : readClean u = .ok c) : Means u c.toNat := by
  -- One case for each form with a marker or a minus sign, and one for all other texts.
  by_cases hminus : ∃ digits, u = '-' :: digits
  · obtain ⟨digits, rfl⟩ := hminus
    rw [readClean_minus] at h
    obtain ⟨m, hm, rfl⟩ := map_eq_ok_iff.mp h
    obtain ⟨hspells, hle⟩ := readNegative_eq_ok_iff.mp hm
    exact ⟨.negative, [], ['-'], digits, m, ⟨by decide, by decide, rfl, hspells, hle⟩,
      (toNat_ofInt_neg hle).symm⟩
  · rw [readClean.eq_def] at h
    split at h
    · exact means_of_unsigned .hexadecimal ['0', 'x'] (by decide) (by decide) h
    · exact means_of_unsigned .hexadecimal ['0', 'X'] (by decide) (by decide) h
    · exact means_of_unsigned .binary ['0', 'b'] (by decide) (by decide) h
    · exact means_of_unsigned .binary ['0', 'B'] (by decide) (by decide) h
    · exact absurd ⟨_, rfl⟩ hminus
    · exact means_of_unsigned .decimal [] (by decide) (by decide) h

/-- **The forms exclude one another**: a literal has the form of its first characters. -/
theorem Parse.ofText_eq (h : Parse form marker sign digits m u) : Form.ofText u = form := by
  obtain ⟨hmarker, hsign, rfl, hspells, -⟩ := h
  cases form with
  | hexadecimal | binary =>
    rcases List.mem_cons.mp hmarker with rfl | hmarker
    · rfl
    · rw [List.mem_singleton.mp hmarker]
      rfl
  | negative =>
    rw [List.mem_singleton.mp hmarker, List.mem_singleton.mp hsign]
    rfl
  | decimal =>
    rw [List.mem_singleton.mp hmarker]
    rcases List.mem_cons.mp hsign with rfl | hsign
    · exact ofText_of_spells hspells
    · rw [List.mem_singleton.mp hsign]
      rfl

/-- A literal is read, and as what it means. -/
theorem readClean_of_parse (h : Parse form marker sign digits m u) :
    ∃ c, readClean u = .ok c ∧ c.toNat = form.value m := by
  obtain ⟨hmarker, hsign, rfl, hspells, hle⟩ := id h
  -- All forms but the negative one come down to one reader of what follows the marker.
  have hunsigned : form ≠ .negative →
      readClean (marker ++ (sign ++ digits)) =
        (readUnsigned form.radix (sign ++ digits)).map (BitVec.ofNat 64) →
      ∃ c, readClean (marker ++ (sign ++ digits)) = .ok c ∧ c.toNat = form.value m := by
    intro hform hread
    rw [(readUnsigned_eq_ok_iff_parse hform hmarker).mpr ⟨sign, digits, h⟩] at hread
    refine ⟨BitVec.ofNat 64 m, hread, ?_⟩
    cases form with
    | negative => exact absurd rfl hform
    | hexadecimal | binary | decimal => exact toNat_ofNat_of_le hle
  cases form with
  | hexadecimal | binary =>
    refine hunsigned (by decide) ?_
    rcases List.mem_cons.mp hmarker with rfl | hmarker
    · rfl
    · rw [List.mem_singleton.mp hmarker]
      rfl
  | negative =>
    obtain rfl := List.mem_singleton.mp hmarker
    obtain rfl := List.mem_singleton.mp hsign
    refine ⟨BitVec.ofInt 64 (-m), ?_, toNat_ofInt_neg hle⟩
    rw [List.nil_append, List.singleton_append, readClean_minus,
      readNegative_eq_ok_iff.mpr ⟨hspells, hle⟩]
    rfl
  | decimal =>
    refine hunsigned (by decide) ?_
    rw [readClean_of_decimal h.ofText_eq, List.mem_singleton.mp hmarker]
    rfl

theorem readClean_eq_ok_iff : readClean u = .ok c ↔ Means u c.toNat := by
  refine ⟨means_of_readClean, ?_⟩
  rintro ⟨form, marker, sign, digits, m, hparse, hvalue⟩
  obtain ⟨c', hread, hc'⟩ := readClean_of_parse hparse
  rw [hread, BitVec.eq_of_toNat_eq (hc'.trans hvalue)]

/-! ## Cleaning -/

/-- The text is the core with white space around it, and the core has none at its ends. -/
structure Trims (text core : List Char) : Prop where
  exists_eq : ∃ before after, text = before ++ core ++ after ∧
    (∀ c ∈ before, isBlank c = true) ∧ ∀ c ∈ after, isBlank c = true
  first : ∀ c ∈ core.head?, isBlank c = false
  last : ∀ c ∈ core.getLast?, isBlank c = false

theorem trims_trimmed (text : List Char) : Trims text (trimmed text) := by
  have htrimmed : trimmed text = (text.dropWhile isBlank).rdropWhile isBlank := rfl
  refine ⟨⟨text.takeWhile isBlank, (text.dropWhile isBlank).rtakeWhile isBlank, ?_, ?_, ?_⟩, ?_, ?_⟩
  · rw [htrimmed, List.append_assoc, List.rdropWhile_append_rtakeWhile,
      List.takeWhile_append_dropWhile]
  · exact fun c hc => List.mem_takeWhile_imp hc
  · exact fun c hc => List.mem_rtakeWhile_imp hc
  · intro c hc
    -- The core is what the text without its leading blanks begins with.
    obtain ⟨after, hafter⟩ := List.rdropWhile_prefix isBlank (l := text.dropWhile isBlank)
    have hfirst := List.head?_dropWhile_not isBlank text
    rw [← htrimmed] at hafter
    rw [← hafter, List.head?_append, Option.mem_def.mp hc] at hfirst
    exact hfirst
  · intro c hc
    have hne : trimmed text ≠ [] := by
      rintro hnil
      rw [hnil] at hc
      exact nomatch hc
    have hlast := List.rdropWhile_last_not isBlank (text.dropWhile isBlank) hne
    obtain rfl := Option.some.inj ((List.getLast?_eq_some_getLast hne).symm.trans hc)
    exact Bool.eq_false_of_not_eq_true hlast

theorem dropWhile_isBlank_of_forall {text : List Char} (h : ∀ c ∈ text, isBlank c = false) :
    text.dropWhile isBlank = text :=
  List.dropWhile_eq_self_iff.mpr fun hlength => Bool.eq_false_iff.mp (h _ (List.getElem_mem hlength))

/-- White space around a text that has none is all that is trimmed. -/
theorem trimmed_around {before core after : List Char} (hbefore : ∀ c ∈ before, isBlank c = true)
    (hafter : ∀ c ∈ after, isBlank c = true) (hcore : ∀ c ∈ core, isBlank c = false) :
    trimmed (before ++ core ++ after) = core := by
  have hreverse : ∀ c ∈ after.reverse, isBlank c = true := by
    intro c hc
    exact hafter c (List.mem_reverse.mp hc)
  rw [trimmed, List.append_assoc, List.dropWhile_append_of_pos hbefore]
  cases core with
  | nil =>
    have hnone : after.dropWhile isBlank = [] := List.dropWhile_eq_nil_iff.mpr hafter
    rw [List.nil_append, hnone]
    rfl
  | cons c rest =>
    have hfirst : (c :: rest ++ after).dropWhile isBlank = c :: rest ++ after := by
      rw [List.cons_append, List.dropWhile_cons, hcore c List.mem_cons_self]
      rfl
    have hlast : ((c :: rest).reverse).dropWhile isBlank = (c :: rest).reverse := by
      refine dropWhile_isBlank_of_forall fun d hd => hcore d ?_
      exact List.mem_reverse.mp hd
    rw [hfirst, List.reverse_append, List.dropWhile_append_of_pos hreverse, hlast,
      List.reverse_reverse]

theorem trimmed_of_forall {text : List Char} (h : ∀ c ∈ text, isBlank c = false) :
    trimmed text = text := by
  have hnone : ∀ c ∈ ([] : List Char), isBlank c = true := fun c hc => absurd hc List.not_mem_nil
  have htrimmed := trimmed_around hnone hnone h
  rwa [List.nil_append, List.append_nil] at htrimmed

/-- The clean-up leaves the character wherever it stands. -/
def keeps (c : Char) : Bool :=
  !isBlank c && c != '_'

theorem keeps_iff {c : Char} : keeps c = true ↔ isBlank c = false ∧ c ≠ '_' := by
  rw [keeps, Bool.and_eq_true, Bool.not_eq_true', bne_iff_ne]

/-- Nothing in a literal would be cleaned away. -/
theorem Parse.keeps (h : Parse form marker sign digits m u) {c : Char} (hc : c ∈ u) :
    keeps c = true := by
  have hmarkers : form.markers.all (List.all · Literal.keeps) = true := by
    cases form <;> rfl
  have hsigns : form.signs.all (List.all · Literal.keeps) = true := by
    cases form <;> rfl
  have hsmall : ∀ d, d < 16 → Literal.keeps d.digitChar = true := by decide
  have hcapital : ∀ d, d < 16 → Literal.keeps d.digitChar.toUpper = true := by decide
  have hradix : form.radix ≤ 16 := by
    cases form <;> decide
  rw [h.eq_append] at hc
  rcases List.mem_append.mp hc with hmarker | hc
  · exact List.all_eq_true.mp (List.all_eq_true.mp hmarkers marker h.marker_mem) c hmarker
  · rcases List.mem_append.mp hc with hsign | hdigit
    · exact List.all_eq_true.mp (List.all_eq_true.mp hsigns sign h.sign_mem) c hsign
    · obtain ⟨d, hd, rfl | rfl⟩ := h.spells.exists_isDigit hdigit
      · exact hsmall d (Nat.lt_of_lt_of_le hd hradix)
      · exact hcapital d (Nat.lt_of_lt_of_le hd hradix)

theorem Means.keeps {n : Nat} (h : Means u n) {c : Char} (hc : c ∈ u) : keeps c = true := by
  obtain ⟨form, marker, sign, digits, m, hparse, -⟩ := h
  exact hparse.keeps hc

theorem clean_ofList (h : ∀ c ∈ u, keeps c = true) : clean (String.ofList u) = u := by
  have hblank : ∀ c ∈ u, isBlank c = false := fun c hc => (keeps_iff.mp (h c hc)).1
  rw [clean, String.toList_ofList, trimmed_of_forall hblank, List.filter_eq_self]
  intro c hc
  exact bne_iff_ne.mpr (keeps_iff.mp (h c hc)).2

/-- Underscores put into a trimmed text, or taken out of it, are not seen, as long as what is left has
no white space. -/
theorem clean_eq_of_filter_eq {text text' : String} (htrimmed : trimmed text.toList = text.toList)
    (hplain : ∀ c ∈ clean text, isBlank c = false)
    (h : text'.toList.filter (· != '_') = text.toList.filter (· != '_')) :
    clean text' = clean text := by
  have hclean : clean text = text'.toList.filter (· != '_') := by
    rw [clean, htrimmed, h]
  have hblank : ∀ c ∈ text'.toList, isBlank c = false := by
    intro c hc
    by_cases hunder : c = '_'
    · rw [hunder]
      rfl
    · refine hplain c ?_
      rw [hclean]
      exact List.mem_filter.mpr ⟨hc, bne_iff_ne.mpr hunder⟩
  rw [hclean, clean, trimmed_of_forall hblank]

theorem read_eq_ok_iff {text : String} : read text = .ok c ↔ readClean (clean text) = .ok c := by
  rw [read]
  cases readClean (clean text) with
  | ok d => exact ⟨fun h => congrArg _ (Except.ok.inj h), fun h => congrArg _ (Except.ok.inj h)⟩
  | error fault => exact ⟨fun h => (nomatch h), fun h => (nomatch h)⟩

/-- A text that means nothing is refused, and the refusal quotes it. -/
theorem read_eq_error {text : String} (h : ∀ n, ¬ Means (clean text) n) :
    ∃ fault, read text = .error ⟨clean text, fault⟩ := by
  cases hread : readClean (clean text) with
  | ok c => exact absurd (readClean_eq_ok_iff.mp hread) (h c.toNat)
  | error fault => exact ⟨fault, by rw [read, hread]⟩

/-! ## The grammar is what is read -/

/-- **A literal is read just when the grammar has it, and as the number that it means there.** The
clean-up trims white space and then drops underscores. What is left has one form at most, the one that
its first characters ask for, so that a decimal literal has neither a marker nor a minus sign; a text
that means nothing is refused with an error that quotes it. Zeros after the marker and the sign make
no difference, and neither do underscores anywhere in a text that has no white space around it, in
the marker too. -/
theorem read_iff_means (text : String) :
    (∃ core, Trims text.toList core ∧ clean text = core.filter (· != '_')) ∧
    (∀ c, read text = .ok c ↔ Means (clean text) c.toNat) ∧
    (∀ form marker sign digits written, Parse form marker sign digits written (clean text) →
      form = Form.ofText (clean text)) ∧
    ((∀ n, ¬ Means (clean text) n) → ∃ fault, read text = .error ⟨clean text, fault⟩ ∧
      (⟨clean text, fault⟩ : Refusal).message =
        "invalid number '" ++ String.ofList (clean text) ++ "': " ++ fault.message) ∧
    (∀ form marker sign digits written, Parse form marker sign digits written (clean text) →
      ∀ zeros,
        let longer := marker ++ (sign ++ (List.replicate zeros '0' ++ digits))
        clean (String.ofList longer) = longer ∧
          ∃ c, read text = .ok c ∧ ∀ text', clean text' = longer → read text' = .ok c) ∧
    ∀ c, trimmed text.toList = text.toList → read text = .ok c → ∀ text',
      text'.toList.filter (· != '_') = text.toList.filter (· != '_') → read text' = .ok c := by
  refine ⟨⟨_, trims_trimmed _, rfl⟩, fun c => read_eq_ok_iff.trans readClean_eq_ok_iff,
    fun _ _ _ _ _ hparse => hparse.ofText_eq.symm, ?_, ?_, ?_⟩
  · intro hnone
    obtain ⟨fault, hread⟩ := read_eq_error hnone
    exact ⟨fault, hread, rfl⟩
  · intro form marker sign digits written hparse zeros longer
    have hlow : 0 < form.radix := by
      cases form <;> decide
    have hlonger : Parse form marker sign (List.replicate zeros '0' ++ digits) written longer :=
      ⟨hparse.marker_mem, hparse.sign_mem, rfl, hparse.spells.zeros_append hlow zeros,
        hparse.le_greatest⟩
    -- Both texts are literals of one form whose digits write one number.
    obtain ⟨c, hread, hc⟩ := readClean_of_parse hparse
    obtain ⟨c', hread', hc'⟩ := readClean_of_parse hlonger
    have hsame : c' = c := BitVec.eq_of_toNat_eq (hc'.trans hc.symm)
    refine ⟨clean_ofList fun _ hmem => hlonger.keeps hmem, c, read_eq_ok_iff.mpr hread, ?_⟩
    intro text' hclean
    rw [read_eq_ok_iff, hclean, hread', hsame]
  · intro c htrimmed hread text' hfilter
    have hmeans := readClean_eq_ok_iff.mp (read_eq_ok_iff.mp hread)
    have hclean := clean_eq_of_filter_eq htrimmed (fun _ hmem => (keeps_iff.mp (hmeans.keeps hmem)).1) hfilter
    rw [read_eq_ok_iff, hclean]
    exact read_eq_ok_iff.mp hread

/-- The marker with a plus sign, capital and small digits, and then zeros and underscores more. -/
theorem read_iff_means_marker :
    read "0x+fF" = .ok 0xFF#64 ∧ read "0x+00fF" = .ok 0xFF#64 ∧ read "_0_x+f_F" = .ok 0xFF#64 := by
  obtain ⟨-, haccepted, -, -, hzeros, hunderscores⟩ := read_iff_means "0x+fF"
  have hclean : clean "0x+fF" = ['0', 'x', '+', 'f', 'F'] := by decide
  have hparse : Parse .hexadecimal ['0', 'x'] ['+'] ['f', 'F'] 0xFF (clean "0x+fF") := by
    refine ⟨by decide, by decide, hclean, ⟨by decide, [15, 15], ?_, by decide⟩, by decide⟩
    exact .cons ⟨by decide, .inl rfl⟩ (.cons ⟨by decide, .inr rfl⟩ .nil)
  have hread : read "0x+fF" = .ok 0xFF#64 :=
    (haccepted 0xFF#64).mpr ⟨_, _, _, _, _, hparse, rfl⟩
  obtain ⟨-, c, hc, hlonger⟩ := hzeros _ _ _ _ _ hparse 2
  obtain rfl := Except.ok.inj (hc.symm.trans hread)
  exact ⟨hread, hlonger "0x+00fF" (by decide),
    hunderscores _ (by decide) hread "_0_x+f_F" (by decide)⟩

end Literal

end Datapath
