import Datapath.Proofs.JsonTokens
import Datapath.Proofs.SpelledDigits

/-!
# The grammar of JSON texts

What a JSON text looks like, apart from the machine that reads it. A token has its spellings
(`Writes`): a mark or a word has one, a number has one as long as it is just digits and any with a
sign, a fraction or an exponent is no natural number, and a string has many, because every character
may also be escaped. A text lays tokens out with blanks before, between and after them (`Layout`), and
it is a text of a value if it lays out the tokens of the value (`IsText`). Every value has a text
(`exists_isText`), so that a statement over all texts of all values leaves no value out.

A string may escape halves of surrogate pairs. Only where each leading half is followed by a trailing
one does it have a content (`textOf`).
-/

set_option autoImplicit false

namespace Datapath.Json

/-! ## Marks and words -/

/-- The tokens of one character. -/
def marks : List (Char × Token) :=
  [('[', .openArray), (']', .closeArray), ('\x7b', .openObject), ('\x7d', .closeObject),
    (',', .comma), (':', .colon)]

/-- The tokens that are words. -/
def words : List (String × Token) :=
  [("null", .null), ("true", .truth true), ("false", .truth false)]

/-! ## Numbers -/

/-- One digit or more. -/
def IsDigits (cs : List Char) : Prop :=
  cs ≠ [] ∧ ∀ c ∈ cs, c.isDigit = true

/-- Digits, of which the first is a zero only if it stands alone. -/
structure IsWhole (cs : List Char) : Prop where
  isDigits : IsDigits cs
  of_zero : ∀ rest, cs = '0' :: rest → rest = []

/-- Nothing, or a point and digits. -/
inductive IsFraction : List Char → Prop
  | none : IsFraction []
  | some {digits : List Char} : IsDigits digits → IsFraction ('.' :: digits)

/-- Nothing, or an exponent mark, a sign that may be left out, and digits. -/
inductive IsPower : List Char → Prop
  | none : IsPower []
  | some {mark : Char} {sign digits : List Char} : mark ∈ ['e', 'E'] → sign ∈ [[], ['+'], ['-']] →
      IsDigits digits → IsPower (mark :: (sign ++ digits))

/-! ## Strings -/

/-- A character that stands in a string as itself. -/
def StandsForItself (c : Char) : Prop :=
  c ≠ '"' ∧ c ≠ '\\' ∧ 0x20 ≤ c.toNat

instance (c : Char) : Decidable (StandsForItself c) :=
  inferInstanceAs (Decidable (_ ∧ _))

/-- The letters after a backslash with the characters that they stand for. -/
def escapes : List (Char × Char) :=
  [('"', '"'), ('\\', '\\'), ('/', '/'), ('b', '\x08'), ('f', '\x0c'), ('n', '\n'), ('r', '\r'),
    ('t', '\t')]

/-- What a piece of a string stands for. -/
inductive Symbol
  | char (c : Char)
  /-- The first half of a surrogate pair. -/
  | leading (unit : Nat)
  /-- The second half of a surrogate pair. -/
  | trailing (unit : Nat)
  deriving DecidableEq, Repr

namespace Symbol

/-- What an escaped number of four hexadecimal digits stands for. -/
def ofUnit (unit : Nat) : Symbol :=
  if 0xD800 ≤ unit ∧ unit < 0xDC00 then .leading unit
  else if 0xDC00 ≤ unit ∧ unit < 0xE000 then .trailing unit
  else .char (Char.ofNat unit)

/-- The spellings of a symbol. -/
inductive Writes : Symbol → List Char → Prop
  | plain {c : Char} : StandsForItself c → Writes (.char c) [c]
  | escape {letter c : Char} : (letter, c) ∈ escapes → Writes (.char c) ['\\', letter]
  | number {digits : List Char} {unit : Nat} : digits.length = 4 → Numeral.Spells 16 digits unit →
      Writes (ofUnit unit) ('\\' :: 'u' :: digits)

end Symbol

/-- The character of a surrogate pair. -/
def pairChar (leading trailing : Nat) : Char :=
  Char.ofNat (0x10000 + (leading - 0xD800) * 0x400 + (trailing - 0xDC00))

/-- The characters that symbols stand for, if no half of a pair stands alone. -/
def textOf : List Symbol → Option (List Char)
  | [] => some []
  | .char c :: rest => (textOf rest).map (c :: ·)
  | .leading high :: .trailing low :: rest => (textOf rest).map (pairChar high low :: ·)
  | .leading _ :: _ | .trailing _ :: _ => none

/-! ## Tokens -/

/-- The spellings of a token. -/
inductive Writes : Token → List Char → Prop
  | mark {c : Char} {t : Token} : (c, t) ∈ marks → Writes t [c]
  | word {s : String} {t : Token} : (s, t) ∈ words → Writes t s.toList
  | natural {whole : List Char} : IsWhole whole →
      Writes (.natural (Nat.ofDigitChars 10 whole 0)) whole
  | real {sign whole fraction power : List Char} : sign ∈ [[], ['-']] → IsWhole whole →
      IsFraction fraction → IsPower power → (sign ≠ [] ∨ fraction ++ power ≠ []) →
      Writes .real (sign ++ (whole ++ (fraction ++ power)))
  | string {symbols : List Symbol} {pieces : List (List Char)} :
      List.Forall₂ Symbol.Writes symbols pieces →
      Writes (.string ((textOf symbols).map String.ofList)) ('"' :: (pieces.flatten ++ ['"']))

/-! ## Texts -/

/-- Characters that may stand between tokens. -/
def IsBlank (cs : List Char) : Prop :=
  ∀ c ∈ cs, c ∈ [' ', '\n', '\t', '\r']

instance (cs : List Char) : Decidable (IsBlank cs) :=
  List.decidableBAll (· ∈ [' ', '\n', '\t', '\r']) cs

/-- The characters are the tokens in order, with any blanks around them. -/
inductive Layout : List Token → List Char → Prop
  | done {blanks : List Char} : IsBlank blanks → Layout [] blanks
  | next {blanks word rest : List Char} {t : Token} {ts : List Token} : IsBlank blanks →
      Writes t word → Layout ts rest → Layout (t :: ts) (blanks ++ (word ++ rest))

/-- The text is a JSON text of the value. -/
def IsText (v : Json) (text : String) : Prop :=
  Layout v.tokens text.toList

theorem isBlank_nil : IsBlank [] :=
  fun _ hmem => absurd hmem List.not_mem_nil

theorem IsBlank.append {blanks more : List Char} (h : IsBlank blanks) (hmore : IsBlank more) :
    IsBlank (blanks ++ more) := by
  intro c hc
  rcases List.mem_append.mp hc with hfirst | hlast
  · exact h c hfirst
  · exact hmore c hlast

namespace Layout

variable {ts us : List Token} {t : Token} {cs ds word : List Char}

theorem nil : Layout [] [] :=
  .done isBlank_nil

theorem blanks_append {blanks : List Char} (hblanks : IsBlank blanks) (h : Layout ts cs) :
    Layout ts (blanks ++ cs) := by
  cases h with
  | done hdone => exact .done (hblanks.append hdone)
  | next hbefore hword hrest =>
    rw [← List.append_assoc]
    exact .next (hblanks.append hbefore) hword hrest

theorem token_append (hword : Writes t word) (h : Layout ts cs) : Layout (t :: ts) (word ++ cs) :=
  .next isBlank_nil hword h

theorem mark_cons {c : Char} (hc : (c, t) ∈ marks) (h : Layout ts cs) :
    Layout (t :: ts) (c :: cs) :=
  token_append (.mark hc) h

theorem append (h : Layout ts cs) (hmore : Layout us ds) : Layout (ts ++ us) (cs ++ ds) := by
  induction h with
  | done hblanks => exact blanks_append hblanks hmore
  | next hblanks hword _ ih =>
    rw [List.append_assoc, List.append_assoc]
    exact .next hblanks hword ih

theorem singleton (hword : Writes t word) : Layout [t] word := by
  have h := token_append hword nil
  rwa [List.append_nil] at h

theorem append_blanks {blanks : List Char} (h : Layout ts cs) (hblanks : IsBlank blanks) :
    Layout ts (cs ++ blanks) := by
  have happend := h.append (.done hblanks)
  rwa [List.append_nil] at happend

theorem array (h : Layout ts cs) :
    Layout (.openArray :: (ts ++ [.closeArray])) ('[' :: (cs ++ [']'])) :=
  mark_cons (by decide) (h.append (mark_cons (by decide) nil))

theorem object (h : Layout ts cs) :
    Layout (.openObject :: (ts ++ [.closeObject])) ('\x7b' :: (cs ++ ['\x7d'])) :=
  mark_cons (by decide) (h.append (mark_cons (by decide) nil))

theorem comma_cons (h : Layout ts cs) : Layout (.comma :: ts) (',' :: cs) :=
  mark_cons (by decide) h

end Layout

/-! ## Every value has a text -/

theorem isWhole_decimal (n : Nat) : IsWhole (Numeral.decimal n).toList := by
  have hne : (Numeral.decimal n).toList ≠ [] := by
    rw [Numeral.toList_decimal]
    exact Nat.toDigits_ne_nil
  refine ⟨⟨hne, fun c hc => Numeral.isDigit_of_mem_decimal hc⟩, fun rest hzero => ?_⟩
  by_cases hn : n = 0
  · subst hn
    exact (List.cons.inj (show '0' :: [] = '0' :: rest from hzero)).2.symm
  · obtain ⟨c, digits, hdigits, hc⟩ := Numeral.decimal_eq_cons (Nat.pos_of_ne_zero hn)
    rw [hdigits] at hzero
    exact absurd (List.cons.inj hzero).1 hc

theorem writes_decimal (n : Nat) : Writes (.natural n) (Numeral.decimal n).toList := by
  have h := Writes.natural (isWhole_decimal n)
  rwa [Numeral.ofDigitChars_decimal] at h

theorem textOf_map_char (cs : List Char) : textOf (cs.map .char) = some cs := by
  induction cs with
  | nil => rfl
  | cons c cs ih => rw [List.map_cons, textOf, ih, Option.map_some]

/-- A string may be spelled character by character. -/
theorem writes_string {s : String} {pieces : List (List Char)}
    (h : List.Forall₂ Symbol.Writes (s.toList.map .char) pieces) :
    Writes (.string (some s)) ('"' :: (pieces.flatten ++ ['"'])) := by
  have hwrites := Writes.string h
  rwa [textOf_map_char, Option.map_some, String.ofList_toList] at hwrites

/-- What cannot stand for itself can be escaped by its number. -/
theorem exists_writes_char (c : Char) : ∃ piece, Symbol.Writes (.char c) piece := by
  by_cases hc : StandsForItself c
  · exact ⟨[c], .plain hc⟩
  · have hlow : c.toNat < 0x80 := by
      by_contra hhigh
      refine hc ⟨?_, ?_, by omega⟩
      · rintro rfl
        exact hhigh (by decide)
      · rintro rfl
        exact hhigh (by decide)
    have hsymbol : Symbol.ofUnit c.toNat = .char c := by
      rw [Symbol.ofUnit, if_neg (by omega), if_neg (by omega), Char.ofNat_toNat]
    have hnumber := Symbol.Writes.number (Numeral.length_hex (by decide) (by omega))
      (Numeral.spells_hex 4 c.toNat)
    exact ⟨_, hsymbol ▸ hnumber⟩

theorem exists_pieces (cs : List Char) :
    ∃ pieces, List.Forall₂ Symbol.Writes (cs.map .char) pieces := by
  induction cs with
  | nil => exact ⟨[], .nil⟩
  | cons c cs ih =>
    obtain ⟨piece, hpiece⟩ := exists_writes_char c
    obtain ⟨pieces, hpieces⟩ := ih
    exact ⟨piece :: pieces, .cons hpiece hpieces⟩

theorem exists_writes (t : Token) : ∃ word, Writes t word := by
  cases t with
  | openArray => exact ⟨['['], .mark (by decide)⟩
  | closeArray => exact ⟨[']'], .mark (by decide)⟩
  | openObject => exact ⟨['\x7b'], .mark (by decide)⟩
  | closeObject => exact ⟨['\x7d'], .mark (by decide)⟩
  | comma => exact ⟨[','], .mark (by decide)⟩
  | colon => exact ⟨[':'], .mark (by decide)⟩
  | null => exact ⟨_, .word (s := "null") (by decide)⟩
  | truth b =>
    cases b with
    | true => exact ⟨_, .word (s := "true") (by decide)⟩
    | false => exact ⟨_, .word (s := "false") (by decide)⟩
  | natural n => exact ⟨_, writes_decimal n⟩
  | real =>
    exact ⟨_, .real (show ['-'] ∈ _ by decide) (isWhole_decimal 0) .none .none (.inl (by decide))⟩
  | string content =>
    cases content with
    | some s =>
      obtain ⟨pieces, hpieces⟩ := exists_pieces s.toList
      exact ⟨_, writes_string hpieces⟩
    | none =>
      -- One half of a pair, alone.
      have hhalf : Symbol.Writes (.ofUnit 0xD800) ('\\' :: 'u' :: (Numeral.hex 4 0xD800).toList) :=
        .number (Numeral.length_hex (by decide) (by decide)) (Numeral.spells_hex 4 _)
      exact ⟨_, .string (.cons hhalf .nil)⟩

/-- **Every value has a text.** -/
theorem exists_isText (v : Json) : ∃ text, IsText v text := by
  have hlayout : ∀ ts : List Token, ∃ cs, Layout ts cs := by
    intro ts
    induction ts with
    | nil => exact ⟨[], .nil⟩
    | cons t ts ih =>
      obtain ⟨word, hword⟩ := exists_writes t
      obtain ⟨cs, hcs⟩ := ih
      exact ⟨word ++ cs, .token_append hword hcs⟩
  obtain ⟨cs, hcs⟩ := hlayout v.tokens
  refine ⟨String.ofList cs, ?_⟩
  rw [IsText, String.toList_ofList]
  exact hcs

end Datapath.Json
