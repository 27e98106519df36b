import Datapath.Proofs.JsonGrammar
import Mathlib.Data.List.Chain

/-!
# The scanner reads every layout

The scanner takes one character at a time and does not know where a token ends until it is over. So
each statement here is about the scanner in the midst of a text: from between two tokens, or from a
place within one, it takes the spelling of a token as that token and stands between tokens again,
whatever follows. Numbers are the exception. They have no end of their own, and what follows one has to
be a character that cannot go on with it (`NumberEnds`). In a layout of the tokens of a value this is
always so, because a mark comes next there, or a blank, or nothing (`isChain_tokens`).

`read?_of_isText` puts this together with the reader of tokens: a text of a value is read as the value.
-/

set_option autoImplicit false

namespace Datapath.Json

/-! ## Blanks, marks and words -/

variable {t : Token} {cs rest word : List Char}

theorem scan_blanks (h : IsBlank cs) (before : List Token) (rest : List Char) :
    scanFrom .gap before (cs ++ rest) = scanFrom .gap before rest := by
  have hgap : ∀ c ∈ [' ', '\n', '\t', '\r'], scanStep .gap c = some ([], .gap) := by
    intro c hc
    simp only [List.mem_cons, List.not_mem_nil, or_false] at hc
    rcases hc with rfl | rfl | rfl | rfl <;> rfl
  induction cs with
  | nil => rfl
  | cons c cs ih =>
    rw [List.cons_append, scanFrom, hgap c (h c List.mem_cons_self)]
    exact ih fun d hd => h d (List.mem_cons_of_mem c hd)

theorem scan_mark {c : Char} (hc : (c, t) ∈ marks) (before : List Token) (rest : List Char) :
    scanFrom .gap before (c :: rest) = scanFrom .gap (t :: before) rest := by
  have hgap : ∀ m ∈ marks, scanStep .gap m.1 = some ([m.2], .gap) := by decide
  rw [scanFrom, hgap (c, t) hc]
  rfl

theorem scan_word {s : String} (hs : (s, t) ∈ words) (before : List Token) (rest : List Char) :
    scanFrom .gap before (s.toList ++ rest) = scanFrom .gap (t :: before) rest := by
  simp only [words, List.mem_cons, List.not_mem_nil, or_false, Prod.mk.injEq] at hs
  rcases hs with ⟨rfl, rfl⟩ | ⟨rfl, rfl⟩ | ⟨rfl, rfl⟩
  · rfl
  · rfl
  · rfl

/-! ## Where a number ends -/

/-- A character that belongs to no number. -/
def EndsNumber (c : Char) : Prop :=
  c.isDigit = false ∧ c ≠ '.' ∧ c ≠ 'e' ∧ c ≠ 'E'

instance (c : Char) : Decidable (EndsNumber c) :=
  inferInstanceAs (Decidable (_ ∧ _))

/-- A number that this text follows is over. -/
def NumberEnds (rest : List Char) : Prop :=
  ∀ c ∈ rest.head?, EndsNumber c

theorem numberEnds_nil : NumberEnds [] := by
  intro c hc
  exact nomatch hc

theorem numberEnds_cons {c : Char} (h : EndsNumber c) : NumberEnds (c :: rest) := by
  intro d hd
  rw [List.head?_cons, Option.mem_some_iff] at hd
  exact hd ▸ h

/-- In this state a number is complete, and a character that belongs to no number is taken as the
first one after it. -/
structure Completes (state : ScanState) (t : Token) : Prop where
  scanEnd_eq : scanEnd state = some [t]
  scanStep_eq : ∀ c, EndsNumber c → scanStep state c = closeWith t c

theorem scan_end {state : ScanState} (h : Completes state t) (hrest : NumberEnds rest)
    (before : List Token) : scanFrom state before rest = scanFrom .gap (t :: before) rest := by
  cases rest with
  | nil =>
    rw [scanFrom, scanFrom, h.scanEnd_eq]
    simp [scanEnd]
  | cons c rest =>
    have hstep : scanStep state c = closeWith t c := h.scanStep_eq c (hrest c rfl)
    have hgap : scanStep .gap c = scanGap c := rfl
    rw [scanFrom, scanFrom, hstep, hgap, closeWith]
    cases scanGap c with
    | none => rfl
    | some next => simp

theorem completes_zero : Completes .zero (.natural 0) := by
  refine ⟨rfl, fun c hc => ?_⟩
  obtain ⟨hdigit, hpoint, hlower, hupper⟩ := hc
  simp [scanStep, RealPart.next?, hdigit, hpoint, hlower, hupper]

theorem completes_natural (n : Nat) : Completes (.natural n) (.natural n) := by
  refine ⟨rfl, fun c hc => ?_⟩
  obtain ⟨hdigit, hpoint, hlower, hupper⟩ := hc
  simp [scanStep, RealPart.next?, hdigit, hpoint, hlower, hupper]

theorem completes_real {part : RealPart} (h : part.isComplete = true) :
    Completes (.real part) .real := by
  refine ⟨by rw [scanEnd, if_pos h], fun c hc => ?_⟩
  obtain ⟨hdigit, hpoint, hlower, hupper⟩ := hc
  have hnone : part.next? c = none := by
    cases part with
    | sign | point | exponent | exponentSign => exact absurd h (by decide)
    | zero | whole | fraction | power => simp [RealPart.next?, hdigit, hpoint, hlower, hupper]
  simp [scanStep, hnone, h, hdigit]

/-! ## Numbers of digits alone -/

theorem scanGap_of_isDigit {c : Char} (hc : c.isDigit = true) (hzero : c ≠ '0') :
    scanGap c = some ([], .natural (c.toNat - '0'.toNat)) := by
  have hspace : isSpace c = false := by
    rw [← Bool.not_eq_true]
    intro h
    simp only [isSpace, Bool.or_eq_true, beq_iff_eq] at h
    rcases h with ((rfl | rfl) | rfl) | rfl <;> exact absurd hc (by decide)
  unfold scanGap
  split
  -- Every other character that starts a token is no digit.
  all_goals try exact absurd hc (by decide)
  · exact absurd rfl hzero
  · rw [if_neg (by rw [hspace]; exact Bool.false_ne_true), if_pos hc]

/-- Digits go on a number that has begun. -/
theorem scan_digits {digits : List Char} (h : ∀ c ∈ digits, c.isDigit = true) (n : Nat)
    (before : List Token) (rest : List Char) :
    scanFrom (.natural n) before (digits ++ rest) =
      scanFrom (.natural (Nat.ofDigitChars 10 digits n)) before rest := by
  induction digits generalizing n with
  | nil => rfl
  | cons c digits ih =>
    have hc : c.isDigit = true := h c List.mem_cons_self
    rw [List.cons_append, scanFrom, scanStep, if_pos hc, Nat.ofDigitChars_cons]
    exact ih (fun d hd => h d (List.mem_cons_of_mem c hd)) _

/-- Digits without a sign lead to a state in which their number is complete and which has the same way
into a fraction or an exponent as its part of a real number. -/
theorem exists_state_of_isWhole (h : IsWhole cs) : ∃ state part,
    (∀ before rest, scanFrom .gap before (cs ++ rest) = scanFrom state before rest) ∧
      Completes state (.natural (Nat.ofDigitChars 10 cs 0)) ∧ part ∈ [RealPart.zero, .whole] ∧
      ∀ c part', c.isDigit = false → part.next? c = some part' →
        scanStep state c = some ([], .real part') := by
  obtain ⟨⟨hne, hdigits⟩, hzero⟩ := h
  obtain ⟨c, digits, rfl⟩ := List.exists_cons_of_ne_nil hne
  by_cases hc : c = '0'
  · subst hc
    obtain rfl := hzero digits rfl
    refine ⟨.zero, .zero, fun _ _ => rfl, completes_zero, by decide, ?_⟩
    intro d part' _ hnext
    simp only [scanStep, hnext]
  · have hdigit : c.isDigit = true := hdigits c List.mem_cons_self
    refine ⟨.natural (Nat.ofDigitChars 10 (c :: digits) 0), .whole, ?_, completes_natural _,
      by decide, ?_⟩
    · intro before rest
      have hscan := scan_digits (fun d hd => hdigits d (List.mem_cons_of_mem c hd))
        (c.toNat - '0'.toNat) before rest
      rw [List.cons_append, scanFrom, scanStep, scanGap_of_isDigit hdigit hc,
        Nat.ofDigitChars_cons, Nat.mul_zero, Nat.zero_add]
      exact hscan
    · intro d part' hd hnext
      simp only [scanStep, hd, Bool.false_eq_true, if_false, hnext]

/-! ## Other numbers -/

/-- Characters that lead from part to part of a number are taken one by one. -/
theorem scan_real {part part' : RealPart} (h : cs.foldlM RealPart.next? part = some part')
    (before : List Token) (rest : List Char) :
    scanFrom (.real part) before (cs ++ rest) = scanFrom (.real part') before rest := by
  induction cs generalizing part with
  | nil =>
    obtain rfl := Option.some.inj h
    rfl
  | cons c cs ih =>
    rw [List.foldlM_cons] at h
    obtain ⟨next, hnext, hrest⟩ := Option.bind_eq_some_iff.mp h
    have hstep : scanStep (.real part) c = some ([], .real next) := by
      simp only [scanStep, hnext]
    rw [List.cons_append, scanFrom, hstep]
    exact ih hrest

/-- Digits lead to a part that digits do not leave. -/
theorem foldlM_digits {part part' : RealPart}
    (hfirst : ∀ c, c.isDigit = true → part.next? c = some part')
    (hloop : ∀ c, c.isDigit = true → part'.next? c = some part') (h : IsDigits cs) :
    cs.foldlM RealPart.next? part = some part' := by
  have hrun : ∀ ds : List Char, (∀ c ∈ ds, c.isDigit = true) →
      ds.foldlM RealPart.next? part' = some part' := by
    intro ds hds
    induction ds with
    | nil => rfl
    | cons d ds ih =>
      rw [List.foldlM_cons, hloop d (hds d List.mem_cons_self)]
      exact ih fun e he => hds e (List.mem_cons_of_mem d he)
  obtain ⟨hne, hdigits⟩ := h
  obtain ⟨c, ds, rfl⟩ := List.exists_cons_of_ne_nil hne
  rw [List.foldlM_cons, hfirst c (hdigits c List.mem_cons_self)]
  exact hrun ds fun d hd => hdigits d (List.mem_cons_of_mem c hd)

theorem foldlM_whole (h : IsWhole cs) :
    ∃ part ∈ [RealPart.zero, .whole], cs.foldlM RealPart.next? .sign = some part := by
  obtain ⟨⟨hne, hdigits⟩, hzero⟩ := h
  obtain ⟨c, digits, rfl⟩ := List.exists_cons_of_ne_nil hne
  by_cases hc : c = '0'
  · subst hc
    obtain rfl := hzero digits rfl
    exact ⟨.zero, by decide, rfl⟩
  · -- The first digit leads to the part in which any further ones stay.
    have hdigit : c.isDigit = true := hdigits c List.mem_cons_self
    refine ⟨.whole, by decide, ?_⟩
    have hfirst : RealPart.sign.next? c = some .whole := by
      simp [RealPart.next?, hc, hdigit]
    rw [List.foldlM_cons, hfirst]
    cases digits with
    | nil => rfl
    | cons d digits =>
      have hloop : ∀ c : Char, c.isDigit = true → RealPart.whole.next? c = some .whole := by
        intro e he
        simp [RealPart.next?, he]
      exact foldlM_digits hloop hloop
        ⟨List.cons_ne_nil _ _, fun e he => hdigits e (List.mem_cons_of_mem c he)⟩

theorem foldlM_fraction {part : RealPart} (hpart : part ∈ [RealPart.zero, .whole])
    (h : IsFraction cs) : ∃ part' ∈ [RealPart.zero, .whole, .fraction],
      cs.foldlM RealPart.next? part = some part' := by
  cases h with
  | none => exact ⟨part, List.mem_append_left [RealPart.fraction] hpart, rfl⟩
  | some hdigits =>
    have hpoint : part.next? '.' = Option.some .point := by
      revert hpart
      cases part <;> decide
    refine ⟨.fraction, by decide, ?_⟩
    rw [List.foldlM_cons, hpoint]
    refine foldlM_digits ?_ ?_ hdigits
    · intro c hc
      simp [RealPart.next?, hc]
    · intro c hc
      simp [RealPart.next?, hc]

theorem foldlM_power {part : RealPart} (hpart : part ∈ [RealPart.zero, .whole, .fraction])
    (h : IsPower cs) :
    ∃ part', part'.isComplete = true ∧ cs.foldlM RealPart.next? part = some part' := by
  cases h with
  | none =>
    refine ⟨part, ?_, rfl⟩
    revert hpart
    cases part <;> decide
  | @some mark sign digits hmark hsign hdigits =>
    have hexponent : part.next? mark = Option.some .exponent := by
      revert hpart
      simp only [List.mem_cons, List.not_mem_nil, or_false] at hmark
      rcases hmark with rfl | rfl <;> cases part <;> decide
    have hloop : ∀ c : Char, c.isDigit = true → RealPart.power.next? c = Option.some .power := by
      intro c hc
      simp [RealPart.next?, hc]
    have hsigned : ∀ c : Char, c.isDigit = true →
        RealPart.exponentSign.next? c = Option.some .power := by
      intro c hc
      simp [RealPart.next?, hc]
    have hend := foldlM_digits hsigned hloop hdigits
    refine ⟨.power, rfl, ?_⟩
    rw [List.foldlM_cons, hexponent]
    simp only [List.mem_cons, List.not_mem_nil, or_false] at hsign
    rcases hsign with rfl | rfl | rfl
    · exact foldlM_digits (fun c hc => by simp [RealPart.next?, hc]) hloop hdigits
    · exact hend
    · exact hend

/-- After the digits in front, a fraction and an exponent lead to a part in which the number may
end. -/
theorem foldlM_fraction_power {fraction power : List Char} {part : RealPart}
    (hpart : part ∈ [RealPart.zero, .whole]) (hfraction : IsFraction fraction)
    (hpower : IsPower power) : ∃ part', part'.isComplete = true ∧
      (fraction ++ power).foldlM RealPart.next? part = some part' := by
  obtain ⟨middle, hmiddle, hfirst⟩ := foldlM_fraction hpart hfraction
  obtain ⟨last, hlast, hsecond⟩ := foldlM_power hmiddle hpower
  refine ⟨last, hlast, ?_⟩
  rw [List.foldlM_append, hfirst]
  exact hsecond

/-- The first character of a fraction or an exponent is no digit. -/
theorem isDigit_head_eq_false {fraction power : List Char} {c : Char} (hfraction : IsFraction fraction)
    (hpower : IsPower power) (h : fraction ++ power = c :: cs) : c.isDigit = false := by
  cases hfraction with
  | none =>
    cases hpower with
    | none => exact nomatch h
    | some hmark _ _ =>
      obtain rfl := (List.cons.inj h).1
      simp only [List.mem_cons, List.not_mem_nil, or_false] at hmark
      rcases hmark with rfl | rfl <;> decide
  | some _ =>
    obtain rfl := (List.cons.inj h).1
    decide

theorem scan_number {sign whole fraction power : List Char} (hsign : sign ∈ [[], ['-']])
    (hwhole : IsWhole whole) (hfraction : IsFraction fraction) (hpower : IsPower power)
    (hreal : sign ≠ [] ∨ fraction ++ power ≠ []) (hrest : NumberEnds rest) (before : List Token) :
    scanFrom .gap before (sign ++ (whole ++ (fraction ++ power)) ++ rest) =
      scanFrom .gap (.real :: before) rest := by
  simp only [List.mem_cons, List.not_mem_nil, or_false] at hsign
  rcases hsign with rfl | rfl
  · -- Without a sign the number may still turn out to be just digits, up to the next character.
    obtain ⟨state, part, hscan, -, hpart, hstep⟩ := exists_state_of_isWhole hwhole
    obtain ⟨last, hlast, hrun⟩ := foldlM_fraction_power hpart hfraction hpower
    obtain ⟨c, more, hcons⟩ := List.exists_cons_of_ne_nil (hreal.resolve_left (absurd rfl))
    have hc := isDigit_head_eq_false hfraction hpower hcons
    rw [hcons, List.foldlM_cons] at hrun
    obtain ⟨next, hnext, hmore⟩ := Option.bind_eq_some_iff.mp hrun
    rw [List.nil_append, List.append_assoc, hscan, hcons, List.cons_append, scanFrom,
      hstep c next hc hnext]
    exact (scan_real hmore before rest).trans (scan_end (completes_real hlast) hrest before)
  · obtain ⟨part, hpart, hfirst⟩ := foldlM_whole hwhole
    obtain ⟨last, hlast, hsecond⟩ := foldlM_fraction_power hpart hfraction hpower
    have hrun : (whole ++ (fraction ++ power)).foldlM RealPart.next? .sign = some last := by
      rw [List.foldlM_append, hfirst]
      exact hsecond
    exact (scan_real hrun before rest).trans (scan_end (completes_real hlast) hrest before)

/-! ## Strings -/

/-- The part of a string that was read, after one more symbol. -/
def Draft.take (d : Draft) (s : Symbol) : Draft :=
  match s, d.leading with
  | .char c, _ => d.add c
  | .leading unit, none => { d with leading := some unit }
  | .trailing low, some high => ⟨d.chars.map (pairChar high low :: ·), none⟩
  | .leading _, some _ | .trailing _, none => ⟨none, none⟩

theorem Draft.addEscaped_eq (d : Draft) (unit : Nat) :
    d.addEscaped unit = d.take (.ofUnit unit) := by
  obtain ⟨chars, leading⟩ := d
  rw [addEscaped, Symbol.ofUnit]
  by_cases hleading : 0xD800 ≤ unit ∧ unit < 0xDC00
  · rw [if_pos hleading, if_pos hleading]
    cases leading <;> rfl
  · rw [if_neg hleading, if_neg hleading]
    by_cases htrailing : 0xDC00 ≤ unit ∧ unit < 0xE000
    · rw [if_pos htrailing, if_pos htrailing]
      cases leading <;> rfl
    · rw [if_neg htrailing, if_neg htrailing]
      rfl

/-- What is read at last is what was read so far and the text of the symbols that come, of which the
first may complete a pair that has begun. -/
theorem Draft.content_foldl (symbols : List Symbol) (d : Draft) :
    (symbols.foldl take d).content = d.chars.bind fun read =>
      (textOf (d.leading.toList.map .leading ++ symbols)).map fun text =>
        String.ofList (read.reverse ++ text) := by
  induction symbols generalizing d with
  | nil =>
    obtain ⟨chars, _ | high⟩ := d <;> cases chars <;> simp [content, textOf]
  | cons s symbols ih =>
    rw [List.foldl_cons, ih]
    obtain ⟨_ | read, _ | high⟩ := d <;> cases s <;>
      simp [take, add, textOf, Function.comp_def, -String.ofList_append]

theorem scan_symbol {s : Symbol} {piece : List Char} (h : s.Writes piece) (d : Draft)
    (before : List Token) (rest : List Char) :
    scanFrom (.string d) before (piece ++ rest) = scanFrom (.string (d.take s)) before rest := by
  cases h with
  | @plain c hc =>
    obtain ⟨hquote, hescape, hprint⟩ := hc
    have hstep : scanStep (.string d) c = some ([], .string (d.add c)) := by
      simp [scanStep, hquote, hescape, Nat.not_lt.mpr hprint]
    rw [List.singleton_append, scanFrom, hstep]
    rfl
  | @escape letter c hc =>
    have hmeant : ∀ e ∈ escapes, e.1 ≠ 'u' ∧ escaped? e.1 = some e.2 := by decide
    obtain ⟨hletter, hescaped⟩ := hmeant (letter, c) hc
    have hbackslash : scanStep (.string d) '\\' = some ([], .escape d) := rfl
    have hstep : scanStep (.escape d) letter = some ([], .string (d.add c)) := by
      simp [scanStep, hletter, hescaped]
    rw [List.cons_append, List.singleton_append, scanFrom, hbackslash]
    simp only [List.reverse_nil, List.nil_append]
    rw [scanFrom, hstep]
    rfl
  | @number digits unit hlength hdigits =>
    obtain ⟨-, ds, hds, hunit⟩ := hdigits
    match digits, ds, hds with
    | [a, b, c, e], [da, db, dc, de],
      .cons ha (.cons hb (.cons hc (.cons he .nil))) =>
      have hvalue : ∀ {c d}, Numeral.IsDigit 16 c d → Numeral.digitValue? 16 c = some d :=
        (Numeral.digitValue?_eq_some_iff (by decide)).mpr
      have hfold : 16 * (16 * (16 * (16 * 0 + da) + db) + dc) + de = unit := by
        rw [← hunit, Numeral.ofDigits_reverse_eq_foldl]
        rfl
      rw [← Draft.addEscaped_eq, ← hfold]
      simp [scanFrom, scanStep, hvalue ha, hvalue hb, hvalue hc, hvalue he]

theorem scan_symbols {symbols : List Symbol} {pieces : List (List Char)}
    (h : List.Forall₂ Symbol.Writes symbols pieces) (d : Draft) (before : List Token)
    (rest : List Char) :
    scanFrom (.string d) before (pieces.flatten ++ rest) =
      scanFrom (.string (symbols.foldl Draft.take d)) before rest := by
  induction h generalizing d with
  | nil => rfl
  | cons hfirst _ ih =>
    rw [List.flatten_cons, List.append_assoc, scan_symbol hfirst, ih]
    rfl

theorem scan_string {symbols : List Symbol} {pieces : List (List Char)}
    (h : List.Forall₂ Symbol.Writes symbols pieces) (before : List Token) (rest : List Char) :
    scanFrom .gap before ('"' :: (pieces.flatten ++ ['"']) ++ rest) =
      scanFrom .gap (.string ((textOf symbols).map String.ofList) :: before) rest := by
  have hopen : scanStep .gap '"' = some ([], .string .empty) := rfl
  have hclose (d : Draft) : scanStep (.string d) '"' = some ([.string d.content], .gap) := rfl
  have hcontent := Draft.content_foldl symbols .empty
  rw [List.cons_append, List.append_assoc, scanFrom, hopen]
  simp only [List.reverse_nil, List.nil_append]
  rw [scan_symbols h, List.singleton_append, scanFrom, hclose, hcontent]
  rfl

/-! ## Tokens and layouts -/

/-- The token is a number. -/
def Token.isNumber : Token → Bool
  | natural _ | real => true
  | _ => false

/-- The token is a mark. -/
def Token.isMark (t : Token) : Bool :=
  marks.any (·.2 == t)

/-- **One token.** Between tokens the scanner takes a spelling of a token as that token. -/
theorem scan_writes (h : Writes t word) (hrest : t.isNumber = true → NumberEnds rest)
    (before : List Token) :
    scanFrom .gap before (word ++ rest) = scanFrom .gap (t :: before) rest := by
  cases h with
  | mark hc => exact scan_mark hc before rest
  | word hs => exact scan_word hs before rest
  | natural hwhole =>
    obtain ⟨state, -, hscan, hcompletes, -⟩ := exists_state_of_isWhole hwhole
    rw [hscan]
    exact scan_end hcompletes (hrest rfl) before
  | real hsign hwhole hfraction hpower hreal =>
    exact scan_number hsign hwhole hfraction hpower hreal (hrest rfl) before
  | string hsymbols => exact scan_string hsymbols before rest

/-- A number and what follows it are kept apart by a mark. -/
def Apart (t u : Token) : Prop :=
  t.isNumber = true → u.isMark = true

/-- A mark ends a number, and a blank before it does too. -/
theorem Layout.numberEnds {ts : List Token} (h : Layout ts cs)
    (hfirst : ∀ t ∈ ts.head?, t.isMark = true) : NumberEnds cs := by
  have hblank : ∀ c ∈ [' ', '\n', '\t', '\r'], EndsNumber c := by
    intro c hc
    simp only [List.mem_cons, List.not_mem_nil, or_false] at hc
    rcases hc with rfl | rfl | rfl | rfl <;> decide
  have hmark : ∀ m ∈ marks, EndsNumber m.1 := by decide
  cases h with
  | done hblanks =>
    cases cs with
    | nil => exact numberEnds_nil
    | cons c blanks => exact numberEnds_cons (hblank c (hblanks c List.mem_cons_self))
  | @next blanks word rest t ts hblanks hword hrest =>
    cases blanks with
    | cons c blanks => exact numberEnds_cons (hblank c (hblanks c List.mem_cons_self))
    | nil =>
      cases hword with
      | mark hc => exact numberEnds_cons (hmark _ hc)
      | word hs =>
        have hnone : ∀ w ∈ words, w.2.isMark = false := by decide
        have his := hfirst t rfl
        rw [hnone _ hs] at his
        exact nomatch his
      | natural _ | real _ _ _ _ _ | string _ => exact nomatch hfirst _ rfl

/-- **A layout is cut into its tokens.** -/
theorem tokens?_of_layout {ts : List Token} (h : Layout ts cs) (hapart : ts.IsChain Apart) :
    tokens? cs = some ts := by
  have hscan : ∀ before, scanFrom .gap before cs = some (before.reverse ++ ts) := by
    induction h with
    | done hblanks =>
      intro before
      have hnone := scan_blanks hblanks before []
      rw [List.append_nil] at hnone
      rw [hnone]
      rfl
    | @next blanks word rest t ts hblanks hword hrest ih =>
      intro before
      rw [List.isChain_cons] at hapart
      have hends : t.isNumber = true → NumberEnds rest := fun ht =>
        hrest.numberEnds fun u hu => hapart.1 u hu ht
      rw [scan_blanks hblanks, scan_writes hword hends, ih hapart.2, List.reverse_cons,
        List.append_assoc]
      rfl
  exact hscan []

/-! ## Texts of values -/

/-- Tokens stay apart when a mark comes between them. -/
theorem isChain_append_mark {ts us : List Token} (ht : t.isMark = true)
    (hts : ts.IsChain Apart) (hus : us.IsChain Apart) : (ts ++ t :: us).IsChain Apart := by
  have hnumber : t.isNumber = false := by
    revert ht
    cases t <;> first | exact fun _ => rfl | exact fun h => nomatch h
  refine hts.append (hus.cons ?_) ?_
  · intro u _ h
    rw [hnumber] at h
    exact nomatch h
  · intro s _ u hu _
    rw [List.head?_cons, Option.mem_some_iff] at hu
    exact hu ▸ ht

theorem isChain_mark_cons {us : List Token} (ht : t.isMark = true) (hus : us.IsChain Apart) :
    (t :: us).IsChain Apart :=
  isChain_append_mark ht .nil hus

theorem isChain_field {key : Option String} {ts : List Token} (h : ts.IsChain Apart) :
    (.string key :: .colon :: ts : List Token).IsChain Apart :=
  show ([.string key] ++ .colon :: ts : List Token).IsChain Apart from
    isChain_append_mark rfl (.singleton _) h

mutual

theorem isChain_tokens (v : Json) : v.tokens.IsChain Apart := by
  cases v with
  | array items =>
    exact isChain_mark_cons rfl (isChain_append_mark rfl (isChain_itemTokens items) .nil)
  | object members =>
    exact isChain_mark_cons rfl (isChain_append_mark rfl (isChain_memberTokens members) .nil)
  | _ => exact .singleton _

theorem isChain_itemTokens (items : List Json) : (itemTokens items).IsChain Apart := by
  match items with
  | [] => exact .nil
  | [item] => exact isChain_tokens item
  | item :: next :: more =>
    exact isChain_append_mark rfl (isChain_tokens item) (isChain_itemTokens (next :: more))

theorem isChain_memberTokens (members : List (Option String × Json)) :
    (memberTokens members).IsChain Apart := by
  match members with
  | [] => exact .nil
  | [(key, value)] => exact isChain_field (isChain_tokens value)
  | (key, value) :: next :: more =>
    exact isChain_field
      (isChain_append_mark rfl (isChain_tokens value) (isChain_memberTokens (next :: more)))

end

/-- **Every text of a value is read as the value.** -/
theorem read?_of_isText {v : Json} {text : String} (h : IsText v text) : read? text = some v := by
  rw [read?, tokens?_of_layout h (isChain_tokens v)]
  exact ofTokens?_tokens v

end Datapath.Json
