/-!
# Text for a terminal

Text written for a terminal may hold control sequences. An escape character begins one, and the
characters after it tell its kind and where it ends. Where no terminal reads the text, it is written
without them, and without the control characters that only a terminal understands.

Main statements: what is left is plain (`isPlain_of_mem_plain`), plain text is left as it is
(`plain_eq_self`), and an escape character begins a sequence whatever stands before it
(`plainFrom_escape`).
-/

set_option autoImplicit false

namespace Datapath.Terminal

/-! ## Characters -/

/-- A control character that moves to another place of the line or the page. -/
def isSpacing (c : Char) : Bool :=
  c == '\t' || c == '\n' || c == '\x0c' || c == '\r'

/-- A character that means the same without a terminal: any but the ASCII control characters, of which
those that move to another place remain. -/
def isPlain (c : Char) : Bool :=
  (0x20 ≤ c.toNat && c.toNat != 0x7F) || isSpacing c

/-- A character that may stand before the last one of a sequence and narrows its meaning. -/
def isIntermediate (c : Char) : Bool :=
  ' ' ≤ c && c ≤ '/'

/-- The byte of the string terminator is among those that stand for the character. Strings are ended
by the byte alone, wherever in a character it stands. -/
def endsString (c : Char) : Bool :=
  (String.utf8EncodeChar c).contains 0x9C

/-! ## Sequences -/

/-- How far a control sequence has come. -/
inductive Sequence
  /-- There is none. -/
  | absent
  /-- After the escape character. -/
  | escape
  /-- After the escape character and intermediate characters. -/
  | intermediate
  /-- In a function with parameters, which a letter or a similar sign ends. -/
  | function
  /-- At the beginning of what is sent to the device. -/
  | deviceEntry
  /-- Among the parameters of what is sent to the device. -/
  | deviceParameter
  /-- After the parameters of what is sent to the device, among intermediate characters. -/
  | deviceIntermediate
  /-- In a string that the string terminator ends. -/
  | string
  /-- In a command to the system, which the bell ends. -/
  | command
  deriving DecidableEq, Repr

namespace Sequence

/-- Whether spacing characters act within the sequence as they do outside it. -/
def isPermeable : Sequence → Bool
  | absent | escape | intermediate | function => true
  | deviceEntry | deviceParameter | deviceIntermediate | string | command => false

/-- The sequence after one more character. An escape character begins anew and two control characters
cancel; what means nothing in a sequence is passed by. -/
def next (s : Sequence) (c : Char) : Sequence :=
  if c == '\x1b' then .escape
  else if c == '\x18' || c == '\x1a' then .absent
  else
    match s with
    | .absent => .absent
    | .escape =>
      if c == '[' then .function
      else if c == ']' then .command
      else if c == 'P' then .deviceEntry
      else if c == 'X' || c == '^' || c == '_' then .string
      else if isIntermediate c then .intermediate
      else if '0' ≤ c && c ≤ '~' then .absent
      else .escape
    | .intermediate => if '0' ≤ c && c ≤ '~' then .absent else .intermediate
    | .function => if '@' ≤ c && c ≤ '~' then .absent else .function
    | .deviceEntry =>
      if isIntermediate c then .deviceIntermediate
      else if '0' ≤ c && c ≤ '?' then .deviceParameter
      else if '@' ≤ c && c ≤ '~' then .string
      else .deviceEntry
    | .deviceParameter =>
      if isIntermediate c then .deviceIntermediate
      else if '<' ≤ c && c ≤ '~' then .string
      else .deviceParameter
    | .deviceIntermediate => if '0' ≤ c && c ≤ '~' then .string else .deviceIntermediate
    | .string => if endsString c then .absent else .string
    | .command => if c == '\x07' then .absent else .command

end Sequence

/-! ## Plain text -/

/-- Where a reader of text stands. -/
structure Reader where
  sequence : Sequence
  /-- A spacing character within the sequence has brought to light what follows it. The sequence goes
  on at the next control character, if only ASCII was brought to light. -/
  suspended : Bool
  deriving DecidableEq, Repr

namespace Reader

/-- At the beginning of a text. -/
def start : Reader :=
  ⟨.absent, false⟩

/-- Whether the reader is outside every sequence, or as good as outside. -/
def isOutside (r : Reader) : Bool :=
  r.sequence == .absent || r.suspended

/-- Whether the next character stays, and the reader after it. -/
def step (r : Reader) (c : Char) : Bool × Reader :=
  if r.isOutside && isPlain c then
    (true, if c.toNat < 0x80 then r else start)
  else if r.sequence.isPermeable && isSpacing c then
    (true, { r with suspended := true })
  else (false, ⟨r.sequence.next c, false⟩)

end Reader

/-- What stays of a text from where a reader stands. -/
def plainFrom (r : Reader) : List Char → List Char
  | [] => []
  | c :: rest =>
    if (r.step c).1 then c :: plainFrom (r.step c).2 rest else plainFrom (r.step c).2 rest

/-- A text without its control sequences. -/
def plain (text : List Char) : List Char :=
  plainFrom .start text

/-- A character that stays is plain. -/
theorem isPlain_of_step {r : Reader} {c : Char} (h : (r.step c).1 = true) : isPlain c = true := by
  unfold Reader.step at h
  split at h
  · rename_i hout
    exact (Bool.and_eq_true_iff.mp hout).2
  · split at h
    · rename_i hspacing
      simp [isPlain, (Bool.and_eq_true_iff.mp hspacing).2]
    · simp at h

/-- What is left of a text from anywhere is plain. -/
theorem isPlain_of_mem_plainFrom {text : List Char} {c : Char} {r : Reader}
    (h : c ∈ plainFrom r text) : isPlain c = true := by
  induction text generalizing r with
  | nil => simp [plainFrom] at h
  | cons d rest ih =>
    unfold plainFrom at h
    split at h
    · rename_i hstays
      rcases List.mem_cons.mp h with rfl | hrest
      · exact isPlain_of_step hstays
      · exact ih hrest
    · exact ih h

/-- What is left of a text is plain. -/
theorem isPlain_of_mem_plain {text : List Char} {c : Char} (h : c ∈ plain text) : isPlain c = true :=
  isPlain_of_mem_plainFrom h

/-- A plain text is left as it is. -/
theorem plain_eq_self {text : List Char} (h : ∀ c ∈ text, isPlain c = true) : plain text = text := by
  unfold plain
  induction text with
  | nil => rfl
  | cons c rest ih =>
    have hstep : Reader.start.step c = (true, Reader.start) := by
      simp [Reader.step, Reader.isOutside, Reader.start, h c (by simp)]
    rw [plainFrom, hstep, if_pos rfl, ih fun d hd => h d (by simp [hd])]

/-- An escape character begins a sequence whatever stands before it. -/
theorem plainFrom_escape (r : Reader) (rest : List Char) :
    plainFrom r ('\x1b' :: rest) = plainFrom ⟨.escape, false⟩ rest := by
  have hstep : r.step '\x1b' = (false, ⟨.escape, false⟩) := by
    have hplain : isPlain '\x1b' = false := rfl
    have hspacing : isSpacing '\x1b' = false := rfl
    simp [Reader.step, hplain, hspacing, Sequence.next]
  rw [plainFrom, hstep]
  rfl

end Datapath.Terminal
