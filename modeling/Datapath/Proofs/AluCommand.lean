import Datapath.CommandLine.Program
import Datapath.Proofs.Dependence
import Datapath.Proofs.Execute
import Datapath.Proofs.Lines
import Datapath.Proofs.SnapshotRoundTrip
import Datapath.Proofs.SpelledDigits
import Datapath.Session.Machine

/-!
# The command that evaluates one operation

The command puts a status word and two cells together and applies the operation to them. A register
file comes to the same operands by steps of its own, and what it executes then leaves the same cells
and the same word (`evaluate_eq_report`). The two meet in `operands_prepared`; everything after it
holds for whatever the operation does.

A report is judged by what can be read off it. `ShowsLines` and `ShowsDocument` say which values the
two forms show, without a word on how they were made, and a report of either form shows one triple of
values only: sixteen digits name one cell, eight digits one word, and a text has one JSON value.
-/

set_option autoImplicit false

namespace Datapath

/-! ## Bits of a word -/

/-- A field of one bit is the bit. -/
theorem Coded.decode_bit (bits : BitVec 32) (i : Nat) :
    (Coded.decode (bits.extractLsb' i 1) : Bool) = bits.getLsbD i := by
  have hbit : bits.extractLsb' i 1 = BitVec.ofBool (bits.getLsbD i) := by
    apply BitVec.eq_of_getLsbD_eq
    intro j hj
    obtain rfl : j = 0 := Nat.lt_one_iff.mp hj
    simp
  rw [hbit]
  exact Coded.decode_code _

/-- The code of a width counts doublings of eight. -/
theorem StatusWord.bits_read_width (w : StatusWord) :
    (w.read .width).bits = 8 * 2 ^ (w.bits.extractLsb' 18 2).toNat := by
  have hcode : Coded.code (w.read .width) = w.bits.extractLsb' 18 2 := Coded.code_decode _
  rw [← hcode]
  cases w.read .width <;> rfl

namespace CommandLine

/-! ## Names of operations -/

/-- A name is read as the operation that stands beside it in the table, and as no other. -/
theorem readOp_eq_ok_iff {argument name : String} {op : AluOp} :
    readOp argument name = .ok op ↔ (name, op) ∈ opNames := by
  rw [readOp]
  constructor
  · intro h
    split at h
    next found hlookup =>
      obtain ⟨before, after, hsplit, -⟩ := List.lookup_eq_some_iff.mp hlookup
      obtain rfl : found = op := Except.ok.inj h
      rw [hsplit]
      exact List.mem_append_right before List.mem_cons_self
    next => exact nomatch h
  · intro h
    -- No name stands in the table twice.
    have hfirst : ∀ entry ∈ opNames, opNames.lookup entry.1 = some entry.2 := by decide
    rw [hfirst (name, op) h]

/-- Division has one name, and no other operation has it. -/
theorem name_eq_div_iff {argument name : String} {op : AluOp}
    (h : readOp argument name = .ok op) : name = "div" ↔ op = .divide := by
  have hnames : ∀ entry ∈ opNames, entry.1 = "div" ↔ entry.2 = .divide := by decide
  exact hnames (name, op) (readOp_eq_ok_iff.mp h)

/-! ## The same operation in a register file -/

namespace AluRequest

variable (r : AluRequest)

/-- A new register file after the steps that set the width and the carry and store the two cells. -/
def prepared : RegisterFile :=
  (Session.run Machine.act id
    [.status (.write .width r.width), .status (.assign .carry r.carry),
      .general .r0 (.replace r.a), .general .r1 (.replace r.b)]
    (.initial RegisterFile.stackSize)).last.file

/-- The file after it executed the operation. -/
def executed : RegisterFile :=
  (r.prepared.execute r.op .r0 .r1).state

theorem operands_prepared : r.prepared.operands .r0 .r1 = ⟨r.a, r.b, r.status⟩ := rfl

theorem result_apply_prepared :
    ((r.prepared.operands .r0 .r1).apply r.op).result =
      if r.op = .divide ∧ r.b = 0#64 then .error .divisionByZero else .ok () :=
  Operands.apply_result _ r.op

/-- The report of what the file holds then. -/
def report : AluReport where
  op := r.op
  a := r.a
  b := r.b
  width := r.width
  result := r.executed.general.get .r0
  operand := r.executed.general.get .r1
  status := r.executed.status

theorem status_executed :
    r.executed.status = ((⟨r.a, r.b, r.status⟩ : Operands).apply r.op).state.status :=
  RegisterFile.status_execute r.prepared r.op .r0 .r1

/-- **The command evaluates what the file executes**, unless it is a division by zero. -/
theorem evaluate_eq_report (h : ¬ (r.op = .divide ∧ r.b = 0#64)) : r.evaluate = .ok r.report := by
  have hresult := r.result_apply_prepared
  rw [if_neg h] at hresult
  -- Target and source are two registers, so neither result covers the other.
  have hget := RegisterFile.get_execute hresult
  have htarget : r.executed.general.get .r0 =
      ((⟨r.a, r.b, r.status⟩ : Operands).apply r.op).state.target := hget .r0
  have hoperand : r.executed.general.get .r1 =
      ((⟨r.a, r.b, r.status⟩ : Operands).apply r.op).state.operand := hget .r1
  rw [operands_prepared] at hresult
  rw [evaluate, report, htarget, hoperand, r.status_executed]
  simp only [hresult]
  rfl

theorem evaluate_eq_error (h : r.op = .divide ∧ r.b = 0#64) :
    r.evaluate = .error .divisionByZero := by
  have hresult := r.result_apply_prepared
  rw [if_pos h, operands_prepared] at hresult
  rw [evaluate]
  simp only [hresult]
  rfl

end AluRequest

/-! ## What a report shows -/

/-- What an operation left. -/
structure Values where
  result : Cell
  operand : Cell
  status : StatusWord
  deriving DecidableEq, Repr

/-- The line that shows a cell under a label. -/
def cellLine (label : String) (c : Cell) : String :=
  label ++ Cell.text c ++ " (" ++ Cell.signedText c ++ ")"

/-- The lines show the values, each on its line after a heading. -/
def ShowsLines (lines : List String) (v : Values) : Prop :=
  ∃ heading, lines = [heading, cellLine "  result  = " v.result, cellLine "  operand = " v.operand,
    "  " ++ v.status.trace]

/-- The text is JSON of an object that has the values as numbers. -/
def ShowsDocument (text : String) (v : Values) : Prop :=
  ∃ members, Json.read? text = some (.object members) ∧
    Json.member? members "result" = some (.natural v.result.toNat) ∧
    Json.member? members "operand" = some (.natural v.operand.toNat) ∧
    Json.member? members "status" = some (.natural v.status.bits.toNat)

/-- The text is JSON of an object that has the operand width of a status word as a number of bits,
and its four topmost bits as truth values. -/
def ShowsConditions (text : String) (w : StatusWord) : Prop :=
  ∃ members, Json.read? text = some (.object members) ∧
    Json.member? members "bits" = some (.natural (8 * 2 ^ (w.bits.extractLsb' 18 2).toNat)) ∧
    Json.member? members "carry" = some (.truth (w.bits.getLsbD 31)) ∧
    Json.member? members "overflow" = some (.truth (w.bits.getLsbD 30)) ∧
    Json.member? members "zero" = some (.truth (w.bits.getLsbD 29)) ∧
    Json.member? members "negative" = some (.truth (w.bits.getLsbD 28))

theorem cellLine_inj {label : String} {c d : Cell} (h : cellLine label c = cellLine label d) :
    c = d := by
  simp only [cellLine, String.append_assoc] at h
  have htext := (String.append_right_inj label).mp h
  obtain ⟨hnumber, -⟩ := (Numeral.spells_hex 16 c.toNat).append_inj " (" (by decide) (by decide)
    (Numeral.spells_hex 16 d.toNat) htext
  exact BitVec.eq_of_toNat_eq hnumber

theorem trace_inj {w z : StatusWord} (h : w.trace = z.trace) : w = z := by
  simp only [StatusWord.trace, String.append_assoc] at h
  have htext := (String.append_right_inj "ST=").mp h
  obtain ⟨hnumber, -⟩ := (Numeral.spells_hex 8 w.bits.toNat).append_inj " " (by decide) (by decide)
    (Numeral.spells_hex 8 z.bits.toNat) htext
  exact congrArg StatusWord.mk (BitVec.eq_of_toNat_eq hnumber)

/-- Lines show one triple of values only. -/
theorem ShowsLines.unique {lines : List String} {v u : Values} (hv : ShowsLines lines v)
    (hu : ShowsLines lines u) : v = u := by
  obtain ⟨heading, rfl⟩ := hv
  obtain ⟨heading', hlines⟩ := hu
  simp only [List.cons.injEq, and_true] at hlines
  obtain ⟨-, hresult, hoperand, hstatus⟩ := hlines
  obtain ⟨result, operand, status⟩ := v
  obtain rfl := cellLine_inj hresult
  obtain rfl := cellLine_inj hoperand
  obtain rfl := trace_inj ((String.append_right_inj "  ").mp hstatus)
  rfl

/-- A text of an object shows one triple of values only. -/
theorem ShowsDocument.unique {text : String} {v u : Values} (hv : ShowsDocument text v)
    (hu : ShowsDocument text u) : v = u := by
  obtain ⟨members, hread, hresult, hoperand, hstatus⟩ := hv
  obtain ⟨members', hread', hresult', hoperand', hstatus'⟩ := hu
  obtain rfl := Json.object.inj (Option.some.inj (hread.symm.trans hread'))
  rw [hresult] at hresult'
  rw [hoperand] at hoperand'
  rw [hstatus] at hstatus'
  obtain ⟨result, operand, ⟨bits⟩⟩ := v
  obtain rfl := BitVec.eq_of_toNat_eq (Json.natural.inj (Option.some.inj hresult'))
  obtain rfl := BitVec.eq_of_toNat_eq (Json.natural.inj (Option.some.inj hoperand'))
  obtain rfl := BitVec.eq_of_toNat_eq (Json.natural.inj (Option.some.inj hstatus'))
  rfl

/-! ## The two reports -/

namespace AluReport

variable (r : AluReport)

/-- What the operation of the report left. -/
def values : Values :=
  ⟨r.result, r.operand, r.status⟩

theorem showsLines : ShowsLines r.lines r.values :=
  ⟨_, rfl⟩

/-- The keys of a report with the documents that they hold. -/
def fields : List (String × Document) :=
  [("op", Snapshot.document r.op), ("bits", .natural r.width.bits),
    ("result", Snapshot.document r.result), ("operand", Snapshot.document r.operand),
    ("status", Snapshot.document r.status), ("carry", .truth (r.status.flag .carry)),
    ("overflow", .truth (r.status.flag .overflow)), ("zero", .truth (r.status.flag .zero)),
    ("negative", .truth (r.status.flag .negative))]

theorem document_eq : r.document = .record r.fields := rfl

theorem plain_document : r.document.Plain := by
  rw [document_eq]
  apply Document.plainFields_of_forall
  · show ∀ key ∈ ["op", "bits", "result", "operand", "status", "carry", "overflow", "zero",
      "negative"], Document.IsPlainWord key
    decide
  · simp [fields, Document.Plain]

/-- The document and the line break after it are JSON of the fields. -/
theorem read?_stream :
    Json.read? (Transcript.stream [r.document.pretty]) =
      some (.object (Document.fieldsToJson r.fields)) := by
  have htext : (Transcript.stream [r.document.pretty]).toList = r.document.pretty.toList ++ ['\n'] := by
    simp [Transcript.stream]
  apply Json.read?_of_isText
  rw [Json.IsText, htext]
  exact (Document.isText_pretty r.plain_document).append_blanks (by decide)

theorem member?_fields {key : String} {value : Document} (h : (key, value) ∈ r.fields) :
    Json.member? (Document.fieldsToJson r.fields) key = some value.toJson := by
  have hkeys : (r.fields.map Prod.fst).Nodup := by
    show ["op", "bits", "result", "operand", "status", "carry", "overflow", "zero",
      "negative"].Nodup
    decide
  exact Document.member?_fieldsToJson hkeys h

theorem showsDocument : ShowsDocument (Transcript.stream [r.document.pretty]) r.values := by
  have hresult : ("result", Snapshot.document r.result) ∈ r.fields := by simp [fields]
  have hoperand : ("operand", Snapshot.document r.operand) ∈ r.fields := by simp [fields]
  have hstatus : ("status", Snapshot.document r.status) ∈ r.fields := by simp [fields]
  exact ⟨_, r.read?_stream, r.member?_fields hresult, r.member?_fields hoperand,
    r.member?_fields hstatus⟩

/-- A flag is shown as the bit that holds it. -/
theorem member?_flag {key : String} {i : Nat} (flag : Flag)
    (hfield : (key, Document.truth (r.status.flag flag)) ∈ r.fields)
    (hbit : r.status.flag flag = r.status.bits.getLsbD i) :
    Json.member? (Document.fieldsToJson r.fields) key =
      some (.truth (r.status.bits.getLsbD i)) := by
  rw [← hbit]
  exact r.member?_fields hfield

/-- The width is shown as the status word has it, if the operation kept it. -/
theorem showsConditions (hwidth : r.status.read .width = r.width) :
    ShowsConditions (Transcript.stream [r.document.pretty]) r.status := by
  refine ⟨_, r.read?_stream, ?bits, ?carry, ?overflow, ?zero, ?negative⟩
  case bits =>
    have hbits : ("bits", Document.natural r.width.bits) ∈ r.fields := by simp [fields]
    rw [← StatusWord.bits_read_width, hwidth]
    exact r.member?_fields hbits
  case carry => exact r.member?_flag .carry (by simp [fields]) (Coded.decode_bit _ _)
  case overflow => exact r.member?_flag .overflow (by simp [fields]) (Coded.decode_bit _ _)
  case zero => exact r.member?_flag .zero (by simp [fields]) (Coded.decode_bit _ _)
  case negative => exact r.member?_flag .negative (by simp [fields]) (Coded.decode_bit _ _)

end AluReport

/-! ## The command -/

namespace AluRequest

variable (r : AluRequest)

/-- What the register file holds after it executed the operation. -/
def left : Values :=
  ⟨r.executed.general.get .r0, r.executed.general.get .r1, r.executed.status⟩

/-- No operation writes the width. -/
theorem read_width_executed : r.executed.status.read .width = r.width := by
  have hkept := Operands.read_apply_of_not_mem ⟨r.a, r.b, r.status⟩ r.op .width
    (AluOp.width_not_mem_writes r.op)
  have hset : r.status.read .width = r.width := by
    show ((StatusWord.clear.write .width r.width).write .carry r.carry).read .width = r.width
    rw [StatusWord.read_write_of_ne _ _ (by decide), StatusWord.read_write]
  rw [r.status_executed, hkept, hset]

/-- A failed run leaves one line on the error output and nothing else. -/
theorem run_of_error (h : r.op = .divide ∧ r.b = 0#64) :
    r.run = .failed (Transcript.complaint "DivideSigned: division by zero") := by
  rw [run, r.evaluate_eq_error h, h.1]
  rfl

theorem run_of_ok (h : ¬ (r.op = .divide ∧ r.b = 0#64)) :
    r.run = .printed (if r.json then [r.report.document.pretty] else r.report.lines) := by
  rw [run, r.evaluate_eq_report h]

end AluRequest

/-- **The command agrees with the register file.** An operation is asked for by its name, with two
cells, a width and a carry; eleven names are read, each as its operation, and no other text is. The
command fails, with one line on the error output and none on the other, exactly if the name is `div`
and the second cell is zero. Otherwise it ends well, and both forms of its report show what a new
register file holds that was given the same width, carry and cells and executed the operation on its
first two registers: each form shows these three values and no others. The document shows besides the
width and the four condition flags as they stand in the status word. -/
theorem run_agrees_with_file :
    (∀ name op, readOp "<OP>" name = .ok op ↔ (name, op) ∈
      [("add", AluOp.add), ("sub", .subtract), ("and", .and), ("or", .or), ("xor", .xor),
        ("cmp", .compare), ("shl", .shiftLeft), ("shr", .shiftRight),
        ("sra", .shiftRightArithmetic), ("mul", .multiply), ("div", .divide)]) ∧
    ∀ name op, readOp "<OP>" name = .ok op → ∀ (a b : Cell) (width : Width) (carry : Bool),
      let request (json : Bool) : AluRequest := ⟨op, a, b, width, carry, json⟩
      let left : Values := (request false).left
      (∀ json, ((request json).run.code = 1 ∧ (request json).run.output = [] ∧
          ∃ line, (request json).run.errors = [line] ∧ IsLine line) ↔ name = "div" ∧ b = 0#64) ∧
        (¬ (name = "div" ∧ b = 0#64) →
          (∀ json, (request json).run.code = 0 ∧ (request json).run.errors = []) ∧
          (∀ v, ShowsLines (request false).run.output v ↔ v = left) ∧
          (∀ v, ShowsDocument (Transcript.stream (request true).run.output) v ↔ v = left) ∧
          ShowsConditions (Transcript.stream (request true).run.output) left.status) := by
  refine ⟨fun name op => readOp_eq_ok_iff, ?_⟩
  intro name op hop a b width carry request left
  rw [name_eq_div_iff hop]
  refine ⟨fun json => ?_, fun hok => ?_⟩
  · by_cases h : op = .divide ∧ b = 0#64
    · refine iff_of_true ?_ h
      rw [(request json).run_of_error h]
      exact ⟨rfl, rfl, _, rfl, by decide⟩
    · refine iff_of_false ?_ h
      rintro ⟨hcode, -⟩
      rw [(request json).run_of_ok h] at hcode
      exact absurd hcode Nat.zero_ne_one
  · have hlines : (request false).run = .printed (request false).report.lines :=
      (request false).run_of_ok hok
    have hdocument : (request true).run = .printed [(request true).report.document.pretty] :=
      (request true).run_of_ok hok
    -- What the file holds does not depend on the form that is asked for.
    have hvalues : (request false).report.values = left := rfl
    have hshown : ShowsLines (request false).run.output left := by
      rw [hlines, ← hvalues]
      exact (request false).report.showsLines
    have hshown' : ShowsDocument (Transcript.stream (request true).run.output) left := by
      rw [hdocument, ← hvalues]
      exact (request true).report.showsDocument
    refine ⟨fun json => ?_, fun v => ?_, fun v => ?_, ?_⟩
    · rw [(request json).run_of_ok hok]
      exact ⟨rfl, rfl⟩
    · exact ⟨fun hv => hv.unique hshown, fun hv => hv ▸ hshown⟩
    · exact ⟨fun hv => hv.unique hshown', fun hv => hv ▸ hshown'⟩
    · rw [hdocument]
      exact (request true).report.showsConditions (request true).read_width_executed

/-- One below zero with a borrow, on bytes. -/
theorem run_agrees_with_file_sub :
    readOp "<OP>" "sub" = .ok .subtract ∧
      ShowsLines (⟨.subtract, 0#64, 1#64, .w8, true, false⟩ : AluRequest).run.output
        ⟨0xFFFFFFFFFFFFFFFE#64, 1#64, ⟨0x90000000#32⟩⟩ := by
  have hop : readOp "<OP>" "sub" = .ok .subtract :=
    (run_agrees_with_file.1 "sub" .subtract).mpr (by decide)
  have hok : ¬ ("sub" = "div" ∧ (1#64 : Cell) = 0#64) := by decide
  have hleft : (⟨0xFFFFFFFFFFFFFFFE#64, 1#64, ⟨0x90000000#32⟩⟩ : Values) =
      (⟨.subtract, 0#64, 1#64, .w8, true, false⟩ : AluRequest).left := by decide
  have hshown := (run_agrees_with_file.2 "sub" .subtract hop 0#64 1#64 .w8 true).2 hok
  exact ⟨hop, (hshown.2.1 _).mpr hleft⟩

end CommandLine

end Datapath
