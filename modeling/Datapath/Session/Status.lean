import Datapath.Session.Turn
import Datapath.Snapshot
import Datapath.Status.Text

/-!
# Sessions on a status word

Reading and writing the fields of a status word, by value or, for the fields an executor fills, by a
raw byte. A byte that selects nothing is refused, reported, and changes no bit.
-/

set_option autoImplicit false

namespace Datapath.StatusWord

/-- Fills a field by a raw byte, or reports that the byte selects nothing. -/
def select (w : StatusWord) (c : Choice) (value : Byte) : Outcome StatusWord SelectorFault Unit :=
  match (Selector.ofByte value : Except SelectorFault c.field.Value) with
  | .ok v => .done (w.write c.field v) ()
  | .error fault => .refuse w fault (.refused fault)

/-- A step on a status word. -/
inductive Step
  /-- Take a whole new pattern. -/
  | replace (bits : BitVec 32)
  /-- Clear every bit. -/
  | reset
  | bits | trace | save
  | flag (f : Flag)
  | assign (f : Flag) (on : Bool)
  | read (f : Field)
  | write (f : Field) (v : f.Value)
  | select (c : Choice) (value : Byte)
  /-- Ask whether the first bank of the pointer registers is active. -/
  | pointersInFirstBank
  /-- Ask whether the first bank of the counter registers is active. -/
  | countersInFirstBank

/-- What a field answers about its value. -/
def fieldReply : (f : Field) → f.Value → Reply
  | .carry, b | .overflow, b | .zero, b | .negative, b | .interruptDisable, b => .truth b
  | .addressMode, m => .named m
  | .register, r => .named r
  | .pointerBank, b | .counterBank, b => .named b
  | .width, w => .named w
  | .mathMode, m => .named m
  | .system, v | .user, v => .unsigned .w8 v

/-- Takes one step. -/
def act (step : Step) (w : StatusWord) : Turn StatusWord Reply :=
  match step with
  | .replace bits => .change ⟨bits⟩
  | .reset => .change .clear
  | .bits => .answer w (.unsigned .w32 w.bits)
  | .trace => .answer w (.text w.trace)
  | .save => .answer w (.text (Snapshot.save w))
  | .flag f => .answer w (.truth (w.flag f))
  | .assign f on => .change (w.assign f on)
  | .read f => .answer w (fieldReply f (w.read f))
  | .write f v => .change (w.write f v)
  | .select c value => .ofUnit .status (w.select c value)
  | .pointersInFirstBank => .answer w (.truth (w.pointerBank == .set0))
  | .countersInFirstBank => .answer w (.truth (w.counterBank == .set0))

end Datapath.StatusWord
