import Datapath.Session.Turn
import Datapath.Snapshot

/-!
# Sessions on a general register

Reading and storing numbers of every width, signed and unsigned, cutting and widening a cell, and
its texts.
-/

set_option autoImplicit false

namespace Datapath.Cell

/-- A step on a cell. -/
inductive Step
  /-- Take a whole new pattern. -/
  | replace (c : Cell)
  | unsigned (w : Width)
  | signed (w : Width)
  | storeUnsigned (w : Width) (v : BitVec w.bits)
  | storeSigned (w : Width) (v : BitVec w.bits)
  | extend (w : Width)
  | truncate (w : Width)
  | isNegative | isZero
  /-- Compare with another cell. -/
  | order (other : Cell)
  | text | trace | save

/-- The word for an order. -/
def orderName : Ordering → String
  | .lt => "Less"
  | .eq => "Equal"
  | .gt => "Greater"

/-- Takes one step. -/
def act (step : Step) (c : Cell) : Turn Cell Reply :=
  match step with
  | .replace new => .change new
  | .unsigned w => .answer c (.unsigned w (unsigned w c))
  | .signed w => .answer c (.signed w (signed w c))
  | .storeUnsigned w v => .change (ofUnsigned w v)
  | .storeSigned w v => .change (ofSigned w v)
  | .extend w => .change (extend w c)
  | .truncate w => .change (truncate w c)
  | .isNegative => .answer c (.truth (isNegative c))
  | .isZero => .answer c (.truth (isZero c))
  | .order other => .answer c (.text (orderName (order c other)))
  | .text => .answer c (.text (text c))
  | .trace => .answer c (.text (trace c))
  | .save => .answer c (.text (Snapshot.save c))

end Datapath.Cell
