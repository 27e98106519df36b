import Datapath.Alu.Operation
import Datapath.Cell
import Datapath.Fault

/-!
# The journal

What the core tells an observer while it works. An event is data and keeps the values that it is
about, as they were before the operation changed anything; its level and its wording follow from it.
An operation that can fail or be observed answers with an `Outcome`: the state it leaves, its result,
and the events in the order in which they happened.
-/

set_option autoImplicit false

namespace Datapath

/-! ## Events -/

/-- How urgent an event is. -/
inductive Level
  | trace | debug | warn
  deriving DecidableEq, Repr

/-- The word for a level. -/
def Level.name : Level → String
  | trace => "TRACE"
  | debug => "DEBUG"
  | warn => "WARN"

/-- Something that the core reports. -/
inductive Event
  /-- A raw byte was refused as a selector of the status word. -/
  | refused (fault : SelectorFault)
  /-- An operation is about to run on two general registers that hold these values. -/
  | dispatched (op : AluOp) (target source : Register) (targetValue sourceValue : Cell)
  /-- A division was refused because its divisor is zero. -/
  | zeroDivisor (dividend : Cell)
  /-- A push of this many bytes was refused at this pointer. -/
  | overflow (pointer : Int) (bytes : Nat)
  /-- A pop of this many bytes was refused at this pointer. -/
  | underflow (pointer : Int) (bytes : Nat)
  deriving DecidableEq, Repr

namespace Event

/-- A refused selector warns, a refused operation informs, and a dispatch is for tracing only. -/
def level : Event → Level
  | refused _ => .warn
  | dispatched _ _ _ _ _ => .trace
  | zeroDivisor _ | overflow _ _ | underflow _ _ => .debug

/-- The event in words. -/
def message : Event → String
  | refused fault => "status word: " ++ fault.message
  | dispatched op target source targetValue sourceValue =>
    Named.name op ++ " " ++ Named.name target ++ "=" ++ Cell.text targetValue ++
      " " ++ Named.name source ++ "=" ++ Cell.text sourceValue
  | zeroDivisor dividend => "divide 0x" ++ Cell.text dividend ++ " by zero"
  | overflow pointer bytes =>
    "stack overflow at " ++ Numeral.signed pointer ++ ": push of " ++
      Numeral.decimal bytes ++ " bytes"
  | underflow pointer bytes =>
    "stack underflow at " ++ Numeral.signed pointer ++ ": pop of " ++
      Numeral.decimal bytes ++ " bytes"

end Event

/-! ## Outcomes -/

/-- What an operation leaves behind: the new state, a value or a fault, and the events it raised. -/
structure Outcome (σ ε α : Type) where
  state : σ
  result : Except ε α
  events : List Event

namespace Outcome

variable {σ τ ε δ α β : Type}

/-- Success, unobserved. -/
def done (state : σ) (value : α) : Outcome σ ε α :=
  ⟨state, .ok value, []⟩

/-- Failure, reported by one event. -/
def refuse (state : σ) (fault : ε) (event : Event) : Outcome σ ε α :=
  ⟨state, .error fault, [event]⟩

/-- The same outcome seen from a larger state that holds the smaller one. -/
def within (put : σ → τ) (o : Outcome σ ε α) : Outcome τ ε α :=
  ⟨put o.state, o.result, o.events⟩

/-- The same outcome after events that were raised before it. -/
def after (earlier : List Event) (o : Outcome σ ε α) : Outcome σ ε α :=
  { o with events := earlier ++ o.events }

end Outcome

end Datapath
