import Datapath.Session.Turn
import Datapath.Stack.Basic

/-!
# Sessions on a stack

Pushes and pops of every width in any mixture. An observer sees, beside the reply, how the stack
stands after each step.
-/

set_option autoImplicit false

namespace Datapath.Stack

/-- A step on a stack. -/
inductive Step
  | push (w : Width) (value : BitVec w.bits)
  | pop (w : Width)
  /-- Ask for the starting pointer. -/
  | top
  | trace

/-- Takes one step. -/
def act (step : Step) (s : Stack) : Turn Stack Reply :=
  match step with
  | .push w value => .ofUnit .stack (s.push w value)
  | .pop w => .ofOutcome .stack (.unsigned w) (s.pop w)
  | .top => .answer s (.slot s.top)
  | .trace => .answer s (.text s.trace)

/-- How a stack stands after a step. -/
structure Standing where
  pointer : Int
  depth : Nat
  available : Nat
  reply : Reply
  deriving DecidableEq, Repr

/-- What an observer sees of a turn. -/
def standing (t : Turn Stack Reply) : Standing :=
  ⟨t.state.pointer, t.state.depth, t.state.available, t.reply⟩

end Datapath.Stack
