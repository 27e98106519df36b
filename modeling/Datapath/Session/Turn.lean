import Datapath.Journal

/-!
# Turns

A session drives one part of the machine by steps, one after another. A step is data, so that a
statement can range over all sessions at once. What comes of it is a `Turn`: the state after it, a
reply, and the events it raised. Replies keep numbers with their width and faults as faults; how they
look on the wire is for the one who sends them. A whole session is what an observer saw of every turn,
the events of all of them in order, and the state at the end.
-/

set_option autoImplicit false

namespace Datapath

/-- What a step answers. -/
inductive Reply
  /-- The step was carried out and has nothing to say. -/
  | done
  | truth (b : Bool)
  /-- An unsigned number of a width. -/
  | unsigned (w : Width) (value : BitVec w.bits)
  /-- A signed number that was read at a width. -/
  | signed (w : Width) (value : Int)
  /-- A position in memory. -/
  | slot (i : Int)
  | text (s : String)
  | fault (f : Fault)
  /-- A text that spells no state was refused. -/
  | unreadable
  deriving DecidableEq, Repr

/-- A named value answers with its name. -/
def Reply.named {α : Type} [Named α] (a : α) : Reply :=
  .text (Named.name a)

/-- What comes of one step. -/
structure Turn (σ ρ : Type) where
  state : σ
  reply : ρ
  events : List Event

namespace Turn

variable {σ τ ρ : Type}

/-- A step that leaves the state and answers a question about it. -/
def answer (state : σ) (reply : ρ) : Turn σ ρ :=
  ⟨state, reply, []⟩

/-- A step that changes the state and has nothing to say. -/
def change (state : σ) : Turn σ Reply :=
  ⟨state, .done, []⟩

/-- The turn of an operation: its value or its fault is the reply. -/
def ofOutcome {ε α : Type} (fault : ε → Fault) (value : α → Reply) (o : Outcome σ ε α) :
    Turn σ Reply :=
  let reply :=
    match o.result with
    | .ok a => value a
    | .error e => .fault (fault e)
  ⟨o.state, reply, o.events⟩

/-- The turn of an operation that has nothing to say when it succeeds. -/
def ofUnit {ε : Type} (fault : ε → Fault) (o : Outcome σ ε Unit) : Turn σ Reply :=
  ofOutcome fault (fun _ => .done) o

end Turn

/-! ## Runs -/

/-- A session that was run: what an observer saw after each step, every event, and the state that was
left. -/
structure Session (σ β : Type) where
  seen : List β
  events : List Event
  last : σ

/-- Runs steps, each from the state that the one before it left, under an observer who looks at every
turn. -/
def Session.run {κ σ ρ β : Type} (act : κ → σ → Turn σ ρ) (observe : Turn σ ρ → β) :
    List κ → σ → Session σ β
  | [], s => ⟨[], [], s⟩
  | step :: rest, s =>
    let turn := act step s
    let seen := observe turn
    let later := run act observe rest turn.state
    ⟨seen :: later.seen, turn.events ++ later.events, later.last⟩

end Datapath
