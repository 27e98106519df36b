import Datapath.Session.Turn

/-!
# Runs of steps

The inductions over a session, stated once. What every step keeps, the whole run keeps. Two
machines that take the same steps to the same answers are seen to do the same for the whole run. And
a session can be cut in two anywhere.
-/

set_option autoImplicit false

namespace Datapath.Session

variable {κ σ τ ρ β : Type} {act : κ → σ → Turn σ ρ} {observe : Turn σ ρ → β}

@[simp] theorem run_nil (s : σ) : run act observe [] s = ⟨[], [], s⟩ := rfl

@[simp] theorem run_cons (step : κ) (rest : List κ) (s : σ) :
    run act observe (step :: rest) s =
      ⟨observe (act step s) :: (run act observe rest (act step s).state).seen,
        (act step s).events ++ (run act observe rest (act step s).state).events,
        (run act observe rest (act step s).state).last⟩ := rfl

theorem seen_append (steps later : List κ) (s : σ) :
    (run act observe (steps ++ later) s).seen =
      (run act observe steps s).seen
        ++ (run act observe later (run act observe steps s).last).seen := by
  induction steps generalizing s with
  | nil => rfl
  | cons step rest ih => simp only [List.cons_append, run_cons, ih]

theorem last_append (steps later : List κ) (s : σ) :
    (run act observe (steps ++ later) s).last =
      (run act observe later (run act observe steps s).last).last := by
  induction steps generalizing s with
  | nil => rfl
  | cons step rest ih => simp only [List.cons_append, run_cons, ih]

theorem run_map {ι : Type} (step : ι → κ) (steps : List ι) (s : σ) :
    run act observe (steps.map step) s = run (fun i => act (step i)) observe steps s := by
  induction steps generalizing s with
  | nil => rfl
  | cons first rest ih => simp only [List.map_cons, run_cons, ih]

/-- **Invariants.** What every step keeps holds at the end of a run. -/
theorem last_of_invariant {P : σ → Prop} {steps : List κ} {s : σ}
    (hstep : ∀ step ∈ steps, ∀ s, P s → P (act step s).state) (hs : P s) :
    P (run act observe steps s).last := by
  induction steps generalizing s with
  | nil => exact hs
  | cons step rest ih =>
    refine ih (fun later hlater => hstep later (List.mem_cons_of_mem step hlater)) ?_
    exact hstep step List.mem_cons_self s hs

/-- **Invariants along a run.** An invariant that steps keep at the states where the run takes them
holds after every step of the run. -/
theorem last_of_invariant_along {P : σ → Prop} {steps : List κ} {s : σ}
    (hstep : ∀ n (h : n < steps.length), P (run act observe (steps.take n) s).last →
      P (act steps[n] (run act observe (steps.take n) s).last).state)
    (hs : P s) (n : Nat) : P (run act observe (steps.take n) s).last := by
  induction n with
  | zero => exact hs
  | succ n ih =>
    by_cases h : n < steps.length
    · rw [List.take_succ_eq_append_getElem h, last_append]
      exact hstep n h ih
    · -- The run is over.
      have hall : steps.length ≤ n := Nat.le_of_not_lt h
      rw [List.take_of_length_le hall] at ih
      rw [List.take_of_length_le (Nat.le_succ_of_le hall)]
      exact ih

/-- **Simulation.** Two machines whose states are kept in step by every step, and which are seen to
answer alike and raise the same events, are seen to do the same in every run. -/
theorem run_of_simulation {ψ : Type} {act' : κ → τ → Turn τ ψ} {observe' : Turn τ ψ → β}
    {R : σ → τ → Prop}
    (hstep : ∀ step s t, R s t → R (act step s).state (act' step t).state ∧
      observe (act step s) = observe' (act' step t) ∧
        (act step s).events = (act' step t).events)
    (steps : List κ) {s : σ} {t : τ} (hs : R s t) :
    (run act observe steps s).seen = (run act' observe' steps t).seen ∧
      (run act observe steps s).events = (run act' observe' steps t).events ∧
        R (run act observe steps s).last (run act' observe' steps t).last := by
  induction steps generalizing s t with
  | nil => exact ⟨rfl, rfl, hs⟩
  | cons step rest ih =>
    obtain ⟨hstate, hseen, hevents⟩ := hstep step s t hs
    obtain ⟨hlater, hraised, hlast⟩ := ih hstate
    refine ⟨?_, ?_, hlast⟩
    · rw [run_cons, run_cons, hseen, hlater]
    · rw [run_cons, run_cons, hevents, hraised]

/-! ## Histories -/

/-- A step as the one who took it knows it. -/
structure Taken (κ σ ρ : Type) where
  step : κ
  before : σ
  reply : ρ
  after : σ

/-- The steps of a run with the states around them and the replies. -/
def history (act : κ → σ → Turn σ ρ) : List κ → σ → List (Taken κ σ ρ)
  | [], _ => []
  | step :: rest, s =>
    let turn := act step s
    ⟨step, s, turn.reply, turn.state⟩ :: history act rest turn.state

/-- What is in a history came about as the machine acts. -/
theorem eq_of_mem_history {steps : List κ} {s : σ} {taken : Taken κ σ ρ}
    (h : taken ∈ history act steps s) :
    taken.reply = (act taken.step taken.before).reply ∧
      taken.after = (act taken.step taken.before).state := by
  induction steps generalizing s with
  | nil => exact absurd h List.not_mem_nil
  | cons step rest ih =>
    rcases List.mem_cons.mp h with rfl | hlater
    · exact ⟨rfl, rfl⟩
    · exact ih hlater

/-- An observer of replies and states sees no more than the history tells. -/
theorem seen_eq_map_history (view : ρ → σ → β) (steps : List κ) (s : σ) :
    (run act (fun turn => view turn.reply turn.state) steps s).seen =
      (history act steps s).map fun taken => view taken.reply taken.after := by
  induction steps generalizing s with
  | nil => rfl
  | cons step rest ih => rw [run_cons, history, List.map_cons, ih]

/-- **Logs.** Where the events of every step can be told from the step, the state before it and the
reply, those of a run can be told from its history. -/
theorem events_eq_flatMap_history {γ : Type} {record : Event → γ}
    {records : Taken κ σ ρ → List γ}
    (hstep : ∀ step s, (act step s).events.map record =
      records ⟨step, s, (act step s).reply, (act step s).state⟩)
    (steps : List κ) (s : σ) :
    (run act observe steps s).events.map record = (history act steps s).flatMap records := by
  induction steps generalizing s with
  | nil => rfl
  | cons step rest ih =>
    rw [run_cons, history, List.flatMap_cons, List.map_append, hstep, ih]

end Datapath.Session
