import Datapath.Json.Value

/-!
# Tokens of a JSON value

A value determines its tokens: an array is its items with commas between them in brackets, an object
its members likewise. The reader takes one token at a time and keeps the arrays and objects that are
open on a stack of its own, so that what it makes of the tokens of a value has to be said of any
frames around the value and of any tokens after it. `run_tokens` says it: from a place where a value
may start the reader comes to the place after that value, and the frames are what they were. The
induction follows the value, with one statement for a value, one for the items of an array and one
for the members of an object.
-/

set_option autoImplicit false

namespace Datapath.Json

/-! ## Tokens -/

mutual

/-- The tokens of a value. -/
def tokens : Json → List Token
  | null => [.null]
  | truth b => [.truth b]
  | natural n => [.natural n]
  | real => [.real]
  | string content => [.string content]
  | array items => .openArray :: (itemTokens items ++ [.closeArray])
  | object members => .openObject :: (memberTokens members ++ [.closeObject])

/-- The tokens of values with commas between them. -/
def itemTokens : List Json → List Token
  | [] => []
  | [item] => item.tokens
  | item :: rest => item.tokens ++ .comma :: itemTokens rest

/-- The tokens of members with commas between them. -/
def memberTokens : List (Option String × Json) → List Token
  | [] => []
  | [(key, value)] => .string key :: .colon :: value.tokens
  | (key, value) :: rest => .string key :: .colon :: (value.tokens ++ .comma :: memberTokens rest)

end

/-! ## Reading -/

namespace Reader

/-- Nothing begins with the end of an array. -/
theorem itemTokens_eq_cons {items : List Json} (h : items ≠ []) :
    ∃ t more, itemTokens items = t :: more ∧ t ≠ .closeArray := by
  match items with
  | [] => exact absurd rfl h
  | [item] => cases item <;> exact ⟨_, _, rfl, by simp⟩
  | item :: next :: more => cases item <;> exact ⟨_, _, rfl, by simp⟩

/-- Where an array may end its first item may start as well. -/
theorem run_first {items : List Json} (h : items ≠ []) (outer : List Frame) (rest : List Token) :
    run ⟨.items [] :: outer, .itemOrEnd⟩ (itemTokens items ++ rest) =
      run ⟨.items [] :: outer, .value⟩ (itemTokens items ++ rest) := by
  obtain ⟨t, more, htokens, hne⟩ := itemTokens_eq_cons h
  have hstep : step ⟨.items [] :: outer, .itemOrEnd⟩ t = step ⟨.items [] :: outer, .value⟩ t := by
    cases t <;> first | rfl | exact absurd rfl hne
  rw [htokens, List.cons_append, run, run, hstep]

/-- Where an object may end its first key may stand as well. -/
theorem run_firstKey {members : List (Option String × Json)} (h : members ≠ [])
    (outer : List Frame) (rest : List Token) :
    run ⟨.members [] :: outer, .keyOrEnd⟩ (memberTokens members ++ rest) =
      run ⟨.members [] :: outer, .key⟩ (memberTokens members ++ rest) := by
  match members with
  | [] => exact absurd rfl h
  | [_] => rfl
  | _ :: _ :: _ => rfl

mutual

/-- **Reading a value.** The reader takes the tokens of a value where one may start, and comes to
the place after it. -/
theorem run_tokens (v : Json) (frames : List Frame) (rest : List Token) :
    run ⟨frames, .value⟩ (v.tokens ++ rest) = run ⟨frames, .after v⟩ rest := by
  cases v with
  | array items =>
    by_cases hitems : items = []
    · rw [hitems]
      rfl
    · rw [tokens, List.cons_append, List.append_assoc]
      exact (run_first hitems frames (.closeArray :: rest)).trans
        (run_itemTokens items hitems [] frames rest)
  | object members =>
    by_cases hmembers : members = []
    · rw [hmembers]
      rfl
    · rw [tokens, List.cons_append, List.append_assoc]
      exact (run_firstKey hmembers frames (.closeObject :: rest)).trans
        (run_memberTokens members hmembers [] frames rest)
  | _ => rfl

theorem run_itemTokens (items : List Json) (hitems : items ≠ []) (done : List Json)
    (outer : List Frame) (rest : List Token) :
    run ⟨.items done :: outer, .value⟩ (itemTokens items ++ .closeArray :: rest) =
      run ⟨outer, .after (.array (done.reverse ++ items))⟩ rest := by
  match items with
  | [] => exact absurd rfl hitems
  | [item] =>
    have hitem := run_tokens item (.items done :: outer) (.closeArray :: rest)
    rw [itemTokens, hitem, ← List.reverse_cons]
    rfl
  | item :: next :: more =>
    have hitem := run_tokens item (.items done :: outer)
      (.comma :: (itemTokens (next :: more) ++ .closeArray :: rest))
    have hmore := run_itemTokens (next :: more) (List.cons_ne_nil next more) (item :: done) outer rest
    rw [List.reverse_cons, List.append_assoc, List.singleton_append] at hmore
    rw [itemTokens, List.append_assoc, List.cons_append, hitem, ← hmore]
    · rfl
    · exact fun h => nomatch h

theorem run_memberTokens (members : List (Option String × Json)) (hmembers : members ≠ [])
    (done : List (Option String × Json)) (outer : List Frame) (rest : List Token) :
    run ⟨.members done :: outer, .key⟩ (memberTokens members ++ .closeObject :: rest) =
      run ⟨outer, .after (.object (done.reverse ++ members))⟩ rest := by
  match members with
  | [] => exact absurd rfl hmembers
  | [(key, value)] =>
    have hvalue := run_tokens value (.member done key :: outer) (.closeObject :: rest)
    rw [memberTokens, ← List.reverse_cons]
    exact hvalue
  | (key, value) :: next :: more =>
    have hvalue := run_tokens value (.member done key :: outer)
      (.comma :: (memberTokens (next :: more) ++ .closeObject :: rest))
    have hmore := run_memberTokens (next :: more) (List.cons_ne_nil next more)
      ((key, value) :: done) outer rest
    rw [List.reverse_cons, List.append_assoc, List.singleton_append] at hmore
    rw [memberTokens, List.cons_append, List.cons_append, List.append_assoc, List.cons_append,
      ← hmore]
    · exact hvalue
    · exact fun h => nomatch h

end

end Reader

/-- A value is read back from its tokens. -/
theorem ofTokens?_tokens (v : Json) : ofTokens? v.tokens = some v := by
  have hrun := Reader.run_tokens v [] []
  rw [List.append_nil] at hrun
  rw [ofTokens?, Reader.start, hrun]
  rfl

end Datapath.Json
