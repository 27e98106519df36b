import Mathlib.Data.List.Forall2

/-!
# Lists and results

Facts about lists and results that have nothing of the machine in them, for the modules that read
texts. A list is read element by element (`mapM_eq_some_iff`), a list of partners is made of single
ones (`exists_forall₂`), and a text is cut into its fields: after elements of one kind where that kind
ends (`append_inj_of_boundary`), and between fields at the separator (`intercalate_inj`).
-/

set_option autoImplicit false

namespace Datapath

variable {α β ε : Type}

/-! ## Results -/

theorem map_eq_ok_iff {f : α → β} {x : Except ε α} {b : β} :
    x.map f = .ok b ↔ ∃ a, x = .ok a ∧ f a = b := by
  cases x with
  | error e => exact ⟨fun h => (nomatch h), fun ⟨_, h, _⟩ => (nomatch h)⟩
  | ok a =>
    constructor
    · exact fun h => ⟨a, rfl, Except.ok.inj h⟩
    · rintro ⟨a', ha, rfl⟩
      rw [Except.ok.inj ha]
      rfl

theorem mapM_eq_some_iff {f : α → Option β} {as : List α} {bs : List β} :
    as.mapM f = some bs ↔ List.Forall₂ (fun a b => f a = some b) as bs := by
  induction as generalizing bs with
  | nil =>
    rw [List.mapM_nil, List.forall₂_nil_left_iff]
    exact ⟨fun h => (Option.some.inj h).symm, fun h => congrArg some h.symm⟩
  | cons a as ih =>
    rw [List.mapM_cons, List.forall₂_cons_left_iff]
    constructor
    · intro h
      obtain ⟨b, hb, h⟩ := Option.bind_eq_some_iff.mp h
      obtain ⟨rest, hrest, h⟩ := Option.bind_eq_some_iff.mp h
      exact ⟨b, rest, hb, ih.mp hrest, (Option.some.inj h).symm⟩
    · rintro ⟨b, rest, hb, hrest, rfl⟩
      rw [hb, ih.mpr hrest]
      rfl

/-! ## Partners -/

/-- Where each of a list has a partner, the partners can be listed. -/
theorem exists_forall₂ {R : α → β → Prop} {as : List α} (h : ∀ a ∈ as, ∃ b, R a b) :
    ∃ bs, List.Forall₂ R as bs := by
  induction as with
  | nil => exact ⟨[], .nil⟩
  | cons a as ih =>
    rw [List.forall_mem_cons] at h
    obtain ⟨b, hb⟩ := h.1
    obtain ⟨bs, hbs⟩ := ih h.2
    exact ⟨b :: bs, .cons hb hbs⟩

/-- One list of partners serves two relations at every place. -/
theorem exists_of_forall₂ {R S : α → β → Prop} {as : List α} {bs : List β}
    (hR : List.Forall₂ R as bs) (hS : List.Forall₂ S as bs) {a : α} (ha : a ∈ as) :
    ∃ b ∈ bs, R a b ∧ S a b := by
  induction hR with
  | nil => exact absurd ha List.not_mem_nil
  | cons hab _ ih =>
    obtain ⟨hab', hrest⟩ := List.forall₂_cons.mp hS
    rcases List.mem_cons.mp ha with rfl | hlater
    · exact ⟨_, List.mem_cons_self, hab, hab'⟩
    · obtain ⟨b, hb, hboth⟩ := ih hrest hlater
      exact ⟨b, List.mem_cons_of_mem _ hb, hboth⟩

/-! ## Fields of a text -/

/-- Elements of one kind end where the first of another kind stands. -/
theorem takeWhile_append_of_boundary {p : α → Bool} {xs rest : List α} (hxs : ∀ x ∈ xs, p x = true)
    (hrest : ∀ x ∈ rest.head?, p x = false) : (xs ++ rest).takeWhile p = xs := by
  have hnone : rest.takeWhile p = [] := by
    cases rest with
    | nil => rfl
    | cons x rest => rw [List.takeWhile_cons, hrest x rfl, if_neg Bool.false_ne_true]
  rw [List.takeWhile_append_of_pos hxs, hnone, List.append_nil]

/-- Where a field ends can be told from the text, if its elements are of a kind of their own. -/
theorem append_inj_of_boundary {p : α → Bool} {xs ys rest rest' : List α}
    (hxs : ∀ x ∈ xs, p x = true) (hys : ∀ y ∈ ys, p y = true)
    (hrest : ∀ x ∈ rest.head?, p x = false) (hrest' : ∀ x ∈ rest'.head?, p x = false)
    (h : xs ++ rest = ys ++ rest') : xs = ys ∧ rest = rest' := by
  have hfield : xs = ys := by
    rw [← takeWhile_append_of_boundary hxs hrest, h, takeWhile_append_of_boundary hys hrest']
  exact ⟨hfield, List.append_cancel_left (hfield ▸ h)⟩

/-- A text is cut into its fields again where they were joined. The empty text has one empty piece, and
no field is empty. -/
theorem filter_splitOn_intercalate [DecidableEq α] {separator : α} {fields : List (List α)}
    (h : ∀ field ∈ fields, field ≠ [] ∧ separator ∉ field) :
    (([separator].intercalate fields).splitOn separator).filter (!·.isEmpty) = fields := by
  by_cases hnone : fields = []
  · rw [hnone]
    rfl
  · rw [List.splitOn_intercalate separator (fun field hfield => (h field hfield).2) hnone,
      List.filter_eq_self]
    intro field hfield
    rw [Bool.not_eq_true', List.isEmpty_eq_false_iff]
    exact (h field hfield).1

/-- Fields that are not empty and have no separator in them can be told from the text. -/
theorem intercalate_inj [DecidableEq α] {separator : α} {fields fields' : List (List α)}
    (h : ∀ field ∈ fields, field ≠ [] ∧ separator ∉ field)
    (h' : ∀ field ∈ fields', field ≠ [] ∧ separator ∉ field)
    (heq : [separator].intercalate fields = [separator].intercalate fields') : fields = fields' := by
  rw [← filter_splitOn_intercalate h, heq, filter_splitOn_intercalate h']

end Datapath
