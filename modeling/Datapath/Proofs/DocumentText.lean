import Datapath.Json.Document
import Datapath.Proofs.JsonScan

/-!
# The texts of a document are texts of its value

A document is written in one line without blanks or laid out over lines, and both are JSON texts of
the value that it spells (`isText_compact`, `isText_pretty`). So either is read back as that value,
and which of the two it was makes no difference. The texts are put together by their marks, and the
proofs follow the shape of the document, as its tokens do. Words and keys stand in quotes as they are,
and are read back as long as they hold nothing that a string would have to escape (`Plain`).
-/

set_option autoImplicit false

namespace Datapath.Document

open Json (StandsForItself Layout IsText Writes Token itemTokens memberTokens)

/-! ## Words -/

/-- A word that stands between quotes as it is. -/
def IsPlainWord (s : String) : Prop :=
  ∀ c ∈ s.toList, StandsForItself c

theorem writes_quoted {s : String} (h : IsPlainWord s) :
    Writes (.string (some s)) (quoted s).toList := by
  have hpieces : List.Forall₂ Json.Symbol.Writes (s.toList.map .char)
      (s.toList.map fun c => [c]) := by
    rw [List.forall₂_map_left_iff, List.forall₂_map_right_iff, List.forall₂_same]
    exact fun c hc => .plain (h c hc)
  have hflatten : (s.toList.map fun c => [c]).flatten = s.toList := by
    rw [← List.flatMap_def]
    exact List.flatMap_singleton' _
  have htext : (quoted s).toList = '"' :: ((s.toList.map fun c => [c]).flatten ++ ['"']) := by
    rw [hflatten]
    simp [quoted]
  rw [htext]
  exact Json.writes_string hpieces

theorem writes_truthText (b : Bool) : Writes (.truth b) (truthText b).toList := by
  cases b with
  | true => exact .word (by decide)
  | false => exact .word (by decide)

/-! ## Plain documents -/

mutual

/-- Every word and every key of the document stands between quotes as it is. -/
def Plain : Document → Prop
  | natural _ | truth _ => True
  | word s => IsPlainWord s
  | list items => PlainItems items
  | record fields => PlainFields fields

/-- So it is with every item. -/
def PlainItems : List Document → Prop
  | [] => True
  | item :: rest => item.Plain ∧ PlainItems rest

/-- So it is with every field. -/
def PlainFields : List (String × Document) → Prop
  | [] => True
  | (key, value) :: rest => IsPlainWord key ∧ value.Plain ∧ PlainFields rest

end

theorem plainItems_iff {items : List Document} :
    PlainItems items ↔ ∀ item ∈ items, item.Plain := by
  induction items with
  | nil => simp [PlainItems]
  | cons item rest ih => rw [PlainItems, ih, List.forall_mem_cons]

theorem plainFields_iff {fields : List (String × Document)} :
    PlainFields fields ↔ ∀ field ∈ fields, IsPlainWord field.1 ∧ field.2.Plain := by
  induction fields with
  | nil => simp [PlainFields]
  | cons field rest ih => rw [PlainFields, ih, List.forall_mem_cons, and_assoc]

/-! ## The text without blanks -/

theorem layout_field {key : String} {cs : List Char} {ts : List Token} (hkey : IsPlainWord key)
    (hvalue : Layout ts cs) :
    Layout (.string (some key) :: .colon :: ts) ((quoted key).toList ++ ':' :: cs) :=
  .token_append (writes_quoted hkey) (.mark_cons (by decide) hvalue)

mutual

theorem layout_compact (d : Document) (h : d.Plain) : Layout d.toJson.tokens d.compact.toList := by
  cases d with
  | natural n => exact .singleton (Json.writes_decimal n)
  | truth b => exact .singleton (writes_truthText b)
  | word s => exact .singleton (writes_quoted h)
  | list items => simpa [compact, toJson, Json.tokens] using (layout_compactItems items h).array
  | record fields =>
    simpa [compact, toJson, Json.tokens] using (layout_compactFields fields h).object

theorem layout_compactItems (items : List Document) (h : PlainItems items) :
    Layout (itemTokens (itemsToJson items)) (compactItems items).toList := by
  match items with
  | [] => exact .nil
  | [item] => exact layout_compact item h.1
  | item :: next :: more =>
    have hmore := layout_compactItems (next :: more) h.2
    have hitems := (layout_compact item h.1).append hmore.comma_cons
    simpa [compactItems, itemsToJson, itemTokens] using hitems

theorem layout_compactFields (fields : List (String × Document)) (h : PlainFields fields) :
    Layout (memberTokens (fieldsToJson fields)) (compactFields fields).toList := by
  match fields with
  | [] => exact .nil
  | [(key, value)] =>
    have hfield := layout_field h.1 (layout_compact value h.2.1)
    rw [compactFields, String.toList_append, String.toList_append, List.append_assoc]
    exact hfield
  | (key, value) :: next :: more =>
    have hmore := layout_compactFields (next :: more) h.2.2
    have hfield := layout_field h.1 ((layout_compact value h.2.1).append hmore.comma_cons)
    simpa [compactFields, fieldsToJson, memberTokens] using hfield

end

/-- **The text without blanks** is a text of the value. -/
theorem isText_compact {d : Document} (h : d.Plain) : IsText d.toJson d.compact :=
  layout_compact d h

theorem read?_compact {d : Document} (h : d.Plain) : Json.read? d.compact = some d.toJson :=
  Json.read?_of_isText (isText_compact h)

/-! ## The text over lines -/

theorem isBlank_newLine (level : Nat) : Json.IsBlank (newLine level).toList := by
  intro c hc
  rw [newLine, String.toList_append] at hc
  rcases List.mem_append.mp hc with hbreak | hspace
  · exact (show Json.IsBlank "\n".toList by decide) c hbreak
  · rw [String.toList_ofList] at hspace
    obtain rfl := List.eq_of_mem_replicate hspace
    decide

/-- Each item after the first has its comma before it. -/
theorem itemTokens_cons (item : Json) (rest : List Json) :
    itemTokens (item :: rest) = item.tokens ++ rest.flatMap fun v => .comma :: v.tokens := by
  induction rest generalizing item with
  | nil => rw [itemTokens, List.flatMap_nil, List.append_nil]
  | cons next more ih =>
    rw [itemTokens, ih next, List.flatMap_cons, List.cons_append]
    exact List.cons_ne_nil next more

theorem memberTokens_cons (member : Option String × Json) (rest : List (Option String × Json)) :
    memberTokens (member :: rest) = .string member.1 :: .colon ::
      (member.2.tokens ++ rest.flatMap fun m => .comma :: .string m.1 :: .colon :: m.2.tokens) := by
  induction rest generalizing member with
  | nil => rw [memberTokens, List.flatMap_nil, List.append_nil]
  | cons next more ih =>
    rw [memberTokens, ih next, List.flatMap_cons, List.cons_append, List.cons_append,
      List.cons_append]
    exact List.cons_ne_nil next more

mutual

theorem layout_layOut (d : Document) (level : Nat) (h : d.Plain) :
    Layout d.toJson.tokens (d.layOut level).toList := by
  match d with
  | natural n => exact .singleton (Json.writes_decimal n)
  | truth b => exact .singleton (writes_truthText b)
  | word s => exact .singleton (writes_quoted h)
  | list [] => simpa [layOut, toJson, itemsToJson, Json.tokens, itemTokens] using Layout.nil.array
  | record [] =>
    simpa [layOut, toJson, fieldsToJson, Json.tokens, memberTokens] using Layout.nil.object
  | list (item :: rest) =>
    have hrest := (layout_layOutItems rest (level + 1) h.2).append_blanks (isBlank_newLine level)
    have hitems := (layout_layOut item (level + 1) h.1).append hrest
    have hlist := (hitems.blanks_append (isBlank_newLine (level + 1))).array
    simpa [layOut, toJson, itemsToJson, Json.tokens, itemTokens_cons] using hlist
  | record ((key, value) :: rest) =>
    have hrest := (layout_layOutFields rest (level + 1) h.2.2).append_blanks (isBlank_newLine level)
    have hvalue := (layout_layOut value (level + 1) h.2.1).append hrest
    have hfields := layout_field h.1 (hvalue.blanks_append (show Json.IsBlank [' '] by decide))
    have hrecord := (hfields.blanks_append (isBlank_newLine (level + 1))).object
    simpa [layOut, toJson, fieldsToJson, Json.tokens, memberTokens_cons] using hrecord

theorem layout_layOutItems (items : List Document) (level : Nat) (h : PlainItems items) :
    Layout ((itemsToJson items).flatMap fun v => .comma :: v.tokens)
      (layOutItems level items).toList := by
  match items with
  | [] => exact .nil
  | item :: rest =>
    have hitems := (layout_layOut item level h.1).append (layout_layOutItems rest level h.2)
    simpa [layOutItems, itemsToJson] using (hitems.blanks_append (isBlank_newLine level)).comma_cons

theorem layout_layOutFields (fields : List (String × Document)) (level : Nat)
    (h : PlainFields fields) :
    Layout ((fieldsToJson fields).flatMap fun m => .comma :: .string m.1 :: .colon :: m.2.tokens)
      (layOutFields level fields).toList := by
  match fields with
  | [] => exact .nil
  | (key, value) :: rest =>
    have hvalue := (layout_layOut value level h.2.1).append (layout_layOutFields rest level h.2.2)
    have hfield := layout_field h.1 (hvalue.blanks_append (show Json.IsBlank [' '] by decide))
    simpa [layOutFields, fieldsToJson] using (hfield.blanks_append (isBlank_newLine level)).comma_cons

end

/-- **The text over lines** is a text of the same value. -/
theorem isText_pretty {d : Document} (h : d.Plain) : IsText d.toJson d.pretty :=
  layout_layOut d 0 h

end Datapath.Document
