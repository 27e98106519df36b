/-!
# Codes and names

Two ways in which a value of a small type is written down. A `Coded` type fills a bit field of a
fixed size: every pattern of the field is the code of exactly one value, so a field can be read
whatever it holds. A `Named` type is a closed list of words, and a word finds its value again.

Both classes carry their laws. Every later statement that a field or a text can be read back rests
on `decode_code` or on `ofName?_name`.
-/

set_option autoImplicit false

namespace Datapath

/-- Eight bits. -/
abbrev Byte := BitVec 8

/-! ## Codes -/

/-- A type whose values are exactly the patterns of a bit field. -/
class Coded (α : Type) where
  /-- Number of bits of the field. -/
  size : Nat
  /-- The pattern that stands for a value. -/
  code : α → BitVec size
  /-- The value that a pattern stands for. -/
  decode : BitVec size → α
  /-- A value is read back from its own pattern. -/
  decode_code : ∀ a, decode (code a) = a
  /-- A pattern is the code of the value it stands for. -/
  code_decode : ∀ c, code (decode c) = c

/-- The greatest number that names a value of a coded type. -/
def Coded.greatest (α : Type) [Coded α] : Nat :=
  (BitVec.allOnes (Coded.size α)).toNat

/-- A truth value takes one bit, set when it is true. -/
instance : Coded Bool where
  size := 1
  code := BitVec.ofBool
  decode c := c == 1#1
  decode_code := by decide
  code_decode := by decide

/-- A pattern is its own code. -/
instance (n : Nat) : Coded (BitVec n) where
  size := n
  code := id
  decode := id
  decode_code _ := rfl
  code_decode _ := rfl

/-! ## Names -/

/-- A type whose values are listed, each under a word of its own. -/
class Named (α : Type) where
  /-- Every value, in order. -/
  all : List α
  /-- The word for a value. -/
  name : α → String
  /-- No value is left out of the list. -/
  mem_all : ∀ a, a ∈ all
  /-- Two values never share a word. -/
  name_injective : ∀ a b, name a = name b → a = b

/-- The value that goes by a word, if there is one. -/
def Named.ofName? {α : Type} [Named α] (word : String) : Option α :=
  Named.all.find? (Named.name · == word)

/-- A value is found under its own word. -/
theorem Named.ofName?_name {α : Type} [Named α] (a : α) :
    Named.ofName? (Named.name a) = some a := by
  have hfound : (Named.all.find? (Named.name · == Named.name a) : Option α).isSome := by
    rw [List.find?_isSome]
    exact ⟨a, Named.mem_all a, by simp⟩
  obtain ⟨b, hb⟩ := Option.isSome_iff_exists.mp hfound
  have hname : Named.name b = Named.name a := by simpa using List.find?_some hb
  rw [Named.ofName?, hb, Named.name_injective b a hname]

end Datapath
