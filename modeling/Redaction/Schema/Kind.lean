/-!
# Kinds of field values

The value kinds of a schema and how many values a field holds, with what each kind is in generated
Go code: its type, and the literal that replaces a value when nothing else is said.
-/

namespace Redaction

/-- The kind of one value of a field. -/
inductive Kind where
  | double
  | float
  | int64
  | uint64
  | int32
  | fixed64
  | fixed32
  | bool
  | string
  | bytes
  | uint32
  | sfixed32
  | sfixed64
  | sint32
  | sint64
  | enum
  | message
deriving DecidableEq

namespace Kind

/-- Every kind, in the order of the schema language. -/
def all : List Kind :=
  [double, float, int64, uint64, int32, fixed64, fixed32, bool, string, bytes, uint32, sfixed32,
    sfixed64, sint32, sint64, enum, message]

/-- The keyword of the kind in a schema and in a rule. -/
def name : Kind → String
  | double => "double"
  | float => "float"
  | int64 => "int64"
  | uint64 => "uint64"
  | int32 => "int32"
  | fixed64 => "fixed64"
  | fixed32 => "fixed32"
  | bool => "bool"
  | string => "string"
  | bytes => "bytes"
  | uint32 => "uint32"
  | sfixed32 => "sfixed32"
  | sfixed64 => "sfixed64"
  | sint32 => "sint32"
  | sint64 => "sint64"
  | enum => "enum"
  | message => "message"

/-- The kind with a keyword. -/
def ofName? (s : String) : Option Kind := all.find? fun k => k.name == s

theorem mem_all (k : Kind) : k ∈ all := by cases k <;> decide

theorem ofName?_name (k : Kind) : ofName? k.name = some k := by cases k <;> decide

/-- Whether values of the kind are numbers; an enum value counts as its number. -/
def isNumber : Kind → Bool
  | bool | string | bytes | message => false
  | _ => true

/-- The least and the greatest value of a kind whose values are integers. -/
def range? : Kind → Option (Int × Int)
  | int32 | sint32 | sfixed32 | enum => some (-2147483648, 2147483647)
  | int64 | sint64 | sfixed64 => some (-9223372036854775808, 9223372036854775807)
  | uint32 | fixed32 => some (0, 4294967295)
  | uint64 | fixed64 => some (0, 18446744073709551615)
  | _ => none

example : int32.range? = some (-2 ^ 31, 2 ^ 31 - 1) ∧ int64.range? = some (-2 ^ 63, 2 ^ 63 - 1) := by
  decide

example : uint32.range? = some (0, 2 ^ 32 - 1) ∧ uint64.range? = some (0, 2 ^ 64 - 1) := by decide

/-- Whether an integer is a value of the kind. -/
def Holds (k : Kind) (v : Int) : Prop := ∃ r ∈ k.range?, r.1 ≤ v ∧ v ≤ r.2

instance (k : Kind) (v : Int) : Decidable (k.Holds v) :=
  match h : k.range? with
  | none => isFalse fun ⟨_, hr, _⟩ => by simp [h] at hr
  | some r =>
    if hv : r.1 ≤ v ∧ v ≤ r.2 then isTrue ⟨r, h, hv⟩
    else isFalse fun ⟨s, hs, hsv⟩ => hv (by rw [h] at hs; cases hs; exact hsv)

/-- The Go type of a value, for the kinds whose type the schema does not name. -/
def goType? : Kind → Option String
  | int32 | sint32 | sfixed32 => some "int32"
  | int64 | sint64 | sfixed64 => some "int64"
  | uint32 | fixed32 => some "uint32"
  | uint64 | fixed64 => some "uint64"
  | float => some "float32"
  | double => some "float64"
  | bool => some "bool"
  | string => some "string"
  | bytes => some "[]byte"
  | enum | message => none

/-- The Go type of a map key. Floating-point numbers, bytes, enum values and messages are no keys. -/
def keyType? : Kind → Option String
  | float | double | bytes => none
  | k => k.goType?

/-- Whether a field of the kind must name its type. -/
def namesType : Kind → Bool
  | enum | message => true
  | _ => false

end Kind

/-- The literal that takes the place of a text. -/
def redactedText : String := "\"REDACTED\""

/-- The literal of an absent reference, slice or map. -/
def nilLiteral : String := "nil"

/-- The literal that takes the place of one value of a kind; a message has none. -/
def Kind.blank? : Kind → Option String
  | .bool => some "false"
  | .string => some redactedText
  | .bytes => some nilLiteral
  | .message => none
  | _ => some "0"

/-- The text that stands for the missing literal of a message. -/
def noBlank : String := "-"

/-- The text of the literal that takes the place of a value of a kind, or of a whole collection. -/
def Kind.blankText (k : Kind) (holdsMany : Bool) : String :=
  if holdsMany then nilLiteral else k.blank?.getD noBlank

/-- How many values a field holds. For a collection, the field's kind is that of its elements. -/
inductive Multiplicity where
  | singular
  | repeated
  | map (key : Kind)
deriving DecidableEq

namespace Multiplicity

/-- Whether the field holds a list or a map. -/
def holdsMany : Multiplicity → Bool
  | singular => false
  | _ => true

theorem holdsMany_eq_false_iff (m : Multiplicity) : m.holdsMany = false ↔ m = singular := by
  cases m <;> simp [holdsMany]

/-- Whether the field holds a map. -/
def isMap : Multiplicity → Bool
  | map _ => true
  | _ => false

/-- The word for the multiplicity in a message. -/
def name : Multiplicity → String
  | singular => "singular"
  | repeated => "repeated"
  | map _ => "map"

end Multiplicity
end Redaction
