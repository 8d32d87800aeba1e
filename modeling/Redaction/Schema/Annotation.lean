import Redaction.Binary
import Redaction.Schema.Kind

/-!
# Redaction options of a field

What a schema may attach to a field: the bare flag, and a structured rule. The payload of a rule
selects one branch, a value of some scalar kind, the flags of a message rule, or an element rule,
whose item is a payload again; or it selects none.

Nothing here is checked: a payload may set conflicting flags or nest too deep. Integers alone are in
the range of their kind from the start.
-/

namespace Redaction

/-- A value of a scalar kind. -/
inductive Scalar where
  | float (v : Binary .single)
  | double (v : Binary .double)
  | integer (kind : Kind) (v : Int) (holds : kind.Holds v)
  | bool (b : Bool)
  | string (s : String)
  | bytes (b : List UInt8)
deriving DecidableEq

/-- The kind that a value has. -/
def Scalar.kind : Scalar → Kind
  | float _ => .float
  | double _ => .double
  | integer k _ _ => k
  | bool _ => .bool
  | string _ => .string
  | bytes _ => .bytes

/-- A scalar kind is not that of messages. -/
theorem Scalar.kind_ne_message (s : Scalar) : s.kind ≠ .message := by
  cases s with
  | integer k v h =>
    rintro rfl
    obtain ⟨r, hr, _⟩ := h
    cases hr
  | _ => simp [Scalar.kind]

/-- The flags of a rule for an embedded message. -/
structure EmbedFlags where
  nil : Bool
  empty : Bool
  skip : Bool
deriving DecidableEq

namespace EmbedFlags

/-- No flag. -/
def unset : EmbedFlags := ⟨false, false, false⟩

/-- The flag that replaces the message by `nil`. -/
def ofNil : EmbedFlags := ⟨true, false, false⟩

/-- The flag that replaces the message by an empty one. -/
def ofEmpty : EmbedFlags := ⟨false, true, false⟩

/-- The flag that leaves the message as it is. -/
def ofSkip : EmbedFlags := ⟨false, false, true⟩

end EmbedFlags

/-- The payload of a structured rule. -/
inductive Payload where
  /-- No branch is selected. -/
  | blank
  | scalar (value : Scalar)
  | message (flags : EmbedFlags)
  | element (empty nested : Bool) (item : Option Payload)

namespace Payload

/-- The element rule that empties the collection. -/
def elementEmpty : Payload := element true false none

/-- The element rule that redacts every element by default. -/
def elementNested : Payload := element false true none

/-- The element rule that applies a payload to every element. -/
def elementItem (item : Payload) : Payload := element false false (some item)

/-- Whether the selected branch is an element rule. -/
def isElement : Payload → Bool
  | element _ _ _ => true
  | _ => false

end Payload

/-- The redaction options of a field: the bare flag, and the payload of a structured rule. -/
structure Annotation where
  redact : Bool
  custom : Option Payload

namespace Annotation

/-- The bare flag. -/
def flag : Annotation := ⟨true, none⟩

/-- A structured rule. -/
def rule (payload : Payload) : Annotation := ⟨false, some payload⟩

/-- A structured rule without a branch. -/
def blankRule : Annotation := rule .blank

end Annotation
end Redaction
