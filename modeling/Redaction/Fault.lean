import Redaction.Schema.Kind

/-!
# Faults

What can be wrong with the redaction options of a schema. A fault names the entity in which it was
found, by its qualified name, and its cause; `Fault.message` words both.
-/

namespace Redaction

/-- What a check expected, what it found, and what would have been accepted. -/
structure Mismatch where
  expected : String
  found : String
  hint : String
deriving DecidableEq

/-- The cause of a fault. -/
inductive Cause where
  /-- The payload of a rule is not well formed. -/
  | malformedRule (m : Mismatch)
  /-- The rule is for another kind than the field's. -/
  | kindMismatch (m : Mismatch)
  /-- The rule is for one value and the field is a collection, or the other way round. -/
  | labelMismatch (m : Mismatch)
  /-- An element rule stands inside an element rule. -/
  | nestedTooDeep (hint : String)
  /-- A message has more than one option. -/
  | conflictingOptions (found : String)
  /-- The number is not that of a status code. -/
  | invalidStatusCode (code : UInt32)
  /-- A part of the schema is missing or does not fit. -/
  | structural (reason : String)
deriving DecidableEq

/-- A cause without its details. -/
inductive Cause.Variant where
  | malformedRule
  | kindMismatch
  | labelMismatch
  | nestedTooDeep
  | conflictingOptions
  | invalidStatusCode
  | structural
deriving DecidableEq

/-- The variant of a cause. -/
def Cause.variant : Cause → Variant
  | malformedRule _ => .malformedRule
  | kindMismatch _ => .kindMismatch
  | labelMismatch _ => .labelMismatch
  | nestedTooDeep _ => .nestedTooDeep
  | conflictingOptions _ => .conflictingOptions
  | invalidStatusCode _ => .invalidStatusCode
  | structural _ => .structural

/-- A fault of the entity at a location. -/
structure Fault where
  location : String
  cause : Cause
deriving DecidableEq

/-- The wording of what a check found. -/
def Mismatch.message (m : Mismatch) : String :=
  "expected " ++ m.expected ++ ", got " ++ m.found ++ " (hint: " ++ m.hint ++ ")"

/-- The wording of a cause. -/
def Cause.message : Cause → String
  | malformedRule m => "invalid redaction rule: " ++ m.message
  | kindMismatch m => "rule type does not match field type: " ++ m.message
  | labelMismatch m => "rule label does not match field label: " ++ m.message
  | nestedTooDeep hint =>
    "nested element.item.element is not supported, maximum nesting depth is 1 (hint: " ++ hint ++ ")"
  | conflictingOptions found =>
    "conflicting message options: expected at most one of (redact.ignored), (redact.nil), or "
      ++ "(redact.empty), got " ++ found
  | invalidStatusCode code =>
    "invalid status code: expected valid gRPC status code (0-16), got " ++ toString code.toNat
      ++ " (hint: see https://grpc.io/docs/guides/status-codes/ for valid codes)"
  | structural reason => reason

/-- The wording of a fault, with its location in front. -/
def Fault.message (f : Fault) : String := "[" ++ f.location ++ "] " ++ f.cause.message

namespace Fault

/-- A fault of the schema itself. -/
def structural (location reason : String) : Fault := ⟨location, .structural reason⟩

/-- A payload that selects no branch. -/
def blankRule (location : String) : Fault :=
  ⟨location, .malformedRule {
    expected := "redaction rule with values"
    found := "empty rule"
    hint := "define a value for the custom redaction rule" }⟩

/-- A floating-point value that is no number, given its text. -/
def notFinite (location text : String) : Fault :=
  ⟨location, .malformedRule {
    expected := "a finite float value"
    found := text
    hint := "NaN and infinities have no Go literal" }⟩

/-- A list of flags with their names. -/
def flagList (flags : List (String × Bool)) : String :=
  "multiple options set ("
    ++ String.intercalate ", " (flags.map fun f => f.1 ++ "=" ++ toString f.2) ++ ")"

/-- A message rule with more than one flag. -/
def conflictingMessageFlags (location : String) (nil empty skip : Bool) : Fault :=
  ⟨location, .malformedRule {
    expected := "at most one of (redact.custom).message.nil, .empty, or .skip"
    found := flagList [("nil", nil), ("empty", empty), ("skip", skip)]
    hint := "these options are mutually exclusive" }⟩

/-- An element rule whose options are none or more than one. -/
def badElementRule (location found : String) : Fault :=
  ⟨location, .malformedRule {
    expected := "exactly one of (redact.custom).element.empty, .nested, or .item.*"
    found := found
    hint := "use (redact.custom).element.nested, .empty, or .item.*" }⟩

/-- An element rule inside an element rule. -/
def nestedTooDeep (location : String) : Fault :=
  ⟨location, .nestedTooDeep <|
    "use either (redact.custom).element.nested for iteration, (redact.custom).element.item.* for "
      ++ "custom item values, or (redact.custom).element.empty for an empty collection"⟩

/-- A message with more than one option. -/
def conflictingOptions (location : String) (ignored nil empty : Bool) : Fault :=
  ⟨location, .conflictingOptions (flagList [("ignored", ignored), ("nil", nil), ("empty", empty)])⟩

/-- A number that is no status code. -/
def invalidStatusCode (location : String) (code : UInt32) : Fault :=
  ⟨location, .invalidStatusCode code⟩

end Fault

/-! ### Steps that may fail -/

section Steps

variable {ε α β : Type}

@[simp] theorem pure_eq_ok (a : α) : (pure a : Except ε α) = .ok a := rfl

@[simp] theorem ok_bind (a : α) (next : α → Except ε β) : (Except.ok a >>= next) = next a := rfl

@[simp] theorem error_bind (x : ε) (next : α → Except ε β) :
    (Except.error x >>= next) = .error x := rfl

/-- Two steps succeed exactly if the first does and the second does on its value. -/
theorem bind_eq_ok_iff {step : Except ε α} {next : α → Except ε β} {b : β} :
    (step >>= next) = .ok b ↔ ∃ a, step = .ok a ∧ next a = .ok b := by
  cases step with
  | ok a => simp
  | error x => simp

/-- A function of the last value may be taken of the outcome. -/
theorem map_bind {γ : Type} (step : Except ε α) (next : α → Except ε β) (g : β → γ) :
    (step >>= next).map g = step >>= fun a => (next a).map g := by
  cases step <;> rfl

end Steps
end Redaction
