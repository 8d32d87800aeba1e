import Redaction.Plan.Field
import Redaction.Report

/-!
# Plans of messages

What generated code does with a message: one plan per field, and the override that the message's own
options ask for. The options are checked before the fields are looked at; an ignored message has no
field plans, whatever its fields are.
-/

namespace Redaction

/-- An override for a whole message. -/
inductive Override where
  /-- The message takes no part in redaction. -/
  | ignore
  /-- The message is replaced by `nil`. -/
  | nil
  /-- The message is replaced by an empty one. -/
  | empty
deriving DecidableEq

/-- What generated code does with a message. -/
structure MessagePlan where
  name : String
  fullName : String
  qualifiedName : String
  fields : List FieldPlan
  override : Option Override
deriving DecidableEq

namespace MessagePlan

/-- Whether the message takes no part in redaction. -/
def ignored (p : MessagePlan) : Bool := p.override == some .ignore

/-- Whether some field is redacted. -/
def redactsSome (p : MessagePlan) : Bool := p.fields.any FieldPlan.redact

end MessagePlan

/-- The override that options ask for; more than one option is a fault. -/
def OverrideFlags.override (location : String) (o : OverrideFlags) :
    Except Fault (Option Override) :=
  match o with
  | ⟨false, false, false⟩ => .ok none
  | ⟨true, false, false⟩ => .ok (some .ignore)
  | ⟨false, true, false⟩ => .ok (some .nil)
  | ⟨false, false, true⟩ => .ok (some .empty)
  | ⟨ignored, nil, empty⟩ => .error (Fault.conflictingOptions location ignored nil empty)

namespace Message

/-- The plans of the fields under an override, or the faults of all fields that have one. The fields
of an ignored message are not looked at. -/
def resolveFields (naming : Naming) (m : Message) (override : Option Override) :
    Except Report (List FieldPlan) :=
  if override = some .ignore then .ok []
  else Report.collect (m.fields.map fun f => Report.ofExcept (f.resolve m.fullName naming))

/-- The plan of a message. -/
def resolve (naming : Naming) (m : Message) : Except Report MessagePlan := do
  let override ← Report.ofExcept (m.options.override m.fullName)
  let fields ← m.resolveFields naming override
  return {
    name := m.name
    fullName := m.fullName
    qualifiedName := naming m.type
    fields := fields
    override := override }

/-- A message that has no plan has a fault. -/
theorem explained_resolve (naming : Naming) (m : Message) : Report.Explained (m.resolve naming) := by
  refine Report.explained_bind (Report.explained_ofExcept _) fun override => ?_
  refine Report.explained_bind ?_ fun fields => Report.explained_ok _
  unfold resolveFields
  split
  · exact Report.explained_ok _
  · exact Report.explained_result _ _

end Message
end Redaction
