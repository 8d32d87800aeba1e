import Redaction.Json.Printer
import Redaction.Plan.File

/-!
# Plans in JSON

The JSON form of the plans. Every part is written, a missing one as `null`, in the order of the
records below; the imports of a file are an object from aliases to paths in the order of the
aliases.
-/

namespace Redaction

/-- The JSON form of the plan of a field. -/
def FieldPlan.toJson (p : FieldPlan) : Json :=
  .obj [("name", .str p.name), ("redact", .bool p.redact), ("redaction_value", .ofText? p.value),
    ("go_type", .str p.goType), ("is_map", .bool p.isMap), ("is_repeated", .bool p.isRepeated),
    ("is_message", .bool p.isMessage), ("is_optional", .bool p.isOptional),
    ("iterate", .bool p.iterate), ("nested_call", .bool p.nestedCall),
    ("embed_skip", .bool p.embedSkip), ("embed_message_name", .ofText? p.embedName),
    ("embed_message_qualified", .ofText? p.embedQualified)]

/-- The name of an override. -/
def Override.name : Override → String
  | ignore => "ignore"
  | nil => "nil"
  | empty => "empty"

/-- The JSON form of the plan of a message. -/
def MessagePlan.toJson (p : MessagePlan) : Json :=
  .obj [("name", .str p.name), ("full_name", .str p.fullName),
    ("qualified_name", .str p.qualifiedName), ("fields", .arr (p.fields.map FieldPlan.toJson)),
    ("disposition", .ofText? (p.override.map Override.name))]

/-- The JSON form of the plan of a method. -/
def MethodPlan.toJson (p : MethodPlan) : Json :=
  .obj [("name", .str p.name), ("full_name", .str p.fullName), ("skip", .bool p.skip),
    ("input", .str p.input), ("output", p.output.toJson), ("internal", .bool p.internal),
    ("status_code", .str p.statusCode.name), ("err_message", .str p.errorMessage),
    ("client_streaming", .bool p.clientStreaming), ("server_streaming", .bool p.serverStreaming)]

/-- The JSON form of the plan of a service. -/
def ServicePlan.toJson (p : ServicePlan) : Json :=
  .obj [("name", .str p.name), ("full_name", .str p.fullName), ("skip", .bool p.skip),
    ("methods", .arr (p.methods.map MethodPlan.toJson))]

/-- A dictionary as an object with its keys in order. -/
def Dictionary.toJson (d : Dictionary) : Json := .obj (d.entries.map fun e => (e.1, .str e.2))

/-- The JSON form of the plan of a file. -/
def FilePlan.toJson (p : FilePlan) : Json :=
  .obj [("source", .str p.source), ("package", .str p.package), ("imports", p.imports.toJson),
    ("references", .arr (p.references.map Json.str)),
    ("messages", .arr (p.messages.map MessagePlan.toJson)),
    ("services", .arr (p.services.map ServicePlan.toJson))]

/-- The plan of a file as a JSON text, one item per line. -/
def FilePlan.text (p : FilePlan) : String := p.toJson.pretty

/-- The JSON form of a detail of an event. -/
def Detail.toJson : Detail → Json
  | text s => .str s
  | method p => p.toJson

/-- The JSON form of an event, with further details of the run behind its own. -/
def Event.toJson (context : List (String × String)) (e : Event) : Json :=
  .obj [("level", .str e.level.name), ("msg", .str e.text),
    ("kv", .obj (e.details.map (fun d => (d.1, d.2.toJson))
      ++ context.map (fun c => (c.1, .str c.2))))]

end Redaction
