import Redaction.Json.Record
import Redaction.Schema.Basic

/-!
# Schemas in JSON

Every type of a schema is read from JSON and written to it. Record types are read through
`Json.Record`, which settles the two forms of a record and the fields that may be left out; this
module gives their fields and how each is read.

* A kind or multiplicity without parts is its name, or an object with that name as its one key and
  `null` under it.
* The branch of a payload is an object with the name of the branch as its one key.
* A floating-point value is read from a number and written as one, that of the wide format, or as
  `null` if it is not finite.
-/

namespace Redaction

open Json (need orElse maybe)

/-! ### Kinds and multiplicities -/

/-- The name of a variant without parts, bare or as the one key of an object with `null` under it. -/
def Json.unitName? : Json → Option String
  | .str s => some s
  | .obj [(s, .null)] => some s
  | _ => none

namespace Kind

/-- The kind that a value names. -/
def ofJson? (j : Json) : Option Kind := j.unitName?.bind ofName?

/-- The name of the kind. -/
def toJson (k : Kind) : Json := .str k.name

theorem ofJson?_toJson (k : Kind) : ofJson? k.toJson = some k := ofName?_name k

end Kind

namespace Multiplicity

/-- The multiplicity that a value writes. A map is an object with the kind of its keys. -/
def ofJson? (j : Json) : Option Multiplicity :=
  match j.unitName? with
  | some "singular" => some singular
  | some "repeated" => some repeated
  | _ =>
    match j with
    | .obj [("map", .obj entries)] => ((Json.find? "key" entries).bind Kind.ofJson?).map map
    | _ => none

/-- The multiplicity as a name, or as an object for a map. -/
def toJson : Multiplicity → Json
  | map key => .obj [("map", .obj [("key", key.toJson)])]
  | c => .str c.name

end Multiplicity

/-! ### Types -/

namespace TypeName

/-- The fields of a type name. -/
def record : Json.Record TypeName where
  fields := [⟨"name", .required⟩, ⟨"full_name", .required⟩, ⟨"import_path", .defaulted⟩]
  ofSlots?
    | [name, fullName, importPath] => do
      return {
        name := ← need Json.text? name
        fullName := ← need Json.text? fullName
        importPath := ← orElse "" Json.text? importPath }
    | _ => none

/-- The type name that a value writes. -/
def ofJson? : Json → Option TypeName := record.read?

/-- The type name as an object. -/
def toJson (t : TypeName) : Json :=
  .obj [("name", .str t.name), ("full_name", .str t.fullName), ("import_path", .str t.importPath)]

end TypeName

/-- A value, or `null` for none. -/
def Json.ofOption {α : Type} (write : α → Json) : Option α → Json
  | some a => write a
  | none => .null

/-! ### Rules -/

namespace Scalar

/-- The scalar of a kind that a value writes. -/
def ofJson? (kind : Kind) (j : Json) : Option Scalar :=
  match kind with
  | .float => j.binary?.map float
  | .double => j.binary?.map double
  | .bool => j.bool?.map bool
  | .string => j.text?.map string
  | .bytes => (j.list? Json.byte?).map bytes
  | k => j.int?.bind fun v => if h : k.Holds v then some (integer k v h) else none

/-- A floating-point value as a number of the wide format, or `null` if it is not finite. -/
def binaryJson {f : Format} (v : Binary f) : Json := if v.isFinite then .float v.convert else .null

/-- The scalar as a value. -/
def toJson : Scalar → Json
  | float v => binaryJson v
  | double v => binaryJson v
  | integer _ v _ => .int v
  | bool b => .bool b
  | string s => .str s
  | bytes b => .arr (b.map fun n => .int n.toNat)

end Scalar

namespace EmbedFlags

/-- The fields of the flags of a message rule. -/
def record : Json.Record EmbedFlags where
  fields := [⟨"nil", .defaulted⟩, ⟨"empty", .defaulted⟩, ⟨"skip", .defaulted⟩]
  ofSlots?
    | [nil, empty, skip] => do
      return {
        nil := ← orElse false Json.bool? nil
        empty := ← orElse false Json.bool? empty
        skip := ← orElse false Json.bool? skip }
    | _ => none

/-- The flags that a value writes. -/
def ofJson? : Json → Option EmbedFlags := record.read?

/-- The flags as an object. -/
def toJson (m : EmbedFlags) : Json :=
  .obj [("nil", .bool m.nil), ("empty", .bool m.empty), ("skip", .bool m.skip)]

end EmbedFlags

namespace Payload

/-- The one field of a payload: its branch. -/
def fields : List Json.FieldShape := [⟨"value", .optional⟩]

/-- The fields of an element rule. -/
def elementFields : List Json.FieldShape :=
  [⟨"empty", .defaulted⟩, ⟨"nested", .defaulted⟩, ⟨"item", .optional⟩]

/-- The payload that a value writes. -/
def ofJson? (j : Json) : Option Payload :=
  match _hs : Json.slots? fields j with
  | some [none] => some blank
  | some [some (.obj [(name, v)])] =>
    if name = "element" then
      match _he : Json.slots? elementFields v with
      | some [empty, nested, none] => do
        return element (← orElse false Json.bool? empty) (← orElse false Json.bool? nested) none
      | some [empty, nested, some item] => do
        return element (← orElse false Json.bool? empty) (← orElse false Json.bool? nested)
          (some (← ofJson? item))
      | _ => none
    else
      match Kind.ofName? name with
      | some .message => (EmbedFlags.ofJson? v).map message
      | some k => (Scalar.ofJson? k v).map scalar
      | none => none
  | _ => none
termination_by sizeOf j
decreasing_by
  have h1 := Json.sizeOf_lt_of_slots? _hs List.mem_cons_self
  have h2 : sizeOf item < sizeOf v := Json.sizeOf_lt_of_slots? _he (by simp)
  simp +arith at h1
  omega

/-- An element rule as a record. -/
def elementRecord : Json.Record Payload where
  fields := elementFields
  ofSlots?
    | [empty, nested, item] => do
      return element (← orElse false Json.bool? empty) (← orElse false Json.bool? nested)
        (← maybe ofJson? item)
    | _ => none

/-- The payload whose branch a value writes. -/
def branchOfJson? : Json → Option Payload
  | .obj [(name, v)] =>
    if name = "element" then elementRecord.read? v
    else
      match Kind.ofName? name with
      | some .message => (EmbedFlags.ofJson? v).map message
      | some k => (Scalar.ofJson? k v).map scalar
      | none => none
  | _ => none

/-- A payload as a record. -/
def record : Json.Record Payload where
  fields := fields
  ofSlots?
    | [none] => some blank
    | [some branch] => branchOfJson? branch
    | _ => none

/-- A payload is read as a record, and so is the element rule in it. -/
theorem ofJson?_eq (j : Json) : ofJson? j = record.read? j := by
  unfold ofJson?
  simp only [Json.Record.read?, record]
  split
  next h => simp [h]
  next name v h =>
    simp only [h, Option.bind_some, branchOfJson?]
    split
    · simp only [Json.Record.read?, elementRecord]
      split
      next he => simp [he]
      next he =>
        simp only [Option.pure_def, Option.bind_eq_bind, he, Option.bind_some, Json.maybe_some,
          Option.bind_map, Function.comp_def]
      next h1 h2 =>
        rcases hv : Json.slots? elementFields v with _ | ss
        · rfl
        · have hl := Json.length_of_slots? hv
          match ss, hl with
          | [_, _, none], _ => exact absurd hv (h1 _ _)
          | [_, _, some _], _ => exact absurd hv (h2 _ _ _)
    · rfl
  next h1 h2 =>
    rcases hj : Json.slots? fields j with _ | ss
    · rfl
    · have hl := Json.length_of_slots? hj
      match ss, hl with
      | [none], _ => exact absurd hj h1
      | [some b], _ =>
        simp only [Option.bind_some]
        unfold branchOfJson?
        split
        next => exact absurd hj (h2 _ _)
        next => rfl

/-- The branch of a payload as an object, or `null` if none is selected. -/
def branchToJson : Payload → Json
  | blank => .null
  | scalar s => .obj [(s.kind.name, s.toJson)]
  | message flags => .obj [("message", flags.toJson)]
  | element empty nested none =>
    .obj [("element", .obj [("empty", .bool empty), ("nested", .bool nested), ("item", .null)])]
  | element empty nested (some item) =>
    .obj [("element", .obj [("empty", .bool empty), ("nested", .bool nested),
      ("item", .obj [("value", branchToJson item)])])]

/-- The payload as an object. -/
def toJson (p : Payload) : Json := .obj [("value", p.branchToJson)]

end Payload

namespace Annotation

/-- The fields of the redaction options of a field. -/
def record : Json.Record Annotation where
  fields := [⟨"redact", .defaulted⟩, ⟨"custom", .optional⟩]
  ofSlots?
    | [redact, custom] => do
      return {
        redact := ← orElse false Json.bool? redact
        custom := ← maybe Payload.ofJson? custom }
    | _ => none

/-- The options that a value writes. -/
def ofJson? : Json → Option Annotation := record.read?

/-- The options as an object. -/
def toJson (a : Annotation) : Json :=
  .obj [("redact", .bool a.redact), ("custom", .ofOption Payload.toJson a.custom)]

end Annotation

/-! ### Messages -/

namespace Field

/-- The fields of a field. -/
def record : Json.Record Field where
  fields := [⟨"name", .required⟩, ⟨"kind", .required⟩, ⟨"cardinality", .defaulted⟩,
    ⟨"proto3_optional", .defaulted⟩, ⟨"type_ref", .optional⟩, ⟨"annotation", .optional⟩]
  ofSlots?
    | [name, kind, multiplicity, isOptional, type, annotation] => do
      return {
        name := ← need Json.text? name
        kind := ← need Kind.ofJson? kind
        multiplicity := ← orElse .singular Multiplicity.ofJson? multiplicity
        isOptional := ← orElse false Json.bool? isOptional
        type := ← maybe TypeName.ofJson? type
        annotation := ← maybe Annotation.ofJson? annotation }
    | _ => none

/-- The field that a value writes. -/
def ofJson? : Json → Option Field := record.read?

/-- The field as an object. -/
def toJson (f : Field) : Json :=
  .obj [("name", .str f.name), ("kind", f.kind.toJson), ("cardinality", f.multiplicity.toJson),
    ("proto3_optional", .bool f.isOptional), ("type_ref", .ofOption TypeName.toJson f.type),
    ("annotation", .ofOption Annotation.toJson f.annotation)]

end Field

namespace OverrideFlags

/-- The fields of the options of a message. -/
def record : Json.Record OverrideFlags where
  fields := [⟨"ignored", .defaulted⟩, ⟨"nil", .defaulted⟩, ⟨"empty", .defaulted⟩]
  ofSlots?
    | [ignored, nil, empty] => do
      return {
        ignored := ← orElse false Json.bool? ignored
        nil := ← orElse false Json.bool? nil
        empty := ← orElse false Json.bool? empty }
    | _ => none

/-- The options that a value writes. -/
def ofJson? : Json → Option OverrideFlags := record.read?

/-- The options as an object. -/
def toJson (o : OverrideFlags) : Json :=
  .obj [("ignored", .bool o.ignored), ("nil", .bool o.nil), ("empty", .bool o.empty)]

end OverrideFlags

namespace Message

/-- The fields of a message. -/
def record : Json.Record Message where
  fields := [⟨"type_ref", .required⟩, ⟨"fields", .defaulted⟩, ⟨"options", .defaulted⟩]
  ofSlots?
    | [type, fields, options] => do
      return {
        type := ← need TypeName.ofJson? type
        fields := ← orElse [] (Json.list? Field.ofJson?) fields
        options := ← orElse .unset OverrideFlags.ofJson? options }
    | _ => none

/-- The message that a value writes. -/
def ofJson? : Json → Option Message := record.read?

/-- The message as an object. -/
def toJson (m : Message) : Json :=
  .obj [("type_ref", m.type.toJson), ("fields", .arr (m.fields.map Field.toJson)),
    ("options", m.options.toJson)]

end Message

/-! ### Services -/

namespace CallOptions

/-- The fields of call options. -/
def record : Json.Record CallOptions where
  fields := [⟨"skip", .defaulted⟩, ⟨"internal", .defaulted⟩, ⟨"internal_code", .optional⟩,
    ⟨"internal_err_message", .optional⟩]
  ofSlots?
    | [skip, internal, code, errorMessage] => do
      return {
        skip := ← orElse false Json.bool? skip
        internal := ← orElse false Json.bool? internal
        code := ← maybe Json.uint32? code
        errorMessage := ← maybe Json.text? errorMessage }
    | _ => none

/-- The options that a value writes. -/
def ofJson? : Json → Option CallOptions := record.read?

/-- The options as an object. -/
def toJson (o : CallOptions) : Json :=
  .obj [("skip", .bool o.skip), ("internal", .bool o.internal),
    ("internal_code", .ofOption (fun n => .int n.toNat) o.code),
    ("internal_err_message", .ofText? o.errorMessage)]

end CallOptions

namespace Method

/-- The fields of a method. -/
def record : Json.Record Method where
  fields := [⟨"name", .required⟩, ⟨"full_name", .required⟩, ⟨"input", .nullable⟩,
    ⟨"output", .nullable⟩, ⟨"client_streaming", .defaulted⟩, ⟨"server_streaming", .defaulted⟩,
    ⟨"options", .defaulted⟩]
  ofSlots?
    | [name, fullName, input, output, clientStreaming, serverStreaming, options] => do
      return {
        name := ← need Json.text? name
        fullName := ← need Json.text? fullName
        input := ← maybe TypeName.ofJson? input
        output := ← maybe Message.ofJson? output
        clientStreaming := ← orElse false Json.bool? clientStreaming
        serverStreaming := ← orElse false Json.bool? serverStreaming
        options := ← orElse .unset CallOptions.ofJson? options }
    | _ => none

/-- The method that a value writes. -/
def ofJson? : Json → Option Method := record.read?

/-- The method as an object. -/
def toJson (m : Method) : Json :=
  .obj [("name", .str m.name), ("full_name", .str m.fullName),
    ("input", .ofOption TypeName.toJson m.input), ("output", .ofOption Message.toJson m.output),
    ("client_streaming", .bool m.clientStreaming), ("server_streaming", .bool m.serverStreaming),
    ("options", m.options.toJson)]

end Method

namespace Service

/-- The fields of a service. -/
def record : Json.Record Service where
  fields := [⟨"name", .required⟩, ⟨"full_name", .required⟩, ⟨"methods", .defaulted⟩,
    ⟨"options", .defaulted⟩]
  ofSlots?
    | [name, fullName, methods, options] => do
      return {
        name := ← need Json.text? name
        fullName := ← need Json.text? fullName
        methods := ← orElse [] (Json.list? Method.ofJson?) methods
        options := ← orElse .unset CallOptions.ofJson? options }
    | _ => none

/-- The service that a value writes. -/
def ofJson? : Json → Option Service := record.read?

/-- The service as an object. -/
def toJson (s : Service) : Json :=
  .obj [("name", .str s.name), ("full_name", .str s.fullName),
    ("methods", .arr (s.methods.map Method.toJson)), ("options", s.options.toJson)]

end Service

/-! ### Files -/

namespace Import

/-- The fields of an imported file. -/
def record : Json.Record Import where
  fields := [⟨"import_path", .required⟩, ⟨"package_name", .required⟩, ⟨"first_symbol", .optional⟩]
  ofSlots?
    | [importPath, packageName, firstSymbol] => do
      return {
        importPath := ← need Json.text? importPath
        packageName := ← need Json.text? packageName
        firstSymbol := ← maybe TypeName.ofJson? firstSymbol }
    | _ => none

/-- The imported file that a value writes. -/
def ofJson? : Json → Option Import := record.read?

/-- The imported file as an object. -/
def toJson (i : Import) : Json :=
  .obj [("import_path", .str i.importPath), ("package_name", .str i.packageName),
    ("first_symbol", .ofOption TypeName.toJson i.firstSymbol)]

end Import

namespace SourceFile

/-- The fields of a source file. -/
def record : Json.Record SourceFile where
  fields := [⟨"name", .required⟩, ⟨"package", .required⟩, ⟨"import_path", .defaulted⟩,
    ⟨"imports", .defaulted⟩, ⟨"messages", .defaulted⟩, ⟨"services", .defaulted⟩,
    ⟨"skip", .defaulted⟩]
  ofSlots?
    | [name, package, importPath, imports, messages, services, skip] => do
      return {
        name := ← need Json.text? name
        package := ← need Json.text? package
        importPath := ← orElse "" Json.text? importPath
        imports := ← orElse [] (Json.list? Import.ofJson?) imports
        messages := ← orElse [] (Json.list? Message.ofJson?) messages
        services := ← orElse [] (Json.list? Service.ofJson?) services
        skip := ← orElse false Json.bool? skip }
    | _ => none

/-- The source file that a value writes. -/
def ofJson? : Json → Option SourceFile := record.read?

/-- The source file as an object. -/
def toJson (f : SourceFile) : Json :=
  .obj [("name", .str f.name), ("package", .str f.package), ("import_path", .str f.importPath),
    ("imports", .arr (f.imports.map Import.toJson)),
    ("messages", .arr (f.messages.map Message.toJson)),
    ("services", .arr (f.services.map Service.toJson)), ("skip", .bool f.skip)]

end SourceFile
end Redaction
