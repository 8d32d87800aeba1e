import Redaction.Proofs.RecordSpelling
import Redaction.Schema.Json

/-!
# Spellings of a schema

One schema can be written as JSON in many ways: each record in it as an array or as an object, its
keys in any order and with others among them, its defaults written out or left out. All spellings
are read alike.

* `RecordType.declared` is what each record type declares: its fields in order, which of them are
  optional, which have a default, and which default that is. `RecordType.readings` is how each field
  is read, and what the record holds then.
* `RecordType.readBy` and `RecordType.fits` are what a record type has to show for itself: its
  records go with the slots of their fields one by one, and each field is read as it is declared.
  The laws follow for all types at once (`RecordType.spelled`).
* `RecordType.Part` lists the places where a record has another. A part that is read alike can be
  replaced (`RecordType.Part.read?_eq`), and so the laws hold at any depth: `RecordType.Alike` is
  the least equivalence with them, kept by every reading (`RecordType.Alike.read?_eq`).
* `RecordType.spellings` is the statement for all record types.
-/

namespace Redaction

open Json (Declaration Spelled)

/-- The record types of a schema. -/
inductive RecordType where
  | typeName
  | embedFlags
  | payload
  | elementRule
  | annotation
  | field
  | overrideFlags
  | message
  | callOptions
  | method
  | service
  | importedFile
  | sourceFile

namespace RecordType

/-- The values of a record type. An element rule is a payload of its own branch. -/
@[reducible] def Value : RecordType → Type
  | typeName => TypeName
  | embedFlags => EmbedFlags
  | payload => Payload
  | elementRule => Payload
  | annotation => Annotation
  | field => Field
  | overrideFlags => OverrideFlags
  | message => Message
  | callOptions => CallOptions
  | method => Method
  | service => Service
  | importedFile => Import
  | sourceFile => SourceFile

/-- The reading of a record type. An element rule is read in a payload. -/
def read? : (t : RecordType) → Json → Option t.Value
  | typeName => TypeName.ofJson?
  | embedFlags => EmbedFlags.ofJson?
  | payload => Payload.ofJson?
  | elementRule => fun v => Payload.ofJson? (.obj [("value", .obj [("element", v)])])
  | annotation => Annotation.ofJson?
  | field => Field.ofJson?
  | overrideFlags => OverrideFlags.ofJson?
  | message => Message.ofJson?
  | callOptions => CallOptions.ofJson?
  | method => Method.ofJson?
  | service => Service.ofJson?
  | importedFile => Import.ofJson?
  | sourceFile => SourceFile.ofJson?

/-- The fields that a record type declares, in order. -/
def declared : (t : RecordType) → List (Declaration t.Value)
  | typeName =>
    [.must "name", .must "full_name", .withDefault "import_path" (.str "") TypeName.importPath ""]
  | embedFlags =>
    [.flag "nil" EmbedFlags.nil, .flag "empty" EmbedFlags.empty, .flag "skip" EmbedFlags.skip]
  | payload => [⟨⟨"value", .optional⟩, some ⟨.null, (· = .blank)⟩⟩]
  | elementRule =>
    [⟨⟨"empty", .defaulted⟩,
        some ⟨.bool false, fun p => ∃ nested item, p = .element false nested item⟩⟩,
      ⟨⟨"nested", .defaulted⟩,
        some ⟨.bool false, fun p => ∃ empty item, p = .element empty false item⟩⟩,
      ⟨⟨"item", .optional⟩,
        some ⟨.null, fun p => ∃ empty nested, p = .element empty nested none⟩⟩]
  | annotation => [.flag "redact" Annotation.redact, .optional "custom" Annotation.custom]
  | field =>
    [.must "name", .must "kind",
      .withDefault "cardinality" (.str "singular") Field.multiplicity .singular,
      .flag "proto3_optional" Field.isOptional, .optional "type_ref" Field.type,
      .optional "annotation" Field.annotation]
  | overrideFlags =>
    [.flag "ignored" OverrideFlags.ignored, .flag "nil" OverrideFlags.nil,
      .flag "empty" OverrideFlags.empty]
  | message =>
    [.must "type_ref", .list "fields" Message.fields,
      .withDefault "options" (.obj []) Message.options .unset]
  | callOptions =>
    [.flag "skip" CallOptions.skip, .flag "internal" CallOptions.internal,
      .optional "internal_code" CallOptions.code,
      .optional "internal_err_message" CallOptions.errorMessage]
  | method =>
    [.must "name", .must "full_name", .nullable "input" Method.input,
      .nullable "output" Method.output, .flag "client_streaming" Method.clientStreaming,
      .flag "server_streaming" Method.serverStreaming,
      .withDefault "options" (.obj []) Method.options .unset]
  | service =>
    [.must "name", .must "full_name", .list "methods" Service.methods,
      .withDefault "options" (.obj []) Service.options .unset]
  | importedFile =>
    [.must "import_path", .must "package_name", .optional "first_symbol" Import.firstSymbol]
  | sourceFile =>
    [.must "name", .must "package", .withDefault "import_path" (.str "") SourceFile.importPath "",
      .list "imports" SourceFile.imports, .list "messages" SourceFile.messages,
      .list "services" SourceFile.services, .flag "skip" SourceFile.skip]

/-- A record type as fields and the record of a list of slots. -/
def record : (t : RecordType) → Json.Record t.Value
  | typeName => TypeName.record
  | embedFlags => EmbedFlags.record
  | payload => Payload.record
  | elementRule => Payload.elementRecord
  | annotation => Annotation.record
  | field => Field.record
  | overrideFlags => OverrideFlags.record
  | message => Message.record
  | callOptions => CallOptions.record
  | method => Method.record
  | service => Service.record
  | importedFile => Import.record
  | sourceFile => SourceFile.record

theorem read?_eq : ∀ t : RecordType, t.read? = t.record.read?
  | payload => funext Payload.ofJson?_eq
  | elementRule => funext fun v => by
    exact Payload.ofJson?_eq _
  | typeName | embedFlags | annotation | field | overrideFlags | message | callOptions | method
  | service | importedFile | sourceFile => rfl

theorem fields_eq (t : RecordType) : t.record.fields = t.declared.map (·.toFieldShape) := by
  cases t <;> rfl

theorem nodup_keys (t : RecordType) : (t.record.fields.map (·.key)).Nodup := by
  cases t <;> decide

open Json (reads need orElse maybe) in
/-- How the fields of a record type are read. -/
def readings : (t : RecordType) → List (Json.Reading t.Value)
  | typeName =>
    [reads (need Json.text?) TypeName.name, reads (need Json.text?) TypeName.fullName,
      reads (orElse "" Json.text?) TypeName.importPath]
  | embedFlags =>
    [reads (orElse false Json.bool?) EmbedFlags.nil,
      reads (orElse false Json.bool?) EmbedFlags.empty,
      reads (orElse false Json.bool?) EmbedFlags.skip]
  | payload =>
    [reads (fun | some branch => Payload.branchOfJson? branch | none => some .blank) id]
  | elementRule =>
    [fun s p => ∃ empty nested item, p = .element empty nested item ∧
        orElse false Json.bool? s = some empty,
      fun s p => ∃ empty nested item, p = .element empty nested item ∧
        orElse false Json.bool? s = some nested,
      fun s p => ∃ empty nested item, p = .element empty nested item ∧
        maybe Payload.ofJson? s = some item]
  | annotation =>
    [reads (orElse false Json.bool?) Annotation.redact,
      reads (maybe Payload.ofJson?) Annotation.custom]
  | field =>
    [reads (need Json.text?) Field.name, reads (need Kind.ofJson?) Field.kind,
      reads (orElse .singular Multiplicity.ofJson?) Field.multiplicity,
      reads (orElse false Json.bool?) Field.isOptional, reads (maybe TypeName.ofJson?) Field.type,
      reads (maybe Annotation.ofJson?) Field.annotation]
  | overrideFlags =>
    [reads (orElse false Json.bool?) OverrideFlags.ignored,
      reads (orElse false Json.bool?) OverrideFlags.nil,
      reads (orElse false Json.bool?) OverrideFlags.empty]
  | message =>
    [reads (need TypeName.ofJson?) Message.type,
      reads (orElse [] (Json.list? Field.ofJson?)) Message.fields,
      reads (orElse .unset OverrideFlags.ofJson?) Message.options]
  | callOptions =>
    [reads (orElse false Json.bool?) CallOptions.skip,
      reads (orElse false Json.bool?) CallOptions.internal,
      reads (maybe Json.uint32?) CallOptions.code,
      reads (maybe Json.text?) CallOptions.errorMessage]
  | method =>
    [reads (need Json.text?) Method.name, reads (need Json.text?) Method.fullName,
      reads (maybe TypeName.ofJson?) Method.input, reads (maybe Message.ofJson?) Method.output,
      reads (orElse false Json.bool?) Method.clientStreaming,
      reads (orElse false Json.bool?) Method.serverStreaming,
      reads (orElse .unset CallOptions.ofJson?) Method.options]
  | service =>
    [reads (need Json.text?) Service.name, reads (need Json.text?) Service.fullName,
      reads (orElse [] (Json.list? Method.ofJson?)) Service.methods,
      reads (orElse .unset CallOptions.ofJson?) Service.options]
  | importedFile =>
    [reads (need Json.text?) Import.importPath, reads (need Json.text?) Import.packageName,
      reads (maybe TypeName.ofJson?) Import.firstSymbol]
  | sourceFile =>
    [reads (need Json.text?) SourceFile.name, reads (need Json.text?) SourceFile.package,
      reads (orElse "" Json.text?) SourceFile.importPath,
      reads (orElse [] (Json.list? Import.ofJson?)) SourceFile.imports,
      reads (orElse [] (Json.list? Message.ofJson?)) SourceFile.messages,
      reads (orElse [] (Json.list? Service.ofJson?)) SourceFile.services,
      reads (orElse false Json.bool?) SourceFile.skip]

/-- The records of a type go with the slots of their fields, each read on its own. -/
theorem readBy (t : RecordType) : t.record.ReadBy t.readings := by
  intro ss a hss
  -- one list of slots has the right length for each type; `exists_bool` would only take the flags
  -- apart
  cases t with
  | typeName =>
    obtain _ | ⟨name, _ | ⟨fullName, _ | ⟨importPath, _ | _⟩⟩⟩ := ss <;> cases hss
    cases a
    simp [record, TypeName.record, readings, Json.reads, Option.bind_eq_some_iff]
  | embedFlags =>
    obtain _ | ⟨nil, _ | ⟨empty, _ | ⟨skip, _ | _⟩⟩⟩ := ss <;> cases hss
    cases a
    simp [record, EmbedFlags.record, readings, Json.reads, Option.bind_eq_some_iff,
      -Bool.exists_bool]
  | payload =>
    obtain _ | ⟨_ | branch, _ | _⟩ := ss <;> cases hss
    all_goals simp [record, Payload.record, readings, Json.reads]
  | elementRule =>
    obtain _ | ⟨empty, _ | ⟨nested, _ | ⟨item, _ | _⟩⟩⟩ := ss <;> cases hss
    cases a <;>
      simp [record, Payload.elementRecord, readings, Option.bind_eq_some_iff, -Bool.exists_bool]
  | annotation =>
    obtain _ | ⟨redact, _ | ⟨custom, _ | _⟩⟩ := ss <;> cases hss
    cases a
    simp [record, Annotation.record, readings, Json.reads, Option.bind_eq_some_iff,
      -Bool.exists_bool]
  | field =>
    obtain _ | ⟨name, _ | ⟨kind, _ | ⟨multiplicity, _ | ⟨isOptional, _ | ⟨type, _ |
      ⟨options, _ | _⟩⟩⟩⟩⟩⟩ := ss <;> cases hss
    cases a
    simp [record, Field.record, readings, Json.reads, Option.bind_eq_some_iff, -Bool.exists_bool]
  | overrideFlags =>
    obtain _ | ⟨ignored, _ | ⟨nil, _ | ⟨empty, _ | _⟩⟩⟩ := ss <;> cases hss
    cases a
    simp [record, OverrideFlags.record, readings, Json.reads, Option.bind_eq_some_iff,
      -Bool.exists_bool]
  | message =>
    obtain _ | ⟨type, _ | ⟨fields, _ | ⟨options, _ | _⟩⟩⟩ := ss <;> cases hss
    cases a
    simp [record, Message.record, readings, Json.reads, Option.bind_eq_some_iff]
  | callOptions =>
    obtain _ | ⟨skip, _ | ⟨internal, _ | ⟨code, _ | ⟨errorMessage, _ | _⟩⟩⟩⟩ := ss <;> cases hss
    cases a
    simp [record, CallOptions.record, readings, Json.reads, Option.bind_eq_some_iff,
      -Bool.exists_bool]
  | method =>
    obtain _ | ⟨name, _ | ⟨fullName, _ | ⟨input, _ | ⟨output, _ | ⟨clientStreaming, _ |
      ⟨serverStreaming, _ | ⟨options, _ | _⟩⟩⟩⟩⟩⟩⟩ := ss <;> cases hss
    cases a
    simp [record, Method.record, readings, Json.reads, Option.bind_eq_some_iff, -Bool.exists_bool]
  | service =>
    obtain _ | ⟨name, _ | ⟨fullName, _ | ⟨methods, _ | ⟨options, _ | _⟩⟩⟩⟩ := ss <;> cases hss
    cases a
    simp [record, Service.record, readings, Json.reads, Option.bind_eq_some_iff]
  | importedFile =>
    obtain _ | ⟨importPath, _ | ⟨packageName, _ | ⟨firstSymbol, _ | _⟩⟩⟩ := ss <;> cases hss
    cases a
    simp [record, Import.record, readings, Json.reads, Option.bind_eq_some_iff]
  | sourceFile =>
    obtain _ | ⟨name, _ | ⟨package, _ | ⟨importPath, _ | ⟨imports, _ | ⟨messages, _ |
      ⟨services, _ | ⟨skip, _ | _⟩⟩⟩⟩⟩⟩⟩ := ss <;> cases hss
    cases a
    simp [record, SourceFile.record, readings, Json.reads, Option.bind_eq_some_iff,
      -Bool.exists_bool]

open Json.Declaration in
/-- Every field is read as it is declared. -/
theorem fits (t : RecordType) : List.Forall₂ Json.Declaration.Fits t.declared t.readings := by
  cases t <;> simp only [declared, readings, List.forall₂_cons]
  case typeName => exact ⟨fits_must _, fits_must _, fits_withDefault _ rfl rfl, .nil⟩
  case embedFlags | overrideFlags => exact ⟨fits_flag _, fits_flag _, fits_flag _, .nil⟩
  case payload =>
    exact ⟨fun _ => ⟨_, rfl, none, rfl, fun a => ⟨.rfl, fun h => (Option.some.inj h).symm⟩⟩, .nil⟩
  case elementRule =>
    refine ⟨fun _ => ⟨_, rfl, _, rfl, fun a => ?_⟩, fun _ => ⟨_, rfl, _, rfl, fun a => ?_⟩,
      fun _ => ⟨_, rfl, none, rfl, fun a => ?_⟩, .nil⟩
    all_goals simp
  case annotation => exact ⟨fits_flag _, fits_orNone rfl _ _, .nil⟩
  case field =>
    exact ⟨fits_must _, fits_must _, fits_withDefault _ rfl rfl, fits_flag _, fits_orNone rfl _ _,
      fits_orNone rfl _ _, .nil⟩
  case message => exact ⟨fits_must _, fits_list _ _, fits_withDefault _ rfl rfl, .nil⟩
  case callOptions =>
    exact ⟨fits_flag _, fits_flag _, fits_orNone rfl _ _, fits_orNone rfl _ _, .nil⟩
  case method =>
    exact ⟨fits_must _, fits_must _, fits_orNone rfl _ _, fits_orNone rfl _ _, fits_flag _,
      fits_flag _, fits_withDefault _ rfl rfl, .nil⟩
  case service =>
    exact ⟨fits_must _, fits_must _, fits_list _ _, fits_withDefault _ rfl rfl, .nil⟩
  case importedFile => exact ⟨fits_must _, fits_must _, fits_orNone rfl _ _, .nil⟩
  case sourceFile =>
    exact ⟨fits_must _, fits_must _, fits_withDefault _ rfl rfl, fits_list _ _, fits_list _ _,
      fits_list _ _, fits_flag _, .nil⟩

/-- The laws of the spellings hold of every record type. -/
theorem spelled (t : RecordType) : Spelled t.read? t.declared t.readings := by
  rw [read?_eq]
  exact Json.Record.spelled t.fields_eq t.nodup_keys t.readBy t.fits

/-! ### Records in records -/

/-- Where a record has another: `Part t key place u` says that a record of type `t` has one of type
`u` under `key`, at that place of the value there. -/
inductive Part : RecordType → String → (Json → Json) → RecordType → Prop
  | message_of_payload : Part payload "value" (fun v => .obj [("message", v)]) embedFlags
  | element_of_payload : Part payload "value" (fun v => .obj [("element", v)]) elementRule
  | item_of_elementRule : Part elementRule "item" id payload
  | custom_of_annotation : Part annotation "custom" id payload
  | type_of_field : Part field "type_ref" id typeName
  | annotation_of_field : Part field "annotation" id annotation
  | type_of_message : Part message "type_ref" id typeName
  | field_of_message (before after : List Json) :
      Part message "fields" (fun v => .arr (before ++ v :: after)) field
  | options_of_message : Part message "options" id overrideFlags
  | input_of_method : Part method "input" id typeName
  | output_of_method : Part method "output" id message
  | options_of_method : Part method "options" id callOptions
  | method_of_service (before after : List Json) :
      Part service "methods" (fun v => .arr (before ++ v :: after)) method
  | options_of_service : Part service "options" id callOptions
  | symbol_of_import : Part importedFile "first_symbol" id typeName
  | import_of_file (before after : List Json) :
      Part sourceFile "imports" (fun v => .arr (before ++ v :: after)) importedFile
  | message_of_file (before after : List Json) :
      Part sourceFile "messages" (fun v => .arr (before ++ v :: after)) message
  | service_of_file (before after : List Json) :
      Part sourceFile "services" (fun v => .arr (before ++ v :: after)) service

theorem Part.place_ne_null {t u : RecordType} {key : String} {place : Json → Json}
    (h : Part t key place u) {v : Json} (hv : v ≠ .null) : place v ≠ .null := by
  cases h <;> first | exact hv | exact nofun

/-- A part that is read alike goes with the same records. -/
theorem Part.exists_reading {t u : RecordType} {key : String} {place : Json → Json} {v v' : Json}
    (h : Part t key place u) (hv : u.read? v = u.read? v') :
    ∃ (i : Nat) (p : Json.Presence) (R : Json.Reading t.Value),
      t.record.fields[i]? = some ⟨key, p⟩ ∧ t.readings[i]? = some R ∧
        ∀ a, R (some (place v)) a ↔ R (some (place v')) a := by
  have hmaybe : (u.read? v).map some = (u.read? v').map some := congrArg _ hv
  cases h with
  | message_of_payload =>
    exact ⟨0, _, _, rfl, rfl, Json.reads_congr (congrArg (Option.map Payload.message) hv)⟩
  | element_of_payload =>
    have helement := congrFun (read?_eq elementRule)
    exact ⟨0, _, _, rfl, rfl, Json.reads_congr ((helement v).symm.trans (hv.trans (helement v')))⟩
  | item_of_elementRule =>
    refine ⟨2, _, _, rfl, rfl, fun a => ?_⟩
    show (∃ _ _ _, _ ∧ (Payload.ofJson? v).map some = _) ↔
      ∃ _ _ _, _ ∧ (Payload.ofJson? v').map some = _
    rw [show (Payload.ofJson? v).map some = (Payload.ofJson? v').map some from hmaybe]
  | custom_of_annotation => exact ⟨1, _, _, rfl, rfl, Json.reads_congr hmaybe⟩
  | type_of_field => exact ⟨4, _, _, rfl, rfl, Json.reads_congr hmaybe⟩
  | annotation_of_field => exact ⟨5, _, _, rfl, rfl, Json.reads_congr hmaybe⟩
  | type_of_message => exact ⟨0, _, _, rfl, rfl, Json.reads_congr hv⟩
  | field_of_message before after =>
    exact ⟨1, _, _, rfl, rfl, Json.reads_congr (Json.list?_congr hv before after)⟩
  | options_of_message => exact ⟨2, _, _, rfl, rfl, Json.reads_congr hv⟩
  | input_of_method => exact ⟨2, _, _, rfl, rfl, Json.reads_congr hmaybe⟩
  | output_of_method => exact ⟨3, _, _, rfl, rfl, Json.reads_congr hmaybe⟩
  | options_of_method => exact ⟨6, _, _, rfl, rfl, Json.reads_congr hv⟩
  | method_of_service before after =>
    exact ⟨2, _, _, rfl, rfl, Json.reads_congr (Json.list?_congr hv before after)⟩
  | options_of_service => exact ⟨3, _, _, rfl, rfl, Json.reads_congr hv⟩
  | symbol_of_import => exact ⟨2, _, _, rfl, rfl, Json.reads_congr hmaybe⟩
  | import_of_file before after =>
    exact ⟨3, _, _, rfl, rfl, Json.reads_congr (Json.list?_congr hv before after)⟩
  | message_of_file before after =>
    exact ⟨4, _, _, rfl, rfl, Json.reads_congr (Json.list?_congr hv before after)⟩
  | service_of_file before after =>
    exact ⟨5, _, _, rfl, rfl, Json.reads_congr (Json.list?_congr hv before after)⟩

/-- A record is read alike with a part that is read alike. -/
theorem Part.read?_eq {t u : RecordType} {key : String} {place : Json → Json} {v v' : Json}
    (h : Part t key place u) (hv : u.read? v = u.read? v') (hnull : v = .null ↔ v' = .null)
    (before after : List (String × Json)) :
    t.read? (.obj (before ++ (key, place v) :: after)) =
      t.read? (.obj (before ++ (key, place v') :: after)) := by
  by_cases hv0 : v = .null
  · rw [hv0, hnull.1 hv0]
  · obtain ⟨i, p, R, hf, hR, hsame⟩ := h.exists_reading hv
    have hne := h.place_ne_null hv0
    have hne' := h.place_ne_null fun heq => hv0 (hnull.2 heq)
    rw [RecordType.read?_eq]
    exact t.readBy.read?_obj_replace t.nodup_keys hf hR hne hne' hsame before after

/-- Two values spell one record of a type: the spellings of a record with those of the records in
it, at any depth. -/
inductive Alike : RecordType → Json → Json → Prop
  | refl (t : RecordType) (j : Json) : Alike t j j
  | symm {t : RecordType} {j j' : Json} : Alike t j j' → Alike t j' j
  | trans {t : RecordType} {j j' j'' : Json} : Alike t j j' → Alike t j' j'' → Alike t j j''
  /-- An array, and the object of its leading fields. -/
  | arr_obj {t : RecordType} {items : List Json} : items.length ≤ t.declared.length →
      (∀ d ∈ t.declared.drop items.length, d.presence.absentItem = true) →
        Alike t (.arr items) (.obj ((t.declared.map (·.key)).zip items))
  /-- The keys in another order. -/
  | perm {t : RecordType} {entries entries' : List (String × Json)} :
      (entries.map Prod.fst).Nodup → entries.Perm entries' → Alike t (.obj entries) (.obj entries')
  /-- A key that is not declared. -/
  | foreign {t : RecordType} {key : String} (before after : List (String × Json)) (v : Json) :
      key ∉ t.declared.map (·.key) →
        Alike t (.obj (before ++ (key, v) :: after)) (.obj (before ++ after))
  /-- A default that is left out. -/
  | omitted {t : RecordType} (d : Json.Declaration t.Value) {o : Json.Omission t.Value}
      (before after : List (String × Json)) : d ∈ t.declared → d.presence.absentKey = true →
        o ∈ d.omission → d.key ∉ (before ++ after).map Prod.fst →
          Alike t (.obj (before ++ after)) (.obj (before ++ (d.key, o.json) :: after))
  /-- A record in the record, spelled in another way. -/
  | part {t u : RecordType} {key : String} {place : Json → Json} {v v' : Json}
      (before after : List (String × Json)) : Part t key place u → Alike u v v' →
        Alike t (.obj (before ++ (key, place v) :: after))
          (.obj (before ++ (key, place v') :: after))

/-- Spellings of one record are read alike; and only `null` is spelled like `null`. -/
theorem Alike.read?_eq {t : RecordType} {j j' : Json} (h : Alike t j j') :
    t.read? j = t.read? j' ∧ (j = .null ↔ j' = .null) := by
  induction h with
  | refl => exact ⟨rfl, .rfl⟩
  | symm _ ih => exact ⟨ih.1.symm, ih.2.symm⟩
  | trans _ _ ih ih' => exact ⟨ih.1.trans ih'.1, ih.2.trans ih'.2⟩
  | arr_obj hlength hrest => exact ⟨(spelled _).arr_eq_obj _ hlength hrest, by simp⟩
  | perm hnodup h => exact ⟨(spelled _).perm _ _ hnodup h, by simp⟩
  | foreign before after v hkey => exact ⟨(spelled _).foreign before after _ v hkey, by simp⟩
  | omitted d before after hd habsent ho hkey =>
    obtain ⟨o', ho', h⟩ := (spelled _).omitted _ hd habsent
    obtain rfl := Option.mem_unique ho ho'
    exact ⟨(h before after hkey).1, by simp⟩
  | part before after hpart _ ih => exact ⟨hpart.read?_eq ih.1 ih.2 before after, by simp⟩

/-- **Equivalent spellings are read alike.** For every record type of a schema: an object is read
as the record of which each field is read from the value under its own key, and fails if there is
none. An array is read as the object of its leading fields if the others have a default, the keys of
an object may stand in any order with any others among them, a field that is left out is its
default, `null` is refused where the field is not optional, and so are too many items in an array.
Values that differ by any number of such steps, in the record itself or in the records in it at any
depth, are read alike, whether they can be read or not. -/
theorem spellings (t : RecordType) :
    Spelled t.read? t.declared t.readings ∧ ∀ j j' : Json, Alike t j j' → t.read? j = t.read? j' :=
  ⟨t.spelled, fun _ _ h => h.read?_eq.1⟩

/-- A request type as an array. -/
def terseRequest : Json := .arr [.str "Query", .str "acme.Query"]

/-- The same type as an object. -/
def wordyRequest : Json :=
  .obj [("full_name", .str "acme.Query"), ("import_path", .str ""), ("name", .str "Query")]

/-- A method as an array, with its request type. -/
def terseMethod : Json := .arr [.str "Get", .str "acme.Users.Get", terseRequest, .null]

/-- The same method as an object, with a key that means nothing. -/
def wordyMethod : Json :=
  .obj [("input", wordyRequest), ("comment", .int 7), ("output", .null), ("name", .str "Get"),
    ("full_name", .str "acme.Users.Get"), ("options", .obj [])]

theorem terseRequest_alike : Alike typeName terseRequest wordyRequest := by
  let name : String × Json := ("name", .str "Query")
  let fullName : String × Json := ("full_name", .str "acme.Query")
  let path : String × Json := ("import_path", .str "")
  have hobj : Alike typeName terseRequest (.obj [name, fullName]) :=
    .arr_obj (by decide) (by decide)
  have hpath : Alike typeName (.obj [name, fullName]) (.obj [name, fullName, path]) :=
    .omitted (.withDefault "import_path" (.str "") TypeName.importPath "") [name, fullName] []
      (by simp [declared]) rfl rfl (by decide)
  have horder : Alike typeName (.obj [name, fullName, path]) wordyRequest :=
    .perm (by decide) (@List.perm_append_comm _ [name] [fullName, path])
  exact hobj.trans (hpath.trans horder)

theorem terseMethod_alike : Alike method terseMethod wordyMethod := by
  let name : String × Json := ("name", .str "Get")
  let fullName : String × Json := ("full_name", .str "acme.Users.Get")
  let output : String × Json := ("output", .null)
  let input : String × Json := ("input", wordyRequest)
  let options : String × Json := ("options", .obj [])
  have hobj : Alike method terseMethod (.obj [name, fullName, ("input", terseRequest), output]) :=
    .arr_obj (by decide) (by decide)
  have hinput : Alike method (.obj [name, fullName, ("input", terseRequest), output])
      (.obj [name, fullName, input, output]) :=
    .part [name, fullName] [output] .input_of_method terseRequest_alike
  have horder : Alike method (.obj [name, fullName, input, output])
      (.obj [input, output, name, fullName]) :=
    .perm (by decide) (@List.perm_append_comm _ [name, fullName] [input, output])
  have hoptions : Alike method (.obj [input, output, name, fullName])
      (.obj [input, output, name, fullName, options]) :=
    .omitted (.withDefault "options" (.obj []) Method.options .unset)
      [input, output, name, fullName] [] (by simp [declared]) rfl rfl (by decide)
  have hcomment : Alike method wordyMethod (.obj [input, output, name, fullName, options]) :=
    .foreign [input] [output, name, fullName, options] (.int 7) (by decide)
  exact hobj.trans (hinput.trans (horder.trans (hoptions.trans hcomment.symm)))

theorem spellings_terseMethod :
    method.read? terseMethod = method.read? wordyMethod ∧
      method.read? wordyMethod = some ⟨"Get", "acme.Users.Get", some ⟨"Query", "acme.Query", ""⟩,
        none, false, false, .unset⟩ :=
  ⟨(spellings method).2 _ _ terseMethod_alike, rfl⟩

end RecordType
end Redaction
