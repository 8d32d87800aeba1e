import Redaction.Schema.Json

/-!
# Schemas survive JSON

A schema that is written as JSON is read back as it was. Floating-point values are left out of this:
they are written in the wide format, and as `null` if they are not finite.

* `Json.Record.read?_obj`: an object with the fields of a record type in order is read item by item,
  so that a record is read back if each of its fields is.
* `Json.ReadsBack read write a`: a value is read back, and not written as `null`, which would stand
  for none. `ReadsBack.list` and `ReadsBack.exists_slot` are the laws of the parts that may be there
  any number of times, or not at all.
* `readsBack` says this of each type of a schema. A payload is read back by induction over the items
  nested in it.
* `SourceFile.survives_json` is the statement for files.
-/

namespace Redaction

/-! ### Laws of reading -/

namespace Json

variable {α : Type} {read : Json → Option α} {write : α → Json}

/-- An object with the fields of a record type in order is read item by item. -/
theorem Record.read?_obj (r : Record α) (items : List Json)
    (hkeys : (r.fields.map (·.key)).Nodup) (hlength : items.length = r.fields.length) :
    r.read? (obj ((r.fields.map (·.key)).zip items)) =
      (itemSlots? r.fields items).bind r.ofSlots? := by
  have hall : ∀ f ∈ r.fields.drop items.length, f.presence.absentItem = true := by
    simp [hlength]
  exact congrArg (·.bind r.ofSlots?) (slots?_arr_eq_obj hkeys (Nat.le_of_eq hlength) hall).symm

/-- A value is read back from what is written for it, and that is not `null`. -/
structure ReadsBack (read : Json → Option α) (write : α → Json) (a : α) : Prop where
  read_eq : read (write a) = some a
  ne_null : write a ≠ null

@[simp] theorem slot?_str (p : Presence) (s : String) : p.slot? (str s) = some (some (str s)) := rfl

@[simp] theorem slot?_bool (p : Presence) (b : Bool) : p.slot? (bool b) = some (some (bool b)) :=
  rfl

@[simp] theorem slot?_arr (p : Presence) (items : List Json) :
    p.slot? (arr items) = some (some (arr items)) := rfl

namespace ReadsBack

/-- A field that has a value holds what is written for it. -/
theorem slot {a : α} (h : ReadsBack read write a) (p : Presence) :
    p.slot? (write a) = some (some (write a)) :=
  slot?_of_ne_null p h.ne_null

/-- A field that may have no value is read back if the value is where there is one. -/
theorem exists_slot {p : Presence} (hp : p.allowsNull = true) {o : Option α}
    (h : ∀ a ∈ o, ReadsBack read write a) :
    ∃ s, p.slot? (ofOption write o) = some s ∧ maybe read s = some o := by
  cases o with
  | none => exact ⟨none, if_pos hp, rfl⟩
  | some a => exact ⟨some (write a), (h a rfl).slot p, congrArg (Option.map some) (h a rfl).read_eq⟩

/-- A list is read back if each of its items is. -/
theorem list {l : List α} (h : ∀ a ∈ l, ReadsBack read write a) :
    (arr (l.map write)).list? read = some l := by
  show (l.map write).mapM read = some l
  induction l with
  | nil => rfl
  | cons a rest ih =>
    obtain ⟨ha, hrest⟩ := List.forall_mem_cons.1 h
    rw [List.map_cons, List.mapM_cons, ha.read_eq, ih hrest]
    rfl

end ReadsBack

theorem readsBack_text (s : String) : ReadsBack text? str s := ⟨rfl, nofun⟩

theorem readsBack_uint32 (n : UInt32) : ReadsBack uint32? (fun n => int n.toNat) n :=
  ⟨uint32?_int n, nofun⟩

theorem readsBack_byte (n : UInt8) : ReadsBack byte? (fun n => int n.toNat) n :=
  ⟨byte?_int n, nofun⟩

theorem ofText?_eq (o : Option String) : ofText? o = ofOption str o := by cases o <;> rfl

end Json

open Json (ReadsBack itemSlots?)

/-! ### Types and options -/

theorem TypeName.readsBack (t : TypeName) : ReadsBack ofJson? toJson t :=
  ⟨record.read?_obj [.str t.name, .str t.fullName, .str t.importPath] (by decide) rfl, nofun⟩

theorem EmbedFlags.readsBack (m : EmbedFlags) : ReadsBack ofJson? toJson m :=
  ⟨record.read?_obj [.bool m.nil, .bool m.empty, .bool m.skip] (by decide) rfl, nofun⟩

theorem OverrideFlags.readsBack (o : OverrideFlags) : ReadsBack ofJson? toJson o :=
  ⟨record.read?_obj [.bool o.ignored, .bool o.nil, .bool o.empty] (by decide) rfl, nofun⟩

theorem Kind.readsBack (k : Kind) : ReadsBack ofJson? toJson k := ⟨ofJson?_toJson k, nofun⟩

theorem Multiplicity.readsBack (m : Multiplicity) : ReadsBack ofJson? toJson m := by
  cases m with
  | map key => exact ⟨by cases key <;> rfl, nofun⟩
  | _ => exact ⟨rfl, nofun⟩

theorem CallOptions.readsBack (o : CallOptions) : ReadsBack ofJson? toJson o := by
  obtain ⟨code, hcode, hreadCode⟩ := ReadsBack.exists_slot (p := .optional) rfl
    fun n (_ : n ∈ o.code) => Json.readsBack_uint32 n
  obtain ⟨text, htext, hreadText⟩ := ReadsBack.exists_slot (p := .optional) rfl
    fun s (_ : s ∈ o.errorMessage) => Json.readsBack_text s
  refine ⟨(record.read?_obj [.bool o.skip, .bool o.internal,
    .ofOption (fun n : UInt32 => .int n.toNat) o.code, .ofText? o.errorMessage]
    (by decide) rfl).trans ?_, nofun⟩
  simp [record, itemSlots?, Json.ofText?_eq, hcode, hreadCode, htext, hreadText]

theorem Import.readsBack (i : Import) : ReadsBack ofJson? toJson i := by
  obtain ⟨symbol, hsymbol, hread⟩ := ReadsBack.exists_slot (p := .optional) rfl
    fun t (_ : t ∈ i.firstSymbol) => t.readsBack
  refine ⟨(record.read?_obj [.str i.importPath, .str i.packageName,
    .ofOption TypeName.toJson i.firstSymbol] (by decide) rfl).trans ?_, nofun⟩
  simp [record, itemSlots?, hsymbol, hread]

/-! ### Rules -/

/-- Whether a scalar is no floating-point number. -/
def Scalar.isFloatFree : Scalar → Bool
  | float _ | double _ => false
  | _ => true

/-- Whether no value in a payload is a floating-point number. -/
def Payload.isFloatFree : Payload → Bool
  | scalar v => v.isFloatFree
  | element _ _ (some item) => item.isFloatFree
  | _ => true

/-- A scalar is read back as one of its kind. -/
theorem Scalar.ofJson?_kind (v : Scalar) (h : v.isFloatFree = true) :
    ofJson? v.kind v.toJson = some v := by
  cases v with
  | float | double => cases h
  | bool | string => rfl
  | bytes b =>
    exact congrArg (Option.map bytes) (ReadsBack.list fun n _ => Json.readsBack_byte n)
  | integer k n hn =>
    have hread : ofJson? k (.int n) = if h : k.Holds n then some (integer k n h) else none := by
      obtain ⟨r, hr, -⟩ := hn
      cases k <;> first | rfl | cases hr
    exact hread.trans (dif_pos hn)

namespace Payload

theorem ofJson?_toJson_eq (p : Payload) {name : String} {v : Json}
    (h : p.branchToJson = .obj [(name, v)]) :
    ofJson? p.toJson = branchOfJson? (.obj [(name, v)]) := by
  rw [ofJson?_eq, toJson, h]
  exact record.read?_obj [.obj [(name, v)]] (by decide) rfl

/-- The branch of a scalar is read as a scalar of its kind. -/
theorem branchOfJson?_scalar {k : Kind} (hk : k ≠ .message) (v : Json) :
    branchOfJson? (.obj [(k.name, v)]) = (Scalar.ofJson? k v).map scalar := by
  have hname : k.name ≠ "element" := by cases k <;> decide
  rw [branchOfJson?, if_neg hname, Kind.ofName?_name]
  cases k <;> first | rfl | exact absurd rfl hk

theorem branchToJson_element (empty nested : Bool) (item : Option Payload) :
    (element empty nested item).branchToJson = .obj [("element", .obj [("empty", .bool empty),
      ("nested", .bool nested), ("item", .ofOption toJson item)])] := by
  cases item <;> rw [branchToJson] <;> rfl

/-- An element rule is read back if the item in it is. -/
theorem readsBack_element {empty nested : Bool} {item : Option Payload}
    (h : ∀ p ∈ item, ReadsBack ofJson? toJson p) :
    ReadsBack ofJson? toJson (element empty nested item) := by
  obtain ⟨slot, hslot, hread⟩ := ReadsBack.exists_slot (p := .optional) rfl h
  refine ⟨?_, nofun⟩
  rw [ofJson?_toJson_eq _ (branchToJson_element empty nested item)]
  refine (elementRecord.read?_obj [.bool empty, .bool nested, .ofOption toJson item]
    (by decide) rfl).trans ?_
  simp [elementRecord, elementFields, itemSlots?, hslot, hread]

/-- A payload is read back, however deep its items are nested. -/
theorem readsBack : ∀ p : Payload, p.isFloatFree = true → ReadsBack ofJson? toJson p
  | blank, _ => by
    refine ⟨?_, nofun⟩
    rw [ofJson?_eq]
    exact record.read?_obj [.null] (by decide) rfl
  | scalar v, h => by
    have hbranch : (scalar v).branchToJson = .obj [(v.kind.name, v.toJson)] := by rw [branchToJson]
    refine ⟨?_, nofun⟩
    rw [ofJson?_toJson_eq _ hbranch, branchOfJson?_scalar v.kind_ne_message,
      v.ofJson?_kind (by simpa [isFloatFree] using h)]
    rfl
  | message flags, _ => by
    have hbranch : (message flags).branchToJson = .obj [("message", flags.toJson)] := by
      rw [branchToJson]
    refine ⟨?_, nofun⟩
    rw [ofJson?_toJson_eq _ hbranch]
    exact congrArg (Option.map message) flags.readsBack.read_eq
  | element empty nested none, _ => readsBack_element nofun
  | element empty nested (some item), h => by
    have hitem := readsBack item (by simpa [isFloatFree] using h)
    exact readsBack_element fun p hp => Option.some.inj hp ▸ hitem

end Payload

theorem Annotation.readsBack {a : Annotation} (h : ∀ p ∈ a.custom, p.isFloatFree = true) :
    ReadsBack ofJson? toJson a := by
  obtain ⟨custom, hcustom, hread⟩ := ReadsBack.exists_slot (p := .optional) rfl
    fun p hp => Payload.readsBack p (h p hp)
  refine ⟨(record.read?_obj [.bool a.redact, .ofOption Payload.toJson a.custom]
    (by decide) rfl).trans ?_, nofun⟩
  simp [record, itemSlots?, hcustom, hread]

/-! ### Messages -/

/-- Whether the rule for a field has no floating-point number. -/
def Field.IsFloatFree (f : Field) : Prop := ∀ p ∈ f.rule?, p.isFloatFree = true

instance (f : Field) : Decidable f.IsFloatFree :=
  inferInstanceAs (Decidable (∀ p ∈ f.rule?, p.isFloatFree = true))

/-- Whether no rule in a message has a floating-point number. -/
def Message.IsFloatFree (m : Message) : Prop := ∀ f ∈ m.fields, f.IsFloatFree

instance (m : Message) : Decidable m.IsFloatFree :=
  inferInstanceAs (Decidable (∀ f ∈ m.fields, f.IsFloatFree))

theorem Field.readsBack {f : Field} (h : f.IsFloatFree) : ReadsBack ofJson? toJson f := by
  have hrule : ∀ a ∈ f.annotation, ∀ p ∈ a.custom, p.isFloatFree = true :=
    fun a ha p hp => h p (Option.bind_eq_some_iff.2 ⟨a, ha, hp⟩)
  obtain ⟨type, htype, hreadType⟩ := ReadsBack.exists_slot (p := .optional) rfl
    fun t (_ : t ∈ f.type) => t.readsBack
  obtain ⟨options, hoptions, hreadOptions⟩ := ReadsBack.exists_slot (p := .optional) rfl
    fun a ha => Annotation.readsBack (hrule a ha)
  have hkind := f.kind.readsBack
  have hmultiplicity := f.multiplicity.readsBack
  refine ⟨(record.read?_obj [.str f.name, f.kind.toJson, f.multiplicity.toJson,
    .bool f.isOptional, .ofOption TypeName.toJson f.type,
    .ofOption Annotation.toJson f.annotation] (by decide) rfl).trans ?_, nofun⟩
  simp [record, itemSlots?, hkind.slot, hkind.read_eq, hmultiplicity.slot, hmultiplicity.read_eq,
    htype, hreadType, hoptions, hreadOptions]

theorem Message.readsBack {m : Message} (h : m.IsFloatFree) : ReadsBack ofJson? toJson m := by
  have htype := m.type.readsBack
  have hfields := ReadsBack.list fun f hf => Field.readsBack (h f hf)
  have hoptions := m.options.readsBack
  refine ⟨(record.read?_obj [m.type.toJson, .arr (m.fields.map Field.toJson), m.options.toJson]
    (by decide) rfl).trans ?_, nofun⟩
  simp [record, itemSlots?, htype.slot, htype.read_eq, hfields, hoptions.slot, hoptions.read_eq]

/-! ### Services -/

/-- Whether no rule in the response of a method has a floating-point number. -/
def Method.IsFloatFree (m : Method) : Prop := ∀ o ∈ m.output, o.IsFloatFree

instance (m : Method) : Decidable m.IsFloatFree :=
  inferInstanceAs (Decidable (∀ o ∈ m.output, o.IsFloatFree))

/-- Whether no rule in the responses of a service has a floating-point number. -/
def Service.IsFloatFree (s : Service) : Prop := ∀ m ∈ s.methods, m.IsFloatFree

instance (s : Service) : Decidable s.IsFloatFree :=
  inferInstanceAs (Decidable (∀ m ∈ s.methods, m.IsFloatFree))

theorem Method.readsBack {m : Method} (h : m.IsFloatFree) : ReadsBack ofJson? toJson m := by
  obtain ⟨input, hinput, hreadInput⟩ := ReadsBack.exists_slot (p := .nullable) rfl
    fun t (_ : t ∈ m.input) => t.readsBack
  obtain ⟨output, houtput, hreadOutput⟩ := ReadsBack.exists_slot (p := .nullable) rfl
    fun o ho => Message.readsBack (h o ho)
  have hoptions := m.options.readsBack
  refine ⟨(record.read?_obj [.str m.name, .str m.fullName, .ofOption TypeName.toJson m.input,
    .ofOption Message.toJson m.output, .bool m.clientStreaming, .bool m.serverStreaming,
    m.options.toJson] (by decide) rfl).trans ?_, nofun⟩
  simp [record, itemSlots?, hinput, hreadInput, houtput, hreadOutput, hoptions.slot,
    hoptions.read_eq]

theorem Service.readsBack {s : Service} (h : s.IsFloatFree) : ReadsBack ofJson? toJson s := by
  have hmethods := ReadsBack.list fun m hm => Method.readsBack (h m hm)
  have hoptions := s.options.readsBack
  refine ⟨(record.read?_obj [.str s.name, .str s.fullName, .arr (s.methods.map Method.toJson),
    s.options.toJson] (by decide) rfl).trans ?_, nofun⟩
  simp [record, itemSlots?, hmethods, hoptions.slot, hoptions.read_eq]

/-! ### Files -/

namespace SourceFile

/-- Whether no rule in a file has a floating-point number. -/
structure IsFloatFree (f : SourceFile) : Prop where
  messages : ∀ m ∈ f.messages, m.IsFloatFree
  services : ∀ s ∈ f.services, s.IsFloatFree

/-- **A schema survives JSON.** A file in which no rule has a floating-point number is read back
from the value that is written for it, whatever its messages and services are, whichever optional
parts are there, and however deep the items of its rules are nested. -/
theorem survives_json {f : SourceFile} (h : f.IsFloatFree) : ofJson? f.toJson = some f := by
  have himports := ReadsBack.list fun i (_ : i ∈ f.imports) => i.readsBack
  have hmessages := ReadsBack.list fun m hm => Message.readsBack (h.messages m hm)
  have hservices := ReadsBack.list fun s hs => Service.readsBack (h.services s hs)
  refine (record.read?_obj [.str f.name, .str f.package, .str f.importPath,
    .arr (f.imports.map Import.toJson), .arr (f.messages.map Message.toJson),
    .arr (f.services.map Service.toJson), .bool f.skip] (by decide) rfl).trans ?_
  simp [record, itemSlots?, himports, hmessages, hservices]

/-- A file with rules nested in rules, a map, and parts that are there in one place and missing in
another. -/
def withNestedRules : SourceFile :=
  let digest := .elementItem (.elementItem (.scalar (.bytes [0, 255])))
  let digests := Field.withAnnotation ((Field.ofKind "Digests" .bytes).asMap .string) (.rule digest)
  let total := Field.withAnnotation (.ofKind "Total" .uint64)
    (.rule (.scalar (.integer .uint64 18446744073709551615 (by decide))))
  let owner := Field.withAnnotation (.embedding "Owner" (.ofNames "User" "acme.User")) .blankRule
  let ledger := (((Message.ofType (.ofNames "Ledger" "acme.Ledger")).push digests).push total).push
    owner
  let close : Method := ⟨"Close", "", none, some ledger, false, true, ⟨false, true, some 7, none⟩⟩
  { name := "acme/ledger.proto"
    package := "acme"
    importPath := "example.com/acme"
    imports := [⟨"example.com/dates", "dates", none⟩]
    messages := [ledger]
    services := [(Service.ofNames "Ledgers" "acme.Ledgers").push close]
    skip := false }

theorem survives_withNestedRules :
    withNestedRules.IsFloatFree ∧ ofJson? withNestedRules.toJson = some withNestedRules := by
  have h : withNestedRules.IsFloatFree := ⟨by decide, by decide⟩
  exact ⟨h, survives_json h⟩

end SourceFile
end Redaction
