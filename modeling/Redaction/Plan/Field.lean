import Redaction.Rule
import Redaction.Schema.Basic

/-!
# Plans of fields

What generated code does with one field of a message, decided from the field's redaction options.

* A field without options, or with options that ask for nothing, is kept.
* The bare flag puts the blank of the kind in place of a value, has the redactor of an embedded
  message called, and sets a whole collection to `nil`.
* A structured rule is classified and checked against the field; it then sets, empties, skips or
  redacts the field, or each element of the collection.
* A value that is put into an optional scalar goes in through a pointer.
-/

namespace Redaction

/-- What generated code does with one field. -/
structure FieldPlan where
  name : String
  /-- Whether the field is redacted at all. -/
  redact : Bool
  /-- The Go expression that is assigned to the field, or to every element if `iterate` is set. -/
  value : Option String
  /-- The Go type of the value, or of one element of a collection. -/
  goType : String
  isMap : Bool
  isRepeated : Bool
  /-- Whether the field is a pointer to one embedded message. -/
  isMessage : Bool
  /-- Whether the field is a pointer to one scalar. -/
  isOptional : Bool
  /-- Whether every element is redacted and not the collection as a whole. -/
  iterate : Bool
  /-- Whether the redactor of the embedded message is called. -/
  nestedCall : Bool
  /-- Whether the embedded message is skipped on request. -/
  embedSkip : Bool
  /-- The bare name of the embedded message. -/
  embedName : Option String
  /-- The name of the embedded message in the generated file. -/
  embedQualified : Option String
deriving DecidableEq

/-! ### The field before its options -/

namespace Field

/-- Where the faults of a field are located. -/
def location (owner : String) (f : Field) : String := owner ++ "." ++ f.name

/-- The Go type of one value. -/
def goType (naming : Naming) (f : Field) : String :=
  match f.kind.goType? with
  | some t => t
  | none =>
    let named := (f.type.map naming).getD ""
    if f.kind = .message then "*" ++ named else named

/-- The type of the message that the field embeds. -/
def embedded (f : Field) : Option TypeName := if f.kind = .message then f.type else none

/-- The plan that keeps the field. -/
def keepPlan (naming : Naming) (f : Field) : FieldPlan where
  name := f.name
  redact := false
  value := none
  goType := f.goType naming
  isMap := f.multiplicity.isMap
  isRepeated := f.multiplicity == .repeated
  isMessage := f.multiplicity == .singular && f.kind == .message
  isOptional :=
    f.multiplicity == .singular && f.isOptional && f.kind != .bytes && f.kind != .message
  iterate := false
  nestedCall := false
  embedSkip := false
  embedName := f.embedded.map TypeName.name
  embedQualified := f.embedded.map naming

/-- Neither a collection nor a field that is not marked is behind a pointer. -/
theorem isOptional_keepPlan {f : Field} (h : f.multiplicity ≠ .singular ∨ f.isOptional = false)
    (naming : Naming) : (f.keepPlan naming).isOptional = false := by
  rcases h with h | h <;> simp [keepPlan, h]

/-- Checks that a field whose type is not settled by its kind names one. -/
def checkType (location : String) (f : Field) : Except Fault Unit :=
  if f.kind.namesType && f.type.isNone then
    .error (Fault.structural location (f.kind.name ++ " field has no type reference"))
  else .ok ()

end Field

/-! ### The field under its options -/

namespace FieldPlan

/-- The expression for a value in the place of the field, through a pointer if it is optional. -/
def wrap (p : FieldPlan) (expression : String) : String :=
  if p.isOptional ∧ expression ≠ nilLiteral then Go.addressOf p.goType expression
  else expression

theorem wrap_of_not_isOptional {p : FieldPlan} (h : p.isOptional = false) (expression : String) :
    p.wrap expression = expression := by
  simp [wrap, h]

theorem wrap_nilLiteral (p : FieldPlan) : p.wrap nilLiteral = nilLiteral := by
  simp [wrap]

/-- The blank of a kind, or of a whole collection, in the place of the field; one message has
none. -/
def blankValue (p : FieldPlan) (kind : Kind) (holdsMany : Bool) : Option String :=
  let text := kind.blankText holdsMany
  if text = noBlank then none else some (p.wrap text)

theorem blankValue_one (p : FieldPlan) (kind : Kind) :
    p.blankValue kind false = kind.blank?.map p.wrap := by
  cases kind <;> rfl

theorem blankValue_many (p : FieldPlan) (kind : Kind) :
    p.blankValue kind true = some nilLiteral := by
  rw [← p.wrap_nilLiteral]
  rfl

/-- The plan under the bare flag. -/
def flag (p : FieldPlan) (f : Field) : FieldPlan :=
  { p with
    redact := true
    value := p.blankValue f.kind f.multiplicity.holdsMany
    nestedCall := p.isMessage }

/-- The plan under a message rule. -/
def treat (p : FieldPlan) : Treatment → FieldPlan
  | .empty => { p with value := some ("&" ++ Go.emptyOf (p.embedQualified.getD "")) }
  | .nil => { p with value := some nilLiteral }
  | .skip => { p with embedSkip := true }
  | .recurse => { p with nestedCall := true }

@[simp] theorem iterate_treat (p : FieldPlan) (t : Treatment) :
    (p.treat t).iterate = p.iterate := by
  cases t <;> rfl

/-- The expression for an empty collection. -/
def emptyLiteral (p : FieldPlan) (location : String) : Multiplicity → Except Fault String
  | .map key =>
    match key.keyType? with
    | some t => .ok (Go.emptyOf ("map[" ++ t ++ "]" ++ p.goType))
    | none => .error (Fault.structural location (key.name ++ " is not a valid map key type"))
  | _ => .ok (Go.emptyOf ("[]" ++ p.goType))

/-- The plan under the payload of an item, for elements of a kind. An element rule is refused
before it is looked into. -/
def underItem (p : FieldPlan) (location : String) (kind : Kind) (item : Payload) :
    Except Fault FieldPlan :=
  if item.isElement then .error (Fault.nestedTooDeep location)
  else do
    let rule ← item.toRule location
    rule.checkItem location kind
    match rule with
    | .scalar _ literal => return { p with value := some literal }
    | .message t => return p.treat t
    | .element _ => .error (Fault.nestedTooDeep location)

/-- The plan under an element rule. -/
def underAction (p : FieldPlan) (location : String) (f : Field) :
    CollectionAction → Except Fault FieldPlan
  | .empty => do return { p with value := some (← p.emptyLiteral location f.multiplicity) }
  | .nested =>
    return { p with
      iterate := true
      value := p.blankValue f.kind false
      nestedCall := f.kind == .message }
  | .item item => underItem { p with iterate := true } location f.kind item

/-- The plan under a structured rule. -/
def underRule (p : FieldPlan) (location : String) (f : Field) (payload : Payload) :
    Except Fault FieldPlan := do
  let rule ← payload.toRule location
  rule.checkField location f.kind f.multiplicity
  match rule with
  | .scalar _ literal => return { p with value := some (p.wrap literal) }
  | .message t => return p.treat t
  | .element a => p.underAction location f a

/-- The plan under the options of the field. A structured rule goes before the bare flag. -/
def underOptions (p : FieldPlan) (location : String) (f : Field) : Except Fault FieldPlan :=
  match f.rule? with
  | some payload => underRule { p with redact := true } location f payload
  | none => .ok (if f.isFlagged then p.flag f else p)

end FieldPlan

/-- The plan of a field of the message `owner`. -/
def Field.resolve (owner : String) (naming : Naming) (f : Field) : Except Fault FieldPlan := do
  f.checkType (f.location owner)
  (f.keepPlan naming).underOptions (f.location owner) f

end Redaction
