import Redaction.Schema.Annotation
import Redaction.Fault
import Redaction.Go.Literal

/-!
# Rules

A rule is a payload that has been found well formed: a scalar with its Go literal, one treatment of
an embedded message, or one action on a collection. The payload of an item is not looked into; it is
classified when the action is taken.

* `Payload.toRule` finds the rule or says what is wrong.
* `ruleSpelling` and `itemSpelling` name the branch that fits a field or an element.
-/

namespace Redaction

/-- What happens to an embedded message. -/
inductive Treatment where
  | nil
  | empty
  | skip
  /-- Its own redactor is called. -/
  | recurse
deriving DecidableEq

/-- The flags that ask for a treatment. -/
def Treatment.flags : Treatment → EmbedFlags
  | nil => .ofNil
  | empty => .ofEmpty
  | skip => .ofSkip
  | recurse => .unset

/-- The treatment that flags ask for, if at most one is set. -/
def EmbedFlags.treatment? : EmbedFlags → Option Treatment
  | ⟨false, false, false⟩ => some .recurse
  | ⟨true, false, false⟩ => some .nil
  | ⟨false, true, false⟩ => some .empty
  | ⟨false, false, true⟩ => some .skip
  | _ => none

theorem EmbedFlags.treatment?_eq_some_iff (m : EmbedFlags) (t : Treatment) :
    m.treatment? = some t ↔ m = t.flags := by
  obtain ⟨a, b, c⟩ := m
  cases a <;> cases b <;> cases c <;> cases t <;> decide

/-- What an element rule does to a collection. -/
inductive CollectionAction where
  | empty
  | nested
  | item (payload : Payload)

/-- A well-formed rule. -/
inductive Rule where
  | scalar (kind : Kind) (literal : String)
  | message (treatment : Treatment)
  | element (action : CollectionAction)

namespace Rule

/-- The kind of the values that the rule is for; an element rule is for collections of any kind. -/
def kind? : Rule → Option Kind
  | scalar k _ => some k
  | message _ => some .message
  | element _ => none

/-- Whether the rule is for a whole collection. -/
def isContainer : Rule → Bool
  | element _ => true
  | _ => false

end Rule

/-! ### Classification -/

/-- The Go literal of a finite floating-point number. -/
def Binary.literal {f : Format} (location : String) (v : Binary f) : Except Fault String :=
  if v.isFinite then .ok v.decimal else .error (Fault.notFinite location v.decimal)

/-- The Go literal of a scalar. -/
def Scalar.literal (location : String) : Scalar → Except Fault String
  | float v => v.literal location
  | double v => v.literal location
  | integer _ v _ => .ok (toString v)
  | bool b => .ok (toString b)
  | string s => .ok (Go.textLiteral s)
  | bytes b => .ok (Go.byteSliceLiteral b)

/-- The treatment that flags ask for; more than one flag is a fault. -/
def EmbedFlags.treatment (location : String) (m : EmbedFlags) : Except Fault Treatment :=
  match m.treatment? with
  | some t => .ok t
  | none => .error (Fault.conflictingMessageFlags location m.nil m.empty m.skip)

/-- The action of an element rule; no option or more than one is a fault. -/
def Payload.collectionAction (location : String) (empty nested : Bool) (item : Option Payload) :
    Except Fault CollectionAction :=
  match empty, nested, item with
  | true, false, none => .ok .empty
  | false, true, none => .ok .nested
  | false, false, some p => .ok (.item p)
  | false, false, none => .error (Fault.badElementRule location "element rule with no option set")
  | _, _, _ =>
    .error (Fault.badElementRule location (Fault.flagList
      [("empty", empty), ("nested", nested), ("item", item.isSome)]))

/-- The rule that the payload of an option at a location writes. -/
def Payload.toRule (location : String) : Payload → Except Fault Rule
  | blank => .error (Fault.blankRule location)
  | scalar s => do return .scalar s.kind (← s.literal location)
  | message flags => do return .message (← flags.treatment location)
  | element empty nested item => do return .element (← collectionAction location empty nested item)

/-! ### Spellings -/

/-- The branch for collections. -/
def elementSpelling : String := "(redact.custom).element.*"

/-- The last part of the branch for one value of a kind. -/
def Kind.branchName : Kind → String
  | .message => "message.*"
  | k => k.name

/-- The branch that fits a field. -/
def ruleSpelling (kind : Kind) (multiplicity : Multiplicity) : String :=
  if multiplicity.holdsMany then elementSpelling else "(redact.custom)." ++ kind.branchName

/-- The branch that fits an element of a collection. -/
def itemSpelling (kind : Kind) : String := "(redact.custom).element.item." ++ kind.branchName

/-! ### Fitting -/

/-- The hint to use a branch. -/
def useInstead (spelling : String) : String := "use " ++ spelling ++ " instead"

namespace Fault

/-- A rule for another kind than the field's. -/
def ruleKind (location : String) (expected found : Kind) (spelling : String) : Fault :=
  ⟨location, .kindMismatch {
    expected := "rule for type " ++ expected.name
    found := "rule for type " ++ found.name
    hint := useInstead spelling }⟩

/-- An item rule for another kind than the elements'. -/
def itemKind (location : String) (expected found : Kind) : Fault :=
  ⟨location, .kindMismatch {
    expected := "item rule for type " ++ expected.name
    found := "item rule for type " ++ found.name
    hint := useInstead (itemSpelling expected) }⟩

/-- A rule for one value on a collection. -/
def ruleForOne (location : String) (multiplicity : Multiplicity) (spelling : String) : Fault :=
  ⟨location, .labelMismatch {
    expected := elementSpelling
    found := "rule for a single value"
    hint := multiplicity.name ++ " fields require element rules, " ++ useInstead spelling }⟩

/-- An element rule on a field with one value. -/
def ruleForMany (location : String) (spelling : String) : Fault :=
  ⟨location, .labelMismatch {
    expected := spelling
    found := elementSpelling
    hint := "element rules only apply to repeated and map fields, " ++ useInstead spelling }⟩

end Fault

/-- Checks that a rule is for the kind of a field and for as many values as it holds. -/
def Rule.checkField (location : String) (kind : Kind) (multiplicity : Multiplicity) (r : Rule) :
    Except Fault Unit :=
  let spelling := ruleSpelling kind multiplicity
  match r.kind? with
  | some k =>
    if k ≠ kind then .error (Fault.ruleKind location kind k spelling)
    else if multiplicity.holdsMany then .error (Fault.ruleForOne location multiplicity spelling)
    else .ok ()
  | none =>
    if multiplicity.holdsMany then .ok () else .error (Fault.ruleForMany location spelling)

/-- Checks that the rule of an item is for the kind of the elements. -/
def Rule.checkItem (location : String) (kind : Kind) (r : Rule) : Except Fault Unit :=
  match r.kind? with
  | some k => if k ≠ kind then .error (Fault.itemKind location kind k) else .ok ()
  | none => .error (Fault.nestedTooDeep location)

namespace Rule

variable {r : Rule} {k : Kind}

theorem checkField_of_kind (h : r.kind? = some k) (location : String) (kind : Kind)
    (multiplicity : Multiplicity) :
    r.checkField location kind multiplicity =
      if k ≠ kind then .error (Fault.ruleKind location kind k (ruleSpelling kind multiplicity))
      else if multiplicity.holdsMany then
        .error (Fault.ruleForOne location multiplicity (ruleSpelling kind multiplicity))
      else .ok () := by
  simp [checkField, h]

theorem checkField_element (a : CollectionAction) (location : String) (kind : Kind)
    (multiplicity : Multiplicity) :
    (element a).checkField location kind multiplicity =
      if multiplicity.holdsMany then .ok ()
      else .error (Fault.ruleForMany location (ruleSpelling kind multiplicity)) := rfl

theorem checkItem_of_kind (h : r.kind? = some k) (location : String) (kind : Kind) :
    r.checkItem location kind =
      if k ≠ kind then .error (Fault.itemKind location kind k) else .ok () := by
  simp [checkItem, h]

end Rule

end Redaction
