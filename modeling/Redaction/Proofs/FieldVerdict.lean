import Redaction.Proofs.Payload

/-!
# Which options a field accepts

The verdict on the options of a field, told from the field alone and without resolving anything: the
field has a plan, or a fault of some variant. Of several things that are wrong the first counts, in
the order in which `Field.verdict`, `Field.ruleVerdict` and `Payload.itemVerdict` list them.

* `BearsOut location verdict outcome` compares an outcome with a verdict.
* `bearsOut_resolve` says that the resolution of a field bears out the verdict on it.
-/

namespace Redaction

/-- An outcome is a success if the verdict is none, and otherwise a failure of the same variant at
the location. -/
def BearsOut {α : Type} (location : String) (verdict : Option Cause.Variant)
    (outcome : Except Fault α) : Prop :=
  match verdict with
  | none => ∃ a, outcome = .ok a
  | some v => ∃ x, outcome = .error x ∧ x.location = location ∧ x.cause.variant = v

/-- Whether values of a kind can be the keys of a map. -/
def Kind.isKey : Kind → Bool
  | float | double | bytes | enum | message => false
  | _ => true

/-- Whether a map has keys of a kind that cannot be one. -/
def Multiplicity.hasBadKey : Multiplicity → Bool
  | map key => !key.isKey
  | _ => false

/-- The verdict on the payload of an item for elements of a kind. -/
def Payload.itemVerdict (kind : Kind) (item : Payload) : Option Cause.Variant :=
  if item.isElement then some .nestedTooDeep
  else if !item.wellFormed then some .malformedRule
  else if item.kind? ≠ some kind then some .kindMismatch
  else none

namespace Field

/-- The verdict on a structured rule for a field. -/
def ruleVerdict (f : Field) (payload : Payload) : Option Cause.Variant :=
  if !payload.wellFormed then some .malformedRule
  else match payload with
    | .element empty _ item =>
      if f.multiplicity = .singular then some .labelMismatch
      else if empty && f.multiplicity.hasBadKey then some .structural
      else item.bind (Payload.itemVerdict f.kind)
    | rule =>
      if rule.kind? ≠ some f.kind then some .kindMismatch
      else if f.multiplicity ≠ .singular then some .labelMismatch
      else none

/-- The verdict on the options of a field. -/
def verdict (f : Field) : Option Cause.Variant :=
  if (f.kind = .message ∨ f.kind = .enum) ∧ f.type = none then some .structural
  else f.rule?.bind f.ruleVerdict

end Field

/-! ### Outcomes that bear out a verdict -/

section Outcomes

variable {α β : Type} {location : String}

theorem bearsOut_ok (a : α) : BearsOut location none (.ok a) := ⟨a, rfl⟩

theorem bearsOut_error (c : Cause) :
    BearsOut location (some c.variant) (.error ⟨location, c⟩ : Except Fault α) :=
  ⟨_, rfl, rfl, rfl⟩

/-- A step that changes the value of a success only. -/
theorem BearsOut.map {verdict : Option Cause.Variant} {step : Except Fault α}
    (h : BearsOut location verdict step) (g : α → β) :
    BearsOut location verdict (step >>= fun a => .ok (g a)) := by
  cases verdict with
  | none =>
    obtain ⟨a, rfl⟩ := h
    exact bearsOut_ok _
  | some v =>
    obtain ⟨x, rfl, hx⟩ := h
    exact ⟨x, rfl, hx⟩

end Outcomes

/-! ### Checks -/

namespace Rule

variable {r : Rule} {k : Kind} (location : String)

theorem bearsOut_checkItem (h : r.kind? = some k) (kind : Kind) :
    BearsOut location (if some k ≠ some kind then some .kindMismatch else none)
      (r.checkItem location kind) := by
  rw [checkItem_of_kind h]
  by_cases hk : k = kind
  · subst hk
    simp only [ne_eq, not_true_eq_false, ↓reduceIte]
    exact bearsOut_ok ()
  · rw [if_pos (by simpa using hk), if_pos hk]
    exact bearsOut_error (.kindMismatch _)

theorem bearsOut_checkField (h : r.kind? = some k) (kind : Kind) (m : Multiplicity) :
    BearsOut location
      (if some k ≠ some kind then some .kindMismatch
        else if m ≠ .singular then some .labelMismatch else none)
      (r.checkField location kind m) := by
  rw [checkField_of_kind h]
  by_cases hk : k = kind
  · subst hk
    simp only [ne_eq, not_true_eq_false, ↓reduceIte]
    cases m with
    | singular => exact bearsOut_ok ()
    | _ => exact bearsOut_error (.labelMismatch _)
  · rw [if_pos (by simpa using hk), if_pos hk]
    exact bearsOut_error (.kindMismatch _)

end Rule

/-! ### Options -/

namespace FieldPlan

variable (p : FieldPlan) (location : String)

theorem bearsOut_underItem (kind : Kind) (item : Payload) :
    BearsOut location (item.itemVerdict kind) (p.underItem location kind item) := by
  unfold Payload.itemVerdict underItem
  cases hi : item.isElement with
  | true => exact bearsOut_error (.nestedTooDeep _)
  | false =>
    cases hw : item.wellFormed with
    | false =>
      obtain ⟨m, hm⟩ := Payload.toRule_of_not_wellFormed hw location
      rw [hm]
      exact bearsOut_error (.malformedRule m)
    | true =>
      obtain ⟨r, hr⟩ := Payload.toRule_of_wellFormed hw location
      rw [hr]
      -- an element rule has been refused, so the item is for values of one kind
      cases Payload.toRule_eq_ok_iff.1 hr with
      | scalar hl => exact (Rule.bearsOut_checkItem location rfl kind).map _
      | message t => exact (Rule.bearsOut_checkItem location rfl kind).map _
      | empty => cases hi
      | nested => cases hi
      | item q => cases hi

theorem isKey_eq (key : Kind) : key.isKey = key.keyType?.isSome := by cases key <;> rfl

theorem bearsOut_emptyLiteral (m : Multiplicity) :
    BearsOut location (if m.hasBadKey then some .structural else none)
      (p.emptyLiteral location m) := by
  cases m with
  | map key =>
    show BearsOut location (if !key.isKey then some .structural else none) _
    rw [isKey_eq, emptyLiteral]
    cases key.keyType? with
    | some t => exact bearsOut_ok _
    | none => exact bearsOut_error (.structural _)
  | _ => exact bearsOut_ok _

/-- An element rule on a collection bears out the verdict on the option that it sets. -/
theorem bearsOut_underAction (f : Field) {payload : Payload} {a : CollectionAction}
    (h : payload.Writes location (.element a)) (hm : f.multiplicity ≠ .singular) :
    BearsOut location (f.ruleVerdict payload) (p.underAction location f a) := by
  unfold Field.ruleVerdict
  cases h with
  | empty =>
    have hv : BearsOut location (if f.multiplicity.hasBadKey then some .structural else none)
        (p.underAction location f .empty) := (p.bearsOut_emptyLiteral location f.multiplicity).map _
    simpa [Payload.elementEmpty, Payload.wellFormed, hm] using hv
  | nested =>
    have hv : BearsOut location none (p.underAction location f .nested) := bearsOut_ok _
    simpa [Payload.elementNested, Payload.wellFormed, hm] using hv
  | item q =>
    have hv : BearsOut location (q.itemVerdict f.kind) (p.underAction location f (.item q)) :=
      bearsOut_underItem _ location f.kind q
    simpa [Payload.elementItem, Payload.wellFormed, hm] using hv

theorem bearsOut_underRule (f : Field) (payload : Payload) :
    BearsOut location (f.ruleVerdict payload) (p.underRule location f payload) := by
  unfold underRule
  cases hw : payload.wellFormed with
  | false =>
    obtain ⟨m, hm⟩ := Payload.toRule_of_not_wellFormed hw location
    rw [hm]
    unfold Field.ruleVerdict
    rw [hw]
    exact bearsOut_error (.malformedRule m)
  | true =>
    obtain ⟨r, hr⟩ := Payload.toRule_of_wellFormed hw location
    rw [hr]
    have hwrites := Payload.toRule_eq_ok_iff.1 hr
    cases r with
    | element a =>
      -- a single value refuses every element rule before its option is looked at
      by_cases hm : f.multiplicity = .singular
      · obtain ⟨empty, nested, item, rfl⟩ := hwrites.exists_element
        unfold Field.ruleVerdict
        rw [hw, hm]
        exact bearsOut_error (.labelMismatch _)
      · have hmany : f.multiplicity.holdsMany = true := by
          simpa [← Multiplicity.holdsMany_eq_false_iff] using hm
        rw [ok_bind, Rule.checkField_element, if_pos hmany]
        exact p.bearsOut_underAction location f hwrites hm
    | scalar k l =>
      cases hwrites with
      | scalar hl =>
        unfold Field.ruleVerdict
        rw [hw]
        exact (Rule.bearsOut_checkField location rfl f.kind f.multiplicity).map _
    | message t =>
      cases hwrites
      unfold Field.ruleVerdict
      rw [hw]
      exact (Rule.bearsOut_checkField location rfl f.kind f.multiplicity).map _

theorem bearsOut_underOptions (f : Field) :
    BearsOut location (f.rule?.bind f.ruleVerdict) (p.underOptions location f) := by
  unfold underOptions
  cases f.rule? with
  | none => exact bearsOut_ok _
  | some payload => exact bearsOut_underRule _ _ f payload

end FieldPlan

namespace Field

theorem checkType_eq (location : String) (f : Field) :
    f.checkType location =
      if (f.kind = .message ∨ f.kind = .enum) ∧ f.type = none then
        .error (Fault.structural location (f.kind.name ++ " field has no type reference"))
      else .ok () := by
  unfold checkType
  cases f.kind <;> cases f.type <;> rfl

/-- **A field accepts exactly the options that fit it.** The resolution of a field succeeds or fails
as the verdict on its options says, and a failure is located at the field. -/
theorem bearsOut_resolve (owner : String) (naming : Naming) (f : Field) :
    BearsOut (owner ++ "." ++ f.name) f.verdict (f.resolve owner naming) := by
  unfold resolve verdict
  rw [checkType_eq]
  by_cases htype : (f.kind = .message ∨ f.kind = .enum) ∧ f.type = none
  · rw [if_pos htype, if_pos htype]
    exact bearsOut_error (.structural _)
  · rw [if_neg htype, if_neg htype, ok_bind]
    exact FieldPlan.bearsOut_underOptions _ _ f

end Field
end Redaction
