import Redaction.Proofs.FieldCases

/-!
# Rules for items

What a rule does to one value, it does to each element of a collection when it stands as an item,
and an element rule for nested redaction does to each element what the bare flag does to one value.

* `Agree R x y`: both outcomes are plans that `R` relates, or both are faults of one variant at one
  place. It is kept by steps in a row (`Agree.bind`).
* `Field.element` is one element of a collection as a field of its own.
* `FieldPlan.Iterates p q`: the plan `p` does to each element what `q` does to one value.
* `agree_item` and `agree_nested` are the two halves of the main statement.
-/

namespace Redaction

/-- Two outcomes are related values, or faults of the same variant at the same location. -/
inductive Agree {α β : Type} (R : α → β → Prop) : Except Fault α → Except Fault β → Prop
  | ok {a : α} {b : β} (h : R a b) : Agree R (.ok a) (.ok b)
  | error {x y : Fault} (hlocation : x.location = y.location)
      (hvariant : x.cause.variant = y.cause.variant) : Agree R (.error x) (.error y)

section Agree

variable {α β γ δ : Type} {R : γ → δ → Prop}

theorem Agree.bind {S : α → β → Prop} {x : Except Fault α} {y : Except Fault β}
    {f : α → Except Fault γ} {g : β → Except Fault δ} (h : Agree S x y)
    (hnext : ∀ a b, S a b → Agree R (f a) (g b)) : Agree R (x >>= f) (y >>= g) := by
  cases h with
  | ok h => exact hnext _ _ h
  | error hlocation hvariant => exact .error hlocation hvariant

/-- Steps that start alike agree if they agree on every value of the start. -/
theorem agree_bind {x : Except Fault α} {f : α → Except Fault γ} {g : α → Except Fault δ}
    (h : ∀ a, x = .ok a → Agree R (f a) (g a)) : Agree R (x >>= f) (x >>= g) := by
  cases x with
  | ok a => exact h a rfl
  | error => exact .error rfl rfl

end Agree

/-- For a rule for values of one kind, the check of an item is the check of one value. -/
theorem Rule.agree_check {r : Rule} {k : Kind} (h : r.kind? = some k) (location : String)
    (kind : Kind) :
    Agree Eq (r.checkItem location kind) (r.checkField location kind .singular) := by
  rw [checkItem_of_kind h, checkField_of_kind h]
  by_cases hk : k = kind
  · rw [if_neg (not_not_intro hk), if_neg (not_not_intro hk)]
    exact .ok rfl
  · rw [if_pos hk, if_pos hk]
    exact .error rfl rfl

namespace FieldPlan

/-- One plan does to each element of a collection what another one does to one value. -/
structure Iterates (p q : FieldPlan) : Prop where
  value_eq : p.value = q.value
  nestedCall_eq : p.nestedCall = q.nestedCall
  embedSkip_eq : p.embedSkip = q.embedSkip
  goType_eq : p.goType = q.goType
  iterate_left : p.iterate = true
  iterate_right : q.iterate = false

theorem Iterates.treat {p q : FieldPlan} (h : p.Iterates q)
    (hembed : p.embedQualified = q.embedQualified) (t : Treatment) :
    (p.treat t).Iterates (q.treat t) := by
  obtain ⟨hvalue, hcall, hskip, htype, hleft, hright⟩ := h
  cases t with
  | nil => exact ⟨rfl, hcall, hskip, htype, hleft, hright⟩
  | empty =>
    refine ⟨?_, hcall, hskip, htype, hleft, hright⟩
    simp only [FieldPlan.treat, hembed]
  | skip => exact ⟨hvalue, hcall, rfl, htype, hleft, hright⟩
  | recurse => exact ⟨hvalue, rfl, hskip, htype, hleft, hright⟩

/-- Without a pointer, one value has the same blank under every plan. -/
theorem blankValue_of_not_isOptional {p : FieldPlan} (h : p.isOptional = false) (kind : Kind) :
    p.blankValue kind false = kind.blank? := by
  have hwrap : p.wrap = id := funext (wrap_of_not_isOptional h)
  rw [blankValue_one, hwrap, Option.map_id_fun]
  rfl

/-- A plan under an item, and a plan under the same rule for one value. -/
theorem agree_underItem {p q : FieldPlan} (h : p.Iterates q)
    (hembed : p.embedQualified = q.embedQualified) (hone : q.isOptional = false)
    (location : String) {f : Field} (hf : f.multiplicity = .singular) {item : Payload}
    (hitem : item.isElement = false) :
    Agree Iterates (p.underItem location f.kind item) (q.underRule location f item) := by
  unfold underItem underRule
  rw [hitem, hf]
  refine agree_bind fun r hr => ?_
  cases Payload.toRule_eq_ok_iff.1 hr with
  | @scalar s l =>
    refine (Rule.agree_check rfl location f.kind).bind fun _ _ _ => .ok ?_
    rw [wrap_of_not_isOptional hone]
    exact ⟨rfl, h.nestedCall_eq, h.embedSkip_eq, h.goType_eq, h.iterate_left, h.iterate_right⟩
  | message t =>
    exact (Rule.agree_check rfl location f.kind).bind fun _ _ _ => .ok (h.treat hembed t)
  | empty => cases hitem
  | nested => cases hitem
  | item => cases hitem

end FieldPlan

namespace Field

/-- One element of a collection as a field of its own. -/
def element (f : Field) : Field := { f with multiplicity := .singular, isOptional := false }

section Resolve

variable (f : Field) (owner : String) (naming : Naming)

theorem resolve_of_rule {payload : Payload} (h : f.rule? = some payload) :
    f.resolve owner naming = f.checkType (f.location owner) >>= fun _ =>
      (f.redactPlan naming).underRule (f.location owner) f payload := by
  unfold resolve FieldPlan.underOptions
  rw [h]
  rfl

/-- A collection gets to the action of its element rule. -/
theorem resolve_of_elementRule (hmany : f.multiplicity ≠ .singular) {payload : Payload}
    {a : CollectionAction} (h : f.rule? = some payload)
    (hwrites : payload.Writes (f.location owner) (.element a)) :
    f.resolve owner naming = f.checkType (f.location owner) >>= fun _ =>
      (f.redactPlan naming).underAction (f.location owner) f a := by
  have hholds : f.multiplicity.holdsMany = true := by
    rw [← Bool.not_eq_false, f.multiplicity.holdsMany_eq_false_iff]
    exact hmany
  rw [resolve_of_rule f owner naming h, FieldPlan.underRule, Payload.toRule_eq_ok_iff.2 hwrites,
    ok_bind, Rule.checkField_element, if_pos hholds, ok_bind]

theorem resolve_of_flag (hrule : f.rule? = none) (hflag : f.isFlagged = true) :
    f.resolve owner naming = f.checkType (f.location owner) >>= fun _ =>
      .ok ((f.keepPlan naming).flag f) := by
  unfold resolve FieldPlan.underOptions
  rw [hrule, hflag]
  rfl

end Resolve

section Collection

variable {f : Field} (owner : String) (naming : Naming)

/-- A collection under an item rule, and one element under the same rule. -/
theorem agree_item (hmany : f.multiplicity ≠ .singular) {item : Payload}
    (hitem : item.isElement = false) (flag flag' : Bool) :
    Agree FieldPlan.Iterates
      ((f.withAnnotation ⟨flag, some (.elementItem item)⟩).resolve owner naming)
      ((f.element.withAnnotation ⟨flag', some item⟩).resolve owner naming) := by
  rw [resolve_of_elementRule (f.withAnnotation _) owner naming hmany rfl (.item item),
    resolve_of_rule (f.element.withAnnotation _) owner naming rfl]
  refine agree_bind fun _ _ => ?_
  have hiterates : FieldPlan.Iterates { f.redactPlan naming with iterate := true }
      (f.element.redactPlan naming) := ⟨rfl, rfl, rfl, rfl, rfl, rfl⟩
  have hone : (f.element.redactPlan naming).isOptional = false :=
    isOptional_keepPlan (f := f.element) (.inr rfl) naming
  exact FieldPlan.agree_underItem hiterates rfl hone (f.location owner)
    (f := f.element.withAnnotation _) rfl hitem

/-- A collection under the element rule for nested redaction, and one element under the flag. -/
theorem agree_nested (hmany : f.multiplicity ≠ .singular) (flag : Bool) :
    Agree FieldPlan.Iterates
      ((f.withAnnotation ⟨flag, some .elementNested⟩).resolve owner naming)
      ((f.element.withAnnotation .flag).resolve owner naming) := by
  rw [resolve_of_elementRule (f.withAnnotation _) owner naming hmany rfl .nested,
    resolve_of_flag (f.element.withAnnotation _) owner naming rfl rfl]
  refine agree_bind fun _ _ => .ok ⟨?_, rfl, rfl, rfl, rfl, rfl⟩
  have hleft := isOptional_keepPlan (.inl hmany) naming
  have hright := isOptional_keepPlan (.inr (rfl : f.element.isOptional = false)) naming
  exact (FieldPlan.blankValue_of_not_isOptional hleft f.kind).trans
    (FieldPlan.blankValue_of_not_isOptional hright f.kind).symm

end Collection

/-- **An item rule does to each element of a collection what it does to one value.** A collection
with an item rule and one of its elements with the same rule both have a plan, which differ in no
action but the iteration, or both have a fault of the same variant at the same place. The element
rule for nested redaction does to each element what the bare flag does to one. -/
theorem agree_element {f : Field} (hmany : f.multiplicity ≠ .singular) (owner : String)
    (naming : Naming) :
    (∀ item : Payload, item.isElement = false → ∀ flag flag' : Bool,
      Agree FieldPlan.Iterates
        ((f.withAnnotation ⟨flag, some (.elementItem item)⟩).resolve owner naming)
        ((f.element.withAnnotation ⟨flag', some item⟩).resolve owner naming)) ∧
      ∀ flag : Bool, Agree FieldPlan.Iterates
        ((f.withAnnotation ⟨flag, some .elementNested⟩).resolve owner naming)
        ((f.element.withAnnotation .flag).resolve owner naming) :=
  ⟨fun _ hitem => agree_item owner naming hmany hitem, agree_nested owner naming hmany⟩

/-- A map of numbers that is marked as optional, which counts for nothing in a map. -/
def scores : Field := ((ofKind "Scores" .int32).asMap .string).asOptional

/-- The rule that puts the number seven in place. -/
def seven : Payload := .scalar (.integer .int32 7 (by decide))

/-- Each number of such a map is replaced as one number is. -/
theorem agree_scores : scores.multiplicity ≠ .singular ∧ seven.isElement = false ∧
    ∃ p q, (scores.withAnnotation (.rule (.elementItem seven))).resolve "acme.User" .bare = .ok p ∧
      (scores.element.withAnnotation (.rule seven)).resolve "acme.User" .bare = .ok q ∧
      p.value = some "7" ∧ p.Iterates q := by
  have hmany : scores.multiplicity ≠ .singular := by decide
  have hagree := (agree_element hmany "acme.User" .bare).1 seven rfl false false
  refine ⟨hmany, rfl, _, _, rfl, rfl, rfl, ?_⟩
  cases hagree with
  | ok h => exact h

end Field

end Redaction
