import Redaction.Proofs.FieldTyping

/-!
# Optional fields

The mark that makes a field optional decides whether a value goes in through a pointer, and nothing
else.

* `Field.TakesPointer` holds of the fields for which the mark counts: one scalar that is not bytes.
* `FieldPlan.behindPointer` is the plan with its value, if it has one, behind a pointer.
* `Scalar.literal_ne_nil`: no literal of such a scalar is `nil`, which would go in as it is.
* `resolve_asOptional` is the main statement.
-/

namespace Redaction

namespace Field

/-- The field without the mark. -/
def unmarked (f : Field) : Field := { f with isOptional := false }

/-- The mark puts the value of the field behind a pointer. -/
def TakesPointer (f : Field) : Prop :=
  f.multiplicity = .singular ∧ f.kind ≠ .bytes ∧ f.kind ≠ .message

instance (f : Field) : Decidable f.TakesPointer :=
  inferInstanceAs (Decidable (f.multiplicity = .singular ∧ f.kind ≠ .bytes ∧ f.kind ≠ .message))

end Field

/-- The plan with its value, if it has one, behind a pointer. -/
def FieldPlan.behindPointer (p : FieldPlan) : FieldPlan :=
  { p with isOptional := true, value := p.value.map (Go.addressOf p.goType) }

/-! ### Expressions that are not `nil` -/

/-- The literal of a scalar that can stand behind a pointer is not `nil`. -/
theorem Scalar.literal_ne_nil {s : Scalar} {location l : String} (h : s.literal location = .ok l)
    (hbytes : s.kind ≠ .bytes) : l ≠ nilLiteral := by
  obtain ⟨e, hwritten, rfl⟩ := written_of_literal h
  exact Go.text_ne_nil (hwritten.assignable "")
    (Kind.valueType_of_ne hbytes s.kind_ne_message "")

theorem Kind.blank?_ne_nil {k : Kind} (hbytes : k ≠ .bytes) : k.blank? ≠ some nilLiteral := by
  cases k with
  | bytes => exact absurd rfl hbytes
  | _ => decide

/-! ### Plans behind a pointer -/

namespace FieldPlan

variable {p : FieldPlan} {f : Field} {location : String}

theorem wrap_behindPointer (hp : p.isOptional = false) {e : String} (he : e ≠ nilLiteral) :
    p.behindPointer.wrap e = Go.addressOf p.goType (p.wrap e) := by
  rw [wrap_of_not_isOptional hp]
  exact if_pos ⟨rfl, he⟩

theorem flag_behindPointer (hp : p.isOptional = false) (hf : f.TakesPointer) :
    p.behindPointer.flag f = (p.flag f).behindPointer := by
  obtain ⟨hone, hbytes, -⟩ := hf
  have hvalue : p.behindPointer.blankValue f.kind f.multiplicity.holdsMany =
      (p.blankValue f.kind f.multiplicity.holdsMany).map (Go.addressOf p.goType) := by
    rw [hone]
    show p.behindPointer.blankValue f.kind false =
      (p.blankValue f.kind false).map (Go.addressOf p.goType)
    rw [blankValue_one, blankValue_one, Option.map_map]
    refine Option.map_congr fun e he => wrap_behindPointer hp ?_
    rintro rfl
    exact Kind.blank?_ne_nil hbytes he
  simp only [flag, hvalue]
  rfl

/-- A rule for a field that takes a pointer sets one scalar, or is refused. -/
theorem underRule_behindPointer (hp : p.isOptional = false) (hf : f.TakesPointer)
    (payload : Payload) :
    p.behindPointer.underRule location f payload =
      (p.underRule location f payload).map behindPointer := by
  obtain ⟨hone, hbytes, hmessage⟩ := hf
  unfold underRule
  rw [map_bind]
  cases hrule : payload.toRule location with
  | error x => rfl
  | ok rule =>
    rw [ok_bind, ok_bind, map_bind]
    cases hcheck : rule.checkField location f.kind f.multiplicity with
    | error x => rfl
    | ok =>
      rw [ok_bind, ok_bind]
      cases Payload.toRule_eq_ok_iff.1 hrule with
      | scalar hl =>
        have hkind := (Rule.checkField_ok rfl hcheck).1
        have hl := Scalar.literal_ne_nil hl (hkind ▸ hbytes)
        simp only [pure_eq_ok, wrap_behindPointer hp hl]
        rfl
      | message t => exact absurd (Rule.checkField_ok rfl hcheck).1.symm hmessage
      | empty => exact absurd hone (Rule.checkField_element_ok hcheck)
      | nested => exact absurd hone (Rule.checkField_element_ok hcheck)
      | item q => exact absurd hone (Rule.checkField_element_ok hcheck)

theorem underOptions_behindPointer (hp : p.isOptional = false) (hf : f.TakesPointer) :
    p.behindPointer.underOptions location f =
      (p.underOptions location f).map behindPointer := by
  unfold underOptions
  cases f.rule? with
  | some payload => exact underRule_behindPointer (p := { p with redact := true }) hp hf payload
  | none =>
    cases f.isFlagged with
    | false => rfl
    | true => exact congrArg Except.ok (flag_behindPointer hp hf)

end FieldPlan

/-! ### The two fields -/

namespace Field

section Resolve

variable (owner : String) (naming : Naming) (f : Field)

/-- The mark counts for the fields that take a pointer, and for these alone. -/
theorem keepPlan_asOptional : f.asOptional.keepPlan naming =
    if f.TakesPointer then (f.unmarked.keepPlan naming).behindPointer
    else f.unmarked.keepPlan naming := by
  have hmark : (f.asOptional.keepPlan naming).isOptional = decide f.TakesPointer := by
    rw [Bool.eq_iff_iff, decide_eq_true_iff]
    simp [keepPlan, asOptional, TakesPointer, and_assoc]
  have hrest : f.asOptional.keepPlan naming =
      { f.unmarked.keepPlan naming with isOptional := decide f.TakesPointer } := by
    rw [← hmark]
    rfl
  rw [hrest]
  split
  next hf =>
    rw [decide_eq_true hf]
    rfl
  next hf =>
    rw [decide_eq_false hf, ← isOptional_keepPlan (f := f.unmarked) (.inr rfl) naming]

/-- The plan of a field with the mark is that without it, with the value behind a pointer if the
field takes one. -/
theorem resolve_asOptional_eq : f.asOptional.resolve owner naming =
    (f.unmarked.resolve owner naming).map fun p =>
      if f.TakesPointer then p.behindPointer else p := by
  have hplain : (f.unmarked.keepPlan naming).isOptional = false :=
    isOptional_keepPlan (f := f.unmarked) (.inr rfl) naming
  unfold resolve
  rw [map_bind]
  show (f.unmarked.checkType (f.location owner) >>= fun _ =>
    (f.asOptional.keepPlan naming).underOptions (f.location owner) f.unmarked) = _
  rw [keepPlan_asOptional]
  refine bind_congr fun _ => ?_
  split
  next hf => exact FieldPlan.underOptions_behindPointer hplain hf
  next => exact (congrFun Except.map_id _).symm

/-- Without the mark, a field that takes a pointer with it does not get the value `nil`. -/
theorem value_ne_nil_of_unmarked (hf : f.TakesPointer) {p : FieldPlan}
    (h : f.unmarked.resolve owner naming = .ok p) : p.value ≠ some nilLiteral := by
  intro hv
  have hplanned := planned_of_resolve h
  have hplain := isOptional_keepPlan (f := f.unmarked) (.inr rfl) naming
  have htarget : p.target f.unmarked.multiplicity = .one := by
    have hone : f.unmarked.multiplicity = .singular := hf.1
    rw [(sameShape_of_planned hplanned).target_eq rfl, target_of_singular hone, hplain]
    exact ite_self _
  obtain ⟨e, htext, htakes⟩ := exists_takes_of_planned (exists_type_of_resolve h) hplanned hv
  rw [htarget] at htakes
  exact Go.text_ne_nil htakes.assignable (Kind.valueType_of_ne hf.2.1 hf.2.2 _) htext

end Resolve

/-- **The mark of an optional field puts its value behind a pointer, and does nothing else.** With
the mark and without it a field has the same fault, or plans that differ only where the field takes
a pointer: it is one scalar that is not bytes. There the plan without the mark has no pointer, that
with the mark has one, and its value, if there is one, is the address of a variable that is set to
the value without the mark. That value is never `nil`, the one expression that would go in as it
is. -/
theorem resolve_asOptional (owner : String) (naming : Naming) (f : Field) :
    (f.asOptional.resolve owner naming =
      (f.unmarked.resolve owner naming).map fun p =>
        if f.TakesPointer then
          { p with isOptional := true, value := p.value.map (Go.addressOf p.goType) }
        else p) ∧
      ∀ p, f.unmarked.resolve owner naming = .ok p →
        p.isOptional = false ∧ (f.TakesPointer → p.value ≠ some nilLiteral) := by
  refine ⟨f.resolve_asOptional_eq owner naming, fun p h => ?_⟩
  have hplain := isOptional_keepPlan (f := f.unmarked) (.inr rfl) naming
  exact ⟨(sameShape_of_planned (planned_of_resolve h)).isOptional.trans hplain,
    fun hf => value_ne_nil_of_unmarked owner naming f hf h⟩

/-- An optional text that is replaced by the text `nil`. -/
def nickname : Field :=
  (ofKind "Nickname" .string).asOptional.withAnnotation (.rule (.scalar (.string nilLiteral)))

/-- The literal of that text is not taken for the expression `nil`: it goes in through a pointer. -/
theorem resolve_nickname : ∃ p q, nickname.unmarked.resolve "acme.User" .bare = .ok p ∧
    nickname.asOptional.resolve "acme.User" .bare = .ok q ∧
      p.value = some "\x60nil\x60" ∧ p.isOptional = false ∧ p.value ≠ some nilLiteral ∧
        q.value = some "func() *string \x7b v := string(\x60nil\x60); return &v \x7d()" := by
  obtain ⟨heq, hplain⟩ := resolve_asOptional "acme.User" .bare nickname
  obtain ⟨p, hp⟩ : ∃ p, nickname.unmarked.resolve "acme.User" .bare = .ok p := ⟨_, rfl⟩
  obtain ⟨hpointer, hvalue⟩ := hplain p hp
  rw [hp] at heq
  refine ⟨p, _, hp, heq, ?_, hpointer, hvalue (by decide), ?_⟩
  · cases hp
    decide +kernel
  · cases hp
    decide +kernel

end Field
end Redaction
