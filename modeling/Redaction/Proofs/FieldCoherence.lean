import Redaction.Proofs.FieldCases

/-!
# Plans do not contradict themselves

The parts of the plan of a field fit each other and the field.

* `FieldPlan.ShapeFits`: what the plan says of the shape of the field agrees with the schema. No
  option touches these parts (`sameShape_of_planned`).
* `FieldPlan.ActionFits`: a plan that redacts takes exactly one action, a plan that keeps takes none.
  This is checked for each way in which a plan comes about (`actionFits_of_planned`).
* `fits_of_resolve` puts the two together.
-/

namespace Redaction

namespace FieldPlan

/-- What a plan says of the shape of a field agrees with the field. -/
structure ShapeFits (f : Field) (p : FieldPlan) : Prop where
  one_shape : [p.isRepeated, p.isMap, decide (f.multiplicity = .singular)].count true = 1
  singular_of_isMessage : p.isMessage = true → f.multiplicity = .singular
  singular_of_isOptional : p.isOptional = true → f.multiplicity = .singular
  not_isMessage_and_isOptional : ¬(p.isMessage = true ∧ p.isOptional = true)
  isSome_embedName_iff : p.embedName.isSome = true ↔ f.kind = .message
  isSome_embedQualified_iff : p.embedQualified.isSome = true ↔ f.kind = .message
  goType_eq : ∀ name, p.embedQualified = some name → p.goType = "*" ++ name

/-- A plan does one thing to a field that is to be redacted, and nothing to any other. -/
structure ActionFits (f : Field) (p : FieldPlan) : Prop where
  redact_iff : p.redact = true ↔ ∃ a, f.annotation = some a ∧ (a.custom.isSome ∨ a.redact)
  no_action : p.redact = false →
    p.value = none ∧ p.iterate = false ∧ p.nestedCall = false ∧ p.embedSkip = false
  one_action : p.redact = true → [p.value.isSome, p.nestedCall, p.embedSkip].count true = 1
  collection_of_iterate : p.iterate = true → p.isRepeated = true ∨ p.isMap = true
  message_of_call : p.nestedCall = true ∨ p.embedSkip = true → f.kind = .message

/-- Two plans say the same of the shape of a field. -/
structure SameShape (p q : FieldPlan) : Prop where
  goType : p.goType = q.goType
  isMap : p.isMap = q.isMap
  isRepeated : p.isRepeated = q.isRepeated
  isMessage : p.isMessage = q.isMessage
  isOptional : p.isOptional = q.isOptional
  embedName : p.embedName = q.embedName
  embedQualified : p.embedQualified = q.embedQualified

theorem SameShape.treat {p q : FieldPlan} (h : p.SameShape q) (t : Treatment) :
    (p.treat t).SameShape q := by
  obtain ⟨h1, h2, h3, h4, h5, h6, h7⟩ := h
  cases t <;> exact ⟨h1, h2, h3, h4, h5, h6, h7⟩

theorem SameShape.shapeFits {f : Field} {p q : FieldPlan} (h : p.SameShape q)
    (hq : q.ShapeFits f) : p.ShapeFits f := by
  constructor
  · rw [h.isRepeated, h.isMap]; exact hq.one_shape
  · rw [h.isMessage]; exact hq.singular_of_isMessage
  · rw [h.isOptional]; exact hq.singular_of_isOptional
  · rw [h.isMessage, h.isOptional]; exact hq.not_isMessage_and_isOptional
  · rw [h.embedName]; exact hq.isSome_embedName_iff
  · rw [h.embedQualified]; exact hq.isSome_embedQualified_iff
  · rw [h.embedQualified, h.goType]; exact hq.goType_eq

/-- Every value has a blank, unless it is one message. -/
theorem isSome_blankValue (p : FieldPlan) (kind : Kind) (holdsMany : Bool) :
    (p.blankValue kind holdsMany).isSome = (holdsMany || kind != .message) := by
  unfold blankValue
  cases holdsMany with
  | true => rfl
  | false => cases kind <;> rfl

end FieldPlan

section Shape

variable {owner : String} {naming : Naming} {f : Field} {p : FieldPlan}

/-- No option changes what a plan says of the shape. -/
theorem sameShape_of_planned (h : f.Planned owner naming p) :
    p.SameShape (f.keepPlan naming) := by
  have hone : FieldPlan.SameShape (f.redactPlan naming) (f.keepPlan naming) :=
    ⟨rfl, rfl, rfl, rfl, rfl, rfl, rfl⟩
  have hitem : FieldPlan.SameShape { f.redactPlan naming with iterate := true }
      (f.keepPlan naming) := ⟨rfl, rfl, rfl, rfl, rfl, rfl, rfl⟩
  cases h with
  | message => exact hone.treat _
  | itemMessage => exact hitem.treat _
  | _ => exact ⟨rfl, rfl, rfl, rfl, rfl, rfl, rfl⟩

/-- An embedded message has a type. -/
theorem exists_type_of_resolve (h : f.resolve owner naming = .ok p) (hkind : f.kind = .message) :
    ∃ t, f.type = some t := by
  obtain ⟨⟨⟩, htype, -⟩ := bind_eq_ok_iff.1 h
  unfold Field.checkType at htype
  cases ht : f.type with
  | some t => exact ⟨t, rfl⟩
  | none =>
    rw [hkind, ht] at htype
    cases htype

theorem embedded_eq_some_iff {t : TypeName} :
    f.embedded = some t ↔ f.kind = .message ∧ f.type = some t := by
  unfold Field.embedded
  split <;> simp [*]

theorem isSome_embedded_iff (htype : f.kind = .message → ∃ t, f.type = some t) :
    f.embedded.isSome = true ↔ f.kind = .message := by
  simp only [Option.isSome_iff_exists, embedded_eq_some_iff, exists_and_left]
  exact ⟨And.left, fun hk => ⟨hk, htype hk⟩⟩

theorem shapeFits_keepPlan (naming : Naming) (htype : f.kind = .message → ∃ t, f.type = some t) :
    (f.keepPlan naming).ShapeFits f where
  one_shape := by
    unfold Field.keepPlan
    cases f.multiplicity <;> rfl
  singular_of_isMessage h := by
    simp only [Field.keepPlan, Bool.and_eq_true, beq_iff_eq] at h
    exact h.1
  singular_of_isOptional h := by
    simp only [Field.keepPlan, Bool.and_eq_true, beq_iff_eq] at h
    exact h.1.1.1
  not_isMessage_and_isOptional h := by
    simp only [Field.keepPlan, Bool.and_eq_true, beq_iff_eq, bne_iff_ne] at h
    exact h.2.2 h.1.2
  isSome_embedName_iff := by
    simp only [Field.keepPlan, Option.isSome_map]
    exact isSome_embedded_iff htype
  isSome_embedQualified_iff := by
    simp only [Field.keepPlan, Option.isSome_map]
    exact isSome_embedded_iff htype
  goType_eq name h := by
    obtain ⟨t, ht, rfl⟩ := Option.map_eq_some_iff.1 h
    obtain ⟨hk, ht⟩ := embedded_eq_some_iff.1 ht
    simp [Field.keepPlan, Field.goType, hk, ht, Kind.goType?]

end Shape

section Action

variable {owner : String} {naming : Naming} {f : Field} {p : FieldPlan}

theorem redact_of_planned (h : f.Planned owner naming p) :
    p.redact = (f.rule?.isSome || f.isFlagged) := by
  cases h with
  | kept hrule hflag => rw [hrule, hflag]; rfl
  | flagged hrule hflag => rw [hrule, hflag]; rfl
  | @message t hrule => rw [hrule]; cases t <;> rfl
  | @itemMessage t hrule => rw [hrule]; cases t <;> rfl
  | scalar hrule => rw [hrule]; rfl
  | empty hrule => rw [hrule]; rfl
  | nested hrule => rw [hrule]; rfl
  | itemScalar hrule => rw [hrule]; rfl

theorem asksForRedaction_iff (f : Field) :
    (f.rule?.isSome || f.isFlagged) = true ↔
      ∃ a, f.annotation = some a ∧ (a.custom.isSome ∨ a.redact) := by
  unfold Field.rule? Field.isFlagged
  cases f.annotation with
  | none => simp
  | some a => simp

theorem no_action_of_planned (h : f.Planned owner naming p) (hredact : p.redact = false) :
    p.value = none ∧ p.iterate = false ∧ p.nestedCall = false ∧ p.embedSkip = false := by
  cases h with
  | kept => exact ⟨rfl, rfl, rfl, rfl⟩
  | @message t => cases t <;> cases hredact
  | @itemMessage t => cases t <;> cases hredact
  | _ => cases hredact

theorem one_action_of_planned (h : f.Planned owner naming p) (hredact : p.redact = true) :
    [p.value.isSome, p.nestedCall, p.embedSkip].count true = 1 := by
  cases h with
  | kept => cases hredact
  | flagged =>
    -- one message has no blank and is called, everything else has one and is not
    simp only [FieldPlan.flag, FieldPlan.isSome_blankValue]
    unfold Field.keepPlan
    cases f.multiplicity <;> cases f.kind <;> rfl
  | nested =>
    simp only [FieldPlan.isSome_blankValue]
    cases f.kind <;> rfl
  | @message t => cases t <;> rfl
  | @itemMessage t => cases t <;> rfl
  | _ => rfl

theorem many_of_iterate (h : f.Planned owner naming p) (hiterate : p.iterate = true) :
    f.multiplicity ≠ .singular := by
  cases h with
  | nested _ hmany => exact hmany
  | itemScalar _ _ _ hmany => exact hmany
  | itemMessage _ _ hmany => exact hmany
  | @message t => cases t <;> cases hiterate
  | _ => cases hiterate

theorem message_of_call (h : f.Planned owner naming p)
    (hcall : p.nestedCall = true ∨ p.embedSkip = true) : f.kind = .message := by
  cases h with
  | message _ hkind => exact hkind
  | itemMessage _ hkind => exact hkind
  | flagged =>
    have hmessage : (f.keepPlan naming).isMessage = true := hcall.resolve_right (by rintro ⟨⟩)
    simp only [Field.keepPlan, Bool.and_eq_true, beq_iff_eq] at hmessage
    exact hmessage.2
  | nested =>
    have hmessage : (f.kind == .message) = true := hcall.resolve_right (by rintro ⟨⟩)
    exact beq_iff_eq.1 hmessage
  | _ => rcases hcall with hcall | hcall <;> cases hcall

end Action

theorem actionFits_of_planned {owner : String} {naming : Naming} {f : Field} {p : FieldPlan}
    (h : f.Planned owner naming p) : p.ActionFits f where
  redact_iff := by rw [redact_of_planned h, asksForRedaction_iff]
  no_action := no_action_of_planned h
  one_action := one_action_of_planned h
  collection_of_iterate hiterate := by
    have hmany := many_of_iterate h hiterate
    rw [(sameShape_of_planned h).isRepeated, (sameShape_of_planned h).isMap]
    unfold Field.keepPlan
    cases hm : f.multiplicity with
    | singular => exact absurd hm hmany
    | repeated => exact .inl rfl
    | map key => exact .inr rfl
  message_of_call := message_of_call h

/-- **A plan never contradicts itself or the field.** What it says of the shape agrees with the
schema, and it takes one action exactly if the options of the field ask for redaction. -/
theorem fits_of_resolve {owner : String} {naming : Naming} {f : Field} {p : FieldPlan}
    (h : f.resolve owner naming = .ok p) : p.ShapeFits f ∧ p.ActionFits f := by
  have hplanned := planned_of_resolve h
  have htype := fun hkind => exists_type_of_resolve h hkind
  exact ⟨(sameShape_of_planned hplanned).shapeFits (shapeFits_keepPlan naming htype),
    actionFits_of_planned hplanned⟩

/-- A map of messages whose values are to be redacted by their own rules. -/
def friendsByName : Field :=
  Field.withAnnotation ((Field.embedding "Friends" (.ofNames "User" "acme.User")).asMap .string)
    (.rule .elementNested)

/-- The plan of such a map visits the values and calls their redaction. -/
theorem fits_friendsByName :
    ∃ p, friendsByName.resolve "acme.User" .bare = .ok p ∧ p.iterate = true ∧
      p.nestedCall = true ∧ p.ShapeFits friendsByName ∧ p.ActionFits friendsByName := by
  refine ⟨_, rfl, rfl, rfl, ?_⟩
  exact fits_of_resolve (rfl : friendsByName.resolve "acme.User" .bare = .ok _)

end Redaction
