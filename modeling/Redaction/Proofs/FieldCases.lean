import Redaction.Proofs.Payload

/-!
# The plans that fields can have

Every plan of a field comes about in one of eight ways: the field is kept, or redacted by the bare
flag, by a scalar rule, by a message rule, by an element rule that empties the collection or that
redacts each element by default, or by an item with a scalar or a message rule.

* `Field.Planned` lists them, each with what the checks have settled by then.
* `planned_of_resolve` says that there is no other, so that a statement about all plans is proved
  case by case.
-/

namespace Redaction

namespace Field

/-- The plan that a structured rule starts from. -/
def redactPlan (naming : Naming) (f : Field) : FieldPlan :=
  { f.keepPlan naming with redact := true }

/-- The plans of a field of the message `owner`. -/
inductive Planned (owner : String) (naming : Naming) (f : Field) : FieldPlan → Prop
  | kept (hrule : f.rule? = none) (hflag : f.isFlagged = false) :
      Planned owner naming f (f.keepPlan naming)
  | flagged (hrule : f.rule? = none) (hflag : f.isFlagged = true) :
      Planned owner naming f ((f.keepPlan naming).flag f)
  | scalar {s : Scalar} {l : String} (hrule : f.rule? = some (.scalar s))
      (hl : s.literal (f.location owner) = .ok l) (hkind : s.kind = f.kind)
      (hone : f.multiplicity = .singular) :
      Planned owner naming f
        { f.redactPlan naming with value := some ((f.redactPlan naming).wrap l) }
  | message {t : Treatment} (hrule : f.rule? = some (.message t.flags)) (hkind : f.kind = .message)
      (hone : f.multiplicity = .singular) :
      Planned owner naming f ((f.redactPlan naming).treat t)
  | empty {e : String} (hrule : f.rule? = some .elementEmpty) (hmany : f.multiplicity ≠ .singular)
      (he : (f.redactPlan naming).emptyLiteral (f.location owner) f.multiplicity = .ok e) :
      Planned owner naming f { f.redactPlan naming with value := some e }
  | nested (hrule : f.rule? = some .elementNested) (hmany : f.multiplicity ≠ .singular) :
      Planned owner naming f
        { f.redactPlan naming with
          iterate := true
          value := (f.redactPlan naming).blankValue f.kind false
          nestedCall := f.kind == .message }
  | itemScalar {s : Scalar} {l : String} (hrule : f.rule? = some (.elementItem (.scalar s)))
      (hl : s.literal (f.location owner) = .ok l) (hkind : s.kind = f.kind)
      (hmany : f.multiplicity ≠ .singular) :
      Planned owner naming f { f.redactPlan naming with iterate := true, value := some l }
  | itemMessage {t : Treatment} (hrule : f.rule? = some (.elementItem (.message t.flags)))
      (hkind : f.kind = .message) (hmany : f.multiplicity ≠ .singular) :
      Planned owner naming f (FieldPlan.treat { f.redactPlan naming with iterate := true } t)

end Field

/-! ### What the checks settle -/

namespace Rule

variable {location : String} {kind : Kind} {m : Multiplicity} {r : Rule} {k : Kind}

theorem checkItem_ok (h : r.kind? = some k) (hok : r.checkItem location kind = .ok ()) :
    k = kind := by
  rw [checkItem_of_kind h] at hok
  by_cases hk : k = kind
  · exact hk
  · rw [if_pos hk] at hok
    cases hok

theorem checkField_ok (h : r.kind? = some k) (hok : r.checkField location kind m = .ok ()) :
    k = kind ∧ m = .singular := by
  rw [checkField_of_kind h] at hok
  by_cases hk : k = kind
  · rw [if_neg (not_not_intro hk)] at hok
    cases hm : m.holdsMany with
    | false => exact ⟨hk, (m.holdsMany_eq_false_iff).1 hm⟩
    | true => rw [hm] at hok; cases hok
  · rw [if_pos hk] at hok
    cases hok

theorem checkField_element_ok {a : CollectionAction}
    (hok : (element a).checkField location kind m = .ok ()) : m ≠ .singular := by
  rintro rfl
  cases hok

end Rule

/-! ### No other plan -/

section Planned

variable {owner : String} {naming : Naming} {f : Field} {p : FieldPlan}

theorem planned_of_underItem {item : Payload} (hrule : f.rule? = some (.elementItem item))
    (hmany : f.multiplicity ≠ .singular)
    (h : FieldPlan.underItem { f.redactPlan naming with iterate := true } (f.location owner) f.kind
      item = .ok p) : f.Planned owner naming p := by
  unfold FieldPlan.underItem at h
  cases hi : item.isElement with
  | true => rw [hi] at h; cases h
  | false =>
    rw [hi] at h
    obtain ⟨r, hr, h⟩ := bind_eq_ok_iff.1 h
    obtain ⟨⟨⟩, hcheck, h⟩ := bind_eq_ok_iff.1 h
    cases Payload.toRule_eq_ok_iff.1 hr with
    | scalar hl =>
      cases h
      exact .itemScalar hrule hl (Rule.checkItem_ok rfl hcheck) hmany
    | message t =>
      cases h
      exact .itemMessage hrule (Rule.checkItem_ok rfl hcheck).symm hmany
    | empty => cases h
    | nested => cases h
    | item q => cases h

theorem planned_of_underRule {payload : Payload} (hrule : f.rule? = some payload)
    (h : (f.redactPlan naming).underRule (f.location owner) f payload = .ok p) :
    f.Planned owner naming p := by
  obtain ⟨r, hr, h⟩ := bind_eq_ok_iff.1 h
  obtain ⟨⟨⟩, hcheck, h⟩ := bind_eq_ok_iff.1 h
  cases Payload.toRule_eq_ok_iff.1 hr with
  | scalar hl =>
    obtain ⟨hkind, hone⟩ := Rule.checkField_ok rfl hcheck
    cases h
    exact .scalar hrule hl hkind hone
  | message t =>
    obtain ⟨hkind, hone⟩ := Rule.checkField_ok rfl hcheck
    cases h
    exact .message hrule hkind.symm hone
  | empty =>
    obtain ⟨e, he, h⟩ := bind_eq_ok_iff.1 h
    cases h
    exact .empty hrule (Rule.checkField_element_ok hcheck) he
  | nested =>
    cases h
    exact .nested hrule (Rule.checkField_element_ok hcheck)
  | item q => exact planned_of_underItem hrule (Rule.checkField_element_ok hcheck) h

/-- A plan of a field is one of the eight. -/
theorem planned_of_resolve (h : f.resolve owner naming = .ok p) : f.Planned owner naming p := by
  obtain ⟨⟨⟩, htype, h⟩ := bind_eq_ok_iff.1 h
  unfold FieldPlan.underOptions at h
  cases hrule : f.rule? with
  | some payload =>
    rw [hrule] at h
    exact planned_of_underRule hrule h
  | none =>
    rw [hrule] at h
    cases hflag : f.isFlagged with
    | false =>
      rw [hflag] at h
      cases h
      exact .kept hrule hflag
    | true =>
      rw [hflag] at h
      cases h
      exact .flagged hrule hflag

end Planned
end Redaction
