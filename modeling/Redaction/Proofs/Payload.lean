import Redaction.Plan.Field

/-!
# Which payloads are rules

A payload is a rule if it selects a branch and sets the options of that branch as they have to be:
a floating-point value is finite, a message rule has at most one flag, an element rule has exactly
one option. What the item of an element rule contains does not matter.

* `toRule_eq_ok_iff` gives the rule that a payload writes.
* `toRule_of_not_wellFormed` says that nothing else is accepted, and with which fault it is refused.
-/

namespace Redaction

/-- Whether a value is finite, as every value is that is not floating-point. -/
def Scalar.isFinite : Scalar → Bool
  | float v => v.isFinite
  | double v => v.isFinite
  | _ => true

theorem Scalar.literal_of_isFinite {s : Scalar} (h : s.isFinite = true) (location : String) :
    ∃ l, s.literal location = .ok l := by
  cases s with
  | float v => exact ⟨_, if_pos h⟩
  | double v => exact ⟨_, if_pos h⟩
  | _ => exact ⟨_, rfl⟩

theorem Scalar.literal_of_not_isFinite {s : Scalar} (h : s.isFinite = false) (location : String) :
    ∃ text, s.literal location = .error (Fault.notFinite location text) := by
  cases s with
  | float v => exact ⟨_, if_neg (by simpa [isFinite] using h)⟩
  | double v => exact ⟨_, if_neg (by simpa [isFinite] using h)⟩
  | _ => cases h

theorem EmbedFlags.treatment?_of_treatment {m : EmbedFlags} {location : String} {t : Treatment}
    (h : m.treatment location = .ok t) : m.treatment? = some t := by
  unfold treatment at h
  split at h
  · next ht => cases h; exact ht
  · cases h

namespace Payload

/-- Whether a payload writes a rule. -/
def wellFormed : Payload → Bool
  | blank => false
  | scalar s => s.isFinite
  | message flags => decide ([flags.nil, flags.empty, flags.skip].count true ≤ 1)
  | element empty nested item => decide ([empty, nested, item.isSome].count true = 1)

/-- The kind of the values that a payload is for; an element rule is for elements of any kind. -/
def kind? : Payload → Option Kind
  | scalar s => some s.kind
  | message _ => some .message
  | _ => none

/-- The rule that a payload writes, at the location of the field that has it. -/
inductive Writes (location : String) : Payload → Rule → Prop
  | scalar {s : Scalar} {literal : String} (h : s.literal location = .ok literal) :
      Writes location (scalar s) (.scalar s.kind literal)
  | message (t : Treatment) : Writes location (message t.flags) (.message t)
  | empty : Writes location elementEmpty (.element .empty)
  | nested : Writes location elementNested (.element .nested)
  | item (p : Payload) : Writes location (elementItem p) (.element (.item p))

variable {location : String} {p : Payload} {r : Rule}

theorem Writes.exists_element {a : CollectionAction} (h : Writes location p (.element a)) :
    ∃ empty nested item, p = element empty nested item := by
  cases h <;> exact ⟨_, _, _, rfl⟩

theorem toRule_eq_ok_iff : p.toRule location = .ok r ↔ Writes location p r := by
  constructor
  · intro h
    cases p with
    | blank => cases h
    | scalar s =>
      obtain ⟨l, hl, hr⟩ := bind_eq_ok_iff.1 h
      cases hr
      exact .scalar hl
    | message flags =>
      obtain ⟨t, ht, hr⟩ := bind_eq_ok_iff.1 h
      cases hr
      rw [(flags.treatment?_eq_some_iff t).1 (EmbedFlags.treatment?_of_treatment ht)]
      exact .message t
    | element empty nested item =>
      cases empty <;> cases nested <;> cases item <;> cases h
      · exact .item _
      · exact .nested
      · exact .empty
  · intro h
    cases h with
    | scalar hs => simp [toRule, hs]
    | message t => cases t <;> rfl
    | empty => rfl
    | nested => rfl
    | item p => rfl

theorem wellFormed_message (flags : EmbedFlags) :
    (message flags).wellFormed = flags.treatment?.isSome := by
  obtain ⟨nil, empty, skip⟩ := flags
  cases nil <;> cases empty <;> cases skip <;> rfl

theorem wellFormed_element (location : String) (empty nested : Bool) (item : Option Payload) :
    (element empty nested item).wellFormed =
      (collectionAction location empty nested item).toBool := by
  cases empty <;> cases nested <;> cases item <;> rfl

theorem collectionAction_eq_error {empty nested : Bool} {item : Option Payload} {x : Fault}
    (h : collectionAction location empty nested item = .error x) :
    ∃ found, x = Fault.badElementRule location found := by
  unfold collectionAction at h
  split at h
  · cases h
  · cases h
  · cases h
  · exact ⟨_, (Except.error.inj h).symm⟩
  · exact ⟨_, (Except.error.inj h).symm⟩

/-- A well-formed payload is a rule. -/
theorem toRule_of_wellFormed (h : p.wellFormed = true) (location : String) :
    ∃ r, p.toRule location = .ok r := by
  cases p with
  | blank => cases h
  | scalar s =>
    obtain ⟨l, hl⟩ := s.literal_of_isFinite h location
    exact ⟨_, toRule_eq_ok_iff.2 (.scalar hl)⟩
  | message flags =>
    rw [wellFormed_message] at h
    obtain ⟨t, ht⟩ := Option.isSome_iff_exists.1 h
    exact ⟨.message t, by simp [toRule, EmbedFlags.treatment, ht]⟩
  | element empty nested item =>
    rw [wellFormed_element location] at h
    cases ha : collectionAction location empty nested item with
    | ok a => exact ⟨.element a, by simp [toRule, ha]⟩
    | error x => rw [ha] at h; cases h

/-- Any other payload is refused as a malformed rule. -/
theorem toRule_of_not_wellFormed (h : p.wellFormed = false) (location : String) :
    ∃ m, p.toRule location = .error ⟨location, .malformedRule m⟩ := by
  cases p with
  | blank => exact ⟨_, rfl⟩
  | scalar s =>
    obtain ⟨text, hl⟩ := s.literal_of_not_isFinite h location
    exact ⟨_, by simp [toRule, hl]; rfl⟩
  | message flags =>
    rw [wellFormed_message] at h
    have ht := Option.isSome_eq_false_iff.1 h
    exact ⟨_, by simp [toRule, EmbedFlags.treatment, Option.isNone_iff_eq_none.1 ht]; rfl⟩
  | element empty nested item =>
    rw [wellFormed_element location] at h
    cases ha : collectionAction location empty nested item with
    | ok a => rw [ha] at h; cases h
    | error x =>
      obtain ⟨found, rfl⟩ := collectionAction_eq_error ha
      exact ⟨_, by simp [toRule, ha]; rfl⟩

end Payload
end Redaction
