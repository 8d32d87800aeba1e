import Mathlib.Data.List.Nodup
import Redaction.Proofs.ItemRule
import Redaction.Proofs.FieldVerdict
import Redaction.Text

/-!
# Hints on mismatches

A rule that does not fit its field is refused with a hint at a spelling. The spelling is that of the
rules that fit, so that another rule in it is not refused again.

* `Rule.spelling` and `Rule.itemSpelling` are how a schema writes a rule, alone and as an item.
* `Field.Refuses` holds of the mismatches that a field finds before it looks at an item: it finds
  them whatever the item is. They are those of `Rule.checkField` (`refuses_iff`).
* `Fault.Hints` says that the hint of a mismatch asks for a spelling.
* `checkField_eq_ok_iff` and `checkItem_eq_ok_iff`: a rule passes if its spelling is the one that a
  hint would ask for.
* `mismatch_hints` is the main statement.
-/

namespace Redaction

/-! ### Spellings -/

namespace Rule

/-- The last part of the spelling of a rule. -/
def branch : Rule → String
  | scalar k _ => k.name
  | message _ => "message.*"
  | element _ => "element.*"

/-- How a schema writes a rule. -/
def spelling (r : Rule) : String := "(redact.custom)." ++ r.branch

/-- How a schema writes the rule of an item. -/
def itemSpelling (r : Rule) : String := "(redact.custom).element.item." ++ r.branch

end Rule

theorem Kind.branchName_injective {k k' : Kind} (h : k.branchName = k'.branchName) : k = k' := by
  have hnodup : (all.map branchName).Nodup := by decide
  exact List.inj_on_of_nodup_map hnodup k.mem_all k'.mem_all h

theorem Kind.branchName_of_ne {k : Kind} (h : k ≠ .message) : k.branchName = k.name := by
  cases k with
  | message => exact absurd rfl h
  | _ => rfl

theorem Kind.branchName_ne_element (k : Kind) : k.branchName ≠ "element.*" := by
  cases k <;> decide

namespace Payload.Writes

variable {location : String} {payload : Payload} {r : Rule}

/-- The branch of a rule is that of its kind; an element rule has one of its own. -/
theorem branch_eq (h : payload.Writes location r) :
    r.branch = (r.kind?.map Kind.branchName).getD "element.*" := by
  cases h with
  | @scalar s l => exact (Kind.branchName_of_ne s.kind_ne_message).symm
  | _ => rfl

theorem branch_eq_branchName_iff (h : payload.Writes location r) (k : Kind) :
    r.branch = k.branchName ↔ r.kind? = some k := by
  rw [h.branch_eq]
  cases r.kind? with
  | none => simpa using k.branchName_ne_element.symm
  | some k' => simpa using ⟨Kind.branchName_injective, congrArg Kind.branchName⟩

theorem branch_eq_element_iff (h : payload.Writes location r) :
    r.branch = "element.*" ↔ r.kind? = none := by
  rw [h.branch_eq]
  cases r.kind? with
  | none => simp
  | some k => simpa using k.branchName_ne_element

/-- A rule that is no element rule is for values of one kind. -/
theorem exists_kind (h : payload.Writes location r) (hone : payload.isElement = false) :
    ∃ k, r.kind? = some k := by
  cases h with
  | scalar => exact ⟨_, rfl⟩
  | message => exact ⟨_, rfl⟩
  | empty => cases hone
  | nested => cases hone
  | item q => cases hone

end Payload.Writes

/-! ### Checks -/

/-- A fault says that a rule is for another kind or for another number of values. -/
def Fault.IsMismatch (x : Fault) : Prop :=
  ∃ m, x.cause = .kindMismatch m ∨ x.cause = .labelMismatch m

/-- The hint of a mismatch asks for a spelling. -/
def Fault.Hints (x : Fault) (spelling : String) : Prop :=
  ∃ m before, (x.cause = .kindMismatch m ∨ x.cause = .labelMismatch m) ∧
    m.hint = before ++ ("use " ++ spelling ++ " instead")

/-- A fault hints at one text without blanks. -/
theorem Fault.Hints.unique {x : Fault} {s s' : String} (h : x.Hints s) (h' : x.Hints s')
    (hs : ' ' ∉ s.toList) (hs' : ' ' ∉ s'.toList) : s = s' := by
  obtain ⟨m, before, hcause, hhint⟩ := h
  obtain ⟨m', before', hcause', hhint'⟩ := h'
  have hm : m = m' := by
    rcases hcause with hcause | hcause <;> rcases hcause' with hcause' | hcause' <;>
      cases hcause.symm.trans hcause' <;> rfl
  have htexts := congrArg String.toList (hhint.symm.trans (hm ▸ hhint'))
  have hchars : (before.toList ++ ['u', 's', 'e']) ++ ' ' :: s.toList ++ " instead".toList =
      (before'.toList ++ ['u', 's', 'e']) ++ ' ' :: s'.toList ++ " instead".toList := by
    simpa using htexts
  exact String.toList_inj.1 (Text.append_cons_inj hs hs' (List.append_cancel_right hchars)).2

theorem Fault.Hints.isMismatch {x : Fault} {spelling : String} (h : x.Hints spelling) :
    x.IsMismatch := by
  obtain ⟨m, -, hcause, -⟩ := h
  exact ⟨m, hcause⟩

namespace Rule

variable {location : String} {payload : Payload} {r : Rule} {x : Fault}

/-- A rule passes the check of a field if its spelling is the one that fits the field. -/
theorem checkField_eq_ok_iff (h : payload.Writes location r) (kind : Kind) (m : Multiplicity) :
    r.checkField location kind m = .ok () ↔ r.spelling = ruleSpelling kind m := by
  unfold spelling ruleSpelling
  cases hm : m.holdsMany with
  | true =>
    have helement : elementSpelling = "(redact.custom)." ++ "element.*" := by decide
    rw [if_pos rfl, helement, String.append_right_inj, h.branch_eq_element_iff]
    unfold checkField
    cases r.kind? with
    | none => simp [hm]
    | some k => by_cases hk : k = kind <;> simp [hm, hk]
  | false =>
    rw [if_neg Bool.false_ne_true, String.append_right_inj, h.branch_eq_branchName_iff]
    unfold checkField
    cases r.kind? with
    | none => simp [hm]
    | some k => by_cases hk : k = kind <;> simp [hm, hk]

/-- The hint of the check of a field asks for the spelling that fits the field. -/
theorem hints_of_checkField {kind : Kind} {m : Multiplicity}
    (h : r.checkField location kind m = .error x) : x.Hints (ruleSpelling kind m) := by
  simp only [checkField] at h
  split at h
  next k _ =>
    split at h
    · cases h
      exact ⟨_, "", .inl rfl, (String.empty_append).symm⟩
    · split at h
      · cases h
        exact ⟨_, _, .inr rfl, rfl⟩
      · cases h
  next =>
    split at h
    · cases h
    · cases h
      exact ⟨_, _, .inr rfl, rfl⟩

/-- The rule of an item passes if its spelling is the one that fits the elements. -/
theorem checkItem_eq_ok_iff (h : payload.Writes location r) (kind : Kind) :
    r.checkItem location kind = .ok () ↔ r.itemSpelling = Redaction.itemSpelling kind := by
  unfold itemSpelling Redaction.itemSpelling
  rw [String.append_right_inj, h.branch_eq_branchName_iff]
  unfold checkItem
  cases r.kind? with
  | none => simp
  | some k => by_cases hk : k = kind <;> simp [hk]

/-- The hint of the check of an item asks for the spelling that fits the elements. -/
theorem hints_of_checkItem {kind k : Kind} (hk : r.kind? = some k)
    (h : r.checkItem location kind = .error x) :
    x.cause.variant = .kindMismatch ∧ x.Hints (Redaction.itemSpelling kind) := by
  rw [checkItem_of_kind hk] at h
  split at h
  · cases h
    exact ⟨rfl, _, "", .inl rfl, (String.empty_append).symm⟩
  · cases h

/-- The rule with another item in the place of its own, if it has one. -/
def withItem (item : Payload) : Rule → Rule
  | element (.item _) => element (.item item)
  | r => r

theorem checkField_withItem (item : Payload) (location : String) (kind : Kind) (m : Multiplicity) :
    (r.withItem item).checkField location kind m = r.checkField location kind m := by
  cases r with
  | element a => cases a <;> rfl
  | _ => rfl

end Rule

/-! ### Rules of a field -/

/-- The payload with another item in the place of its own, if it has one. -/
def Payload.withItem (payload item : Payload) : Payload :=
  match payload with
  | element empty nested (some _) => element empty nested (some item)
  | p => p

theorem Payload.Writes.withItem {location : String} {payload : Payload} {r : Rule}
    (h : payload.Writes location r) (item : Payload) :
    (payload.withItem item).Writes location (r.withItem item) := by
  cases h with
  | scalar h => exact .scalar h
  | message t => exact .message t
  | empty => exact .empty
  | nested => exact .nested
  | item p => exact .item item

namespace FieldPlan

variable (p : FieldPlan) (location : String) (f : Field)

/-- What a rule that has been checked does to the plan. -/
def underChecked : Rule → Except Fault FieldPlan
  | .scalar _ literal => .ok { p with value := some (p.wrap literal) }
  | .message t => .ok (p.treat t)
  | .element a => p.underAction location f a

theorem underRule_of_writes {payload : Payload} {r : Rule} (h : payload.Writes location r) :
    p.underRule location f payload =
      r.checkField location f.kind f.multiplicity >>= fun _ => p.underChecked location f r := by
  unfold underRule
  rw [Payload.toRule_eq_ok_iff.2 h, ok_bind]
  cases r <;> rfl

/-- A rule that has been checked is no mismatch, unless its item is one. -/
theorem not_isMismatch_underChecked {r : Rule} {x : Fault}
    (h : p.underChecked location f (r.withItem .blank) = .error x) : ¬x.IsMismatch := by
  have hcause : (∃ reason, x.cause = .structural reason) ∨ ∃ m, x.cause = .malformedRule m := by
    cases r with
    | element a =>
      cases a with
      | empty =>
        change (p.emptyLiteral location f.multiplicity >>= _) = _ at h
        unfold emptyLiteral at h
        split at h
        · split at h
          · cases h
          · cases h
            exact .inl ⟨_, rfl⟩
        · cases h
      | nested => cases h
      | item q =>
        cases h
        exact .inr ⟨_, rfl⟩
    | _ => cases h
  rintro ⟨m, hm | hm⟩ <;> rcases hcause with ⟨_, hcause⟩ | ⟨_, hcause⟩ <;>
    cases hm.symm.trans hcause

end FieldPlan

namespace Field

/-- The field names its type if its kind asks for one. -/
def IsTyped (f : Field) : Prop := f.kind = .message ∨ f.kind = .enum → f.type.isSome = true

variable (owner : String) (naming : Naming) (f : Field) (flag : Bool)

/-- The field refuses a rule before it looks at an item in it: the rule is one and the same mismatch
whatever its item is. -/
def Refuses (payload : Payload) (x : Fault) : Prop :=
  x.IsMismatch ∧ ∀ item, (f.withAnnotation ⟨flag, some (payload.withItem item)⟩).resolve owner
    naming = .error x

variable {f owner}

theorem checkType_of_typed (htype : f.IsTyped) (location : String) :
    f.checkType location = .ok () := by
  rw [checkType_eq]
  refine if_neg fun h => ?_
  have hsome := htype h.1
  rw [h.2] at hsome
  cases hsome

theorem resolve_of_writes (htype : f.IsTyped) {payload : Payload} {r : Rule}
    (h : payload.Writes (f.location owner) r) :
    (f.withAnnotation ⟨flag, some payload⟩).resolve owner naming =
      r.checkField (f.location owner) f.kind f.multiplicity >>= fun _ =>
        (f.redactPlan naming).underChecked (f.location owner) f r := by
  have hcheck : (f.withAnnotation ⟨flag, some payload⟩).checkType (f.location owner) = .ok () :=
    checkType_of_typed htype _
  rw [resolve_of_rule (f.withAnnotation _) owner naming rfl]
  show ((f.withAnnotation _).checkType (f.location owner) >>= fun _ =>
    (f.redactPlan naming).underRule (f.location owner) (f.withAnnotation _) payload) = _
  rw [hcheck, ok_bind, FieldPlan.underRule_of_writes _ _ _ h]
  rfl

/-- What a field refuses before it looks at an item is what its check of the rule refuses. -/
theorem refuses_iff (htype : f.IsTyped) {payload : Payload} {r : Rule}
    (h : payload.Writes (f.location owner) r) (x : Fault) :
    f.Refuses owner naming flag payload x ↔
      r.checkField (f.location owner) f.kind f.multiplicity = .error x := by
  have hresolve := fun item => resolve_of_writes naming flag htype (h.withItem item)
  simp only [Rule.checkField_withItem] at hresolve
  unfold Refuses
  simp only [hresolve]
  -- what is left to compare is the check, and what comes behind it with any item
  cases hcheck : r.checkField (f.location owner) f.kind f.multiplicity with
  | error y =>
    constructor
    · intro hx
      cases hx.2 .blank
      rfl
    · rintro ⟨⟩
      exact ⟨(Rule.hints_of_checkField hcheck).isMismatch, fun _ => rfl⟩
  | ok =>
    -- an item without a branch is no mismatch, so that this one would go away with it
    refine iff_of_false (fun hx => ?_) nofun
    exact FieldPlan.not_isMismatch_underChecked _ _ f (hx.2 .blank) hx.1

/-- A field that refuses a rule has that fault. -/
theorem Refuses.resolve_eq {naming : Naming} {flag : Bool} {payload : Payload} {x : Fault}
    (h : f.Refuses owner naming flag payload x) :
    (f.withAnnotation ⟨flag, some payload⟩).resolve owner naming = .error x := by
  cases payload with
  | element empty nested item =>
    cases item with
    | some q => exact h.2 q
    | none => exact h.2 .blank
  | _ => exact h.2 .blank

/-- A field refuses a rule if its spelling is not the one that fits the field. -/
theorem exists_refuses_iff (htype : f.IsTyped) {payload : Payload} {r : Rule}
    (h : payload.Writes (f.location owner) r) :
    (∃ x, f.Refuses owner naming flag payload x) ↔
      r.spelling ≠ ruleSpelling f.kind f.multiplicity := by
  simp only [refuses_iff naming flag htype h, ne_eq,
    ← Rule.checkField_eq_ok_iff h f.kind f.multiplicity]
  cases r.checkField (f.location owner) f.kind f.multiplicity with
  | ok => exact iff_of_false nofun (not_not_intro rfl)
  | error y => exact iff_of_true ⟨y, rfl⟩ nofun

/-- A collection whose item rule is for one value has the outcome of the check of that rule. -/
theorem resolve_item (htype : f.IsTyped) (hmany : f.multiplicity ≠ .singular) {item : Payload}
    {r : Rule} {k : Kind} (h : item.Writes (f.location owner) r) (hk : r.kind? = some k) :
    ∃ p, (f.withAnnotation ⟨flag, some (.elementItem item)⟩).resolve owner naming =
      r.checkItem (f.location owner) f.kind >>= fun _ => .ok p := by
  have hitem : item.isElement = false := by cases h <;> first | rfl | cases hk
  have hcheck : (f.withAnnotation ⟨flag, some (.elementItem item)⟩).checkType (f.location owner) =
    .ok () := checkType_of_typed htype _
  have haction : (f.withAnnotation ⟨flag, some (.elementItem item)⟩).resolve owner naming =
      FieldPlan.underItem { f.redactPlan naming with iterate := true } (f.location owner) f.kind
        item := by
    rw [resolve_of_elementRule (f.withAnnotation _) owner naming hmany rfl (.item item)]
    exact congrArg (· >>= _) hcheck
  rw [haction]
  unfold FieldPlan.underItem
  rw [hitem, Payload.toRule_eq_ok_iff.2 h]
  cases h with
  | scalar hl => exact ⟨_, rfl⟩
  | message t => exact ⟨_, rfl⟩
  | empty => cases hk
  | nested => cases hk
  | item q => cases hk

end Field

/-! ### Rules in the spelling of a hint -/

theorem Kind.blank_notMem_branchName (k : Kind) : ' ' ∉ k.branchName.toList := by
  cases k <;> decide

theorem Payload.Writes.blank_notMem_branch {location : String} {payload : Payload} {r : Rule}
    (h : payload.Writes location r) : ' ' ∉ r.branch.toList := by
  rw [h.branch_eq]
  cases r.kind? with
  | none => decide
  | some k => exact k.blank_notMem_branchName

theorem blank_notMem_append {s t : String} (hs : ' ' ∉ s.toList) (ht : ' ' ∉ t.toList) :
    ' ' ∉ (s ++ t).toList := by
  rw [String.toList_append, List.mem_append]
  exact not_or.2 ⟨hs, ht⟩

namespace Fault.Hints

variable {x : Fault} {location : String} {payload : Payload} {r : Rule} {kind : Kind}

/-- A rule in the spelling that is hinted at for a field is in the one that fits it. -/
theorem spelling_eq {m : Multiplicity} (h : x.Hints (ruleSpelling kind m))
    (hr : payload.Writes location r) (h' : x.Hints r.spelling) :
    r.spelling = ruleSpelling kind m := by
  refine h'.unique h (blank_notMem_append (by decide) hr.blank_notMem_branch) ?_
  unfold ruleSpelling
  split
  · decide
  · exact blank_notMem_append (by decide) kind.blank_notMem_branchName

theorem itemSpelling_eq (h : x.Hints (itemSpelling kind)) (hr : payload.Writes location r)
    (h' : x.Hints r.itemSpelling) : r.itemSpelling = itemSpelling kind :=
  h'.unique h (blank_notMem_append (by decide) hr.blank_notMem_branch)
    (blank_notMem_append (by decide) kind.blank_notMem_branchName)

end Fault.Hints

section Main

variable {f : Field} {owner : String} (naming : Naming) (flag : Bool)

/-- What a field refuses is not refused again in the spelling of the hint. -/
theorem hints_of_refuses (htype : f.IsTyped) {payload : Payload} {r : Rule}
    (hr : payload.Writes (f.location owner) r) {x : Fault}
    (hx : f.Refuses owner naming flag payload x) :
    x.Hints (ruleSpelling f.kind f.multiplicity) ∧
      ∀ payload' r', payload'.toRule (f.location owner) = .ok r' → x.Hints r'.spelling →
        ∀ y, ¬f.Refuses owner naming flag payload' y := by
  have hhints := Rule.hints_of_checkField ((Field.refuses_iff naming flag htype hr x).1 hx)
  refine ⟨hhints, fun payload' r' hr' hx' y hy => ?_⟩
  have hwrites := Payload.toRule_eq_ok_iff.1 hr'
  exact (Field.exists_refuses_iff naming flag htype hwrites).1 ⟨y, hy⟩
    (hhints.spelling_eq hwrites hx')

/-- A collection has a plan under every item rule in the spelling that fits its elements. -/
theorem exists_plan_of_itemSpelling (htype : f.IsTyped) (hmany : f.multiplicity ≠ .singular)
    {item : Payload} {r : Rule} (hr : item.Writes (f.location owner) r)
    (hspelling : r.itemSpelling = itemSpelling f.kind) :
    ∃ p, (f.withAnnotation ⟨flag, some (.elementItem item)⟩).resolve owner naming = .ok p := by
  have hcheck := (Rule.checkItem_eq_ok_iff hr f.kind).2 hspelling
  have hkind := (hr.branch_eq_branchName_iff f.kind).1 ((String.append_right_inj _).1 hspelling)
  obtain ⟨p, hp⟩ := Field.resolve_item naming flag htype hmany hr hkind
  exact ⟨p, hp.trans (by rw [hcheck, ok_bind])⟩

/-- A collection refuses an item rule for one value if the check of the rule does. -/
theorem resolve_item_eq_error_iff (htype : f.IsTyped) (hmany : f.multiplicity ≠ .singular)
    {item : Payload} {r : Rule} (hitem : item.isElement = false)
    (hr : item.Writes (f.location owner) r) (x : Fault) :
    (f.withAnnotation ⟨flag, some (.elementItem item)⟩).resolve owner naming = .error x ↔
      r.checkItem (f.location owner) f.kind = .error x := by
  obtain ⟨k, hk⟩ := hr.exists_kind hitem
  obtain ⟨p, hp⟩ := Field.resolve_item naming flag htype hmany hr hk
  rw [hp]
  cases r.checkItem (f.location owner) f.kind with
  | ok => exact iff_of_false nofun nofun
  | error y => simp

/-- The one fault of a collection with an item rule for one value is that the rule is for another
kind. -/
theorem exists_item_mismatch_iff (htype : f.IsTyped) (hmany : f.multiplicity ≠ .singular)
    {item : Payload} {r : Rule} (hitem : item.isElement = false)
    (hr : item.Writes (f.location owner) r) :
    (∃ x, (f.withAnnotation ⟨flag, some (.elementItem item)⟩).resolve owner naming = .error x ∧
      x.cause.variant = .kindMismatch) ↔ r.itemSpelling ≠ itemSpelling f.kind := by
  obtain ⟨k, hk⟩ := hr.exists_kind hitem
  simp only [resolve_item_eq_error_iff naming flag htype hmany hitem hr, ne_eq,
    ← Rule.checkItem_eq_ok_iff hr f.kind]
  cases hcheck : r.checkItem (f.location owner) f.kind with
  | ok => exact iff_of_false nofun (not_not_intro rfl)
  | error y => exact iff_of_true ⟨y, rfl, (Rule.hints_of_checkItem hk hcheck).1⟩ nofun

/-- Its hint asks for a spelling under which a collection has a plan. -/
theorem hints_of_item (htype : f.IsTyped) (hmany : f.multiplicity ≠ .singular)
    {item : Payload} {r : Rule}
    (hitem : item.isElement = false) (hr : item.Writes (f.location owner) r) {x : Fault}
    (hx : (f.withAnnotation ⟨flag, some (.elementItem item)⟩).resolve owner naming = .error x) :
    x.Hints (itemSpelling f.kind) ∧
      ∀ item' r', item'.toRule (f.location owner) = .ok r' → x.Hints r'.itemSpelling →
        ∃ p, (f.withAnnotation ⟨flag, some (.elementItem item')⟩).resolve owner naming = .ok p := by
  obtain ⟨k, hk⟩ := hr.exists_kind hitem
  have hcheck := (resolve_item_eq_error_iff naming flag htype hmany hitem hr x).1 hx
  have hhints := (Rule.hints_of_checkItem hk hcheck).2
  refine ⟨hhints, fun item' r' hr' hx' => ?_⟩
  have hwrites := Payload.toRule_eq_ok_iff.1 hr'
  exact exists_plan_of_itemSpelling naming flag htype hmany hwrites
    (hhints.itemSpelling_eq hwrites hx')

end Main

/-- **The hints on mismatches are right and never missing.** A field whose type is named refuses a
well-formed rule, before it looks at an item in it, exactly if the rule is not in the spelling that
fits the field. The hint asks for that spelling, and no rule in the spelling that a hint asks for is
refused so again. In the same way a collection refuses the rule of an item, if that is no element
rule, exactly if its spelling is not the one that fits the elements, for which the hint asks; and
every item rule in the spelling that a hint asks for has a plan. -/
theorem mismatch_hints {f : Field} (htype : f.IsTyped) (owner : String) (naming : Naming)
    (flag : Bool) :
    (∀ payload r, payload.toRule (f.location owner) = .ok r →
      ((∃ x, f.Refuses owner naming flag payload x) ↔
        r.spelling ≠ ruleSpelling f.kind f.multiplicity) ∧
      ∀ x, f.Refuses owner naming flag payload x →
        (f.withAnnotation ⟨flag, some payload⟩).resolve owner naming = .error x ∧
        x.Hints (ruleSpelling f.kind f.multiplicity) ∧
        ∀ payload' r', payload'.toRule (f.location owner) = .ok r' → x.Hints r'.spelling →
          ∀ y, ¬f.Refuses owner naming flag payload' y) ∧
    (f.multiplicity ≠ .singular → ∀ item r, item.isElement = false →
      item.toRule (f.location owner) = .ok r →
      ((∃ x, (f.withAnnotation ⟨flag, some (.elementItem item)⟩).resolve owner naming = .error x ∧
        x.cause.variant = .kindMismatch) ↔ r.itemSpelling ≠ itemSpelling f.kind) ∧
      ∀ x, (f.withAnnotation ⟨flag, some (.elementItem item)⟩).resolve owner naming = .error x →
        x.Hints (itemSpelling f.kind) ∧
        ∀ item' r', item'.toRule (f.location owner) = .ok r' → x.Hints r'.itemSpelling →
          ∃ p, (f.withAnnotation ⟨flag, some (.elementItem item')⟩).resolve owner naming =
            .ok p) := by
  constructor
  · intro payload r hrule
    have hr := Payload.toRule_eq_ok_iff.1 hrule
    exact ⟨Field.exists_refuses_iff naming flag htype hr,
      fun x hx => ⟨hx.resolve_eq, hints_of_refuses naming flag htype hr hx⟩⟩
  · intro hmany item r hitem hrule
    have hr := Payload.toRule_eq_ok_iff.1 hrule
    exact ⟨exists_item_mismatch_iff naming flag htype hmany hitem hr,
      fun x hx => hints_of_item naming flag htype hmany hitem hr hx⟩

/-- A list of enum values. -/
def Field.shades : Field :=
  ((ofKind "Shades" .enum).ofType (.ofNames "Shade" "acme.Shade")).asList

/-- The rule that puts a text in place. -/
def Payload.dark : Payload := .scalar (.string "dark")

/-- A text is refused for the list with a hint at element rules, and for its elements with a hint at
enum values, one of which then has a plan. -/
theorem mismatch_hints_shades : Field.shades.IsTyped ∧ Payload.dark.isElement = false ∧
    ∃ x y p, Field.shades.Refuses "acme.User" .bare false .dark x ∧
      x.Hints "(redact.custom).element.*" ∧
      (Field.shades.withAnnotation (.rule (.elementItem .dark))).resolve "acme.User" .bare =
        .error y ∧
      y.Hints "(redact.custom).element.item.enum" ∧
      (Field.shades.withAnnotation (.rule (.elementItem
        (.scalar (.integer .enum 3 (by decide)))))).resolve "acme.User" .bare = .ok p := by
  have htype : Field.shades.IsTyped := fun _ => rfl
  obtain ⟨hrules, hitems⟩ := mismatch_hints htype "acme.User" .bare false
  obtain ⟨hrefused, hhints⟩ := hrules .dark _ rfl
  obtain ⟨hmismatch, hitemHints⟩ := hitems (by decide) .dark _ rfl rfl
  obtain ⟨x, hx⟩ := hrefused.2 (by decide)
  obtain ⟨y, hy, -⟩ := hmismatch.2 (by decide)
  obtain ⟨hspelling, hplan⟩ := hitemHints y hy
  obtain ⟨p, hp⟩ := hplan (.scalar (.integer .enum 3 (by decide))) _ rfl hspelling
  exact ⟨htype, rfl, x, y, p, hx, (hhints x hx).2.1, hy, hspelling, hp⟩

end Redaction
