import Redaction.Proofs.FieldCoherence
import Redaction.Proofs.GoLiteral
import Redaction.Proofs.GoTyping

/-!
# Values are well typed

The value of a plan is a Go expression that can be assigned to the place where it goes.

* `FieldPlan.target` is that place: one value, a pointer to a value, a list or a map.
* `Field.ScalarForm` holds of the expressions for one scalar: those for the value that the rule of
  the field names if it names one, and the blank of the kind otherwise.
* `Target.Takes` lists what each place can get. Every form has the type of its place
  (`Target.Takes.assignable`).
* `value_fits` says that no plan has a value of another form.
-/

namespace Redaction

/-! ### Types of values -/

/-- The Go type of a value of a kind. The type of an enum value or a message has a name. -/
def Kind.valueType (named : String) : Kind → Go.Ty
  | .int32 | .sint32 | .sfixed32 => .basic .int32
  | .int64 | .sint64 | .sfixed64 => .basic .int64
  | .uint32 | .fixed32 => .basic .uint32
  | .uint64 | .fixed64 => .basic .uint64
  | .float => .basic .float32
  | .double => .basic .float64
  | .bool => .basic .bool
  | .string => .basic .string
  | .bytes => .slice (.basic .byte)
  | .enum => .enum named
  | .message => .pointer (.struct named)

/-- The Go type of one value of a field. -/
def Field.valueType (naming : Naming) (f : Field) : Go.Ty :=
  f.kind.valueType ((f.type.map naming).getD "")

theorem Field.text_valueType (naming : Naming) (f : Field) :
    (f.valueType naming).text = f.goType naming := by
  unfold valueType goType
  cases f.kind <;> rfl

/-- The types of scalars other than bytes are those that can stand behind a pointer. -/
theorem Kind.valueType_of_ne {k : Kind} (hbytes : k ≠ .bytes) (hmessage : k ≠ .message)
    (named : String) :
    (∃ b, k.valueType named = .basic b) ∨ ∃ name, k.valueType named = .enum name := by
  cases k with
  | bytes => exact absurd rfl hbytes
  | message => exact absurd rfl hmessage
  | enum => exact .inr ⟨named, rfl⟩
  | _ => exact .inl ⟨_, rfl⟩

/-- The text of a key type is that of a type whose values are comparable. -/
theorem Kind.valueType_of_keyType? {k : Kind} {t : String} (h : k.keyType? = some t)
    (named : String) :
    (k.valueType named).text = t ∧ (k.valueType named).isComparable = true := by
  cases k <;> cases h <;> exact ⟨rfl, rfl⟩

/-! ### Forms of scalars -/

/-- The expressions for a scalar. -/
inductive Scalar.Written : Scalar → Go.Expr → Prop
  | float {v : Binary .single} (h : v.isFinite = true) : Written (.float v) (.number v)
  | double {v : Binary .double} (h : v.isFinite = true) : Written (.double v) (.number v)
  | integer {k : Kind} {v : Int} (h : k.Holds v) : Written (.integer k v h) (.integer v)
  | bool (b : Bool) : Written (.bool b) (.bool b)
  | string {s literal : String} (h : Go.IsLiteral literal s.toUTF8.data.toList) :
      Written (.string s) (.literal literal)
  | bytes {b : List UInt8} {literal : String} (h : Go.IsLiteral literal b) :
      Written (.bytes b) (.bytes literal)

/-- The literal of a floating-point number is that of a finite one. -/
theorem Binary.literal_eq_ok_iff {fmt : Format} {v : Binary fmt} {location l : String} :
    v.literal location = .ok l ↔ v.isFinite = true ∧ v.decimal = l := by
  unfold literal
  split <;> simp [*]

/-- The Go literal of a scalar is an expression for it. -/
theorem Scalar.written_of_literal {s : Scalar} {location l : String}
    (h : s.literal location = .ok l) : ∃ e, s.Written e ∧ e.text = l := by
  cases s with
  | float v =>
    obtain ⟨hfinite, htext⟩ := Binary.literal_eq_ok_iff.1 h
    exact ⟨_, .float hfinite, htext⟩
  | double v =>
    obtain ⟨hfinite, htext⟩ := Binary.literal_eq_ok_iff.1 h
    exact ⟨_, .double hfinite, htext⟩
  | integer k v holds =>
    cases h
    exact ⟨_, .integer holds, rfl⟩
  | bool b =>
    cases h
    exact ⟨_, .bool b, rfl⟩
  | string s =>
    cases h
    refine ⟨.literal (Go.textLiteral s), .string ?_, rfl⟩
    rw [Go.bytes_toUTF8]
    exact (Go.carries_textLiteralChars s.toList).isLiteral
  | bytes b =>
    cases h
    obtain ⟨cs, hbytes, hcs⟩ := Go.exists_byteSliceLiteral_eq b
    refine ⟨.bytes (String.ofList cs), .bytes hcs.isLiteral, ?_⟩
    rw [hbytes, String.ofList_append, String.ofList_append, String.ofList_toList]
    rfl

/-- An integer of a kind is a constant of the Go type. -/
theorem Kind.Holds.assignable {k : Kind} {v : Int} (h : k.Holds v) (named : String) :
    Go.Assignable (.integer v) (k.valueType named) := by
  obtain ⟨⟨low, high⟩, hrange, hlow, hhigh⟩ := h
  cases k with
  | enum =>
    cases hrange
    exact .enum named hlow hhigh
  | double | float | bool | string | bytes | message => cases hrange
  | _ =>
    cases hrange
    exact .integer rfl hlow hhigh

theorem Scalar.Written.assignable {s : Scalar} {e : Go.Expr} (h : s.Written e) (named : String) :
    Go.Assignable e (s.kind.valueType named) := by
  cases h with
  | float h => exact .float32 h
  | double h => exact .float64 h
  | integer h => exact h.assignable named
  | bool b => exact .bool b
  | string h => exact .literal h
  | bytes h => exact .bytes h

/-- The expression that takes the place of one value of a kind; a message has none. -/
def Kind.blankExpr? : Kind → Option Go.Expr
  | .bool => some (.bool false)
  | .string => some (.literal redactedText)
  | .bytes => some .nil
  | .message => none
  | .float => some (.number (.finite false ⟨0, by decide⟩ : Binary .single))
  | .double => some (.number (.finite false ⟨0, by decide⟩ : Binary .double))
  | _ => some (.integer 0)

theorem Kind.text_blankExpr? (k : Kind) : k.blankExpr?.map Go.Expr.text = k.blank? := by
  cases k <;> rfl

theorem isLiteral_redactedText : Go.IsLiteral redactedText "REDACTED".toUTF8.data.toList where
  readLiteral_append := Go.readFrom_append (by decide)
  isSource := by decide

theorem Kind.assignable_blankExpr? {k : Kind} {e : Go.Expr} (h : k.blankExpr? = some e)
    (named : String) : Go.Assignable e (k.valueType named) := by
  cases k with
  | message => cases h
  | bool => cases h; exact .bool false
  | string => cases h; exact .literal isLiteral_redactedText
  | bytes => cases h; exact .nil_slice _
  | float => cases h; exact .float32 rfl
  | double => cases h; exact .float64 rfl
  | _ => cases h; exact Holds.assignable (by decide) named

/-- The scalar that a payload puts in place of one value. -/
def Payload.scalar? : Payload → Option Scalar
  | scalar s => some s
  | element _ _ (some (scalar s)) => some s
  | _ => none

namespace Field

/-- An expression for one scalar of the field: for the value that the rule names, if it names one,
and the blank of the kind otherwise. -/
def ScalarForm (f : Field) (e : Go.Expr) : Prop :=
  match f.rule?.bind Payload.scalar? with
  | some s => s.kind = f.kind ∧ s.Written e
  | none => f.kind.blankExpr? = some e

variable {f : Field} {e : Go.Expr}

theorem scalarForm_of_rule {s : Scalar} {payload : Payload} (hrule : f.rule? = some payload)
    (hs : payload.scalar? = some s) : f.ScalarForm e ↔ s.kind = f.kind ∧ s.Written e := by
  simp only [ScalarForm, hrule, Option.bind_some, hs]

theorem scalarForm_of_no_scalar (h : f.rule?.bind Payload.scalar? = none) :
    f.ScalarForm e ↔ f.kind.blankExpr? = some e := by
  simp only [ScalarForm, h]

theorem ScalarForm.assignable (h : f.ScalarForm e) (naming : Naming) :
    Go.Assignable e (f.valueType naming) := by
  unfold ScalarForm at h
  split at h
  · next s _ =>
    obtain ⟨hkind, hwritten⟩ := h
    unfold valueType
    rw [← hkind]
    exact hwritten.assignable _
  · exact Kind.assignable_blankExpr? h _

end Field

/-! ### Places -/

/-- Where the value of a plan goes. -/
inductive Target where
  /-- One value, in the field or in an element of its collection. -/
  | one
  /-- A pointer to one value. -/
  | pointer
  | list
  | map (key : Kind)

/-- The place that the value of the plan of a field goes to. -/
def FieldPlan.target (p : FieldPlan) (m : Multiplicity) : Target :=
  if p.iterate then .one
  else if p.isOptional then .pointer
  else if p.isRepeated then .list
  else match p.isMap, m with
    | true, .map key => .map key
    | _, _ => .one

namespace Target

/-- The Go type of a place for values of a type. -/
def type (value : Go.Ty) : Target → Go.Ty
  | one => value
  | pointer => .pointer value
  | list => .slice value
  | map key => .map (key.valueType "") value

/-- What the places of a field can get. A whole collection becomes `nil` or is emptied, a scalar
behind a pointer gets the address of a new variable, a message becomes `nil` or is emptied, and any
other place gets a scalar. -/
inductive Takes (naming : Naming) (f : Field) : Target → Go.Expr → Prop
  | nil_list : Takes naming f .list .nil
  | empty_list : Takes naming f .list (.empty (.slice (f.valueType naming)))
  | nil_map (key : Kind) : Takes naming f (.map key) .nil
  | empty_map {key : Kind} (hkey : key.keyType?.isSome = true) :
      Takes naming f (.map key) (.empty (.map (key.valueType "") (f.valueType naming)))
  | new_variable {e : Go.Expr} (h : f.ScalarForm e) :
      Takes naming f .pointer (.newVariable (f.valueType naming) e)
  | nil_message (hkind : f.kind = .message) : Takes naming f .one .nil
  | empty_message {name : String} (htype : f.valueType naming = .pointer (.struct name)) :
      Takes naming f .one (.newStruct (.struct name))
  | scalar {e : Go.Expr} (h : f.ScalarForm e) : Takes naming f .one e

/-- Every place gets what can be assigned to it. -/
theorem Takes.assignable {naming : Naming} {f : Field} {place : Target} {e : Go.Expr}
    (h : place.Takes naming f e) : Go.Assignable e (place.type (f.valueType naming)) := by
  cases h with
  | nil_list => exact .nil_slice _
  | empty_list => exact .empty_slice _
  | nil_map key => exact .nil_map _ _
  | empty_map hkey =>
    obtain ⟨t, ht⟩ := Option.isSome_iff_exists.1 hkey
    exact .empty_map _ (Kind.valueType_of_keyType? ht "").2
  | new_variable h => exact .newVariable (h.assignable naming)
  | nil_message hkind =>
    unfold type Field.valueType
    rw [hkind]
    exact .nil_pointer _
  | empty_message htype =>
    unfold type
    rw [htype]
    exact .newStruct _
  | scalar h => exact h.assignable naming

end Target

/-! ### Values in places -/

section Value

variable {naming : Naming} {f : Field} {p q : FieldPlan}

theorem FieldPlan.SameShape.target_eq (h : p.SameShape q) (hone : q.iterate = false)
    (m : Multiplicity) : p.target m = if p.iterate then .one else q.target m := by
  simp only [FieldPlan.target, h.isOptional, h.isRepeated, h.isMap, hone, Bool.false_eq_true,
    if_false]

theorem target_of_singular (h : f.multiplicity = .singular) :
    (f.keepPlan naming).target f.multiplicity =
      if (f.keepPlan naming).isOptional then .pointer else .one := by
  simp [FieldPlan.target, Field.keepPlan, h, Multiplicity.isMap]

theorem target_of_repeated (h : f.multiplicity = .repeated) :
    (f.keepPlan naming).target f.multiplicity = .list := by
  simp [FieldPlan.target, Field.keepPlan, h]

theorem target_of_map {key : Kind} (h : f.multiplicity = .map key) :
    (f.keepPlan naming).target f.multiplicity = .map key := by
  simp [FieldPlan.target, Field.keepPlan, h, Multiplicity.isMap]

/-- A scalar goes into the field itself or, if it is optional, in through a pointer. -/
theorem exists_takes_wrap (hone : f.multiplicity = .singular) {e : Go.Expr} (h : f.ScalarForm e) :
    ∃ e' : Go.Expr, e'.text = (f.keepPlan naming).wrap e.text ∧
      ((f.keepPlan naming).target f.multiplicity).Takes naming f e' := by
  rw [target_of_singular hone]
  cases hoptional : (f.keepPlan naming).isOptional with
  | false => exact ⟨e, (FieldPlan.wrap_of_not_isOptional hoptional e.text).symm, .scalar h⟩
  | true =>
    -- such a scalar is not written as `nil`, which would go in as it is
    have hkind : f.kind ≠ .bytes ∧ f.kind ≠ .message := by
      simp only [Field.keepPlan, Bool.and_eq_true, bne_iff_ne] at hoptional
      exact ⟨hoptional.1.2, hoptional.2⟩
    have hnil : e.text ≠ nilLiteral :=
      Go.text_ne_nil (h.assignable naming) (Kind.valueType_of_ne hkind.1 hkind.2 _)
    refine ⟨.newVariable (f.valueType naming) e, ?_, .new_variable h⟩
    rw [FieldPlan.wrap, if_pos ⟨hoptional, hnil⟩, Go.Expr.text_newVariable, f.text_valueType]
    rfl

theorem takes_nil_of_many (hmany : f.multiplicity ≠ .singular) :
    ((f.keepPlan naming).target f.multiplicity).Takes naming f .nil := by
  cases hm : f.multiplicity with
  | singular => exact absurd hm hmany
  | repeated => rw [← hm, target_of_repeated hm]; exact .nil_list
  | map key => rw [← hm, target_of_map hm]; exact .nil_map key

/-- The literal of an empty collection is one of the field's type. -/
theorem exists_takes_empty (hmany : f.multiplicity ≠ .singular) {location literal : String}
    (h : (f.keepPlan naming).emptyLiteral location f.multiplicity = .ok literal) :
    ∃ e : Go.Expr, e.text = literal ∧
      ((f.keepPlan naming).target f.multiplicity).Takes naming f e := by
  have htext : (f.valueType naming).text = (f.keepPlan naming).goType := f.text_valueType naming
  cases hm : f.multiplicity with
  | singular => exact absurd hm hmany
  | repeated =>
    rw [hm] at h
    cases h
    rw [← hm, target_of_repeated hm, ← htext]
    exact ⟨_, rfl, .empty_list⟩
  | map key =>
    rw [hm] at h
    unfold FieldPlan.emptyLiteral at h
    cases hkey : key.keyType? with
    | none => simp [hkey] at h
    | some t =>
      simp only [hkey, Except.ok.injEq] at h
      rw [← hm, target_of_map hm]
      refine ⟨_, ?_, .empty_map (by rw [hkey]; rfl)⟩
      rw [← h, ← htext, ← (Kind.valueType_of_keyType? hkey "").1]
      rfl

/-- The value under a message rule is `nil` or the address of an empty message. -/
theorem exists_takes_of_treat {t : Treatment} {v : String} (hv : (p.treat t).value = some v)
    (hnone : p.value = none) (hembed : p.embedQualified = (f.keepPlan naming).embedQualified)
    (hkind : f.kind = .message) (ht : ∃ t, f.type = some t) :
    ∃ e : Go.Expr, e.text = v ∧ Target.one.Takes naming f e := by
  cases t with
  | nil =>
    cases hv
    exact ⟨.nil, rfl, .nil_message hkind⟩
  | empty =>
    obtain ⟨type, htype⟩ := ht
    have hname : p.embedQualified.getD "" = naming type := by
      rw [hembed]
      simp [Field.keepPlan, Field.embedded, hkind, htype]
    cases hv
    refine ⟨.newStruct (.struct (naming type)), ?_, .empty_message ?_⟩
    · rw [hname]
      rfl
    · simp [Field.valueType, hkind, htype, Kind.valueType]
  | skip => cases hnone.symm.trans hv
  | recurse => cases hnone.symm.trans hv

/-- The blank of one value comes from an expression of the kind. -/
theorem exists_scalarForm_of_blank (hrule : f.rule?.bind Payload.scalar? = none) {v : String}
    (hv : p.blankValue f.kind false = some v) :
    ∃ e : Go.Expr, f.ScalarForm e ∧ p.wrap e.text = v := by
  rw [FieldPlan.blankValue_one, ← Kind.text_blankExpr?, Option.map_map] at hv
  obtain ⟨e, he, htext⟩ := Option.map_eq_some_iff.1 hv
  exact ⟨e, (Field.scalarForm_of_no_scalar hrule).2 he, htext⟩

/-- The value of a plan comes from an expression that its place can get. -/
theorem exists_takes_of_planned {owner : String} (ht : f.kind = .message → ∃ t, f.type = some t)
    (h : f.Planned owner naming p) {v : String} (hv : p.value = some v) :
    ∃ e : Go.Expr, e.text = v ∧ (p.target f.multiplicity).Takes naming f e := by
  rw [(sameShape_of_planned h).target_eq rfl]
  cases h with
  | kept => cases hv
  | flagged hrule =>
    have hblank : f.rule?.bind Payload.scalar? = none := by rw [hrule]; rfl
    change (f.keepPlan naming).blankValue f.kind f.multiplicity.holdsMany = some v at hv
    cases hmany : f.multiplicity.holdsMany with
    | true =>
      rw [hmany, FieldPlan.blankValue_many] at hv
      cases hv
      exact ⟨.nil, rfl, takes_nil_of_many fun hone => by rw [hone] at hmany; cases hmany⟩
    | false =>
      rw [hmany] at hv
      obtain ⟨e, he, rfl⟩ := exists_scalarForm_of_blank hblank hv
      exact exists_takes_wrap ((f.multiplicity.holdsMany_eq_false_iff).1 hmany) he
  | scalar hrule hl hkind hone =>
    obtain ⟨e, he, rfl⟩ := Scalar.written_of_literal hl
    cases hv
    exact exists_takes_wrap hone ((Field.scalarForm_of_rule hrule rfl).2 ⟨hkind, he⟩)
  | @message t _ hkind hone =>
    -- one message is not behind a pointer of its own
    have htarget : (f.keepPlan naming).target f.multiplicity = .one := by
      rw [target_of_singular hone]
      simp [Field.keepPlan, hkind]
    rw [FieldPlan.iterate_treat, htarget]
    exact exists_takes_of_treat hv rfl rfl hkind (ht hkind)
  | empty _ hmany he =>
    cases hv
    exact exists_takes_empty hmany he
  | nested hrule hmany =>
    have hblank : f.rule?.bind Payload.scalar? = none := by rw [hrule]; rfl
    obtain ⟨e, he, rfl⟩ := exists_scalarForm_of_blank hblank hv
    have hone : (f.redactPlan naming).isOptional = false :=
      Field.isOptional_keepPlan (.inl hmany) naming
    exact ⟨e, (FieldPlan.wrap_of_not_isOptional hone e.text).symm, .scalar he⟩
  | itemScalar hrule hl hkind =>
    obtain ⟨e, he, rfl⟩ := Scalar.written_of_literal hl
    cases hv
    exact ⟨e, rfl, .scalar ((Field.scalarForm_of_rule hrule rfl).2 ⟨hkind, he⟩)⟩
  | @itemMessage t _ hkind =>
    rw [FieldPlan.iterate_treat]
    exact exists_takes_of_treat hv rfl rfl hkind (ht hkind)

end Value

/-- **A value is well typed for the place it is assigned to.** The type that a plan names is that of
one value of the field. If the plan has a value, then this is the text of an expression that can be
assigned to the place it goes to, and one that such a place can get. -/
theorem value_fits {owner : String} {naming : Naming} {f : Field} {p : FieldPlan} {v : String}
    (h : f.resolve owner naming = .ok p) (hv : p.value = some v) :
    p.goType = (f.valueType naming).text ∧
      ∃ e : Go.Expr, e.text = v ∧ (p.target f.multiplicity).Takes naming f e ∧
        Go.Assignable e ((p.target f.multiplicity).type (f.valueType naming)) := by
  have hplanned := planned_of_resolve h
  refine ⟨(sameShape_of_planned hplanned).goType.trans (f.text_valueType naming).symm, ?_⟩
  obtain ⟨e, htext, htakes⟩ := exists_takes_of_planned (exists_type_of_resolve h) hplanned hv
  exact ⟨e, htext, htakes, htakes.assignable⟩

/-- An optional enum value that is replaced by the one with the number three. -/
def shade : Field :=
  ((Field.ofKind "Shade" .enum).ofType (.ofNames "Shade" "acme.Shade")).asOptional.withAnnotation
    (.rule (.scalar (.integer .enum 3 (by decide))))

/-- The value goes in as the address of a new variable of the enum type. -/
theorem value_shade : ∃ p, shade.resolve "acme.User" .bare = .ok p ∧
    p.value = some "func() *Shade \x7b v := Shade(3); return &v \x7d()" ∧
      p.target shade.multiplicity = .pointer ∧
        ∃ e : Go.Expr, p.value = some e.text ∧ Go.Assignable e (.pointer (.enum "Shade")) := by
  refine ⟨_, rfl, rfl, rfl, ?_⟩
  obtain ⟨-, e, htext, -, hassignable⟩ :=
    value_fits (rfl : shade.resolve "acme.User" .bare = .ok _) rfl
  exact ⟨e, congrArg some htext.symm, hassignable⟩

end Redaction
