import Redaction.Proofs.FaultOrigin

/-!
# The outcome of a message

What a message comes to can be told from its options and from its fields one by one. More than one
option hides all that is wrong with the fields, and so does the option to leave the message out;
otherwise no field hides anything of another.

* `fault?` is the fault that the outcome of one step has, and `Report.failures_ofExcept` says that
  several steps report one such fault each.
* `OverrideFlags.override_of_many` and `OverrideFlags.override_of_few` are the outcome of the
  options.
* `Message.resolve_of_override` puts the fields behind it, and `message_outcome` is the main
  statement.
-/

namespace Redaction

/-! ### Steps with one fault each -/

/-- The fault of an outcome, if it is a failure. -/
def fault? {α : Type} : Except Fault α → Option Fault
  | .ok _ => none
  | .error x => some x

theorem fault?_eq_some_iff {α : Type} {outcome : Except Fault α} {x : Fault} :
    fault? outcome = some x ↔ outcome = .error x := by
  cases outcome <;> simp [fault?]

namespace Report

variable {α β : Type}

/-- Several steps report one fault for each that failed, in their order. -/
theorem failures_ofExcept (step : α → Except Fault β) (as : List α) :
    failures (as.map fun a => ofExcept (step a)) = as.filterMap fun a => fault? (step a) := by
  induction as with
  | nil => rfl
  | cons a rest ih =>
    rw [List.map_cons, List.filterMap_cons]
    cases step a with
    | ok b => exact ih
    | error x => exact congrArg (x :: ·) ih

theorem explained_map_ofExcept (step : α → Except Fault β) (as : List α) :
    ∀ s ∈ as.map fun a => ofExcept (step a), Explained s := by
  intro s hs
  obtain ⟨a, -, rfl⟩ := List.mem_map.1 hs
  exact explained_ofExcept _

/-- Several steps succeed exactly if each does, and then with the values of each. -/
theorem collect_ofExcept_eq_ok_iff (step : α → Except Fault β) (as : List α) (bs : List β) :
    collect (as.map fun a => ofExcept (step a)) = .ok bs ↔
      List.Forall₂ (fun a b => step a = .ok b) as bs := by
  have hstep : ∀ a b, step a = .ok b ↔ ofExcept (step a) = .ok b :=
    fun a b => ofExcept_eq_ok_iff.symm
  simp only [hstep]
  exact collect_tried_eq_ok_iff (explained_map_ofExcept step as) false

/-- Several steps fail exactly if one of them does, and then with the faults of all that do. -/
theorem collect_ofExcept_eq_error_iff (step : α → Except Fault β) (as : List α) (d : Report) :
    collect (as.map fun a => ofExcept (step a)) = .error d ↔
      (∃ a ∈ as, ∃ x, step a = .error x) ∧ d.faults = as.filterMap fun a => fault? (step a) := by
  have hfails : (as.filterMap fun a => fault? (step a)) ≠ [] ↔
      ∃ a ∈ as, ∃ x, step a = .error x := by
    constructor
    · intro hne
      obtain ⟨x, hmem⟩ := List.exists_mem_of_ne_nil _ hne
      obtain ⟨a, ha, hx⟩ := List.mem_filterMap.1 hmem
      exact ⟨a, ha, x, fault?_eq_some_iff.1 hx⟩
    · rintro ⟨a, ha, x, hx⟩
      exact List.ne_nil_of_mem (List.mem_filterMap.2 ⟨a, ha, fault?_eq_some_iff.2 hx⟩)
  rw [← hfails, ← failures_ofExcept, collect, result_eq_error_iff]
  refine and_congr_right fun _ => ?_
  constructor
  · rintro rfl
    rfl
  · intro hd
    exact congrArg Report.mk hd.symm

end Report

/-! ### Options -/

namespace OverrideFlags

variable {o : OverrideFlags}

/-- How many options are set. -/
def number (o : OverrideFlags) : Nat := [o.ignored, o.nil, o.empty].count true

theorem override_of_many (h : 1 < o.number) (location : String) :
    o.override location =
      .error (Fault.conflictingOptions location o.ignored o.nil o.empty) := by
  obtain ⟨ignored, nil, empty⟩ := o
  cases ignored <;> cases nil <;> cases empty <;> first | rfl | exact absurd h (by decide)

/-- At most one option is the override that it asks for. -/
theorem override_of_few (h : o.number ≤ 1) (location : String) :
    o.override location =
      .ok (if o.ignored then some .ignore else if o.nil then some .nil
        else if o.empty then some .empty else none) := by
  obtain ⟨ignored, nil, empty⟩ := o
  cases ignored <;> cases nil <;> cases empty <;> first | rfl | exact absurd h (by decide)

end OverrideFlags

/-! ### Messages -/

namespace Message

variable {naming : Naming} {m : Message}

/-- The plan of a message with plans of its fields and an override. -/
def planOf (naming : Naming) (m : Message) (fields : List FieldPlan) (override : Option Override) :
    MessagePlan :=
  ⟨m.name, m.fullName, naming m.type, fields, override⟩

theorem resolve_of_override {override : Option Override}
    (h : m.options.override m.fullName = .ok override) :
    m.resolve naming =
      m.resolveFields naming override >>= fun fields => .ok (m.planOf naming fields override) := by
  unfold resolve
  rw [h]
  rfl

theorem resolve_of_many (h : 1 < m.options.number) :
    m.resolve naming = .error ⟨[Fault.conflictingOptions m.fullName m.options.ignored
      m.options.nil m.options.empty]⟩ := by
  unfold resolve
  rw [OverrideFlags.override_of_many h]
  rfl

theorem resolve_of_ignored (h : m.options.number ≤ 1) (hignored : m.options.ignored = true) :
    m.resolve naming = .ok (m.planOf naming [] (some .ignore)) := by
  have hoverride := OverrideFlags.override_of_few h m.fullName
  rw [if_pos hignored] at hoverride
  rw [resolve_of_override hoverride]
  rfl

/-- The override of a message that is not left out. -/
def override? (m : Message) : Option Override :=
  if m.options.nil then some .nil else if m.options.empty then some .empty else none

/-- A message that is not left out comes to the outcome of its fields. -/
theorem resolve_of_kept (h : m.options.number ≤ 1) (hkept : m.options.ignored = false) :
    m.resolve naming =
      Report.collect (m.fields.map fun f => Report.ofExcept (f.resolve m.fullName naming)) >>=
        fun fields => .ok (m.planOf naming fields m.override?) := by
  have hoverride : m.options.override m.fullName = .ok m.override? := by
    rw [OverrideFlags.override_of_few h, hkept]
    rfl
  have hne : m.override? ≠ some .ignore := by
    unfold override?
    cases m.options.nil <;> cases m.options.empty <;> decide
  rw [resolve_of_override hoverride, resolveFields, if_neg hne]

theorem resolve_eq_ok_iff (h : m.options.number ≤ 1) (hkept : m.options.ignored = false)
    (p : MessagePlan) :
    m.resolve naming = .ok p ↔
      List.Forall₂ (fun f q => f.resolve m.fullName naming = .ok q) m.fields p.fields ∧
        p = m.planOf naming p.fields m.override? := by
  rw [resolve_of_kept h hkept, bind_eq_ok_iff]
  simp only [Report.collect_ofExcept_eq_ok_iff]
  constructor
  · rintro ⟨fields, hfields, ⟨⟩⟩
    exact ⟨hfields, rfl⟩
  · rintro ⟨hfields, hp⟩
    exact ⟨p.fields, hfields, congrArg Except.ok hp.symm⟩

theorem resolve_eq_error_iff (h : m.options.number ≤ 1) (hkept : m.options.ignored = false)
    (d : Report) :
    m.resolve naming = .error d ↔
      (∃ f ∈ m.fields, ∃ x, f.resolve m.fullName naming = .error x) ∧
        d.faults = m.fields.filterMap fun f => fault? (f.resolve m.fullName naming) := by
  rw [resolve_of_kept h hkept, ← Report.collect_ofExcept_eq_error_iff]
  cases Report.collect (m.fields.map fun f => Report.ofExcept (f.resolve m.fullName naming)) with
  | ok fields => exact iff_of_false nofun nofun
  | error e => simp

/-- A message that is not left out has a plan exactly if each of its fields has one. -/
theorem exists_plan_iff (h : m.options.number ≤ 1) (hkept : m.options.ignored = false) :
    (∃ p, m.resolve naming = .ok p) ↔
      ∀ f ∈ m.fields, ∃ q, f.resolve m.fullName naming = .ok q := by
  constructor
  · rintro ⟨p, hp⟩ f hf
    cases hq : f.resolve m.fullName naming with
    | ok q => exact ⟨q, rfl⟩
    | error x =>
      have hfails := (resolve_eq_error_iff h hkept ⟨_⟩).2 ⟨⟨f, hf, x, hq⟩, rfl⟩
      cases hp.symm.trans hfails
  · intro hfields
    cases hm : m.resolve naming with
    | ok p => exact ⟨p, rfl⟩
    | error d =>
      obtain ⟨⟨f, hf, x, hx⟩, -⟩ := (resolve_eq_error_iff h hkept d).1 hm
      obtain ⟨q, hq⟩ := hfields f hf
      cases hx.symm.trans hq

end Message

/-- **A message applies its options first and then reports every field.** More than one option is
the only fault of a message, whatever its fields are. The option to leave the message out gives a
plan without fields, whatever these are. Otherwise the message has a plan exactly if each of its
fields has one, and it consists of theirs and of the override that is asked for, if there is one;
and it fails exactly if a field fails, with the one fault of each field that does. -/
theorem message_outcome (naming : Naming) (m : Message) :
    (1 < m.options.number → m.resolve naming = .error ⟨[Fault.conflictingOptions m.fullName
      m.options.ignored m.options.nil m.options.empty]⟩) ∧
    (m.options.number ≤ 1 → m.options.ignored = true →
      m.resolve naming = .ok ⟨m.name, m.fullName, naming m.type, [], some .ignore⟩) ∧
    (m.options.number ≤ 1 → m.options.ignored = false →
      ((∃ p, m.resolve naming = .ok p) ↔
        ∀ f ∈ m.fields, ∃ q, f.resolve m.fullName naming = .ok q) ∧
      (∀ p, m.resolve naming = .ok p ↔
        List.Forall₂ (fun f q => f.resolve m.fullName naming = .ok q) m.fields p.fields ∧
          p = ⟨m.name, m.fullName, naming m.type, p.fields,
            if m.options.nil then some .nil else if m.options.empty then some .empty else none⟩) ∧
      ∀ d, m.resolve naming = .error d ↔
        (∃ f ∈ m.fields, ∃ x, f.resolve m.fullName naming = .error x) ∧
          d.faults = m.fields.filterMap fun f => fault? (f.resolve m.fullName naming)) :=
  ⟨Message.resolve_of_many, Message.resolve_of_ignored, fun h hkept =>
    ⟨Message.exists_plan_iff h hkept, Message.resolve_eq_ok_iff h hkept,
      Message.resolve_eq_error_iff h hkept⟩⟩

/-- A message with a field that is in order between two that have faults. -/
def Message.withBadFields : Message :=
  let number := Payload.scalar (.integer .int32 41 (by decide))
  let name := Field.withAnnotation (.ofKind "Name" .string) (.rule number)
  let age := Field.withAnnotation (.ofKind "Age" .int32) (.rule number)
  let owner := Field.ofKind "Owner" .message
  (((ofType (.ofNames "User" "acme.User")).push name).push age).push owner

/-- Both faults are reported in order. With one option the message is left out, and with two that is
its only fault. -/
theorem message_outcome_withBadFields :
    (∃ d, Message.withBadFields.resolve .bare = .error d ∧
      d.faults.map Fault.location = ["acme.User.Name", "acme.User.Owner"]) ∧
    (Message.withBadFields.configured ⟨true, false, false⟩).resolve .bare =
      .ok ⟨"User", "acme.User", "User", [], some .ignore⟩ ∧
    (Message.withBadFields.configured ⟨true, false, true⟩).resolve .bare =
      .error ⟨[Fault.conflictingOptions "acme.User" true false true]⟩ := by
  obtain ⟨-, -, hkept⟩ := message_outcome .bare .withBadFields
  obtain ⟨-, -, hfails⟩ := hkept (by decide) rfl
  refine ⟨?_, ?_, ?_⟩
  · refine ⟨⟨_⟩, (hfails _).2 ⟨?_, rfl⟩, by decide +kernel⟩
    exact ⟨Field.ofKind "Owner" .message, by simp [Message.withBadFields, Message.push], _, rfl⟩
  · exact (message_outcome .bare (Message.withBadFields.configured _)).2.1 (by decide) rfl
  · exact (message_outcome .bare (Message.withBadFields.configured _)).1 (by decide)

end Redaction
