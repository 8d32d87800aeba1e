import Redaction.Proofs.FieldCoherence
import Redaction.Proofs.Outcomes

/-!
# What names and inherited settings cannot change

How types are named in the generated file, and which status code and message a run provides, has no
part in what is redacted and what is a fault. The outline of a plan is what is left of it without
the texts that names and these settings go into; two runs that differ in nothing else come to the
same faults or to plans with the same outline.

* `map_bind_congr`: two steps in a row come to the same outline if each does.
* `FieldPlan.outline`, `MessagePlan.outline`, `MethodPlan.outline`, `ServicePlan.outline` and
  `FilePlan.outline` leave the texts out, but not whether an optional one is there.
* `Field.outline_resolve`, `Message.outline_resolve`, `Method.outline_resolve` and
  `Service.outline_resolve` compare two resolutions of one part.
* `outline_plan` is the main statement.
-/

namespace Redaction

/-! ### Outcomes up to a function -/

section Outcomes

variable {ε α β γ δ : Type}

/-- Two outcomes that a function does not tell apart are still so behind steps that keep it. -/
theorem map_bind_congr {x y : Except ε α} {f g : α → Except ε β} {view : α → γ} {view' : β → δ}
    (h : x.map view = y.map view)
    (hnext : ∀ a b, view a = view b → (f a).map view' = (g b).map view') :
    (x >>= f).map view' = (y >>= g).map view' := by
  cases x with
  | error e => cases y <;> cases h; rfl
  | ok a =>
    cases y with
    | error e => cases h
    | ok b => exact hnext a b (Except.ok.inj h)

/-- Behind one and the same step. -/
theorem map_bind_congr_right (x : Except ε α) {f g : α → Except ε β} {view : β → δ}
    (h : ∀ a, (f a).map view = (g a).map view) : (x >>= f).map view = (x >>= g).map view := by
  cases x with
  | error e => rfl
  | ok a => exact h a

end Outcomes

namespace Report

variable {α β : Type}

theorem ofExcept_map (view : α → β) (x : Except Fault α) :
    ofExcept (x.map view) = (ofExcept x).map view := by
  cases x <;> rfl

theorem map_ofExcept_congr {view : α → β} {x y : Except Fault α} (h : x.map view = y.map view) :
    (ofExcept x).map view = (ofExcept y).map view := by
  rw [← ofExcept_map, ← ofExcept_map, h]

theorem result_map (view : α → β) (r : Report) (a : α) :
    r.result (view a) = (r.result a).map view := by
  unfold result
  split <;> rfl

variable (view : α → β) (steps : List (Except Report α))

theorem failures_map : failures (steps.map (Except.map view)) = failures steps := by
  induction steps with
  | nil => rfl
  | cons s rest ih => cases s <;> simp [Except.map, ih]

theorem values_map : values (steps.map (Except.map view)) = (values steps).map view := by
  induction steps with
  | nil => rfl
  | cons s rest ih => cases s <;> simp [Except.map, ih]

theorem failed_map (s : Except Report α) : failed (s.map view) = failed s := by
  cases s <;> rfl

theorem tried_map (failFast : Bool) :
    tried failFast (steps.map (Except.map view)) =
      (tried failFast steps).map (Except.map view) := by
  induction steps with
  | nil => cases failFast <;> rfl
  | cons s rest ih =>
    rw [List.map_cons, tried_cons, tried_cons, failed_map, ih, List.map_cons]
    split <;> rfl

theorem collect_map :
    collect (steps.map (Except.map view)) = (collect steps).map (List.map view) := by
  unfold collect
  rw [failures_map, values_map, result_map]

variable {view steps} {steps' : List (Except Report α)}

/-- Steps that a function does not tell apart have results that it does not tell apart. -/
theorem map_collect_congr (h : steps.map (Except.map view) = steps'.map (Except.map view)) :
    (collect steps).map (List.map view) = (collect steps').map (List.map view) := by
  rw [← collect_map, ← collect_map, h]

theorem failures_congr (h : steps.map (Except.map view) = steps'.map (Except.map view)) :
    failures steps = failures steps' := by
  rw [← failures_map view, h, failures_map]

theorem values_congr (h : steps.map (Except.map view) = steps'.map (Except.map view)) :
    (values steps).map view = (values steps').map view := by
  rw [← values_map, ← values_map, h]

/-- As many steps are tried if a function tells none of them apart. -/
theorem map_tried_congr {γ : Type} {resolve resolve' : γ → Except Report α}
    (h : ∀ c, (resolve c).map view = (resolve' c).map view) (failFast : Bool) (cs : List γ) :
    (tried failFast (cs.map resolve)).map (Except.map view) =
      (tried failFast (cs.map resolve')).map (Except.map view) := by
  have hsteps : (cs.map resolve).map (Except.map view) =
      (cs.map resolve').map (Except.map view) := by
    simp only [List.map_map]
    exact List.map_congr_left fun c _ => h c
  rw [← tried_map, ← tried_map, hsteps]

end Report

/-! ### Fields -/

namespace FieldPlan

/-- The plan without the texts that names go into. -/
def outline (p : FieldPlan) : FieldPlan :=
  { p with
    value := p.value.map fun _ => ""
    goType := ""
    embedQualified := p.embedQualified.map fun _ => "" }

variable {p q : FieldPlan}

/-- Of a new value the outline has only whether there is one. -/
theorem outline_withValue (h : p.outline = q.outline) {v w : Option String}
    (hvalue : v.isSome = w.isSome) :
    outline { p with value := v } = outline { q with value := w } := by
  have hv : v.map (fun _ => "") = w.map fun _ => "" := by cases v <;> cases w <;> simp_all
  calc outline { p with value := v }
      = { p.outline with value := v.map fun _ => "" } := rfl
    _ = { q.outline with value := w.map fun _ => "" } := by rw [h, hv]

theorem outline_flag (h : p.outline = q.outline) (f : Field) :
    (p.flag f).outline = (q.flag f).outline := by
  have hcall : outline { p with redact := true, nestedCall := p.isMessage } =
      outline { q with redact := true, nestedCall := q.isMessage } :=
    congrArg (fun o => { o with redact := true, nestedCall := o.isMessage }) h
  refine outline_withValue hcall ?_
  rw [isSome_blankValue, isSome_blankValue]

theorem outline_treat (h : p.outline = q.outline) (t : Treatment) :
    (p.treat t).outline = (q.treat t).outline := by
  simp only [outline, FieldPlan.mk.injEq] at h
  cases t <;> simp [outline, treat, h]

theorem outline_underItem (h : p.outline = q.outline) (location : String) (kind : Kind)
    (item : Payload) :
    (p.underItem location kind item).map outline =
      (q.underItem location kind item).map outline := by
  unfold underItem
  split
  · rfl
  refine map_bind_congr_right _ fun rule => map_bind_congr_right _ fun _ => ?_
  cases rule with
  | scalar k l => exact congrArg Except.ok (outline_withValue h rfl)
  | message t => exact congrArg Except.ok (outline_treat h t)
  | element a => rfl

/-- Whether a collection has an empty literal is up to the type of its keys. -/
theorem emptyLiteral_congr (p q : FieldPlan) (location : String) (m : Multiplicity) :
    (p.emptyLiteral location m).map (fun _ => ()) =
      (q.emptyLiteral location m).map (fun _ => ()) := by
  cases m with
  | map key =>
    simp only [emptyLiteral]
    split <;> rfl
  | _ => rfl

theorem outline_underAction (h : p.outline = q.outline) (location : String) (f : Field)
    (a : CollectionAction) :
    (p.underAction location f a).map outline = (q.underAction location f a).map outline := by
  cases a with
  | empty =>
    refine map_bind_congr (emptyLiteral_congr p q location f.multiplicity) fun _ _ _ => ?_
    exact congrArg Except.ok (outline_withValue h rfl)
  | nested =>
    have hcall : outline { p with iterate := true, nestedCall := f.kind == Kind.message } =
        outline { q with iterate := true, nestedCall := f.kind == Kind.message } :=
      congrArg (fun o => { o with iterate := true, nestedCall := f.kind == Kind.message }) h
    refine congrArg Except.ok (outline_withValue hcall ?_)
    rw [isSome_blankValue, isSome_blankValue]
  | item item =>
    have hiterate : outline { p with iterate := true } = outline { q with iterate := true } :=
      congrArg (fun o => { o with iterate := true }) h
    exact outline_underItem hiterate location f.kind item

theorem outline_underRule (h : p.outline = q.outline) (location : String) (f : Field)
    (payload : Payload) :
    (p.underRule location f payload).map outline =
      (q.underRule location f payload).map outline := by
  unfold underRule
  refine map_bind_congr_right _ fun rule => map_bind_congr_right _ fun _ => ?_
  cases rule with
  | scalar k l => exact congrArg Except.ok (outline_withValue h rfl)
  | message t => exact congrArg Except.ok (outline_treat h t)
  | element a => exact outline_underAction h location f a

theorem outline_underOptions (h : p.outline = q.outline) (location : String) (f : Field) :
    (p.underOptions location f).map outline = (q.underOptions location f).map outline := by
  unfold underOptions
  split
  next payload _ =>
    have hredact : outline { p with redact := true } = outline { q with redact := true } :=
      congrArg (fun o => { o with redact := true }) h
    exact outline_underRule hredact location f payload
  next =>
    refine congrArg Except.ok ?_
    split
    · exact outline_flag h f
    · exact h

end FieldPlan

namespace Field

variable (naming naming' : Naming)

theorem outline_keepPlan (f : Field) :
    (f.keepPlan naming).outline = (f.keepPlan naming').outline := by
  simp [FieldPlan.outline, keepPlan, Option.map_map, Function.comp_def]

/-- The outline of the plan of a field, and its fault, are the same under every naming. -/
theorem outline_resolve (owner : String) (f : Field) :
    (f.resolve owner naming).map FieldPlan.outline =
      (f.resolve owner naming').map FieldPlan.outline :=
  map_bind_congr_right _ fun _ =>
    FieldPlan.outline_underOptions (f.outline_keepPlan naming naming') _ f

end Field

/-! ### Messages -/

/-- The plan without the texts that names go into. -/
def MessagePlan.outline (p : MessagePlan) : MessagePlan :=
  { p with qualifiedName := "", fields := p.fields.map FieldPlan.outline }

namespace Message

variable (naming naming' : Naming) (m : Message)

theorem outline_resolveFields (override : Option Override) :
    (m.resolveFields naming override).map (List.map FieldPlan.outline) =
      (m.resolveFields naming' override).map (List.map FieldPlan.outline) := by
  unfold resolveFields
  split
  · rfl
  · refine Report.map_collect_congr (Report.map_tried_congr (fun f => ?_) false m.fields)
    exact Report.map_ofExcept_congr (Field.outline_resolve naming naming' m.fullName f)

/-- The outline of the plan of a message, and its faults, are the same under every naming. -/
theorem outline_resolve :
    (m.resolve naming).map MessagePlan.outline = (m.resolve naming').map MessagePlan.outline :=
  map_bind_congr_right _ fun override =>
    map_bind_congr (m.outline_resolveFields naming naming' override) fun fields fields' h => by
      simp only [pure, Except.pure, Except.map, MessagePlan.outline, h]

end Message

/-! ### Methods and services -/

/-- The plan without the texts that names go into, and without the code and text of a denial. -/
def MethodPlan.outline (p : MethodPlan) : MethodPlan :=
  { p with input := "", output := p.output.outline, statusCode := .ok, errorMessage := "" }

/-- The plan with the outlines of its methods. -/
def ServicePlan.outline (p : ServicePlan) : ServicePlan :=
  { p with methods := p.methods.map MethodPlan.outline }

/-- The policy without the code and text of a denial. -/
def CallPolicy.outline (p : CallPolicy) : CallPolicy :=
  { p with statusCode := .ok, errorTemplate := "" }

/-- Whether a level settles a status code is up to its own number. -/
theorem CallOptions.statusCode_congr (location : String) (inherited inherited' : StatusCode)
    (o : CallOptions) :
    (o.statusCode location inherited).map (fun _ => ()) =
      (o.statusCode location inherited').map (fun _ => ()) := by
  unfold statusCode
  cases o.code <;> rfl

namespace CallPolicy

theorem outline_ofService (settings settings' : Settings) (s : Service) :
    (ofService settings s).map outline = (ofService settings' s).map outline :=
  map_bind_congr (s.options.statusCode_congr _ _ _) fun _ _ _ => rfl

theorem outline_refine {p q : CallPolicy} (h : p.outline = q.outline) (location : String)
    (o : CallOptions) :
    (p.refine location o).map outline = (q.refine location o).map outline := by
  simp only [outline, CallPolicy.mk.injEq] at h
  obtain ⟨hskip, hinternal, -, -⟩ := h
  unfold refine
  rw [hskip]
  split
  · rfl
  · refine map_bind_congr (o.statusCode_congr _ _ _) fun _ _ _ => ?_
    rw [hinternal]
    rfl

end CallPolicy

/-- The outline of the plan of a method, and its faults, are the same under every naming and under
policies that differ in the code and text of a denial. -/
theorem Method.outline_resolve (naming naming' : Naming) (s : Service) {p q : CallPolicy}
    (h : p.outline = q.outline) (m : Method) :
    (m.resolve naming s p).map MethodPlan.outline =
      (m.resolve naming' s q).map MethodPlan.outline := by
  have hpolicy := CallPolicy.outline_refine h (m.location s) m.options
  refine map_bind_congr (Report.map_ofExcept_congr hpolicy) fun a b hab => ?_
  refine map_bind_congr_right _ fun input => map_bind_congr_right _ fun output => ?_
  refine map_bind_congr (output.outline_resolve naming naming') fun c d hcd => ?_
  simp only [CallPolicy.outline, CallPolicy.mk.injEq] at hab
  simp only [pure, Except.pure, Except.map, MethodPlan.outline, hab, hcd]

/-- The outline of the plan of a service, and its faults, are the same under every naming and under
settings that differ in the code and text of a denial. -/
theorem Service.outline_resolve {settings settings' : Settings}
    (h : settings.failFast = settings'.failFast) (naming naming' : Naming) (s : Service) :
    (s.resolve settings naming).map ServicePlan.outline =
      (s.resolve settings' naming').map ServicePlan.outline := by
  have hpolicy := CallPolicy.outline_ofService settings settings' s
  refine map_bind_congr (Report.map_ofExcept_congr hpolicy) fun p q hpq => ?_
  rw [h]
  have hmethods := Report.map_collect_congr (Report.map_tried_congr
    (Method.outline_resolve naming naming' s hpq) settings'.failFast s.methods)
  refine map_bind_congr hmethods fun a b hab => ?_
  simp only [CallPolicy.outline, CallPolicy.mk.injEq] at hpq
  simp only [pure, Except.pure, Except.map, ServicePlan.outline, hpq, hab]

/-! ### Files -/

/-- The plan without its imports and with the outlines of its messages and services. -/
def FilePlan.outline (p : FilePlan) : FilePlan :=
  { p with
    imports := .empty
    references := []
    messages := p.messages.map MessagePlan.outline
    services := p.services.map ServicePlan.outline }

namespace SourceFile

section Congr

variable {settings settings' : Settings} {f f' : SourceFile}
  (hfast : settings.failFast = settings'.failFast) (hmessages : f.messages = f'.messages)

include hfast hmessages

theorem outline_messageOutcomes :
    (f.messageOutcomes settings).map (Except.map MessagePlan.outline) =
      (f'.messageOutcomes settings').map (Except.map MessagePlan.outline) := by
  unfold messageOutcomes
  rw [hfast, hmessages]
  exact Report.map_tried_congr (Message.outline_resolve _ _) _ _

/-- As many messages fail, so that the services are tried in both runs or in none. -/
theorem any_failed_messageOutcomes :
    (f.messageOutcomes settings).any Report.failed =
      (f'.messageOutcomes settings').any Report.failed := by
  have h := congrArg (List.any · Report.failed) (outline_messageOutcomes hfast hmessages)
  simpa only [List.any_map, Function.comp_def, Report.failed_map] using h

theorem outline_serviceOutcomes (hservices : f.services = f'.services) :
    (f.serviceOutcomes settings).map (Except.map ServicePlan.outline) =
      (f'.serviceOutcomes settings').map (Except.map ServicePlan.outline) := by
  unfold serviceOutcomes
  rw [any_failed_messageOutcomes hfast hmessages, hfast, hservices]
  split
  · rfl
  · exact Report.map_tried_congr (Service.outline_resolve hfast _ _) _ _

/-- Files with the same parts have plans with the same outline, or the same faults. -/
theorem outline_plan_congr (hservices : f.services = f'.services) (hname : f.name = f'.name)
    (hpackage : f.package = f'.package) (hskip : f.skip = f'.skip) :
    (f.plan settings).map (Option.map FilePlan.outline) =
      (f'.plan settings').map (Option.map FilePlan.outline) := by
  have hblank : f.hasBlankPackage = f'.hasBlankPackage := by
    unfold hasBlankPackage
    rw [hpackage]
  have hfault : f.blankPackage = f'.blankPackage := by
    unfold blankPackage
    rw [hname]
  cases hs : f'.skip with
  | true => simp only [plan, hskip, hs, if_true, Except.map, Option.map_none]
  | false =>
    cases hb : f'.hasBlankPackage with
    | true => simp only [plan, hskip, hs, hblank, hb, hfault, if_true, Report.fail, Except.map]
    | false =>
      have hm := outline_messageOutcomes hfast hmessages
      have hv := outline_serviceOutcomes hfast hmessages hservices
      rw [plan_eq_result settings f (hskip.trans hs) (hblank.trans hb),
        plan_eq_result settings' f' hs hb, ← Report.result_map, ← Report.result_map,
        Report.failures_congr hm, Report.failures_congr hv]
      simp only [Option.map_some, FilePlan.outline, Report.values_congr hm,
        Report.values_congr hv, hname, hpackage]

end Congr

/-- **Names and inherited settings have no part in what is redacted and what is a fault.** Two runs
that differ in the path of the package, the imports, the import path of the runtime and the code and
template that methods fall back to both skip the file, fail with the same report, or come to plans
with the same outline; and one message has the same faults, or plans with the same outline, under
any two namings. -/
theorem outline_plan (settings : Settings) (f : SourceFile) (statusCode : StatusCode)
    (errorTemplate runtimeImport importPath : String) (imports : List Import) :
    (SourceFile.plan
        { settings with
          statusCode := statusCode
          errorTemplate := errorTemplate
          runtimeImport := runtimeImport }
        { f with importPath := importPath, imports := imports }).map
          (Option.map FilePlan.outline) =
      (f.plan settings).map (Option.map FilePlan.outline) ∧
    ∀ (m : Message) (naming naming' : Naming),
      (m.resolve naming).map MessagePlan.outline = (m.resolve naming').map MessagePlan.outline :=
  ⟨outline_plan_congr rfl rfl rfl rfl rfl rfl, fun m naming naming' =>
    m.outline_resolve naming naming'⟩

end SourceFile
end Redaction
