import Redaction.Proofs.CallPolicy
import Redaction.Proofs.FieldVerdict
import Redaction.Proofs.Outcomes

/-!
# Faults are located at what they are about

Every fault in the report of a file has been found in one of its parts, and its location is the name
of that part: the file itself, a message, a field, a service or a method. What is wrong can be told
from that part alone.

* `Message.Owns`, `Method.Owns` and `Service.Owns` list the faults that a part can have, each with
  the location and with what has to be wrong for it.
* `owns_of_reported` says for each kind of part that its resolution reports no other fault.
* `faults_located` puts them together for a file, whether its run fails fast or not.
-/

namespace Redaction

namespace Report

variable {α β : Type} {x : Fault}

theorem mem_reported_bind {step : Except Report α} {next : α → Except Report β} :
    x ∈ reported (step >>= next) ↔
      x ∈ reported step ∨ ∃ a, step = .ok a ∧ x ∈ reported (next a) := by
  cases step <;> simp [reported]

theorem mem_reported_ofExcept {outcome : Except Fault α} :
    x ∈ reported (ofExcept outcome) ↔ outcome = .error x := by
  cases outcome <;> simp [reported, ofExcept, fail, ofFault, eq_comm]

/-- Several steps report what each of them reports. -/
theorem mem_reported_collect {steps : List (Except Report α)} :
    x ∈ reported (collect steps) ↔ ∃ step ∈ steps, x ∈ reported step := by
  rw [collect, reported_result]
  exact List.mem_flatMap

end Report

open Report (reported mem_reported_bind mem_reported_ofExcept mem_reported_collect)

/-! ### Messages -/

/-- The faults that a message can have: that of its own options, and those of its fields. -/
inductive Message.Owns (naming : Naming) (m : Message) : Fault → Prop
  | options (h : 2 ≤ [m.options.ignored, m.options.nil, m.options.empty].count true) :
      Owns naming m
        (Fault.conflictingOptions m.fullName m.options.ignored m.options.nil m.options.empty)
  | field {g : Field} {x : Fault} (hmem : g ∈ m.fields)
      (hlocation : x.location = m.fullName ++ "." ++ g.name)
      (h : g.resolve m.fullName naming = .error x) : Owns naming m x

theorem OverrideFlags.override_eq_error {o : OverrideFlags} {location : String} {x : Fault}
    (h : o.override location = .error x) :
    2 ≤ [o.ignored, o.nil, o.empty].count true ∧
      x = Fault.conflictingOptions location o.ignored o.nil o.empty := by
  obtain ⟨ignored, nil, empty⟩ := o
  cases ignored <;> cases nil <;> cases empty <;> cases h <;> exact ⟨by decide, rfl⟩

theorem BearsOut.location_eq {α : Type} {location : String} {verdict : Option Cause.Variant}
    {x : Fault} (h : BearsOut location verdict (.error x : Except Fault α)) :
    x.location = location := by
  cases verdict with
  | none => obtain ⟨a, ha⟩ := h; cases ha
  | some v => obtain ⟨y, ⟨⟩, hlocation, -⟩ := h; exact hlocation

/-- A fault of a field is located at the field. -/
theorem Field.location_of_resolve {owner : String} {naming : Naming} {f : Field} {x : Fault}
    (h : f.resolve owner naming = .error x) : x.location = owner ++ "." ++ f.name := by
  have hout := FieldPlan.bearsOut_underOptions (f.keepPlan naming) (f.location owner) f
  unfold resolve at h
  rw [checkType_eq] at h
  split at h
  · cases h
    rfl
  · rw [ok_bind] at h
    rw [h] at hout
    exact hout.location_eq

theorem Message.owns_of_reported {naming : Naming} {m : Message} {x : Fault}
    (h : x ∈ reported (m.resolve naming)) : m.Owns naming x := by
  rcases mem_reported_bind.1 h with hoptions | ⟨override, -, h⟩
  · obtain ⟨hmany, rfl⟩ := OverrideFlags.override_eq_error (mem_reported_ofExcept.1 hoptions)
    exact .options hmany
  rcases mem_reported_bind.1 h with hfields | ⟨fields, -, h⟩
  · unfold resolveFields at hfields
    split at hfields
    · cases hfields
    · obtain ⟨step, hstep, hx⟩ := mem_reported_collect.1 hfields
      obtain ⟨g, hg, rfl⟩ := List.mem_map.1 hstep
      have hresolve := mem_reported_ofExcept.1 hx
      exact .field hg (Field.location_of_resolve hresolve) hresolve
  · cases h

/-! ### Methods -/

/-- The faults that a method can have: that of its own status code, unless it is skipped, those of
its missing types, and those of its output. -/
inductive Method.Owns (naming : Naming) (s : Service) (m : Method) : Fault → Prop
  | code {n : UInt32} (hservice : s.options.skip = false) (hmethod : m.options.skip = false)
      (hcode : m.options.code = some n) (hn : 16 < n.toNat) :
      Owns naming s m (Fault.invalidStatusCode (m.location s) n)
  | noInput (h : m.input = none) :
      Owns naming s m (Fault.structural (m.location s) "method has no input type")
  | noOutput (h : m.output = none) :
      Owns naming s m (Fault.structural (m.location s) "method has no output type")
  | output {o : Message} {x : Fault} (ho : m.output = some o) (h : o.Owns naming x) :
      Owns naming s m x

/-- Only a method that is not skipped can have a bad status code. -/
theorem CallPolicy.refine_eq_error {location : String} {inherited : CallPolicy} {o : CallOptions}
    {x : Fault} (h : inherited.refine location o = .error x) :
    inherited.skip = false ∧ o.skip = false ∧
      ∃ n, o.code = some n ∧ 16 < n.toNat ∧ x = Fault.invalidStatusCode location n := by
  unfold refine at h
  split at h
  · cases h
  next hskip =>
    obtain ⟨hinherited, hown⟩ := Bool.or_eq_false_iff.1 (Bool.eq_false_iff.2 hskip)
    refine ⟨hinherited, hown, (o.statusCode_eq_error_iff location inherited.statusCode x).1 ?_⟩
    cases hcode : o.statusCode location inherited.statusCode with
    | ok code => rw [hcode] at h; cases h
    | error y => rw [hcode] at h; cases h; rfl

theorem required_eq_error {α : Type} {location reason : String} {part : Option α} {x : Fault}
    (h : required location reason part = .error x) :
    part = none ∧ x = Fault.structural location reason := by
  cases part <;> cases h
  exact ⟨rfl, rfl⟩

theorem Method.owns_of_reported {settings : Settings} {naming : Naming} {s : Service}
    {inherited : CallPolicy} {m : Method} {x : Fault}
    (hs : CallPolicy.ofService settings s = .ok inherited)
    (h : x ∈ reported (m.resolve naming s inherited)) : m.Owns naming s x := by
  rcases mem_reported_bind.1 h with hpolicy | ⟨policy, -, h⟩
  · obtain ⟨hinherited, hown, n, hcode, hn, rfl⟩ :=
      CallPolicy.refine_eq_error (mem_reported_ofExcept.1 hpolicy)
    exact .code ((CallPolicy.settled_of_ofService hs).1.symm.trans hinherited) hown hcode hn
  rcases mem_reported_bind.1 h with hinput | ⟨input, -, h⟩
  · obtain ⟨hnone, rfl⟩ := required_eq_error (mem_reported_ofExcept.1 hinput)
    exact .noInput hnone
  rcases mem_reported_bind.1 h with houtput | ⟨output, houtput, h⟩
  · obtain ⟨hnone, rfl⟩ := required_eq_error (mem_reported_ofExcept.1 houtput)
    exact .noOutput hnone
  rcases mem_reported_bind.1 h with hmessage | ⟨plan, -, h⟩
  · have ho : m.output = some output := required_eq_ok_iff.1 (Report.ofExcept_eq_ok_iff.1 houtput)
    exact .output ho (Message.owns_of_reported hmessage)
  · cases h

/-! ### Services -/

/-- The faults that a service can have: that of its own status code, and those of its methods. -/
inductive Service.Owns (naming : Naming) (s : Service) : Fault → Prop
  | code {n : UInt32} (hcode : s.options.code = some n) (hn : 16 < n.toNat) :
      Owns naming s (Fault.invalidStatusCode s.fullName n)
  | method {m : Method} {x : Fault} (hmem : m ∈ s.methods) (h : m.Owns naming s x) :
      Owns naming s x

theorem Service.owns_of_reported {settings : Settings} {naming : Naming} {s : Service} {x : Fault}
    (h : x ∈ reported (s.resolve settings naming)) : s.Owns naming x := by
  rcases mem_reported_bind.1 h with hpolicy | ⟨policy, hpolicy, h⟩
  · obtain ⟨n, hcode, hn, rfl⟩ :=
      (CallPolicy.ofService_eq_error_iff settings s x).1 (mem_reported_ofExcept.1 hpolicy)
    exact .code hcode hn
  rcases mem_reported_bind.1 h with hmethods | ⟨methods, -, h⟩
  · -- the methods that are tried are among those of the service
    obtain ⟨step, hstep, hx⟩ := mem_reported_collect.1 hmethods
    obtain ⟨m, hm, rfl⟩ := List.mem_map.1 (Report.tried_subset _ _ hstep)
    exact .method hm (Method.owns_of_reported (Report.ofExcept_eq_ok_iff.1 hpolicy) hx)
  · cases h

/-! ### Files -/

namespace SourceFile

variable {settings : Settings} {f : SourceFile} {x : Fault}

theorem exists_message_of_reported {step : Except Report MessagePlan}
    (hstep : step ∈ f.messageOutcomes settings) (hx : x ∈ reported step) :
    ∃ m ∈ f.messages, m.Owns (f.naming settings) x := by
  obtain ⟨m, hm, rfl⟩ := List.mem_map.1 (Report.tried_subset _ _ hstep)
  exact ⟨m, hm, Message.owns_of_reported hx⟩

theorem exists_service_of_reported {step : Except Report ServicePlan}
    (hstep : step ∈ f.serviceOutcomes settings) (hx : x ∈ reported step) :
    ∃ s ∈ f.services, s.Owns (f.naming settings) x := by
  unfold serviceOutcomes at hstep
  split at hstep
  · cases hstep
  · obtain ⟨s, hs, rfl⟩ := List.mem_map.1 (Report.tried_subset _ _ hstep)
    exact ⟨s, hs, Service.owns_of_reported hx⟩

/-- **Every fault is located at what it is about.** If a file is reported, its package is blank and
that is the only fault, located at the file, or each fault is one that a message or a service of the
file can have. -/
theorem faults_located {settings : Settings} {f : SourceFile} {d : Report}
    (h : f.plan settings = .error d) :
    let naming := (AliasTable.ofFile settings.runtimeImport f).naming
    ∀ x ∈ d.faults,
      f.hasBlankPackage = true ∧ d.faults = [x] ∧ x.location = f.name ∨
        (∃ m ∈ f.messages, m.Owns naming x) ∨ ∃ s ∈ f.services, s.Owns naming x := by
  intro naming x hx
  cases hskip : f.skip with
  | true => simp [plan, hskip] at h
  | false =>
  cases hpackage : f.hasBlankPackage with
  | true =>
    simp only [plan, hskip, hpackage, Bool.false_eq_true, if_false, if_true] at h
    cases h
    obtain rfl := List.mem_singleton.1 hx
    exact .inl ⟨rfl, rfl, rfl⟩
  | false =>
    rw [plan_eq hskip hpackage] at h
    obtain ⟨-, rfl⟩ := (Report.result_eq_error_iff _ _ _).1 h
    -- the report has the faults of the parts that were tried, and no others
    have hfound := ((f.recorded_run_outcomes settings).mem_iff x).1 hx
    rcases List.mem_append.1 hfound with hmessage | hservice
    · obtain ⟨step, hstep, hx⟩ := List.mem_flatMap.1 hmessage
      exact .inr (.inl (exists_message_of_reported hstep hx))
    · obtain ⟨step, hstep, hx⟩ := List.mem_flatMap.1 hservice
      exact .inr (.inr (exists_service_of_reported hstep hx))

/-- A file with a message that has two options, and a method without types. -/
def withLooseEnds : SourceFile :=
  let reply := (Message.ofType (.ofNames "Reply" "acme.Reply")).configured ⟨true, true, false⟩
  let post : Method := ⟨"Post", "", none, none, false, false, .unset⟩
  { name := "acme/ledger.proto"
    package := "acme"
    importPath := "example.com/acme"
    imports := []
    messages := [reply]
    services := [(Service.ofNames "Ledgers" "acme.Ledgers").push post]
    skip := false }

/-- Both loose ends are reported where they are: at the message, and at the method by the name that
is made up for it. -/
theorem located_withLooseEnds : ∃ d, withLooseEnds.plan .standard = .error d ∧
    d.faults.map Fault.location = ["acme.Reply", "acme.Ledgers.Post"] ∧
    ∀ x ∈ d.faults, (∃ m ∈ withLooseEnds.messages, m.Owns (withLooseEnds.naming .standard) x) ∨
      ∃ s ∈ withLooseEnds.services, s.Owns (withLooseEnds.naming .standard) x := by
  obtain ⟨d, hd⟩ : ∃ d, withLooseEnds.plan .standard = .error d := ⟨_, rfl⟩
  have hpackage : withLooseEnds.hasBlankPackage = false := by decide +kernel
  refine ⟨d, hd, ?_, fun x hx => ?_⟩
  · cases hd
    decide +kernel
  · rcases faults_located hd x hx with ⟨hblank, -⟩ | howned
    · rw [hpackage] at hblank
      cases hblank
    · exact howned

end SourceFile
end Redaction
