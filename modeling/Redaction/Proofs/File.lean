import Redaction.Plan.File
import Redaction.Proofs.Run

/-!
# Files, all or nothing

Under settings that do not fail fast, a file has a plan exactly if each of its messages and services
has one, and the plan is made up of theirs. Otherwise the report has every fault of every part.

* `recorded_run`, `messages_run` and `services_run` say what the run over a file gathers.
* `plan_all_or_nothing` is the main statement.
-/

namespace Redaction.SourceFile

/-- The faults of all parts: those of the messages in order, and then those of the services. -/
def faults (settings : Settings) (f : SourceFile) : List Fault :=
  Report.failures (f.messages.map (Message.resolve (f.naming settings)))
    ++ Report.failures (f.services.map (Service.resolve settings (f.naming settings)))

theorem nodup_report_run (settings : Settings) (f : SourceFile) :
    (f.run settings).report.faults.Nodup :=
  Run.nodup_through Run.report_addService _ <|
    Run.nodup_through Run.report_addMessage _ List.nodup_nil

section Run

variable {settings : Settings} (hslow : settings.failFast = false) (f : SourceFile)

include hslow

theorem recorded_run : (f.run settings).Recorded (f.faults settings) := by
  have hm := Run.recorded_through hslow Run.report_addMessage
    (Message.resolve (f.naming settings)) f.messages
    (Run.recorded_start (AliasTable.fileEvents settings.runtimeImport f))
  exact Run.recorded_through hslow Run.report_addService _ f.services hm

theorem messages_run : (f.run settings).messages =
    Report.values (f.messages.map (Message.resolve (f.naming settings))) := by
  unfold run messageRun
  rw [Run.messages_through_addService, Run.messages_through hslow]
  rfl

theorem services_run : (f.run settings).services =
    Report.values (f.services.map (Service.resolve settings (f.naming settings))) := by
  unfold run messageRun
  rw [Run.services_through hslow, Run.services_through_addMessage]
  rfl

end Run

/-- Nothing is wrong with a file exactly if all of its parts have a plan. -/
theorem faults_eq_nil_iff (settings : Settings) (f : SourceFile) :
    f.faults settings = [] ↔
      (∀ m ∈ f.messages, ∃ q, m.resolve (f.naming settings) = .ok q) ∧
        ∀ s ∈ f.services, ∃ q, s.resolve settings (f.naming settings) = .ok q := by
  unfold faults
  rw [List.append_eq_nil_iff, Report.failures_eq_nil_iff, Report.failures_eq_nil_iff]
  · simp only [List.forall_mem_map]
  · exact List.forall_mem_map.2 fun s _ => s.explained_resolve settings _
  · exact List.forall_mem_map.2 fun m _ => m.explained_resolve _

/-- What is wrong with a file is what is wrong with some part of it. -/
theorem mem_faults {settings : Settings} {f : SourceFile} {x : Fault} :
    x ∈ f.faults settings ↔
      (∃ m ∈ f.messages, ∃ r, m.resolve (f.naming settings) = .error r ∧ x ∈ r.faults) ∨
        ∃ s ∈ f.services, ∃ r, s.resolve settings (f.naming settings) = .error r ∧
          x ∈ r.faults := by
  unfold faults
  rw [List.mem_append, Report.mem_failures, Report.mem_failures]
  grind

section Plan

variable {settings : Settings} {f : SourceFile} (hslow : settings.failFast = false)
  (hskip : f.skip = false) (hpackage : f.hasBlankPackage = false)

include hskip hpackage

/-- The plan of a file that is neither skipped nor without a package. -/
theorem plan_eq : f.plan settings =
    (f.run settings).report.result (some (f.planOf settings (f.run settings))) := by
  simp [plan, hskip, hpackage]

include hslow

theorem exists_plan_iff : (∃ p, f.plan settings = .ok (some p)) ↔ f.faults settings = [] := by
  rw [plan_eq hskip hpackage, ← (recorded_run hslow f).eq_nil_iff]
  simp [Report.result_eq_ok_iff]

/-- A plan is made up of the plans of the parts. -/
theorem parts_of_plan {p : FilePlan} (h : f.plan settings = .ok (some p)) :
    p.messages.map .ok = f.messages.map (Message.resolve (f.naming settings)) ∧
      p.services.map .ok = f.services.map (Service.resolve settings (f.naming settings)) := by
  obtain ⟨hm, hs⟩ :=
    (faults_eq_nil_iff settings f).1 ((exists_plan_iff hslow hskip hpackage).1 ⟨p, h⟩)
  rw [plan_eq hskip hpackage] at h
  obtain ⟨-, h⟩ := (Report.result_eq_ok_iff _ _ _).1 h
  cases h
  constructor
  · show (f.run settings).messages.map Except.ok = _
    rw [messages_run hslow f]
    exact Report.map_ok_values (List.forall_mem_map.2 hm)
  · show (f.run settings).services.map Except.ok = _
    rw [services_run hslow f]
    exact Report.map_ok_values (List.forall_mem_map.2 hs)

/-- Faults are reported, each at its first place. -/
theorem exists_report (h : f.faults settings ≠ []) :
    ∃ d, f.plan settings = .error d ∧ d.faults = (f.faults settings).eraseDups ∧
      d.faults ≠ [] ∧ d.faults.Nodup := by
  have hrun := recorded_run hslow f
  have hne : (f.run settings).report.faults ≠ [] := mt hrun.eq_nil_iff.1 h
  refine ⟨(f.run settings).report, ?_, hrun, hne, nodup_report_run settings f⟩
  rw [plan_eq hskip hpackage]
  exact (Report.result_eq_error_iff _ _ _).2 ⟨hne, rfl⟩

end Plan

/-- **A file is planned as a whole or not at all, and no fault is lost.** A file that is to be
planned has a plan exactly if each message and each service has one; its plan is then made up of
these, in order. Otherwise the outcome is a report of the faults of all parts that have some, in
order, each fault at its first place only. -/
theorem plan_all_or_nothing (settings : Settings) (f : SourceFile)
    (hslow : settings.failFast = false) (hskip : f.skip = false)
    (hpackage : f.hasBlankPackage = false) :
    let naming := (AliasTable.ofFile settings.runtimeImport f).naming
    ((∃ p, f.plan settings = .ok (some p)) ↔
        (∀ m ∈ f.messages, ∃ q, m.resolve naming = .ok q) ∧
          ∀ s ∈ f.services, ∃ q, s.resolve settings naming = .ok q) ∧
      (∀ p, f.plan settings = .ok (some p) →
        p.messages.map .ok = f.messages.map (Message.resolve naming) ∧
          p.services.map .ok = f.services.map (Service.resolve settings naming)) ∧
      ((¬∃ p, f.plan settings = .ok (some p)) →
        ∃ d, f.plan settings = .error d ∧
          d.faults = (Report.failures (f.messages.map (Message.resolve naming)) ++
            Report.failures (f.services.map (Service.resolve settings naming))).eraseDups ∧
          d.faults ≠ [] ∧ d.faults.Nodup ∧
          (∀ m ∈ f.messages, ∀ r, m.resolve naming = .error r → ∀ x ∈ r.faults, x ∈ d.faults) ∧
          ∀ s ∈ f.services, ∀ r, s.resolve settings naming = .error r →
            ∀ x ∈ r.faults, x ∈ d.faults) := by
  intro naming
  have hiff := exists_plan_iff hslow hskip hpackage
  refine ⟨hiff.trans (faults_eq_nil_iff settings f),
    fun p hp => parts_of_plan hslow hskip hpackage hp, fun hfail => ?_⟩
  obtain ⟨d, hd, hfaults, hne, hnodup⟩ := exists_report hslow hskip hpackage (mt hiff.2 hfail)
  -- dropping repetitions loses no fault of any part
  have hmem : ∀ x ∈ f.faults settings, x ∈ d.faults := by
    intro x hx
    rwa [hfaults, List.mem_eraseDups]
  refine ⟨d, hd, hfaults, hne, hnodup, ?_, ?_⟩
  · intro m hm r hr x hx
    exact hmem x (mem_faults.2 (.inl ⟨m, hm, r, hr, hx⟩))
  · intro s hs r hr x hx
    exact hmem x (mem_faults.2 (.inr ⟨s, hs, r, hr, hx⟩))

/-- A file with a message that has a fault and is the response of a method as well. -/
def withBrokenReply : SourceFile :=
  let age := Field.withAnnotation (.ofKind "Age" .int32) (.rule (.scalar (.string "x")))
  let reply := (Message.ofType (.ofNames "Reply" "acme.Reply")).push age
  let get := Method.ofTypes "Get" "acme.Replies.Get" (.ofNames "Request" "acme.Request") reply
  { name := "acme/reply.proto"
    package := "acme"
    importPath := "example.com/acme"
    imports := []
    messages := [reply]
    services := [(Service.ofNames "Replies" "acme.Replies").push get]
    skip := false }

/-- The fault of a message that two parts share is reported once. -/
theorem plan_withBrokenReply :
    withBrokenReply.skip = false ∧ withBrokenReply.hasBlankPackage = false ∧
      ∃ d, withBrokenReply.plan .standard = .error d ∧
        d.faults = [Fault.ruleKind "acme.Reply.Age" .int32 .string "(redact.custom).int32"] := by
  have hpackage : withBrokenReply.hasBlankPackage = false := by decide +kernel
  obtain ⟨hiff, -, hfail⟩ := plan_all_or_nothing .standard withBrokenReply rfl rfl hpackage
  have hbroken : ¬∃ p, withBrokenReply.plan .standard = .ok (some p) := by
    intro h
    obtain ⟨q, hq⟩ := (hiff.1 h).1 _ List.mem_cons_self
    cases hq
  obtain ⟨d, hd, hfaults, -⟩ := hfail hbroken
  exact ⟨rfl, hpackage, d, hd, hfaults.trans (by decide +kernel)⟩

end Redaction.SourceFile
