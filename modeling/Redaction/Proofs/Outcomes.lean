import Redaction.Proofs.FailFast

/-!
# The parts that are tried

A run tries the parts of a file up to the first with a fault if it fails fast, and all of them
otherwise. What it comes to is told from the outcomes of the parts that were tried.

* `Run.through_eq_foldl`: a run over several parts takes in the outcomes of those that are tried.
* `SourceFile.messageOutcomes` and `SourceFile.serviceOutcomes` are the outcomes of the messages and
  services of a file that are tried, told without the run; `run_eq_foldl` says that the run takes in
  these.
* `SourceFile.plan_eq_result`: the plan of a file, or its report, in terms of the outcomes.
-/

namespace Redaction

namespace Report

variable {α : Type}

/-- The faults that an outcome reports. -/
def reported {α : Type} : Except Report α → List Fault
  | .ok _ => []
  | .error r => r.faults

theorem reported_result (r : Report) (a : α) : reported (r.result a) = r.faults := by
  obtain ⟨fs⟩ := r
  cases fs <;> rfl

theorem reported_ofExcept_bind {β : Type} (outcome : Except Fault α)
    (next : α → Except Report β) :
    reported (ofExcept outcome >>= next) =
      match outcome with
      | .ok a => reported (next a)
      | .error x => [x] := by
  cases outcome <;> rfl

/-- A last step that cannot fail reports nothing. -/
theorem reported_bind_ok {β : Type} (outcome : Except Report α) (f : α → β) :
    reported (outcome >>= fun a => .ok (f a)) = reported outcome := by
  cases outcome <;> rfl

/-- A failure is told by what it reports, if it has a cause. -/
theorem Explained.eq_error_iff {outcome : Except Report α} (h : Explained outcome) (r : Report) :
    outcome = .error r ↔ reported outcome ≠ [] ∧ r.faults = reported outcome := by
  cases outcome with
  | ok a => simp [reported]
  | error s =>
    constructor
    · intro heq
      cases heq
      exact ⟨h _ rfl, rfl⟩
    · rintro ⟨-, hfaults⟩
      exact congrArg Except.error (congrArg Report.mk hfaults.symm)

theorem tried_cons (failFast : Bool) (s : Except Report α) (rest : List (Except Report α)) :
    tried failFast (s :: rest) =
      s :: if failFast && failed s then [] else tried failFast rest := by
  cases failFast with
  | false => rfl
  | true => cases s <;> rfl

theorem tried_subset (failFast : Bool) (steps : List (Except Report α)) :
    tried failFast steps ⊆ steps := by
  induction steps with
  | nil => cases failFast <;> exact List.Subset.refl _
  | cons s rest ih =>
    rw [tried_cons]
    refine List.cons_subset_cons s ?_
    split
    · exact List.nil_subset _
    · exact ih

theorem failed_eq_false_iff {s : Except Report α} : failed s = false ↔ ∃ a, s = .ok a := by
  cases s <;> simp

/-- Steps report something exactly if one of them failed. -/
theorem any_failed_eq_false_iff {steps : List (Except Report α)}
    (h : ∀ s ∈ steps, Explained s) : steps.any failed = false ↔ failures steps = [] := by
  rw [failures_eq_nil_iff h, List.any_eq_false]
  simp only [Bool.not_eq_true, failed_eq_false_iff]

end Report

namespace Run

variable {α β : Type} {settings : Settings} {resolve : α → Except Report β} {add : Run → β → Run}

/-- A run that goes on stops behind an outcome exactly if it fails fast and that is a failure. -/
theorem stopped_absorb (hadd : ∀ r b, (add r b).report = r.report) {r : Run}
    (h : r.stopped settings = false) {outcome : Except Report β}
    (hexplained : Report.Explained outcome) :
    (r.absorb add outcome).stopped settings = (settings.failFast && Report.failed outcome) := by
  cases hfast : settings.failFast with
  | false => exact stopped_of_slow hfast _
  | true =>
    have hnil : r.report.faults = [] := by simpa [stopped, hfast, Report.isEmpty] using h
    cases outcome with
    | ok b =>
      refine stopped_of_faultless ?_ settings
      rw [absorb, hadd, hnil]
    | error s =>
      have hfail : (r.fail s).Recorded s.faults := recorded_fail (show r.Recorded [] from hnil) s
      exact stopped_of_fast hfast (mt hfail.eq_nil_iff.1 (hexplained s rfl))

/-- A run over several parts takes in the outcomes of those that are tried. -/
theorem through_eq_foldl (hadd : ∀ r b, (add r b).report = r.report) (r : Run) {as : List α}
    (hexplained : ∀ step ∈ as.map resolve, Report.Explained step) :
    through settings resolve add r as =
      (if r.stopped settings then [] else Report.tried settings.failFast (as.map resolve)).foldl
        (absorb add) r := by
  induction as generalizing r with
  | nil => cases r.stopped settings <;> cases settings.failFast <;> rfl
  | cons a rest ih =>
    obtain ⟨ha, hrest⟩ := List.forall_mem_cons.1 hexplained
    cases hr : r.stopped settings with
    | true => exact through_of_stopped hr _
    | false =>
      rw [through_cons hr, ih _ hrest, stopped_absorb hadd hr ha, List.map_cons,
        Report.tried_cons]
      rfl

end Run

namespace SourceFile

/-- The outcomes of the messages that are tried. -/
def messageOutcomes (settings : Settings) (f : SourceFile) : List (Except Report MessagePlan) :=
  Report.tried settings.failFast (f.messages.map (Message.resolve (f.naming settings)))

/-- The outcomes of the services that are tried: none behind a message that fails, if the run fails
fast. -/
def serviceOutcomes (settings : Settings) (f : SourceFile) : List (Except Report ServicePlan) :=
  if settings.failFast && (f.messageOutcomes settings).any Report.failed then []
  else Report.tried settings.failFast
    (f.services.map (Service.resolve settings (f.naming settings)))

variable (settings : Settings) (f : SourceFile)

theorem explained_messageOutcomes : ∀ s ∈ f.messageOutcomes settings, Report.Explained s :=
  fun s hs => f.explained_messages settings s (Report.tried_subset _ _ hs)

theorem messageRun_eq_foldl : f.messageRun settings =
    (f.messageOutcomes settings).foldl (Run.absorb Run.addMessage)
      (Run.start (AliasTable.fileEvents settings.runtimeImport f)) := by
  unfold messageRun
  rw [Run.through_eq_foldl Run.report_addMessage _ (f.explained_messages settings),
    Run.stopped_of_faultless rfl]
  rfl

theorem recorded_messageRun :
    (f.messageRun settings).Recorded (Report.failures (f.messageOutcomes settings)) := by
  rw [messageRun_eq_foldl]
  exact Run.recorded_foldl Run.report_addMessage _ (Run.recorded_start _)

theorem stopped_messageRun : (f.messageRun settings).stopped settings =
    (settings.failFast && (f.messageOutcomes settings).any Report.failed) := by
  have hiff : (f.messageOutcomes settings).any Report.failed = false ↔
      (f.messageRun settings).report.faults = [] :=
    (Report.any_failed_eq_false_iff (f.explained_messageOutcomes settings)).trans
      (f.recorded_messageRun settings).eq_nil_iff.symm
  unfold Run.stopped Report.isEmpty
  congr 1
  rw [Bool.eq_iff_iff, ← Bool.not_eq_false ((f.messageOutcomes settings).any _), hiff]
  simp

theorem run_eq_foldl : f.run settings =
    (f.serviceOutcomes settings).foldl (Run.absorb Run.addService) (f.messageRun settings) := by
  unfold run serviceOutcomes
  rw [Run.through_eq_foldl Run.report_addService _ (f.explained_services settings),
    stopped_messageRun]

/-- The report of a run has every fault of the parts that were tried, at its first place. -/
theorem recorded_run_outcomes : (f.run settings).Recorded
    (Report.failures (f.messageOutcomes settings) ++
      Report.failures (f.serviceOutcomes settings)) := by
  rw [run_eq_foldl]
  exact Run.recorded_foldl Run.report_addService _ (f.recorded_messageRun settings)

/-- A run has the plans of the messages that were tried. -/
theorem messages_run_outcomes :
    (f.run settings).messages = Report.values (f.messageOutcomes settings) := by
  unfold run
  rw [Run.messages_through_addService, messageRun_eq_foldl,
    Run.plans_foldl Run.messages (fun _ _ => rfl) Run.messages_fail]
  rfl

/-- A run has the plans of the services that were tried. -/
theorem services_run_outcomes :
    (f.run settings).services = Report.values (f.serviceOutcomes settings) := by
  rw [run_eq_foldl, Run.plans_foldl Run.services (fun _ _ => rfl) Run.services_fail]
  unfold messageRun
  rw [Run.services_through_addMessage]
  rfl

/-- The plan of a file that is neither skipped nor without a package, or the faults of the parts
that were tried. -/
theorem plan_eq_result (hskip : f.skip = false) (hpackage : f.hasBlankPackage = false) :
    f.plan settings =
      Report.result ⟨(Report.failures (f.messageOutcomes settings) ++
        Report.failures (f.serviceOutcomes settings)).eraseDups⟩
      (some {
        source := f.name
        package := f.package
        imports := (f.aliasTable settings).paths
        references := (f.aliasTable settings).references
        messages := Report.values (f.messageOutcomes settings)
        services := Report.values (f.serviceOutcomes settings) }) := by
  have hreport : (f.run settings).report = ⟨(Report.failures (f.messageOutcomes settings) ++
      Report.failures (f.serviceOutcomes settings)).eraseDups⟩ :=
    congrArg Report.mk (f.recorded_run_outcomes settings)
  rw [plan_eq hskip hpackage, hreport, planOf, messages_run_outcomes, services_run_outcomes]

end SourceFile
end Redaction
