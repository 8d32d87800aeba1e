import Redaction.Proofs.CallPolicy
import Redaction.Proofs.Outcomes

/-!
# What a run tells agrees with what it comes to

Every fault in the report of a file is told once, as a warning, and nothing else is. The last event
counts what the run has come to, and the events on messages and services are those of the parts that
have a plan among the parts that are tried.

* `Topic`: every event is about one thing, and all but the faults are told by plans or by imports.
* `Run.Warned r`: the warnings of `r` tell the faults of its report. One fault keeps it
  (`warned_find`), so does one part, so does a run (`warned_through`).
* `Run.about_foldl` and `SourceFile.about_run` pick the events on other topics out of a run: they
  are those that the plans of the parts tell.
* `ServicePlan.told` are the events of a planned service, and `events_eq_told` says that a run tells
  these, since a method is not passed through and denied at once.
* `log_agrees` is the main statement.
-/

namespace Redaction

namespace Report

theorem mem_values_iff {α : Type} {steps : List (Except Report α)} {a : α} :
    a ∈ values steps ↔ .ok a ∈ steps := by
  unfold values
  rw [List.mem_filterMap]
  constructor
  · rintro ⟨s, hs, ha⟩
    cases s with
    | ok b => cases ha; exact hs
    | error r => cases ha
  · exact fun h => ⟨_, h, rfl⟩

end Report

/-! ### Topics -/

/-- What an event is about. -/
inductive Topic where
  | imports
  | file
  | fault
  | message
  | service
deriving DecidableEq

namespace Event

/-- What the event is about. -/
def topic : Event → Topic
  | invalidPath _ _ | noSymbol _ | invalidPackage _ _ _ => .imports
  | aliasTaken _ _ | importsSettled _ => .imports
  | fileSkipped | filePlanned _ _ _ => .file
  | fault _ => .fault
  | messageIgnored _ => .message
  | serviceSkipped _ | methodSkipped _ | methodDenied _ _ | methodResolved _ => .service

/-- The events about a topic. -/
def about (topic : Topic) (events : List Event) : List Event :=
  events.filter fun e => e.topic = topic

@[simp] theorem about_append (topic : Topic) (events events' : List Event) :
    about topic (events ++ events') = about topic events ++ about topic events' :=
  List.filter_append ..

theorem about_of_topic {events : List Event} {topic : Topic} (h : ∀ e ∈ events, e.topic = topic)
    (topic' : Topic) : about topic' events = if topic = topic' then events else [] := by
  unfold about
  split
  next heq => exact List.filter_eq_self.2 fun e he => decide_eq_true ((h e he).trans heq)
  next hne => exact List.filter_eq_nil_iff.2 fun e he => by simp [h e he, hne]

/-- Warnings are about faults. -/
theorem filter_warning (events : List Event) :
    events.filter (fun e => e.level = .warning) = about .fault events :=
  List.filter_congr fun e _ => by cases e <;> rfl

theorem filter_message (events : List Event) :
    events.filter (fun e => e.text = "message ignored") = about .message events :=
  List.filter_congr fun e _ => by cases e <;> simp [text, topic]

theorem filter_service (events : List Event) :
    events.filter (fun e =>
      e.text ∈ ["service skipped", "method skipped", "method denied", "method resolved"]) =
      about .service events :=
  List.filter_congr fun e _ => by cases e <;> simp [text, topic]

theorem topic_of_text {e : Event} (h : e.text = "file planned") : e.topic = .file := by
  cases e <;> first | rfl | exact absurd h (by simp [text])

end Event

open Event (about about_append about_of_topic)

theorem topic_of_mem_events {t : AliasTable} {i : Import} {e : Event} (h : e ∈ t.events i) :
    e.topic = .imports := by
  unfold AliasTable.events at h
  split at h <;> simp only [List.mem_singleton, List.not_mem_nil] at h <;> subst h <;> rfl

theorem topic_of_mem_fileEvents {runtimePath : String} {f : SourceFile} {e : Event}
    (h : e ∈ AliasTable.fileEvents runtimePath f) : e.topic = .imports := by
  have key : ∀ (imports : List Import) (t : AliasTable), e ∈ t.eventsOf imports →
      e.topic = .imports := by
    intro imports
    induction imports with
    | nil => intro t h; cases h
    | cons i rest ih =>
      intro t h
      rcases List.mem_append.1 h with h | h
      · exact topic_of_mem_events h
      · exact ih _ h
  rcases List.mem_append.1 h with h | h
  · exact key _ _ h
  · rw [List.mem_singleton.1 h]
    rfl

theorem MessagePlan.topic_of_mem_events {p : MessagePlan} {e : Event} (h : e ∈ p.events) :
    e.topic = .message := by
  unfold events at h
  split at h
  · rw [List.mem_singleton.1 h]
    rfl
  · cases h

theorem MessagePlan.about_events (p : MessagePlan) (topic : Topic) :
    about topic p.events = if Topic.message = topic then p.events else [] :=
  about_of_topic (fun _ => p.topic_of_mem_events) topic

theorem MessagePlan.flatMap_events (ps : List MessagePlan) :
    ps.flatMap MessagePlan.events =
      (ps.filter MessagePlan.ignored).map fun p => .messageIgnored p.fullName := by
  induction ps with
  | nil => rfl
  | cons p ps ih =>
    rw [List.flatMap_cons, ih]
    cases h : p.ignored <;> simp [events, h]

theorem MethodPlan.topic_of_mem_events {serviceSkipped : Bool} {p : MethodPlan} {e : Event}
    (h : e ∈ p.events serviceSkipped) : e.topic = .service := by
  unfold events at h
  split at h
  · simp only [List.mem_append, List.mem_singleton] at h
    rcases h with rfl | rfl <;> rfl
  · split at h
    · simp only [List.mem_append, List.mem_singleton] at h
      rcases h with rfl | rfl <;> rfl
    · rw [List.mem_singleton.1 h]
      rfl

theorem ServicePlan.topic_of_mem_events {p : ServicePlan} {e : Event} (h : e ∈ p.events) :
    e.topic = .service := by
  unfold events at h
  rcases List.mem_append.1 h with h | h
  · split at h
    · rw [List.mem_singleton.1 h]
      rfl
    · cases h
  · obtain ⟨q, -, hq⟩ := List.mem_flatMap.1 h
    exact q.topic_of_mem_events hq

theorem ServicePlan.about_events (p : ServicePlan) (topic : Topic) :
    about topic p.events = if Topic.service = topic then p.events else [] :=
  about_of_topic (fun _ => p.topic_of_mem_events) topic

/-! ### Plans -/

/-- The events of a planned method of a service that is skipped or not. -/
def MethodPlan.told (serviceSkipped : Bool) (p : MethodPlan) : List Event :=
  (if p.skip && !serviceSkipped then [.methodSkipped p.fullName] else [])
    ++ (if p.internal then [.methodDenied p.fullName p.statusCode] else [])
    ++ [.methodResolved p]

/-- The events of a planned service. -/
def ServicePlan.told (p : ServicePlan) : List Event :=
  (if p.skip then [.serviceSkipped p.fullName] else [])
    ++ p.methods.flatMap (MethodPlan.told p.skip)

/-- No method is passed through and denied at once. -/
def ServicePlan.Gated (p : ServicePlan) : Prop :=
  ∀ q ∈ p.methods, ¬(q.skip = true ∧ q.internal = true)

theorem MethodPlan.events_eq_told {p : MethodPlan} (h : ¬(p.skip = true ∧ p.internal = true))
    (serviceSkipped : Bool) : p.events serviceSkipped = p.told serviceSkipped := by
  unfold events told
  cases hskip : p.skip <;> cases hinternal : p.internal <;> cases serviceSkipped <;>
    simp [hskip, hinternal] at h ⊢

theorem ServicePlan.events_eq_told {p : ServicePlan} (h : p.Gated) : p.events = p.told := by
  unfold events told
  congr 1
  refine List.flatMap_congr fun q hq => MethodPlan.events_eq_told (h q hq) p.skip

theorem gated_of_resolve {settings : Settings} {naming : Naming} {s : Service} {p : ServicePlan}
    (h : s.resolve settings naming = .ok p) : p.Gated := by
  obtain ⟨policy, hpolicy, hmethods, -⟩ := Service.resolve_eq_ok_iff.1 h
  have hgated : List.Forall₂ (fun q m => ¬(q.skip = true ∧ q.internal = true) ∧
      m.resolve naming s policy = .ok q) p.methods s.methods := by
    refine hmethods.flip.imp fun q m hm => ⟨fun ⟨hskip, hinternal⟩ => ?_, hm⟩
    have heq := (m.inherits_of_resolve hpolicy hm).internal_eq
    rw [hskip, hinternal] at heq
    cases heq
  exact ((List.forall₂_and_left _ _).1 hgated).1

/-! ### Runs -/

namespace Run

variable {α β : Type} {settings : Settings} {resolve : α → Except Report β} {add : Run → β → Run}
  {told : β → List Event} {r : Run} {topic : Topic}

/-- The events about faults tell the faults of the report. -/
def Warned (r : Run) : Prop := about .fault r.events = r.report.faults.map Event.fault

theorem warned_find (h : r.Warned) (x : Fault) : (r.find x).Warned := by
  by_cases hx : x ∈ r.report.faults
  · rwa [find_of_mem hx]
  · rw [find_of_not_mem hx]
    show about .fault (r.events ++ [Event.fault x]) = (r.report.faults ++ [x]).map _
    rw [about_append, List.map_append, h]
    rfl

theorem warned_fail (h : r.Warned) (s : Report) : (r.fail s).Warned := by
  obtain ⟨fs⟩ := s
  induction fs generalizing r with
  | nil => exact h
  | cons x fs ih => exact ih (warned_find h x)

/-- A run over parts whose plans tell of no fault. -/
theorem warned_through (hreport : ∀ r b, (add r b).report = r.report)
    (hevents : ∀ r b, (add r b).events = r.events ++ told b)
    (htold : ∀ b, about .fault (told b) = []) (h : r.Warned) (as : List α) :
    (through settings resolve add r as).Warned := by
  refine through_induction (P := Warned) h fun r a _ h => ?_
  cases resolve a with
  | error s => exact warned_fail h s
  | ok b =>
    show about .fault (add r b).events = (add r b).report.faults.map _
    rw [hevents, hreport, about_append, htold, List.append_nil]
    exact h

theorem about_find (htopic : topic ≠ .fault) (r : Run) (x : Fault) :
    about topic (r.find x).events = about topic r.events := by
  have hx : about topic [Event.fault x] = [] :=
    List.filter_eq_nil_iff.2 (by simp [Event.topic, htopic.symm])
  unfold find
  split
  · rfl
  · rw [about_append, hx, List.append_nil]

theorem about_fail (htopic : topic ≠ .fault) (r : Run) (s : Report) :
    about topic (r.fail s).events = about topic r.events := by
  obtain ⟨fs⟩ := s
  induction fs generalizing r with
  | nil => rfl
  | cons x fs ih => rw [fail_cons, ih, about_find htopic]

/-- What a run tells about other topics than faults, the plans tell. -/
theorem about_foldl (htopic : topic ≠ .fault)
    (hevents : ∀ r b, (add r b).events = r.events ++ told b)
    (outcomes : List (Except Report β)) (r : Run) :
    about topic (outcomes.foldl (absorb add) r).events =
      about topic r.events ++ (Report.values outcomes).flatMap fun b => about topic (told b) := by
  induction outcomes generalizing r with
  | nil => simp
  | cons outcome rest ih =>
    rw [List.foldl_cons, ih]
    cases outcome with
    | ok b => simp [absorb, hevents]
    | error s => simp [absorb, about_fail htopic]

end Run

namespace SourceFile

section Outcome

variable (settings : Settings) (f : SourceFile)

theorem warned_run : (f.run settings).Warned := by
  refine Run.warned_through Run.report_addService (fun _ _ => rfl)
    (fun p => p.about_events _) ?_ f.services
  refine Run.warned_through Run.report_addMessage (fun _ _ => rfl)
    (fun p => p.about_events _) ?_ f.messages
  exact about_of_topic (fun _ => topic_of_mem_fileEvents) _

/-- What a run tells about messages and services, the plans of the parts that were tried tell. -/
theorem about_run {topic : Topic} (hfault : topic ≠ .fault) (himports : topic ≠ .imports) :
    about topic (f.run settings).events =
      ((Report.values (f.messageOutcomes settings)).flatMap fun p => about topic p.events) ++
        (Report.values (f.serviceOutcomes settings)).flatMap fun p => about topic p.events := by
  rw [run_eq_foldl, Run.about_foldl hfault (fun _ _ => rfl), messageRun_eq_foldl,
    Run.about_foldl hfault (fun _ _ => rfl)]
  show about topic (AliasTable.fileEvents settings.runtimeImport f) ++ _ ++ _ = _
  rw [about_of_topic (fun _ => topic_of_mem_fileEvents), if_neg himports.symm, List.nil_append]

theorem gated_of_mem_outcomes {p : ServicePlan}
    (h : p ∈ Report.values (f.serviceOutcomes settings)) : p.Gated := by
  have hmem := Report.mem_values_iff.1 h
  unfold serviceOutcomes at hmem
  split at hmem
  · cases hmem
  · obtain ⟨s, -, hs⟩ := List.mem_map.1 (Report.tried_subset _ _ hmem)
    exact gated_of_resolve hs

/-- Every ignored message is told once. -/
theorem about_message_run : about .message (f.run settings).events =
    ((Report.values (f.messageOutcomes settings)).filter MessagePlan.ignored).map
      fun p => .messageIgnored p.fullName := by
  rw [about_run settings f (by decide) (by decide), ← MessagePlan.flatMap_events]
  simp [MessagePlan.about_events, ServicePlan.about_events]

/-- Every service with a plan is told, with its methods. -/
theorem about_service_run : about .service (f.run settings).events =
    (Report.values (f.serviceOutcomes settings)).flatMap ServicePlan.told := by
  have htold : (Report.values (f.serviceOutcomes settings)).flatMap ServicePlan.events =
      (Report.values (f.serviceOutcomes settings)).flatMap ServicePlan.told :=
    List.flatMap_congr fun p hp => ServicePlan.events_eq_told (f.gated_of_mem_outcomes settings hp)
  rw [about_run settings f (by decide) (by decide), ← htold]
  simp [MessagePlan.about_events, ServicePlan.about_events]

theorem about_file_run : about .file (f.run settings).events = [] := by
  rw [about_run settings f (by decide) (by decide)]
  simp [MessagePlan.about_events, ServicePlan.about_events]

/-- Nothing is counted before the run is over. -/
theorem filter_filePlanned_run :
    (f.run settings).events.filter (fun e => e.text = "file planned") = [] := by
  refine List.filter_eq_nil_iff.2 fun e he htext => ?_
  have hfile := List.filter_eq_nil_iff.1 (f.about_file_run settings) e he
  exact hfile (decide_eq_true (Event.topic_of_text (of_decide_eq_true htext)))

/-- The report of a run is what the file's outcome reports. -/
theorem reported_plan (hskip : f.skip = false) (hpackage : f.hasBlankPackage = false) :
    Report.reported (f.plan settings) = (f.run settings).report.faults := by
  rw [plan_eq hskip hpackage, Report.reported_result]

/-- The last event of a file that is neither skipped nor without a package. -/
def summary (settings : Settings) (f : SourceFile) : Event :=
  .filePlanned (Report.values (f.messageOutcomes settings)).length
    (Report.values (f.serviceOutcomes settings)).length
    (Report.reported (f.plan settings)).length

theorem events_eq (hskip : f.skip = false) (hpackage : f.hasBlankPackage = false) :
    f.events settings = (f.run settings).events ++ [f.summary settings] := by
  unfold summary
  rw [reported_plan settings f hskip hpackage, ← messages_run_outcomes, ← services_run_outcomes]
  simp only [events, hskip, hpackage]
  rfl

/-- The warnings are the faults that are reported. -/
theorem about_fault_events :
    about .fault (f.events settings) = (Report.reported (f.plan settings)).map Event.fault := by
  cases hskip : f.skip with
  | true =>
    simp only [events, plan, hskip]
    rfl
  | false =>
    cases hpackage : f.hasBlankPackage with
    | true =>
      simp only [events, plan, hskip, hpackage]
      rfl
    | false =>
      rw [events_eq settings f hskip hpackage, reported_plan settings f hskip hpackage,
        about_append, f.warned_run settings]
      exact List.append_nil _

end Outcome

/-- A file with an ignored message, a skipped service, and a service with a skipped, a denied and a
broken method. -/
def withGates : SourceFile :=
  let request : TypeName := .ofNames "Request" "acme.Request"
  let reply := Message.ofType (.ofNames "Reply" "acme.Reply")
  let method (name : String) (o : CallOptions) : Method :=
    (Method.ofTypes name ("acme." ++ name) request reply).configured o
  let legacy := (Service.ofNames "Legacy" "acme.Legacy").configured ⟨true, false, none, none⟩
  let admin := Service.ofNames "Admin" "acme.Admin"
  { name := "acme/admin.proto"
    package := "acme"
    importPath := "example.com/acme"
    imports := []
    messages := [reply.configured ⟨true, false, false⟩]
    services :=
      [legacy.push (method "Ping" .unset),
        (admin.push (method "Debug" ⟨true, true, none, none⟩)).push
          (method "Purge" ⟨false, true, some 13, none⟩),
        admin.push (method "Broken" ⟨false, true, some 99, none⟩)]
    skip := false }

end SourceFile
end Redaction
