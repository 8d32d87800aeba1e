import Redaction.Proofs.File

/-!
# Failing fast

A run that fails fast gives the same plans as one that tries everything, and reports a first part of
its faults: those of the first message that has some or, if every message has a plan, those of the
first service, and there those of its own status code or of its first method that has some.

* `Report.FirstFailure steps r`: the first of the steps that failed has the report `r`.
* `Report.Cut x y`: the outcome `x` is `y`, or a failure with the first of the faults of `y`. The
  outcome of a service is cut (`Service.cut_resolve`).
* `run_eq_of_faultless`, `recorded_run_of_message` and `recorded_run_of_service` say what the run
  over a file comes to.
* `plan_failFast` is the main statement. It is about files with a package name; a file without one
  has one fault, located at no part of it (`plan_withoutPackage`).
-/

namespace Redaction

namespace Settings

/-- The settings with failing fast switched on. -/
abbrev fast (settings : Settings) : Settings := settings.apply (.failFast true)

/-- The settings with failing fast switched off. -/
abbrev thorough (settings : Settings) : Settings := settings.apply (.failFast false)

end Settings

namespace Report

variable {α β : Type}

/-! ### The first failure -/

/-- The first of several steps that failed has the report. -/
def FirstFailure (steps : List (Except Report α)) (r : Report) : Prop :=
  ∃ before after, steps = before ++ .error r :: after ∧ ∀ s ∈ before, ∃ a, s = .ok a

theorem throughFailure_cons_ok (a : α) (steps : List (Except Report α)) :
    throughFailure (.ok a :: steps) = .ok a :: throughFailure steps := rfl

theorem throughFailure_cons_error (r : Report) (steps : List (Except Report α)) :
    throughFailure (.error r :: steps) = [.error r] := rfl

theorem throughFailure_of_all_ok {steps : List (Except Report α)}
    (h : ∀ s ∈ steps, ∃ a, s = .ok a) : throughFailure steps = steps := by
  induction steps with
  | nil => rfl
  | cons s rest ih =>
    have ⟨⟨a, ha⟩, hrest⟩ := List.forall_mem_cons.1 h
    rw [ha, throughFailure_cons_ok, ih hrest]

theorem firstFailure_cons_ok_iff {a : α} {steps : List (Except Report α)} {r : Report} :
    FirstFailure (.ok a :: steps) r ↔ FirstFailure steps r := by
  constructor
  · rintro ⟨before, after, heq, hok⟩
    cases before with
    | nil => cases heq
    | cons s before =>
      obtain ⟨-, heq⟩ := List.cons_eq_cons.1 heq
      exact ⟨before, after, heq, fun x hx => hok x (List.mem_cons_of_mem s hx)⟩
  · rintro ⟨before, after, rfl, hok⟩
    exact ⟨.ok a :: before, after, rfl, List.forall_mem_cons.2 ⟨⟨a, rfl⟩, hok⟩⟩

theorem firstFailure_cons_error_iff {q r : Report} {steps : List (Except Report α)} :
    FirstFailure (.error q :: steps) r ↔ q = r := by
  constructor
  · rintro ⟨before, after, heq, hok⟩
    cases before with
    | nil => cases heq; rfl
    | cons s before =>
      obtain ⟨a, ha⟩ := hok s List.mem_cons_self
      cases ha.symm.trans (List.cons_eq_cons.1 heq).1.symm
  · rintro rfl
    exact ⟨[], steps, rfl, fun _ hs => nomatch hs⟩

/-- Several steps all succeed, or one of them is the first that fails. -/
theorem all_ok_or_firstFailure (steps : List (Except Report α)) :
    (∀ s ∈ steps, ∃ a, s = .ok a) ∨ ∃ r, FirstFailure steps r := by
  induction steps with
  | nil => exact .inl fun _ hs => nomatch hs
  | cons s rest ih =>
    cases s with
    | error r => exact .inr ⟨r, firstFailure_cons_error_iff.2 rfl⟩
    | ok a =>
      rcases ih with hok | ⟨r, hfirst⟩
      · exact .inl (List.forall_mem_cons.2 ⟨⟨a, rfl⟩, hok⟩)
      · exact .inr ⟨r, firstFailure_cons_ok_iff.2 hfirst⟩

/-- The step that failed first, and those before it. -/
theorem FirstFailure.exists_step {resolve : α → Except Report β} {as : List α} {r : Report}
    (h : FirstFailure (as.map resolve) r) :
    ∃ before a after, as = before ++ a :: after ∧ resolve a = .error r ∧
      ∀ b ∈ before, ∃ p, resolve b = .ok p := by
  obtain ⟨steps, rest, heq, hok⟩ := h
  obtain ⟨before, others, rfl, rfl, hothers⟩ := List.map_eq_append_iff.1 heq
  obtain ⟨a, after, rfl, ha, -⟩ := List.map_eq_cons_iff.1 hothers
  exact ⟨before, a, after, rfl, ha, fun b hb => hok _ (List.mem_map_of_mem hb)⟩

theorem FirstFailure.failures_throughFailure {steps : List (Except Report α)} {r : Report}
    (h : FirstFailure steps r) : failures (throughFailure steps) = r.faults := by
  induction steps with
  | nil =>
    obtain ⟨before, after, heq, -⟩ := h
    cases before <;> cases heq
  | cons s rest ih =>
    cases s with
    | ok a =>
      rw [throughFailure_cons_ok, failures_cons_ok]
      exact ih (firstFailure_cons_ok_iff.1 h)
    | error q =>
      obtain rfl := firstFailure_cons_error_iff.1 h
      rw [throughFailure_cons_error, failures_cons_error, failures_nil, List.append_nil]

/-! ### Cut outcomes -/

/-- An outcome is another one, or a failure with the first of its faults. -/
inductive Cut : Except Report α → Except Report α → Prop
  | ok (a : α) : Cut (.ok a) (.ok a)
  | error {r s : Report} (hne : r.faults ≠ []) (hfront : r.faults <+: s.faults) :
      Cut (.error r) (.error s)

theorem Explained.cut {outcome : Except Report α} (h : Explained outcome) :
    Cut outcome outcome := by
  cases outcome with
  | ok a => exact .ok a
  | error r => exact .error (h r rfl) List.prefix_rfl

theorem Cut.bind {x y : Except Report α} {f g : α → Except Report β} (h : Cut x y)
    (hnext : ∀ a, Cut (f a) (g a)) : Cut (x >>= f) (y >>= g) := by
  cases h with
  | ok a => exact hnext a
  | error hne hfront => exact .error hne hfront

theorem Cut.eq_ok {x : Except Report α} {a : α} (h : Cut x (.ok a)) : x = .ok a := by
  cases h
  rfl

theorem Cut.exists_ok_iff {x y : Except Report α} (h : Cut x y) :
    (∃ a, x = .ok a) ↔ ∃ a, y = .ok a := by
  cases h with
  | ok a => exact Iff.rfl
  | error => simp

/-- A first part of the faults of steps is left if each step is cut and the first failure ends
them. -/
theorem prefix_failures_throughFailure {f g : α → Except Report β} {as : List α}
    (h : ∀ a ∈ as, Cut (f a) (g a)) :
    failures (throughFailure (as.map f)) <+: failures (as.map g) := by
  induction as with
  | nil => exact List.prefix_rfl
  | cons a rest ih =>
    obtain ⟨ha, hrest⟩ := List.forall_mem_cons.1 h
    rw [List.map_cons, List.map_cons]
    generalize f a = x, g a = y at ha
    cases ha with
    | ok b => exact ih hrest
    | @error r s _ hfront =>
      rw [throughFailure_cons_error, failures_cons_error, failures_cons_error, failures_nil,
        List.append_nil]
      exact hfront.trans (List.prefix_append _ _)

theorem FirstFailure.faults_ne_nil {steps : List (Except Report α)} {r : Report}
    (hfirst : FirstFailure steps r) (h : ∀ s ∈ steps, Explained s) : r.faults ≠ [] := by
  obtain ⟨before, after, rfl, -⟩ := hfirst
  exact h _ (List.mem_append_right _ List.mem_cons_self) r rfl

theorem collect_of_failures_ne_nil {steps : List (Except Report α)} (h : failures steps ≠ []) :
    collect steps = .error ⟨failures steps⟩ :=
  (result_eq_error_iff _ _ _).2 ⟨h, rfl⟩

/-- Several steps are cut if the first failure ends them. -/
theorem cut_collect {steps : List (Except Report α)} (h : ∀ s ∈ steps, Explained s) :
    Cut (collect (throughFailure steps)) (collect steps) := by
  rcases all_ok_or_firstFailure steps with hok | ⟨r, hfirst⟩
  · rw [throughFailure_of_all_ok hok]
    exact (explained_result _ _).cut
  · have hfront : failures (throughFailure steps) <+: failures steps := by
      simpa using prefix_failures_throughFailure (f := id) (g := id) fun s hs => (h s hs).cut
    have hne : failures (throughFailure steps) ≠ [] := by
      rw [hfirst.failures_throughFailure]
      exact hfirst.faults_ne_nil h
    have hall : failures steps ≠ [] := fun hnil => hne (List.prefix_nil.1 (hnil ▸ hfront))
    rw [collect_of_failures_ne_nil hne, collect_of_failures_ne_nil hall]
    exact .error hne hfront

/-- What fails when the first failure ends the steps is that first failure. -/
theorem firstFailure_of_collect {steps : List (Except Report α)} {r : Report}
    (h : ∀ s ∈ steps, Explained s) (hr : collect (throughFailure steps) = .error r) :
    FirstFailure steps r := by
  obtain ⟨hne, hr⟩ := (result_eq_error_iff _ _ _).1 hr
  rcases all_ok_or_firstFailure steps with hok | ⟨q, hfirst⟩
  · rw [throughFailure_of_all_ok hok] at hne
    exact absurd ((failures_eq_nil_iff h).2 hok) hne
  · rw [hfirst.failures_throughFailure] at hr
    exact hr ▸ hfirst

end Report

/-! ### Services -/

namespace Service

variable (settings : Settings) (naming : Naming) (s : Service)

/-- The faults that a run which fails fast finds in a service: that of its own status code, or those
of its first method that has some. -/
def FirstFaults (faults : List Fault) : Prop :=
  (∃ n, s.options.code = some n ∧ 16 < n.toNat ∧
      faults = [Fault.invalidStatusCode s.fullName n]) ∨
    ∃ policy r, CallPolicy.ofService settings s = .ok policy ∧
      Report.FirstFailure (s.methods.map (Method.resolve naming s policy)) r ∧
      faults = r.faults.eraseDups

theorem explained_methods (policy : CallPolicy) :
    ∀ step ∈ s.methods.map (Method.resolve naming s policy), Report.Explained step :=
  List.forall_mem_map.2 fun m _ => m.explained_resolve naming s policy

/-- A run that fails fast cuts the outcome of a service. -/
theorem cut_resolve :
    Report.Cut (s.resolve settings.fast naming)
      (s.resolve settings.thorough naming) := by
  refine (Report.explained_ofExcept (CallPolicy.ofService settings s)).cut.bind fun policy => ?_
  refine Report.Cut.bind ?_ fun methods => .ok _
  exact Report.cut_collect (s.explained_methods naming policy)

/-- The faults of a service in a run that fails fast. -/
theorem firstFaults_of_resolve {r : Report}
    (h : s.resolve settings.fast naming = .error r) :
    s.FirstFaults settings naming r.faults.eraseDups := by
  unfold resolve at h
  cases hpolicy : CallPolicy.ofService settings s with
  | error x =>
    rw [show CallPolicy.ofService settings.fast s = .error x from hpolicy] at h
    obtain ⟨n, hcode, hn, rfl⟩ := (CallPolicy.ofService_eq_error_iff settings s x).1 hpolicy
    cases h
    exact .inl ⟨n, hcode, hn, rfl⟩
  | ok policy =>
    rw [show CallPolicy.ofService settings.fast s = .ok policy from hpolicy] at h
    refine .inr ⟨policy, r, hpolicy, ?_, rfl⟩
    apply Report.firstFailure_of_collect (s.explained_methods naming policy)
    change (Report.collect (Report.throughFailure _) >>= _) = _ at h
    generalize Report.collect _ = methods at h ⊢
    cases methods with
    | ok ps => cases h
    | error q => cases h; rfl

end Service

/-! ### Runs -/

namespace Run

section Through

variable {α β : Type} {settings : Settings} {resolve : α → Except Report β} {add : Run → β → Run}

theorem stopped_of_faultless {r : Run} (h : r.report.faults = []) (settings : Settings) :
    r.stopped settings = false := by
  simp [stopped, Report.isEmpty, h]

theorem stopped_of_fast (hfast : settings.failFast = true) {r : Run} (h : r.report.faults ≠ []) :
    r.stopped settings = true := by
  simp [stopped, hfast, Report.isEmpty, h]

theorem through_of_stopped {r : Run} (h : r.stopped settings = true) (as : List α) :
    through settings resolve add r as = r := by
  cases as with
  | nil => rfl
  | cons a rest => exact through_cons_of_stopped h a rest

/-- A run over parts that all have a plan adds these plans, whether it fails fast or not. -/
theorem through_of_all_ok (hadd : ∀ r b, (add r b).report = r.report) {r : Run}
    (hr : r.report.faults = []) {as : List α} {bs : List β} (h : as.map resolve = bs.map .ok) :
    through settings resolve add r as = bs.foldl add r := by
  induction as generalizing r bs with
  | nil => rw [List.map_eq_nil_iff.1 h.symm]; rfl
  | cons a rest ih =>
    obtain ⟨b, bs, rfl, ha, hrest⟩ := List.map_eq_cons_iff.1 h.symm
    rw [through_cons (stopped_of_faultless hr settings), ← ha]
    exact ih (by rw [absorb, hadd, hr]) hrest.symm

/-- A run that fails fast records the faults of the first part that has some. -/
theorem recorded_through_of_firstFailure (hfast : settings.failFast = true)
    (hadd : ∀ r b, (add r b).report = r.report) {r : Run} (hr : r.report.faults = [])
    {as : List α} {s : Report} (hfirst : Report.FirstFailure (as.map resolve) s)
    (hne : s.faults ≠ []) : (through settings resolve add r as).Recorded s.faults := by
  induction as generalizing r with
  | nil =>
    obtain ⟨before, after, heq, -⟩ := hfirst
    cases before <;> cases heq
  | cons a rest ih =>
    rw [through_cons (stopped_of_faultless hr settings)]
    rw [List.map_cons] at hfirst
    cases ha : resolve a with
    | ok b =>
      rw [ha] at hfirst
      exact ih (by rw [absorb, hadd, hr]) (Report.firstFailure_cons_ok_iff.1 hfirst)
    | error q =>
      rw [ha] at hfirst
      obtain rfl := Report.firstFailure_cons_error_iff.1 hfirst
      have hfail : (r.fail q).Recorded q.faults := recorded_fail (show r.Recorded [] from hr) q
      rw [absorb, through_of_stopped (stopped_of_fast hfast (mt hfail.eq_nil_iff.1 hne))]
      exact hfail

theorem report_foldl (hadd : ∀ r b, (add r b).report = r.report) (r : Run) (bs : List β) :
    (bs.foldl add r).report = r.report := by
  induction bs generalizing r with
  | nil => rfl
  | cons b bs ih => rw [List.foldl_cons, ih, hadd]

end Through

end Run

/-! ### Files -/

namespace SourceFile

/-- The faults that a run which fails fast finds in a file with a package name: those of the first
message that has some or, if every message has a plan, those of the first service that has some. -/
def FirstFaults (settings : Settings) (f : SourceFile) (faults : List Fault) : Prop :=
  (∃ r, Report.FirstFailure (f.messages.map (Message.resolve (f.naming settings))) r ∧
      faults = r.faults.eraseDups) ∨
    (∀ m ∈ f.messages, ∃ p, m.resolve (f.naming settings) = .ok p) ∧
      ∃ before s after, f.services = before ++ s :: after ∧
        (∀ b ∈ before, ∃ p, b.resolve settings (f.naming settings) = .ok p) ∧
        s.FirstFaults settings (f.naming settings) faults

section Plan

variable (settings : Settings) (f : SourceFile)

/-- The run over a file whose parts all have a plan. -/
theorem run_of_all_ok {ms : List MessagePlan} {ss : List ServicePlan}
    (hm : f.messages.map (Message.resolve (f.naming settings)) = ms.map .ok)
    (hs : f.services.map (Service.resolve settings (f.naming settings)) = ss.map .ok) :
    f.run settings = ss.foldl Run.addService (ms.foldl Run.addMessage
      (Run.start (AliasTable.fileEvents settings.runtimeImport f))) := by
  unfold run messageRun
  rw [Run.through_of_all_ok Run.report_addMessage rfl hm]
  refine Run.through_of_all_ok Run.report_addService ?_ hs
  rw [Run.report_foldl Run.report_addMessage]
  rfl

/-- A file without faults has the same run whether it fails fast or not. -/
theorem run_eq_of_faultless (h : f.faults settings.thorough = []) :
    f.run settings.fast = f.run settings.thorough := by
  obtain ⟨hm, hs⟩ := (faults_eq_nil_iff _ f).1 h
  have hmessages := Report.map_ok_values (List.forall_mem_map.2 hm)
  have hservices := Report.map_ok_values (List.forall_mem_map.2 hs)
  -- a service with a plan has the same plan under both settings
  have heq : f.services.map (Service.resolve settings.fast (f.naming settings)) =
      f.services.map (Service.resolve settings.thorough (f.naming settings)) := by
    refine List.map_congr_left fun s hmem => ?_
    obtain ⟨p, hp⟩ := hs s hmem
    have hcut := s.cut_resolve settings (f.naming settings)
    exact (Report.Cut.eq_ok (hp ▸ hcut)).trans hp.symm
  rw [run_of_all_ok settings.fast f hmessages.symm (heq.trans hservices.symm),
    run_of_all_ok settings.thorough f hmessages.symm hservices.symm]
  rfl

theorem plan_eq_of_faultless (h : f.faults settings.thorough = []) :
    f.plan settings.fast = f.plan settings.thorough := by
  unfold plan
  rw [run_eq_of_faultless settings f h]
  rfl

theorem explained_messages : ∀ step ∈ f.messages.map (Message.resolve (f.naming settings)),
    Report.Explained step :=
  List.forall_mem_map.2 fun m _ => m.explained_resolve _

theorem explained_services : ∀ step ∈ f.services.map (Service.resolve settings (f.naming settings)),
    Report.Explained step :=
  List.forall_mem_map.2 fun s _ => s.explained_resolve settings _

/-- A run that fails fast tries no service behind a message with faults. -/
theorem recorded_run_of_message {r : Report}
    (h : Report.FirstFailure (f.messages.map (Message.resolve (f.naming settings))) r) :
    (f.run settings.fast).Recorded r.faults := by
  have hne : r.faults ≠ [] := h.faults_ne_nil (f.explained_messages settings)
  have hrecorded : (f.messageRun settings.fast).Recorded r.faults :=
    Run.recorded_through_of_firstFailure rfl Run.report_addMessage rfl h hne
  have hstopped : (f.messageRun settings.fast).stopped settings.fast = true :=
    Run.stopped_of_fast rfl (mt hrecorded.eq_nil_iff.1 hne)
  rw [run, Run.through_of_stopped hstopped]
  exact hrecorded

/-- Behind messages that all have a plan, the run comes to the first service with faults. -/
theorem recorded_run_of_service
    (hm : ∀ m ∈ f.messages, ∃ p, m.resolve (f.naming settings) = .ok p) {r : Report}
    (h : Report.FirstFailure
      (f.services.map (Service.resolve settings.fast (f.naming settings))) r) :
    (f.run settings.fast).Recorded r.faults := by
  have hmessages := Report.map_ok_values (List.forall_mem_map.2 hm)
  have hrun : f.messageRun settings.fast = _ :=
    Run.through_of_all_ok Run.report_addMessage rfl hmessages.symm
  refine Run.recorded_through_of_firstFailure rfl Run.report_addService ?_ h
    (h.faults_ne_nil (f.explained_services settings.fast))
  rw [hrun, Run.report_foldl Run.report_addMessage]
  rfl

theorem prefix_of_message {r : Report}
    (h : Report.FirstFailure (f.messages.map (Message.resolve (f.naming settings))) r) :
    r.faults <+: f.faults settings.thorough := by
  have hfront := Report.prefix_failures_throughFailure
    fun m (_ : m ∈ f.messages) => (m.explained_resolve (f.naming settings)).cut
  rw [h.failures_throughFailure] at hfront
  exact hfront.trans (List.prefix_append _ _)

theorem prefix_of_service (hm : ∀ m ∈ f.messages, ∃ p, m.resolve (f.naming settings) = .ok p)
    {r : Report}
    (h : Report.FirstFailure
      (f.services.map (Service.resolve settings.fast (f.naming settings))) r) :
    r.faults <+: f.faults settings.thorough := by
  have hnone : Report.failures (f.messages.map (Message.resolve (f.naming settings))) = [] :=
    (Report.failures_eq_nil_iff (f.explained_messages settings)).2 (List.forall_mem_map.2 hm)
  have hfront := Report.prefix_failures_throughFailure
    fun s (_ : s ∈ f.services) => s.cut_resolve settings (f.naming settings)
  rw [h.failures_throughFailure] at hfront
  rw [faults]
  exact hnone ▸ hfront

theorem firstFaults_of_service
    (hm : ∀ m ∈ f.messages, ∃ p, m.resolve (f.naming settings) = .ok p) {r : Report}
    (h : Report.FirstFailure
      (f.services.map (Service.resolve settings.fast (f.naming settings))) r) :
    f.FirstFaults settings.thorough r.faults.eraseDups := by
  obtain ⟨before, s, after, hservices, hs, hbefore⟩ := h.exists_step
  refine .inr ⟨hm, before, s, after, hservices, fun b hb => ?_, ?_⟩
  · exact (b.cut_resolve settings (f.naming settings)).exists_ok_iff.1 (hbefore b hb)
  · exact s.firstFaults_of_resolve settings (f.naming settings) hs

/-- A run over a file with faults finds the first of them if it fails fast. -/
theorem recorded_run_fast (h : f.faults settings.thorough ≠ []) :
    ∃ found, (f.run settings.fast).Recorded found ∧ found ≠ [] ∧
      found <+: f.faults settings.thorough ∧ f.FirstFaults settings.thorough found.eraseDups := by
  rcases Report.all_ok_or_firstFailure (f.messages.map (Message.resolve (f.naming settings))) with
    hok | ⟨r, hfirst⟩
  · have hm : ∀ m ∈ f.messages, ∃ p, m.resolve (f.naming settings) = .ok p :=
      fun m hmem => hok _ (List.mem_map_of_mem hmem)
    rcases Report.all_ok_or_firstFailure
      (f.services.map (Service.resolve settings.fast (f.naming settings))) with hs | ⟨r, hfirst⟩
    · -- no part has a fault, under either settings
      refine absurd ((faults_eq_nil_iff settings.thorough f).2 ⟨hm, fun s hmem => ?_⟩) h
      exact (s.cut_resolve settings (f.naming settings)).exists_ok_iff.1
        (hs _ (List.mem_map_of_mem hmem))
    · exact ⟨r.faults, recorded_run_of_service settings f hm hfirst,
        hfirst.faults_ne_nil (f.explained_services settings.fast),
        prefix_of_service settings f hm hfirst, firstFaults_of_service settings f hm hfirst⟩
  · exact ⟨r.faults, recorded_run_of_message settings f hfirst,
      hfirst.faults_ne_nil (f.explained_messages settings), prefix_of_message settings f hfirst,
      .inl ⟨r, hfirst, rfl⟩⟩

/-- The reports of the two runs over a file with faults. -/
theorem exists_reports (hskip : f.skip = false) (hpackage : f.hasBlankPackage = false)
    (h : f.faults settings.thorough ≠ []) :
    ∃ d d', f.plan settings.thorough = .error d ∧ f.plan settings.fast = .error d' ∧
      d'.faults ≠ [] ∧ d'.faults <+: d.faults ∧
      f.FirstFaults settings.thorough d'.faults := by
  obtain ⟨d, hd, hfaults, -, -⟩ := exists_report rfl hskip hpackage h
  obtain ⟨found, hrecorded, hne, hfront, hfirst⟩ := recorded_run_fast settings f h
  have hnil : (f.run settings.fast).report.faults ≠ [] := mt hrecorded.eq_nil_iff.1 hne
  have hrun : (f.run settings.fast).report.faults = found.eraseDups := hrecorded
  refine ⟨d, (f.run settings.fast).report, hd, ?_, hnil, ?_, ?_⟩
  · rw [plan_eq hskip hpackage]
    exact (Report.result_eq_error_iff _ _ _).2 ⟨hnil, rfl⟩
  · -- dropping repetitions keeps what stands in front in front
    obtain ⟨rest, hrest⟩ := hfront
    rw [hrun, hfaults, ← hrest, List.eraseDups_append]
    exact List.prefix_append _ _
  · rw [hrun]
    exact hfirst

end Plan

/-- **Failing fast only cuts the report short.** A file has the same plan whether a run fails fast
or not. If it has none, the report of the run that fails fast is a first part of the full report,
and not empty: the one fault of a file without a package name, and otherwise the faults of the
first message that has some or, if every message has a plan, those of the first service, up to its
own status code or its first method with faults. -/
theorem plan_failFast (settings : Settings) (f : SourceFile) :
    (∀ p, f.plan settings.fast = .ok p ↔ f.plan settings.thorough = .ok p) ∧
      ∀ d, f.plan settings.thorough = .error d →
        ∃ d', f.plan settings.fast = .error d' ∧ d'.faults ≠ [] ∧ d'.faults <+: d.faults ∧
          if f.hasBlankPackage then d'.faults = [f.blankPackage]
          else f.FirstFaults settings.thorough d'.faults := by
  cases hskip : f.skip with
  | true => simp [plan, hskip]
  | false =>
    cases hpackage : f.hasBlankPackage with
    | true => simp [plan, hskip, hpackage, Report.fail, Report.ofFault]
    | false =>
      by_cases h : f.faults settings.thorough = []
      · rw [plan_eq_of_faultless settings f h]
        obtain ⟨p, hp⟩ := (exists_plan_iff rfl hskip hpackage).2 h
        refine ⟨fun _ => Iff.rfl, fun d hd => ?_⟩
        cases hp.symm.trans hd
      · obtain ⟨d, d', hd, hd', hreport⟩ := exists_reports settings f hskip hpackage h
        rw [hd, hd']
        refine ⟨by simp, fun e he => ?_⟩
        cases he
        exact ⟨d', rfl, hreport⟩

/-- The file of a broken message, without the name of a package. -/
def withoutPackage : SourceFile := { withBrokenReply with package := " " }

/-- A file without a package name is refused before its messages are looked at. What is reported is
then not a fault of the first message that has some. -/
theorem plan_withoutPackage :
    ¬∀ d, withoutPackage.plan Settings.standard.thorough = .error d →
      ∃ d', withoutPackage.plan Settings.standard.fast = .error d' ∧ d'.faults ≠ [] ∧
        d'.faults <+: d.faults ∧
        withoutPackage.FirstFaults Settings.standard.thorough d'.faults := by
  intro hclaim
  have hblank : withoutPackage.hasBlankPackage = true := by decide +kernel
  have hplan : ∀ settings : Settings,
      withoutPackage.plan settings = .error ⟨[withoutPackage.blankPackage]⟩ := fun settings => by
    simp only [plan, hblank]
    rfl
  obtain ⟨d', hd', -, -, hfirst⟩ := hclaim _ (hplan _)
  cases (hplan _).symm.trans hd'
  rcases hfirst with ⟨r, hr, hfaults⟩ | ⟨hm, -⟩
  · -- the message with a fault is the first one
    rw [← hr.failures_throughFailure] at hfaults
    exact absurd hfaults (by decide +kernel)
  · obtain ⟨p, hp⟩ := hm _ List.mem_cons_self
    cases hp

end SourceFile
end Redaction
