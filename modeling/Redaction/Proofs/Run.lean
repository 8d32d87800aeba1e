import Redaction.Plan.Run

/-!
# What a run gathers

The faults in the report of a run are those of all parts that were tried, in order and each at its
first place only; the plans are those of the parts that have one. A run that does not fail fast
tries every part.

* `Run.Recorded r found` is the invariant: the report of `r` lists the faults `found` without
  repetition. One fault keeps it (`recorded_find`), so does one part (`recorded_fail`), so does a
  list of outcomes (`recorded_foldl`) and with it a run (`recorded_through`).
* `messages_through` and `services_through` give the plans.
-/

namespace Redaction.Run

/-- The report lists the faults that were found, each at its first place. -/
def Recorded (r : Run) (found : List Fault) : Prop := r.report.faults = found.eraseDups

theorem recorded_start (events : List Event) : (start events).Recorded [] := rfl

theorem Recorded.mem_iff {r : Run} {found : List Fault} (h : r.Recorded found) (f : Fault) :
    f ∈ r.report.faults ↔ f ∈ found := by
  rw [show r.report.faults = found.eraseDups from h, List.mem_eraseDups]

theorem Recorded.eq_nil_iff {r : Run} {found : List Fault} (h : r.Recorded found) :
    r.report.faults = [] ↔ found = [] := by
  simp only [List.eq_nil_iff_forall_not_mem, h.mem_iff]

theorem recorded_find {r : Run} {found : List Fault} (h : r.Recorded found) (f : Fault) :
    (r.find f).Recorded (found ++ [f]) := by
  unfold Recorded
  rw [List.eraseDups_append]
  -- what is left of `[f]` behind `found` is what `find` adds to the report
  by_cases hf : f ∈ found
  · rw [find_of_mem ((h.mem_iff f).2 hf), show r.report.faults = found.eraseDups from h]
    simp [List.removeAll, hf]
  · rw [find_of_not_mem (mt (h.mem_iff f).1 hf)]
    show r.report.faults ++ [f] = _
    rw [show r.report.faults = found.eraseDups from h]
    simp [List.removeAll, hf, List.eraseDups_cons]

theorem recorded_fail {r : Run} {found : List Fault} (h : r.Recorded found) (s : Report) :
    (r.fail s).Recorded (found ++ s.faults) := by
  obtain ⟨fs⟩ := s
  induction fs generalizing r found with
  | nil => simpa using h
  | cons f fs ih => simpa using ih (recorded_find h f)

theorem nodup_find {r : Run} (h : r.report.faults.Nodup) (f : Fault) :
    (r.find f).report.faults.Nodup := by
  by_cases hf : f ∈ r.report.faults
  · rwa [find_of_mem hf]
  · rw [find_of_not_mem hf]
    exact List.nodup_append.2 ⟨h, by simp, by
      rintro a ha b hb rfl
      exact hf (List.mem_singleton.1 hb ▸ ha)⟩

theorem nodup_fail {r : Run} (h : r.report.faults.Nodup) (s : Report) :
    (r.fail s).report.faults.Nodup := by
  obtain ⟨fs⟩ := s
  induction fs generalizing r with
  | nil => exact h
  | cons f fs ih => exact ih (nodup_find h f)

section Through

variable {α β : Type} {settings : Settings} {resolve : α → Except Report β} {add : Run → β → Run}

/-- No fault is reported twice, however many parts have it. -/
theorem nodup_through (hadd : ∀ r b, (add r b).report = r.report) {r : Run} (as : List α)
    (h : r.report.faults.Nodup) :
    (through settings resolve add r as).report.faults.Nodup := by
  refine through_induction (P := fun r => r.report.faults.Nodup) h fun r a _ h => ?_
  cases resolve a with
  | ok b => show (add r b).report.faults.Nodup; rwa [hadd]
  | error s => exact nodup_fail h s

/-- The outcomes that are taken in are recorded. -/
theorem recorded_foldl (hadd : ∀ r b, (add r b).report = r.report)
    (outcomes : List (Except Report β)) {r : Run} {found : List Fault} (h : r.Recorded found) :
    (outcomes.foldl (absorb add) r).Recorded (found ++ Report.failures outcomes) := by
  induction outcomes generalizing r found with
  | nil => simpa using h
  | cons outcome rest ih =>
    cases outcome with
    | ok b => exact ih (show (add r b).report.faults = _ by rw [hadd]; exact h)
    | error s =>
      rw [Report.failures_cons_error, ← List.append_assoc]
      exact ih (recorded_fail h s)

/-- The plans that are taken in are added. -/
theorem plans_foldl (plans : Run → List β) (hadd : ∀ r b, plans (add r b) = plans r ++ [b])
    (hfail : ∀ r s, plans (r.fail s) = plans r) (outcomes : List (Except Report β)) (r : Run) :
    plans (outcomes.foldl (absorb add) r) = plans r ++ Report.values outcomes := by
  induction outcomes generalizing r with
  | nil => simp
  | cons outcome rest ih =>
    rw [List.foldl_cons, ih]
    cases outcome with
    | ok b => simp [absorb, hadd]
    | error s => simp [absorb, hfail]

/-- A run that tries everything takes in the outcome of every part. -/
theorem through_eq_foldl_of_slow (hslow : settings.failFast = false) (r : Run) (as : List α) :
    through settings resolve add r as = (as.map resolve).foldl (absorb add) r := by
  induction as generalizing r with
  | nil => rfl
  | cons a rest ih =>
    rw [through_cons (stopped_of_slow hslow r), ih, List.map_cons, List.foldl_cons]

/-- A run that tries everything records the faults of every part. -/
theorem recorded_through (hslow : settings.failFast = false)
    (hadd : ∀ r b, (add r b).report = r.report) (resolve : α → Except Report β) {r : Run}
    {found : List Fault} (as : List α) (h : r.Recorded found) :
    (through settings resolve add r as).Recorded (found ++ Report.failures (as.map resolve)) := by
  rw [through_eq_foldl_of_slow hslow]
  exact recorded_foldl hadd _ h

/-- What no outcome changes, the run does not change. -/
theorem kept_through {γ : Type} (part : Run → γ) (hadd : ∀ r b, part (add r b) = part r)
    (hfail : ∀ r s, part (r.fail s) = part r) (r : Run) (as : List α) :
    part (through settings resolve add r as) = part r := by
  refine through_induction (P := fun q => part q = part r) rfl fun q a _ h => ?_
  cases resolve a with
  | ok b => exact (hadd q b).trans h
  | error s => exact (hfail q s).trans h

/-- A run that tries everything adds the plan of every part that has one. -/
theorem plans_through (hslow : settings.failFast = false) (plans : Run → List β)
    (hadd : ∀ r b, plans (add r b) = plans r ++ [b]) (hfail : ∀ r s, plans (r.fail s) = plans r)
    (r : Run) (as : List α) :
    plans (through settings resolve add r as) =
      plans r ++ Report.values (as.map resolve) := by
  rw [through_eq_foldl_of_slow hslow]
  exact plans_foldl plans hadd hfail _ r

end Through

/-! ### Messages and services -/

theorem messages_through {α : Type} {settings : Settings} (hslow : settings.failFast = false)
    (resolve : α → Except Report MessagePlan) (r : Run) (as : List α) :
    (through settings resolve addMessage r as).messages =
      r.messages ++ Report.values (as.map resolve) :=
  plans_through hslow messages (fun _ _ => rfl) messages_fail r as

theorem services_through {α : Type} {settings : Settings} (hslow : settings.failFast = false)
    (resolve : α → Except Report ServicePlan) (r : Run) (as : List α) :
    (through settings resolve addService r as).services =
      r.services ++ Report.values (as.map resolve) :=
  plans_through hslow services (fun _ _ => rfl) services_fail r as

theorem services_through_addMessage {α : Type} (settings : Settings)
    (resolve : α → Except Report MessagePlan) (r : Run) (as : List α) :
    (through settings resolve addMessage r as).services = r.services :=
  kept_through services services_addMessage services_fail r as

theorem messages_through_addService {α : Type} (settings : Settings)
    (resolve : α → Except Report ServicePlan) (r : Run) (as : List α) :
    (through settings resolve addService r as).messages = r.messages :=
  kept_through messages messages_addService messages_fail r as

end Redaction.Run
