import Redaction.Plan.Event

/-!
# Runs over the parts of a file

A run tries the parts of a file one after the other. What it finds goes into one record: the plans
of the parts that have one, the faults of those that have none, and the events.

* A fault that was found before is neither reported nor told again.
* A run that fails fast tries nothing more once a fault is reported.
-/

namespace Redaction

/-- What a run has come to so far. -/
structure Run where
  events : List Event
  report : Report
  messages : List MessagePlan
  services : List ServicePlan

namespace Run

/-- A run that has tried nothing yet. -/
def start (events : List Event) : Run := ⟨events, .empty, [], []⟩

/-- The run after a fault. -/
def find (r : Run) (f : Fault) : Run :=
  if r.report.contains f then r
  else { r with events := r.events ++ [.fault f], report := r.report.push f }

/-- The run after a part with faults. -/
def fail (r : Run) (s : Report) : Run := s.faults.foldl find r

/-- The run after a message with a plan. -/
def addMessage (r : Run) (p : MessagePlan) : Run :=
  { r with events := r.events ++ p.events, messages := r.messages ++ [p] }

/-- The run after a service with a plan. -/
def addService (r : Run) (p : ServicePlan) : Run :=
  { r with events := r.events ++ p.events, services := r.services ++ [p] }

/-- The run after the outcome of a part. -/
def absorb {β : Type} (add : Run → β → Run) (r : Run) : Except Report β → Run
  | .ok b => add r b
  | .error s => r.fail s

/-- Whether nothing more is tried. -/
def stopped (settings : Settings) (r : Run) : Bool := settings.failFast && !r.report.isEmpty

/-- The run after some parts in order, up to where it stops. -/
def through {α β : Type} (settings : Settings) (resolve : α → Except Report β)
    (add : Run → β → Run) : Run → List α → Run
  | r, [] => r
  | r, a :: rest =>
    if r.stopped settings then r
    else through settings resolve add (r.absorb add (resolve a)) rest

/-! ### One step -/

theorem find_of_mem {r : Run} {f : Fault} (h : f ∈ r.report.faults) : r.find f = r :=
  if_pos (decide_eq_true h)

theorem find_of_not_mem {r : Run} {f : Fault} (h : f ∉ r.report.faults) :
    r.find f = { r with events := r.events ++ [.fault f], report := r.report.push f } :=
  if_neg (by simpa [Report.contains] using h)

@[simp] theorem messages_find (r : Run) (f : Fault) : (r.find f).messages = r.messages := by
  unfold find; split <;> rfl

@[simp] theorem services_find (r : Run) (f : Fault) : (r.find f).services = r.services := by
  unfold find; split <;> rfl

@[simp] theorem fail_nil (r : Run) : r.fail ⟨[]⟩ = r := rfl

@[simp] theorem fail_cons (r : Run) (f : Fault) (fs : List Fault) :
    r.fail ⟨f :: fs⟩ = (r.find f).fail ⟨fs⟩ := rfl

@[simp] theorem messages_fail (r : Run) (s : Report) : (r.fail s).messages = r.messages := by
  obtain ⟨fs⟩ := s
  induction fs generalizing r with
  | nil => rfl
  | cons f fs ih => rw [fail_cons, ih, messages_find]

@[simp] theorem services_fail (r : Run) (s : Report) : (r.fail s).services = r.services := by
  obtain ⟨fs⟩ := s
  induction fs generalizing r with
  | nil => rfl
  | cons f fs ih => rw [fail_cons, ih, services_find]

@[simp] theorem report_addMessage (r : Run) (p : MessagePlan) :
    (r.addMessage p).report = r.report := rfl

@[simp] theorem report_addService (r : Run) (p : ServicePlan) :
    (r.addService p).report = r.report := rfl

@[simp] theorem services_addMessage (r : Run) (p : MessagePlan) :
    (r.addMessage p).services = r.services := rfl

@[simp] theorem messages_addService (r : Run) (p : ServicePlan) :
    (r.addService p).messages = r.messages := rfl

/-! ### Several steps -/

section Through

variable {α β : Type} {settings : Settings} {resolve : α → Except Report β} {add : Run → β → Run}

theorem through_cons_of_stopped {r : Run} (h : r.stopped settings = true) (a : α) (rest : List α) :
    through settings resolve add r (a :: rest) = r := if_pos h

theorem through_cons {r : Run} (h : r.stopped settings = false) (a : α) (rest : List α) :
    through settings resolve add r (a :: rest) =
      through settings resolve add (r.absorb add (resolve a)) rest := by
  simp [through, h]

theorem stopped_of_slow (h : settings.failFast = false) (r : Run) : r.stopped settings = false := by
  simp [stopped, h]

/-- What every outcome keeps, the run keeps. -/
theorem through_induction {P : Run → Prop} {r : Run} {as : List α} (h : P r)
    (step : ∀ r, ∀ a ∈ as, P r → P (r.absorb add (resolve a))) :
    P (through settings resolve add r as) := by
  induction as generalizing r with
  | nil => exact h
  | cons a rest ih =>
    cases hs : r.stopped settings with
    | true => rw [through_cons_of_stopped hs]; exact h
    | false =>
      rw [through_cons hs]
      exact ih (step r a List.mem_cons_self h)
        fun r b hb => step r b (List.mem_cons_of_mem _ hb)

end Through

end Run
end Redaction
