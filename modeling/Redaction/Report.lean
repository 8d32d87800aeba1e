import Redaction.Fault

/-!
# Reports

The faults found so far, in the order in which they were found. A resolution in several steps tries
all of them and fails with the faults of every step that failed.

* `result_eq_ok_iff` and `result_eq_error_iff` say when `Report.result` succeeds, and with what.
* `Explained` outcomes never fail without a fault, so that a step that failed shows in the report
  (`failures_eq_nil_iff`).
-/

namespace Redaction

/-- A list of faults in order. -/
structure Report where
  faults : List Fault
deriving DecidableEq

namespace Report

/-- The report without faults. -/
def empty : Report := ⟨[]⟩

/-- The report of one fault. -/
def ofFault (f : Fault) : Report := ⟨[f]⟩

/-- The report with one more fault. -/
def push (r : Report) (f : Fault) : Report := ⟨r.faults ++ [f]⟩

/-- One report behind another. -/
def append (r s : Report) : Report := ⟨r.faults ++ s.faults⟩

/-- Whether a fault is in the report. -/
def contains (r : Report) (f : Fault) : Bool := decide (f ∈ r.faults)

/-- Whether the report has no fault. -/
def isEmpty (r : Report) : Bool := r.faults.isEmpty

/-- The number of faults. -/
def size (r : Report) : Nat := r.faults.length

/-- A value if nothing is reported, and the report otherwise. -/
def result {α : Type} (r : Report) (a : α) : Except Report α :=
  if r.isEmpty then .ok a else .error r

/-- The wording of a report: its only fault, or their number and one line for each. -/
def message (r : Report) : String :=
  match r.faults with
  | [] => "no redaction errors"
  | [f] => f.message
  | fs => toString fs.length ++ " redaction errors:"
      ++ String.join (fs.map fun f => "\n  - " ++ f.message)

/-- The failure with one fault. -/
def fail {α : Type} (f : Fault) : Except Report α := .error (ofFault f)

/-- The outcome of a step with at most one fault. -/
def ofExcept {α : Type} : Except Fault α → Except Report α
  | .ok a => .ok a
  | .error f => fail f

/-! ### Several steps -/

/-- The values of the steps that succeeded. -/
def values {α : Type} (steps : List (Except Report α)) : List α :=
  steps.filterMap fun
    | .ok a => some a
    | .error _ => none

/-- The faults of the steps that failed. -/
def failures {α : Type} (steps : List (Except Report α)) : List Fault :=
  steps.flatMap fun
    | .ok _ => []
    | .error r => r.faults

/-- Whether a step failed. -/
def failed {α : Type} : Except Report α → Bool
  | .ok _ => false
  | .error _ => true

/-- The steps up to the first that failed. -/
def throughFailure {α : Type} : List (Except Report α) → List (Except Report α)
  | [] => []
  | s :: rest => if failed s then [s] else s :: throughFailure rest

/-- The steps that are tried: all of them, or those up to the first failure. -/
def tried {α : Type} (failFast : Bool) (steps : List (Except Report α)) :
    List (Except Report α) :=
  if failFast then throughFailure steps else steps

/-- The values of the steps if no fault was found, or all faults. -/
def collect {α : Type} (steps : List (Except Report α)) : Except Report (List α) :=
  Report.result ⟨failures steps⟩ (values steps)

@[simp] theorem failed_ok {α : Type} (a : α) : failed (.ok a : Except Report α) = false := rfl

@[simp] theorem failed_error {α : Type} (r : Report) : failed (.error r : Except Report α) = true :=
  rfl

@[simp] theorem values_nil {α : Type} : values ([] : List (Except Report α)) = [] := rfl

@[simp] theorem values_cons_ok {α : Type} (a : α) (steps : List (Except Report α)) :
    values (.ok a :: steps) = a :: values steps := rfl

@[simp] theorem values_cons_error {α : Type} (r : Report) (steps : List (Except Report α)) :
    values (.error r :: steps) = values steps := rfl

@[simp] theorem failures_nil {α : Type} : failures ([] : List (Except Report α)) = [] := rfl

@[simp] theorem failures_cons_ok {α : Type} (a : α) (steps : List (Except Report α)) :
    failures (.ok a :: steps) = failures steps := rfl

@[simp] theorem failures_cons_error {α : Type} (r : Report) (steps : List (Except Report α)) :
    failures (.error r :: steps) = r.faults ++ failures steps := rfl

@[simp] theorem tried_false {α : Type} (steps : List (Except Report α)) :
    tried false steps = steps := rfl

/-- A result is the value exactly if nothing is reported. -/
theorem result_eq_ok_iff {α : Type} (r : Report) (a b : α) :
    r.result a = .ok b ↔ r.faults = [] ∧ a = b := by
  unfold result isEmpty
  cases r.faults <;> simp

/-- A result is a failure exactly if something is reported, and then it is the report. -/
theorem result_eq_error_iff {α : Type} (r s : Report) (a : α) :
    r.result a = .error s ↔ r.faults ≠ [] ∧ r = s := by
  unfold result isEmpty
  cases r.faults <;> simp

/-! ### Failures with a cause -/

/-- An outcome that is no failure without a fault. -/
def Explained {α : Type} (outcome : Except Report α) : Prop :=
  ∀ r, outcome = .error r → r.faults ≠ []

theorem explained_ok {α : Type} (a : α) : Explained (.ok a) := by
  intro r h
  cases h

theorem explained_ofExcept {α : Type} (outcome : Except Fault α) :
    Explained (ofExcept outcome) := by
  intro r h
  cases outcome with
  | ok a => cases h
  | error f => cases h; simp [ofFault]

theorem explained_result {α : Type} (r : Report) (a : α) : Explained (r.result a) := by
  intro s h
  obtain ⟨hne, rfl⟩ := (result_eq_error_iff r s a).1 h
  exact hne

theorem explained_bind {α β : Type} {outcome : Except Report α} {next : α → Except Report β}
    (h : Explained outcome) (hn : ∀ a, Explained (next a)) : Explained (outcome >>= next) := by
  intro r hr
  cases outcome with
  | ok a => exact hn a r hr
  | error s => cases hr; exact h _ rfl

/-- Steps that report nothing have all succeeded, if their failures have causes. -/
theorem failures_eq_nil_iff {α : Type} {steps : List (Except Report α)}
    (h : ∀ s ∈ steps, Explained s) : failures steps = [] ↔ ∀ s ∈ steps, ∃ a, s = .ok a := by
  constructor
  · intro hnil s hs
    cases s with
    | ok a => exact ⟨a, rfl⟩
    | error r => exact absurd (List.flatMap_eq_nil_iff.1 hnil _ hs) (h _ hs r rfl)
  · intro hok
    refine List.flatMap_eq_nil_iff.2 fun s hs => ?_
    obtain ⟨a, rfl⟩ := hok s hs
    rfl

/-- The faults of several steps are those of the steps that failed. -/
theorem mem_failures {α : Type} {steps : List (Except Report α)} {f : Fault} :
    f ∈ failures steps ↔ ∃ r, .error r ∈ steps ∧ f ∈ r.faults := by
  unfold failures
  rw [List.mem_flatMap]
  constructor
  · rintro ⟨s, hs, hf⟩
    cases s with
    | ok a => cases hf
    | error r => exact ⟨r, hs, hf⟩
  · rintro ⟨r, hr, hf⟩
    exact ⟨.error r, hr, hf⟩

/-- Steps that have all succeeded are their values. -/
theorem map_ok_values {α : Type} {steps : List (Except Report α)}
    (h : ∀ s ∈ steps, ∃ a, s = .ok a) : (values steps).map .ok = steps := by
  induction steps with
  | nil => rfl
  | cons s rest ih =>
    have ⟨⟨a, ha⟩, hrest⟩ := List.forall_mem_cons.1 h
    rw [ha, values_cons_ok, List.map_cons, ih hrest]

end Report
end Redaction
