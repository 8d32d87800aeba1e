import Redaction.Plan.Json
import Redaction.Proofs.AliasedPaths
import Redaction.Proofs.JsonText

/-!
# The text of a plan loses nothing

The text that is written for the plan of a file is read as the JSON form of the plan, and the plan
can be told from that: no two plans have the same text.

* `FilePlan.legible_toJson`: the JSON form of a plan can be read back. It has no numbers, its keys
  are different, also those for the aliases, and it nests eight deep.
* `FilePlan.toJson_injective`: different plans have different JSON forms. There is one lemma for
  each kind of part.
* `text_read_back` is the main statement.
-/

namespace Redaction

open Json (Legible)

/-! ### Plans are legible -/

namespace Json

theorem Legible.mono {m n : Nat} {v : Json} (h : Legible m v) (hle : m ≤ n) : Legible n v := by
  induction h generalizing n with
  | null => exact .null
  | bool v => exact .bool v
  | str s => exact .str s
  | arr _ ih =>
    obtain ⟨k, rfl⟩ := Nat.exists_eq_add_of_le' hle
    exact .arr fun v hv => ih v hv (Nat.le_add_left _ _)
  | obj hkeys _ ih =>
    obtain ⟨k, rfl⟩ := Nat.exists_eq_add_of_le' hle
    exact .obj hkeys fun e he => ih e he (Nat.le_add_left _ _)

theorem legible_ofText? (n : Nat) (o : Option String) : Legible n (ofText? o) := by
  cases o with
  | none => exact .null
  | some s => exact .str s

/-- A list is legible if its items are. -/
theorem legible_map {α : Type} {n : Nat} {write : α → Json} (h : ∀ a, Legible n (write a))
    (as : List α) : Legible (n + 1) (arr (as.map write)) :=
  .arr (List.forall_mem_map.2 fun a _ => h a)

end Json

open Json (legible_ofText? legible_map)

theorem Dictionary.legible_toJson (d : Dictionary) : Legible 1 d.toJson := by
  refine .obj ?_ (List.forall_mem_map.2 fun e _ => .str e.2)
  rw [List.map_map]
  exact d.nodup_keys

theorem FieldPlan.legible_toJson (p : FieldPlan) : Legible 1 p.toJson := by
  refine .obj (by simp) ?_
  simp only [List.forall_mem_cons, Legible.str, Legible.bool, legible_ofText?, true_and]
  exact List.forall_mem_nil _

theorem MessagePlan.legible_toJson (p : MessagePlan) : Legible 3 p.toJson := by
  refine .obj (by simp) ?_
  simp only [List.forall_mem_cons, Legible.str, legible_ofText?, true_and,
    legible_map FieldPlan.legible_toJson]
  exact List.forall_mem_nil _

theorem MethodPlan.legible_toJson (p : MethodPlan) : Legible 4 p.toJson := by
  refine .obj (by simp) ?_
  simp only [List.forall_mem_cons, Legible.str, Legible.bool, MessagePlan.legible_toJson, true_and]
  exact List.forall_mem_nil _

theorem ServicePlan.legible_toJson (p : ServicePlan) : Legible 6 p.toJson := by
  refine .obj (by simp) ?_
  simp only [List.forall_mem_cons, Legible.str, Legible.bool, true_and,
    legible_map MethodPlan.legible_toJson]
  exact List.forall_mem_nil _

theorem FilePlan.legible_toJson (p : FilePlan) : Legible 8 p.toJson := by
  have himports : Legible 7 p.imports.toJson := p.imports.legible_toJson.mono (by decide)
  have hreferences : Legible 7 (.arr (p.references.map Json.str)) :=
    (legible_map (Legible.str (n := 0)) p.references).mono (by decide)
  have hmessages : Legible 7 (.arr (p.messages.map MessagePlan.toJson)) :=
    (legible_map MessagePlan.legible_toJson p.messages).mono (by decide)
  have hservices : Legible 7 (.arr (p.services.map ServicePlan.toJson)) :=
    legible_map ServicePlan.legible_toJson p.services
  refine .obj (by simp) ?_
  simp only [List.forall_mem_cons, Legible.str, himports, hreferences, hmessages, hservices,
    true_and]
  exact List.forall_mem_nil _

/-! ### Plans are told by their JSON forms -/

theorem Json.ofText?_injective : Function.Injective Json.ofText? := by
  intro a b h
  cases a <;> cases b <;> cases h <;> rfl

theorem Json.map_injective {α : Type} {write : α → Json} (h : Function.Injective write) :
    Function.Injective fun as : List α => Json.arr (as.map write) := by
  intro as bs heq
  exact List.map_injective_iff.2 h (Json.arr.inj heq)

theorem Override.name_injective : Function.Injective Override.name := by
  intro a b h
  cases a <;> cases b <;> first | rfl | exact absurd h (by decide)

theorem StatusCode.name_injective : Function.Injective StatusCode.name := by
  have hall : ∀ a ∈ all, ∀ b ∈ all, a.name = b.name → a = b := by decide
  exact fun a b => hall a (by cases a <;> decide) b (by cases b <;> decide)

theorem Dictionary.toJson_injective : Function.Injective Dictionary.toJson := by
  intro d e h
  have hwrite : Function.Injective fun x : String × String => (x.1, Json.str x.2) := by
    rintro ⟨k, v⟩ ⟨k', v'⟩ heq
    cases heq
    rfl
  cases d
  cases e
  cases List.map_injective_iff.2 hwrite (Json.obj.inj h)
  rfl

theorem FieldPlan.toJson_injective : Function.Injective FieldPlan.toJson := by
  intro p q h
  cases p
  cases q
  simp only [toJson, Json.obj.injEq, List.cons.injEq, Prod.mk.injEq, Json.str.injEq,
    Json.bool.injEq, Json.ofText?_injective.eq_iff, true_and, and_true] at h
  simp only [FieldPlan.mk.injEq]
  exact h

theorem MessagePlan.toJson_injective : Function.Injective MessagePlan.toJson := by
  intro p q h
  cases p
  cases q
  simp only [toJson, Json.obj.injEq, List.cons.injEq, Prod.mk.injEq, Json.str.injEq,
    Json.ofText?_injective.eq_iff, (Json.map_injective FieldPlan.toJson_injective).eq_iff,
    (Option.map_injective Override.name_injective).eq_iff, true_and, and_true] at h
  simp only [MessagePlan.mk.injEq]
  exact h

theorem MethodPlan.toJson_injective : Function.Injective MethodPlan.toJson := by
  intro p q h
  cases p
  cases q
  simp only [toJson, Json.obj.injEq, List.cons.injEq, Prod.mk.injEq, Json.str.injEq,
    Json.bool.injEq, MessagePlan.toJson_injective.eq_iff, StatusCode.name_injective.eq_iff,
    true_and, and_true] at h
  simp only [MethodPlan.mk.injEq]
  exact h

theorem ServicePlan.toJson_injective : Function.Injective ServicePlan.toJson := by
  intro p q h
  cases p
  cases q
  simp only [toJson, Json.obj.injEq, List.cons.injEq, Prod.mk.injEq, Json.str.injEq,
    Json.bool.injEq, (Json.map_injective MethodPlan.toJson_injective).eq_iff, true_and,
    and_true] at h
  simp only [ServicePlan.mk.injEq]
  exact h

theorem FilePlan.toJson_injective : Function.Injective FilePlan.toJson := by
  intro p q h
  have hstr : Function.Injective Json.str := fun _ _ => Json.str.inj
  cases p
  cases q
  simp only [toJson, Json.obj.injEq, List.cons.injEq, Prod.mk.injEq, Json.str.injEq,
    Dictionary.toJson_injective.eq_iff, (Json.map_injective hstr).eq_iff,
    (Json.map_injective MessagePlan.toJson_injective).eq_iff,
    (Json.map_injective ServicePlan.toJson_injective).eq_iff, true_and, and_true] at h
  simp only [FilePlan.mk.injEq]
  exact h

/-! ### The text of a plan -/

/-- A dictionary and its JSON form have the same values under the same keys. -/
theorem Dictionary.get?_toJson (d : Dictionary) (key : String) :
    d.toJson.get? key = (d.get? key).map .str := by
  show Json.find? key (d.entries.map _) = (find? key d.entries).map _
  induction d.entries with
  | nil => rfl
  | cons e rest ih =>
    simp only [List.map_cons, Json.find?, find?, ih]
    split <;> rfl

theorem FilePlan.parse?_text (p : FilePlan) : Json.parse? p.text = some p.toJson :=
  Json.parse?_print Json.isBlank_pretty (p.legible_toJson.mono (by decide))

/-- **The text of a plan loses nothing.** The text of the plan of a file, whatever quotes,
backslashes and control characters its names, values and messages have, is read as exactly the JSON
form of the plan. There the imports are an object whose keys are the aliases in order, each with its
path, and the references, messages and services are lists in the order of the plan. Plans with the
same text are equal. -/
theorem text_read_back :
    (∀ p : FilePlan, Json.parse? p.text = some p.toJson ∧
      (∃ entries, p.toJson.member "imports" = .obj entries ∧
        entries.map Prod.fst = p.imports.keys) ∧
      (∀ key, (p.toJson.member "imports").get? key = (p.imports.get? key).map .str) ∧
      p.toJson.member "references" = .arr (p.references.map .str) ∧
      p.toJson.member "messages" = .arr (p.messages.map MessagePlan.toJson) ∧
      p.toJson.member "services" = .arr (p.services.map ServicePlan.toJson)) ∧
    Function.Injective FilePlan.text := by
  constructor
  · intro p
    have hkeys : (p.imports.entries.map fun e => (e.1, Json.str e.2)).map Prod.fst =
        p.imports.keys := by
      rw [List.map_map]
      rfl
    exact ⟨p.parse?_text, ⟨_, rfl, hkeys⟩, p.imports.get?_toJson, rfl, rfl, rfl⟩
  · intro p q h
    have hparse : some p.toJson = some q.toJson := by
      rw [← p.parse?_text, h, q.parse?_text]
    exact FilePlan.toJson_injective (Option.some.inj hparse)

end Redaction
