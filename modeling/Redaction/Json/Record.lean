import Redaction.Json.Basic

/-!
# Records in JSON

How a record is read from JSON, once for all record types. A record type lists its fields in order
with the presence each one needs. The record is then written in one of two forms:

* an object, whose entries may stand in any order, other keys being ignored;
* an array with the values of the fields in order, which may stop before trailing fields that have
  a default.

`slots?` brings both forms to one list of slots, one per field: the value given for the field, or
none where its default holds. What a field holds is read from its slot alone, so the two forms of a
record are read alike (`slots?_arr_eq_obj`).
-/

namespace Redaction.Json

/-- What a field of a record needs. -/
inductive Presence where
  /-- A value other than `null`. -/
  | required
  /-- A value other than `null`, or nothing. -/
  | defaulted
  /-- A value, `null` and nothing both meaning none. -/
  | optional
  /-- A value, `null` meaning none; an object may leave it out, an array may not. -/
  | nullable
deriving DecidableEq

namespace Presence

/-- Whether an object may leave the field out. -/
def absentKey : Presence → Bool
  | required => false
  | _ => true

/-- Whether an array may stop before the field. -/
def absentItem : Presence → Bool
  | defaulted | optional => true
  | _ => false

/-- Whether `null` stands for no value. -/
def allowsNull : Presence → Bool
  | optional | nullable => true
  | _ => false

/-- The slot of a field that is given. -/
def slot? (p : Presence) : Json → Option (Option Json)
  | null => if p.allowsNull then some none else none
  | v => some (some v)

end Presence

/-- A field of a record: its key and its presence. -/
structure FieldShape where
  key : String
  presence : Presence
deriving DecidableEq

/-- The slot of a field of an object. -/
def entrySlot? (entries : List (String × Json)) (f : FieldShape) : Option (Option Json) :=
  match find? f.key entries with
  | some v => f.presence.slot? v
  | none => if f.presence.absentKey then some none else none

/-- The slots of the fields of an array. -/
def itemSlots? : List FieldShape → List Json → Option (List (Option Json))
  | [], [] => some []
  | [], _ :: _ => none
  | f :: fs, [] =>
    if f.presence.absentItem then (itemSlots? fs []).map (none :: ·) else none
  | f :: fs, v :: vs => do
    let s ← f.presence.slot? v
    let rest ← itemSlots? fs vs
    return s :: rest

/-- The slots of a record, one per field. -/
def slots? (fields : List FieldShape) : Json → Option (List (Option Json))
  | obj entries => fields.mapM (entrySlot? entries)
  | arr items => itemSlots? fields items
  | _ => none

/-- A record type: its fields in order, and the record that a list of slots makes. -/
structure Record (α : Type) where
  fields : List FieldShape
  ofSlots? : List (Option Json) → Option α

/-- The record that a value writes, in either form. -/
def Record.read? {α : Type} (r : Record α) (j : Json) : Option α :=
  (slots? r.fields j).bind r.ofSlots?

/-! ### Slots -/

/-- The reading of a slot that must hold a value. -/
def need {α : Type} (read : Json → Option α) : Option Json → Option α
  | some v => read v
  | none => none

/-- The reading of a slot with a default. -/
def orElse {α : Type} (default : α) (read : Json → Option α) : Option Json → Option α
  | some v => read v
  | none => some default

/-- The reading of a slot that may hold nothing. -/
def maybe {α : Type} (read : Json → Option α) : Option Json → Option (Option α)
  | some v => (read v).map some
  | none => some none

@[simp] theorem need_some {α : Type} (read : Json → Option α) (v : Json) :
    need read (some v) = read v := rfl

@[simp] theorem orElse_some {α : Type} (d : α) (read : Json → Option α) (v : Json) :
    orElse d read (some v) = read v := rfl

@[simp] theorem orElse_none {α : Type} (d : α) (read : Json → Option α) :
    orElse d read none = some d := rfl

@[simp] theorem maybe_some {α : Type} (read : Json → Option α) (v : Json) :
    maybe read (some v) = (read v).map some := rfl

@[simp] theorem maybe_none {α : Type} (read : Json → Option α) : maybe read none = some none := rfl

/-! ### The two forms -/

theorem find?_cons_of_ne {key k : String} (h : k ≠ key) (v : Json) (entries : List (String × Json)) :
    find? key ((k, v) :: entries) = find? key entries := if_neg h

theorem mapM_entrySlot?_congr {entries entries' : List (String × Json)} :
    ∀ {fields : List FieldShape}, (∀ f ∈ fields, find? f.key entries = find? f.key entries') →
      fields.mapM (entrySlot? entries) = fields.mapM (entrySlot? entries')
  | [], _ => rfl
  | f :: fs, h => by
    have hf : entrySlot? entries f = entrySlot? entries' f := by
      simp only [entrySlot?, h f List.mem_cons_self]
    rw [List.mapM_cons, List.mapM_cons, hf,
      mapM_entrySlot?_congr fun g hg => h g (List.mem_cons_of_mem _ hg)]

theorem mapM_entrySlot?_cons {k : String} {v : Json} {entries : List (String × Json)}
    {fields : List FieldShape} (h : ∀ f ∈ fields, f.key ≠ k) :
    fields.mapM (entrySlot? ((k, v) :: entries)) = fields.mapM (entrySlot? entries) :=
  mapM_entrySlot?_congr fun f hf => find?_cons_of_ne (h f hf).symm v entries

theorem mapM_entrySlot?_nil :
    ∀ {fields : List FieldShape}, (∀ f ∈ fields, f.presence.absentItem = true) →
      fields.mapM (entrySlot? []) = itemSlots? fields []
  | [], _ => rfl
  | f :: fs, h => by
    have hi := h f List.mem_cons_self
    have hk : f.presence.absentKey = true := by
      revert hi
      cases f.presence <;> simp [Presence.absentItem, Presence.absentKey]
    have hs : entrySlot? [] f = some none := by simp [entrySlot?, find?, hk]
    rw [List.mapM_cons, hs, mapM_entrySlot?_nil fun g hg => h g (List.mem_cons_of_mem _ hg)]
    simp only [itemSlots?, hi, if_true]
    cases itemSlots? fs [] <;> rfl

/-- An array of the leading fields is read as the object of those fields, if the fields have
different keys and all that the array leaves out may be left out. -/
theorem slots?_arr_eq_obj :
    ∀ {fields : List FieldShape} {items : List Json},
      (fields.map (·.key)).Nodup → items.length ≤ fields.length →
      (∀ f ∈ fields.drop items.length, f.presence.absentItem = true) →
      slots? fields (arr items) = slots? fields (obj ((fields.map (·.key)).zip items))
  | [], [], _, _, _ => rfl
  | f :: fs, [], _, _, h => by
    simpa [slots?] using (@mapM_entrySlot?_nil (f :: fs) (by simpa using h)).symm
  | f :: fs, v :: vs, hn, hl, h => by
    have hn' := List.nodup_cons.1 hn
    have hs : entrySlot? ((f.key, v) :: (fs.map (·.key)).zip vs) f = f.presence.slot? v := by
      simp [entrySlot?, find?]
    have ih := @slots?_arr_eq_obj fs vs hn'.2 (Nat.le_of_succ_le_succ hl) (by simpa using h)
    simp only [slots?] at ih
    simp only [slots?, itemSlots?, List.map_cons, List.zip_cons_cons, List.mapM_cons, hs, ih]
    have hk : ∀ g ∈ fs, g.key ≠ f.key := fun g hg e => hn'.1 (List.mem_map.2 ⟨g, hg, e⟩)
    rw [mapM_entrySlot?_cons hk]

/-! ### Sizes -/

theorem length_of_itemSlots? :
    ∀ {fields : List FieldShape} {items : List Json} {ss : List (Option Json)},
      itemSlots? fields items = some ss → ss.length = fields.length
  | [], [], _, h => by cases h; rfl
  | [], _ :: _, _, h => by cases h
  | f :: fs, [], ss, h => by
    simp only [itemSlots?] at h
    split at h
    · obtain ⟨rest, hr, rfl⟩ := Option.map_eq_some_iff.1 h
      simp [length_of_itemSlots? hr]
    · cases h
  | f :: fs, v :: vs, ss, h => by
    simp only [itemSlots?, Option.bind_eq_bind, Option.bind_eq_some_iff] at h
    obtain ⟨s, hs, rest, hr, h⟩ := h
    cases h
    simp [length_of_itemSlots? hr]

theorem length_of_mapM_entrySlot? {entries : List (String × Json)} :
    ∀ {fields : List FieldShape} {ss : List (Option Json)},
      fields.mapM (entrySlot? entries) = some ss → ss.length = fields.length
  | [], _, h => by cases h; rfl
  | f :: fs, ss, h => by
    simp only [List.mapM_cons, Option.bind_eq_bind, Option.bind_eq_some_iff] at h
    obtain ⟨s, hs, rest, hr, h⟩ := h
    cases h
    simp [length_of_mapM_entrySlot? hr]

/-- A record has one slot per field. -/
theorem length_of_slots? {fields : List FieldShape} {j : Json} {ss : List (Option Json)}
    (h : slots? fields j = some ss) : ss.length = fields.length := by
  cases j with
  | obj entries => exact length_of_mapM_entrySlot? h
  | arr items => exact length_of_itemSlots? h
  | _ => cases h

theorem slot?_of_ne_null (p : Presence) {v : Json} (h : v ≠ null) : p.slot? v = some (some v) := by
  cases v <;> first | rfl | exact absurd rfl h

theorem eq_of_slot? {p : Presence} {v w : Json} (h : p.slot? v = some (some w)) : w = v := by
  cases v <;> simp_all [Presence.slot?]

theorem sizeOf_lt_of_itemSlots? {w : Json} :
    ∀ {fields : List FieldShape} {items : List Json} {ss : List (Option Json)},
      itemSlots? fields items = some ss → some w ∈ ss → sizeOf w < sizeOf items
  | [], [], _, h, hw => by simp_all [itemSlots?]
  | [], _ :: _, _, h, _ => by simp [itemSlots?] at h
  | f :: fs, [], ss, h, hw => by
    simp only [itemSlots?] at h
    split at h
    · obtain ⟨rest, hr, rfl⟩ := Option.map_eq_some_iff.1 h
      exact sizeOf_lt_of_itemSlots? hr (by simpa using hw)
    · cases h
  | f :: fs, v :: vs, ss, h, hw => by
    simp only [itemSlots?, Option.bind_eq_bind, Option.bind_eq_some_iff] at h
    obtain ⟨s, hs, rest, hr, h⟩ := h
    cases h
    rcases List.mem_cons.1 hw with rfl | hw
    · rw [eq_of_slot? hs]; simp +arith
    · have := sizeOf_lt_of_itemSlots? hr hw; simp +arith; omega

/-- What a record holds is smaller than the record. -/
theorem sizeOf_lt_of_slots? {fields : List FieldShape} {j w : Json} {ss : List (Option Json)}
    (h : slots? fields j = some ss) (hw : some w ∈ ss) : sizeOf w < sizeOf j := by
  cases j with
  | obj entries =>
    have key : ∀ {fs : List FieldShape} {ss : List (Option Json)},
        fs.mapM (entrySlot? entries) = some ss → some w ∈ ss → sizeOf w < sizeOf entries := by
      intro fs
      induction fs with
      | nil => intro ss h hw; simp at h; simp_all
      | cons f fs ih =>
        intro ss h hw
        simp only [List.mapM_cons, Option.bind_eq_bind, Option.bind_eq_some_iff] at h
        obtain ⟨s, hs, rest, hr, h⟩ := h
        cases h
        rcases List.mem_cons.1 hw with rfl | hw
        · unfold entrySlot? at hs
          split at hs
          next v hv => rw [eq_of_slot? hs]; exact sizeOf_lt_of_find? hv
          next => split at hs <;> simp at hs
        · exact ih hr hw
    have := key h hw
    simp +arith; omega
  | arr items =>
    have := sizeOf_lt_of_itemSlots? h hw
    simp +arith; omega
  | _ => simp [slots?] at h

end Redaction.Json
