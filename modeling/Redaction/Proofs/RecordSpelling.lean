import Mathlib.Data.List.Forall2
import Redaction.Json.Record

/-!
# Spellings of a record

A record can be written in many ways: as an array or as an object, with the keys of the object in
any order, with keys that mean nothing, with a default written out or left out. This module says
which of them are read alike, for any record type.

* `Record.read?_obj_congr`: only the values under the keys of the fields matter. So the order of the
  entries does not (`find?_eq_of_perm`), nor does an entry under another key.
* `Record.read?_arr_eq_obj`: an array is read as the object of its leading fields.
* `Record.read?_obj_eq_of_set_eq`: two objects that differ in one field are read alike if either
  slot of that field makes the same record. That covers a default written out, and a part of the
  record spelled in another way.
* `Record.ReadBy` says that the records of a type go with the slots of their fields one by one. What
  an object is read as is then told field by field (`Record.ReadBy.read?_obj_eq_some_iff`).
* `Declaration` is a field as a record type declares it, with what stands for the field where an
  object leaves it out. `Spelled` states the laws of the spellings for a reading and its
  declarations, and `Record.spelled` proves them from the declarations one at a time.
-/

namespace Redaction.Json

/-! ### Entries of an object -/

section Entries

variable {key k : String} {v : Json} {entries entries' before after : List (String × Json)}

theorem find?_append :
    find? key (before ++ after) = (find? key before).or (find? key after) := by
  induction before with
  | nil => rfl
  | cons e before ih => simp only [List.cons_append, find?, ih]; split <;> rfl

theorem find?_append_cons_of_ne (h : k ≠ key) :
    find? key (before ++ (k, v) :: after) = find? key (before ++ after) := by
  rw [find?_append, find?_append, find?_cons_of_ne h]

theorem find?_append_cons_self (h : find? key before = none) :
    find? key (before ++ (key, v) :: after) = some v := by
  rw [find?_append, h]
  exact if_pos rfl

theorem find?_eq_none (h : key ∉ entries.map Prod.fst) : find? key entries = none := by
  induction entries with
  | nil => rfl
  | cons e entries ih =>
    rw [List.map_cons, List.mem_cons, not_or] at h
    exact (find?_cons_of_ne (Ne.symm h.1) e.2 _).trans (ih h.2)

/-- The order of entries under different keys does not matter. -/
theorem find?_eq_of_perm (key : String) (h : entries.Perm entries')
    (hkeys : (entries.map Prod.fst).Nodup) : find? key entries = find? key entries' := by
  induction h with
  | nil => rfl
  | cons e _ ih => simp only [find?, ih (List.nodup_cons.1 hkeys).2]
  | swap e e' _ =>
    have hne : e'.1 ≠ e.1 := fun heq => by simp [heq] at hkeys
    by_cases he : e.1 = key
    · simp only [find?, if_pos he, if_neg (he ▸ hne)]
    · simp only [find?, if_neg he]
  | trans h _ ih ih' => exact (ih hkeys).trans (ih' ((h.map Prod.fst).nodup hkeys))

end Entries

/-! ### Slots -/

section Slots

variable {fields : List FieldShape} {f : FieldShape} {entries entries' : List (String × Json)}
  {items : List Json}

/-- A record with a field that cannot be read is not read. -/
theorem mapM_entrySlot?_eq_none (hf : f ∈ fields) (h : entrySlot? entries f = none) :
    fields.mapM (entrySlot? entries) = none := by
  induction fields with
  | nil => cases hf
  | cons g fields ih =>
    rw [List.mapM_cons]
    rcases List.mem_cons.1 hf with rfl | hf
    · rw [h]; rfl
    · rw [ih hf]; cases entrySlot? entries g <;> rfl

/-- A change of the value under one key changes the slot of that field alone. -/
theorem mapM_entrySlot?_set {s s' : Option Json} {i : Nat} (hf : fields[i]? = some f)
    (hkeys : (fields.map (·.key)).Nodup)
    (hother : ∀ key, key ≠ f.key → find? key entries = find? key entries')
    (hs : entrySlot? entries f = some s) (hs' : entrySlot? entries' f = some s') :
    fields.mapM (entrySlot? entries') = (fields.mapM (entrySlot? entries)).map (·.set i s') := by
  induction fields generalizing i with
  | nil => cases hf
  | cons g fields ih =>
    obtain ⟨hg, hkeys⟩ := List.nodup_cons.1 hkeys
    rw [List.mapM_cons, List.mapM_cons]
    cases i with
    | zero =>
      obtain rfl : g = f := by simpa using hf
      have hrest : ∀ h ∈ fields, find? h.key entries = find? h.key entries' :=
        fun h hh => hother _ fun heq => hg (List.mem_map.2 ⟨h, hh, heq⟩)
      rw [hs, hs', mapM_entrySlot?_congr hrest]
      cases fields.mapM (entrySlot? entries') <;> rfl
    | succ i =>
      have hmem : f ∈ fields := List.mem_of_getElem? hf
      have hgf : g.key ≠ f.key := fun heq => hg (List.mem_map.2 ⟨f, hmem, heq.symm⟩)
      have hslot : entrySlot? entries' g = entrySlot? entries g := by
        simp only [entrySlot?, hother _ hgf]
      rw [hslot, ih hf hkeys]
      cases entrySlot? entries g <;> cases fields.mapM (entrySlot? entries) <;> rfl

theorem itemSlots?_eq_none_of_lt (h : fields.length < items.length) :
    itemSlots? fields items = none := by
  induction fields generalizing items with
  | nil =>
    cases items with
    | nil => cases h
    | cons v items => rfl
  | cons f fields ih =>
    cases items with
    | nil => cases h
    | cons v items =>
      rw [itemSlots?, ih (Nat.lt_of_succ_lt_succ h)]
      cases f.presence.slot? v <;> rfl

theorem slot?_null {p : Presence} (h : p.allowsNull = false) : p.slot? null = none := by
  simp [Presence.slot?, h]

theorem itemSlots?_eq_none_of_null {i : Nat} (hf : fields[i]? = some f)
    (hnull : f.presence.allowsNull = false) (hv : items[i]? = some null) :
    itemSlots? fields items = none := by
  induction fields generalizing items i with
  | nil => cases hf
  | cons g fields ih =>
    cases items with
    | nil => cases hv
    | cons v items =>
      rw [itemSlots?]
      cases i with
      | zero =>
        obtain rfl : g = f := by simpa using hf
        obtain rfl : v = null := by simpa using hv
        rw [slot?_null hnull]; rfl
      | succ i =>
        rw [ih hf hv]
        cases g.presence.slot? v <;> rfl

end Slots

/-! ### Records -/

namespace Record

variable {α : Type} {r : Record α} {f : FieldShape} {entries entries' : List (String × Json)}
  {i : Nat} {s s' : Option Json}

/-- Only the values under the keys of the fields matter. -/
theorem read?_obj_congr (h : ∀ g ∈ r.fields, find? g.key entries = find? g.key entries') :
    r.read? (obj entries) = r.read? (obj entries') :=
  congrArg (·.bind r.ofSlots?) (mapM_entrySlot?_congr h)

/-- An array is read as the object of its leading fields. -/
theorem read?_arr_eq_obj {items : List Json} (hkeys : (r.fields.map (·.key)).Nodup)
    (hlength : items.length ≤ r.fields.length)
    (hrest : ∀ g ∈ r.fields.drop items.length, g.presence.absentItem = true) :
    r.read? (arr items) = r.read? (obj ((r.fields.map (·.key)).zip items)) :=
  congrArg (·.bind r.ofSlots?) (slots?_arr_eq_obj hkeys hlength hrest)

/-- What an object is read as after a change of one field. -/
theorem read?_obj_eq_set (hf : r.fields[i]? = some f) (hkeys : (r.fields.map (·.key)).Nodup)
    (hother : ∀ key, key ≠ f.key → find? key entries = find? key entries')
    (hs : entrySlot? entries f = some s) (hs' : entrySlot? entries' f = some s') :
    r.read? (obj entries') =
      (r.fields.mapM (entrySlot? entries)).bind fun ss => r.ofSlots? (ss.set i s') := by
  simp only [read?, slots?, mapM_entrySlot?_set hf hkeys hother hs hs', Option.bind_map]
  rfl

/-- Two objects that differ in a field alone are read alike if either slot of that field makes the
same record. -/
theorem read?_obj_eq_of_set_eq (hf : r.fields[i]? = some f)
    (hkeys : (r.fields.map (·.key)).Nodup)
    (hother : ∀ key, key ≠ f.key → find? key entries = find? key entries')
    (hs : entrySlot? entries f = some s) (hs' : entrySlot? entries' f = some s')
    (h : ∀ ss : List (Option Json), ss.length = r.fields.length →
      r.ofSlots? (ss.set i s) = r.ofSlots? (ss.set i s')) :
    r.read? (obj entries) = r.read? (obj entries') := by
  rw [read?_obj_eq_set hf hkeys (fun _ _ => rfl) hs hs, read?_obj_eq_set hf hkeys hother hs hs']
  cases hss : r.fields.mapM (entrySlot? entries) with
  | none => rfl
  | some ss => exact h ss (length_of_mapM_entrySlot? hss)

end Record

/-! ### Readings -/

/-- How a record and the slot of one of its fields go together. -/
abbrev Reading (α : Type) := Option Json → α → Prop

/-- The slot of a field is read as what the record has there. -/
def reads {α β : Type} (read : Option Json → Option β) (get : α → β) : Reading α :=
  fun s a => read s = some (get a)

/-- A list is read alike with an item that is read alike. -/
theorem list?_congr {α : Type} {read : Json → Option α} {v v' : Json} (h : read v = read v')
    (before after : List Json) :
    (arr (before ++ v :: after)).list? read = (arr (before ++ v' :: after)).list? read := by
  simp only [list?, List.mapM_append, List.mapM_cons, h]

/-- Slots that are read alike go with the same records. -/
theorem reads_congr {α β : Type} {read : Option Json → Option β} {get : α → β} {s s' : Option Json}
    (h : read s = read s') (a : α) : reads read get s a ↔ reads read get s' a := by
  rw [reads, reads, h]

section Readings

variable {α : Type} {readings : List (Reading α)} {R : Reading α} {i : Nat} {s s' : Option Json}
  {a : α} {ss : List (Option Json)}

theorem forall₂_set_congr (hR : readings[i]? = some R) (h : R s a ↔ R s' a) :
    List.Forall₂ (fun R s => R s a) readings (ss.set i s) ↔
      List.Forall₂ (fun R s => R s a) readings (ss.set i s') := by
  induction readings generalizing i ss with
  | nil => cases hR
  | cons Q readings ih =>
    cases ss with
    | nil => rfl
    | cons t ss =>
      cases i with
      | zero =>
        obtain rfl : Q = R := by simpa using hR
        simp only [List.set_cons_zero, List.forall₂_cons, h]
      | succ i => simp only [List.set_cons_succ, List.forall₂_cons, ih hR]

theorem of_forall₂_set (hR : readings[i]? = some R)
    (h : List.Forall₂ (fun R s => R s a) readings (ss.set i s)) : R s a := by
  induction readings generalizing i ss with
  | nil => cases hR
  | cons Q readings ih =>
    cases ss with
    | nil => cases h
    | cons t ss =>
      cases i with
      | zero =>
        obtain rfl : Q = R := by simpa using hR
        exact (List.forall₂_cons.1 h).1
      | succ i => exact ih hR (List.forall₂_cons.1 h).2

/-- Slots of all fields that go with a record are found field by field. -/
theorem exists_mapM_entrySlot? {entries : List (String × Json)} {fields : List FieldShape} :
    (∃ ss, fields.mapM (entrySlot? entries) = some ss ∧
      List.Forall₂ (fun R s => R s a) readings ss) ↔
    List.Forall₂ (fun f R => ∃ s, entrySlot? entries f = some s ∧ R s a) fields readings := by
  induction fields generalizing readings with
  | nil =>
    cases readings with
    | nil => exact iff_of_true ⟨[], rfl, .nil⟩ .nil
    | cons R readings => exact iff_of_false (by rintro ⟨ss, ⟨⟩, ⟨⟩⟩) nofun
  | cons f fields ih =>
    cases readings with
    | nil => simp [Option.bind_eq_some_iff]
    | cons R readings =>
      rw [List.forall₂_cons, ← ih, List.mapM_cons]
      constructor
      · rintro ⟨ss, hss, hR⟩
        simp only [Option.bind_eq_bind, Option.bind_eq_some_iff] at hss
        obtain ⟨s, hs, rest, hrest, ⟨⟩⟩ := hss
        obtain ⟨hRs, hRrest⟩ := List.forall₂_cons.1 hR
        exact ⟨⟨s, hs, hRs⟩, rest, hrest, hRrest⟩
      · rintro ⟨⟨s, hs, hRs⟩, rest, hrest, hRrest⟩
        exact ⟨s :: rest, by rw [hs, hrest]; rfl, .cons hRs hRrest⟩

/-- Whether a record type makes of slots the one record that goes with each of them. -/
def Record.ReadBy (r : Record α) (readings : List (Reading α)) : Prop :=
  ∀ (ss : List (Option Json)) (a : α), ss.length = r.fields.length →
    (r.ofSlots? ss = some a ↔ List.Forall₂ (fun R s => R s a) readings ss)

namespace Record.ReadBy

variable {r : Record α}

/-- Slots that go with the same records make the same record. -/
theorem set_eq (h : r.ReadBy readings) (hR : readings[i]? = some R) (hs : ∀ a, R s a ↔ R s' a)
    (hlength : ss.length = r.fields.length) :
    r.ofSlots? (ss.set i s) = r.ofSlots? (ss.set i s') :=
  Option.ext fun a => by
    rw [h _ a (List.length_set.trans hlength), h _ a (List.length_set.trans hlength),
      forall₂_set_congr hR (hs a)]

/-- An object is read as the records that go with the slots of all its fields. -/
theorem read?_obj_eq_some_iff (h : r.ReadBy readings) (entries : List (String × Json)) :
    r.read? (obj entries) = some a ↔
      List.Forall₂ (fun f R => ∃ s, entrySlot? entries f = some s ∧ R s a) r.fields readings := by
  rw [← exists_mapM_entrySlot?, read?, Option.bind_eq_some_iff]
  exact exists_congr fun ss => and_congr_right fun hss => h ss a (length_of_mapM_entrySlot? hss)

theorem of_set (h : r.ReadBy readings) (hR : readings[i]? = some R)
    (hlength : ss.length = r.fields.length) (ha : r.ofSlots? (ss.set i s) = some a) : R s a :=
  of_forall₂_set hR ((h _ a (List.length_set.trans hlength)).1 ha)

/-- A record is read alike with either of two values of a field that go with the same records. -/
theorem read?_obj_replace (h : r.ReadBy readings) (hkeys : (r.fields.map (·.key)).Nodup)
    {f : FieldShape} (hf : r.fields[i]? = some f) (hR : readings[i]? = some R) {v v' : Json}
    (hv : v ≠ null) (hv' : v' ≠ null) (hsame : ∀ a, R (some v) a ↔ R (some v') a)
    (before after : List (String × Json)) :
    r.read? (obj (before ++ (f.key, v) :: after)) =
      r.read? (obj (before ++ (f.key, v') :: after)) := by
  have hother : ∀ key, key ≠ f.key → find? key (before ++ (f.key, v) :: after) =
      find? key (before ++ (f.key, v') :: after) := fun key hne => by
    rw [find?_append_cons_of_ne hne.symm, find?_append_cons_of_ne hne.symm]
  cases hbefore : find? f.key before with
  | some w =>
    -- an earlier entry hides both values
    refine read?_obj_congr fun g _ => ?_
    by_cases hg : g.key = f.key
    · rw [hg, find?_append, find?_append, hbefore]; rfl
    · exact hother _ hg
  | none =>
    have hs : ∀ w, w ≠ null → entrySlot? (before ++ (f.key, w) :: after) f = some (some w) :=
      fun w hw => by simp only [entrySlot?, find?_append_cons_self hbefore, slot?_of_ne_null _ hw]
    exact read?_obj_eq_of_set_eq hf hkeys hother (hs v hv) (hs v' hv')
      fun ss hss => h.set_eq hR hsame hss

/-- A field that is left out is read as a value that goes with the same records as nothing, and as
a record that goes with nothing. -/
theorem read?_obj_omit (h : r.ReadBy readings) (hkeys : (r.fields.map (·.key)).Nodup)
    {f : FieldShape} (hf : r.fields[i]? = some f) (hR : readings[i]? = some R)
    (habsent : f.presence.absentKey = true) {v : Json} (hslot : f.presence.slot? v = some s)
    (hsame : ∀ a, R none a ↔ R s a) {before after : List (String × Json)}
    (hkey : f.key ∉ (before ++ after).map Prod.fst) :
    r.read? (obj (before ++ after)) = r.read? (obj (before ++ (f.key, v) :: after)) ∧
      ∀ a ∈ r.read? (obj (before ++ after)), R none a := by
  have hnone : entrySlot? (before ++ after) f = some none := by
    simp only [entrySlot?, find?_eq_none hkey, habsent, if_true]
  have hsome : entrySlot? (before ++ (f.key, v) :: after) f = some s := by
    have hbefore : find? f.key before = none := find?_eq_none fun h => hkey (by simp [h])
    simpa only [entrySlot?, find?_append_cons_self hbefore] using hslot
  constructor
  · exact read?_obj_eq_of_set_eq hf hkeys
      (fun key hne => (find?_append_cons_of_ne (Ne.symm hne)).symm) hnone hsome
      fun ss hss => h.set_eq hR hsame hss
  · intro a ha
    rw [Option.mem_def, read?_obj_eq_set hf hkeys (fun _ _ => rfl) hnone hnone,
      Option.bind_eq_some_iff] at ha
    obtain ⟨ss, hss, ha⟩ := ha
    exact h.of_set hR (length_of_mapM_entrySlot? hss) ha

end Record.ReadBy
end Readings

/-! ### Declarations -/

/-- What stands for a field that an object leaves out: the value that means the same, and what is
then true of the record. -/
structure Omission (α : Type) where
  json : Json
  Holds : α → Prop

/-- A field as a record type declares it. -/
structure Declaration (α : Type) extends FieldShape where
  omission : Option (Omission α)

namespace Declaration

variable {α β : Type} {key : String}

/-- A field that must be there. -/
def must (key : String) : Declaration α := ⟨⟨key, .required⟩, none⟩

/-- A field with a default, given as a value and as what the record then has there. -/
def withDefault (key : String) (json : Json) (get : α → β) (default : β) : Declaration α :=
  ⟨⟨key, .defaulted⟩, some ⟨json, fun a => get a = default⟩⟩

/-- A truth value that is false by default. -/
def flag (key : String) (get : α → Bool) : Declaration α := withDefault key (.bool false) get false

/-- A list that is empty by default. -/
def list (key : String) (get : α → List β) : Declaration α := withDefault key (.arr []) get []

/-- A field that holds none where nothing is given. -/
def orNone (p : Presence) (key : String) (get : α → Option β) : Declaration α :=
  ⟨⟨key, p⟩, some ⟨.null, fun a => get a = none⟩⟩

/-- An optional field that is none by default. -/
def optional (key : String) (get : α → Option β) : Declaration α := orNone .optional key get

/-- An optional field without default, which is still none in an object that leaves it out. -/
def nullable (key : String) (get : α → Option β) : Declaration α := orNone .nullable key get

/-- Whether a field is read as it is declared: where it may be left out, the value that stands for
it goes with the same records as nothing, and these are as said. -/
def Fits (d : Declaration α) (R : Reading α) : Prop :=
  d.presence.absentKey = true → ∃ o ∈ d.omission, ∃ s, d.presence.slot? o.json = some s ∧
    ∀ a, (R none a ↔ R s a) ∧ (R none a → o.Holds a)

theorem fits_must (R : Reading α) : (must key).Fits R := nofun

theorem fits_withDefault {json : Json} {read : Json → Option β} {default : β} (get : α → β)
    (hslot : Presence.defaulted.slot? json = some (some json)) (hread : read json = some default) :
    (withDefault key json get default).Fits (reads (orElse default read) get) :=
  fun _ => ⟨_, rfl, _, hslot, fun a => by simp [reads, hread, eq_comm]⟩

theorem fits_flag (get : α → Bool) : (flag key get).Fits (reads (orElse false bool?) get) :=
  fits_withDefault get rfl rfl

theorem fits_list (read : Json → Option β) (get : α → List β) :
    (list key get).Fits (reads (orElse [] (list? read)) get) :=
  fits_withDefault get rfl rfl

theorem fits_orNone {p : Presence} (hp : p.allowsNull = true) (read : Json → Option β)
    (get : α → Option β) : (orNone p key get).Fits (reads (maybe read) get) :=
  fun _ => ⟨_, rfl, none, if_pos hp, fun a => by simp [reads, eq_comm]⟩

end Declaration

/-! ### The laws -/

/-- The laws of the spellings of a record, for a reading of it, the fields that are declared and how
each of them is read. -/
structure Spelled {α : Type} (read? : Json → Option α) (declared : List (Declaration α))
    (readings : List (Reading α)) : Prop where
  /-- An object is read as the record that goes with the slots of all fields, each from the value
  under its own key. -/
  obj_iff : ∀ (entries : List (String × Json)) (a : α), read? (obj entries) = some a ↔
    List.Forall₂ (fun d R => ∃ s, entrySlot? entries d.toFieldShape = some s ∧ R s a)
      declared readings
  /-- An array is read as the object of its leading fields, if all that it leaves out have a
  default. -/
  arr_eq_obj : ∀ items : List Json, items.length ≤ declared.length →
    (∀ d ∈ declared.drop items.length, d.presence.absentItem = true) →
      read? (arr items) = read? (obj ((declared.map (·.key)).zip items))
  /-- The keys may stand in any order. -/
  perm : ∀ entries entries' : List (String × Json), (entries.map Prod.fst).Nodup →
    entries.Perm entries' → read? (obj entries) = read? (obj entries')
  /-- A key that is not declared is ignored, whatever is under it. -/
  foreign : ∀ (before after : List (String × Json)) (key : String) (v : Json),
    key ∉ declared.map (·.key) →
      read? (obj (before ++ (key, v) :: after)) = read? (obj (before ++ after))
  /-- A field that is left out is read as the value that stands for it, and is as declared. -/
  omitted : ∀ d ∈ declared, d.presence.absentKey = true → ∃ o ∈ d.omission,
    ∀ before after : List (String × Json), d.key ∉ (before ++ after).map Prod.fst →
      read? (obj (before ++ after)) = read? (obj (before ++ (d.key, o.json) :: after)) ∧
        ∀ a ∈ read? (obj (before ++ after)), o.Holds a
  /-- A field that is not optional refuses `null` in an object. -/
  null_entry : ∀ d ∈ declared, d.presence.allowsNull = false →
    ∀ entries : List (String × Json), find? d.key entries = some null → read? (obj entries) = none
  /-- A field that is not optional refuses `null` in an array. -/
  null_item : ∀ (i : Nat) (d : Declaration α), declared[i]? = some d →
    d.presence.allowsNull = false →
      ∀ items : List Json, items[i]? = some null → read? (arr items) = none
  /-- An array with more items than there are fields is refused. -/
  overlong : ∀ items : List Json, declared.length < items.length → read? (arr items) = none

/-- A record type has the laws of spelling for its declarations, if these are its fields, with
different keys, and each field is read as it is declared. -/
theorem Record.spelled {α : Type} {r : Record α} {declared : List (Declaration α)}
    {readings : List (Reading α)} (hfields : r.fields = declared.map (·.toFieldShape))
    (hkeys : (r.fields.map (·.key)).Nodup) (hread : r.ReadBy readings)
    (hfits : List.Forall₂ Declaration.Fits declared readings) :
    Spelled r.read? declared readings where
  obj_iff entries a := by
    rw [hread.read?_obj_eq_some_iff, hfields, List.forall₂_map_left_iff]
  arr_eq_obj items hlength hrest := by
    have hmap : r.fields.map (·.key) = declared.map (·.key) := by rw [hfields, List.map_map]; rfl
    rw [← hmap]
    exact read?_arr_eq_obj hkeys (by simpa [hfields] using hlength)
      (by simpa [hfields, ← List.map_drop] using hrest)
  perm entries entries' hnodup h := read?_obj_congr fun g _ => find?_eq_of_perm g.key h hnodup
  foreign before after key v h :=
    read?_obj_congr fun g hg => find?_append_cons_of_ne fun heq => h (by
      rw [hfields] at hg
      obtain ⟨d, hd, rfl⟩ := List.mem_map.1 hg
      exact List.mem_map.2 ⟨d, hd, heq.symm⟩)
  omitted d hd habsent := by
    obtain ⟨i, hi, rfl⟩ := List.mem_iff_getElem.1 hd
    have hf : r.fields[i]? = some declared[i].toFieldShape := by
      rw [hfields, List.getElem?_map, List.getElem?_eq_getElem hi]
      rfl
    have hi' : i < readings.length := hfits.length_eq ▸ hi
    have hR : readings[i]? = some readings[i] := List.getElem?_eq_getElem hi'
    have hdR : declared[i].Fits readings[i] := hfits.get hi hi'
    obtain ⟨o, ho, s, hslot, hs⟩ := hdR habsent
    refine ⟨o, ho, fun before after hkey => ?_⟩
    obtain ⟨hsame, hholds⟩ :=
      hread.read?_obj_omit hkeys hf hR habsent hslot (fun a => (hs a).1) hkey
    exact ⟨hsame, fun a ha => (hs a).2 (hholds a ha)⟩
  null_entry d hd hnull entries h := by
    have hmem : d.toFieldShape ∈ r.fields := hfields ▸ List.mem_map_of_mem hd
    have hs : entrySlot? entries d.toFieldShape = none := by
      simp only [entrySlot?, h, slot?_null hnull]
    simp only [read?, slots?, mapM_entrySlot?_eq_none hmem hs, Option.bind_none]
  null_item i d hd hnull items h := by
    have hf : r.fields[i]? = some d.toFieldShape := by simp [hfields, hd]
    simp only [read?, slots?, itemSlots?_eq_none_of_null hf hnull h, Option.bind_none]
  overlong items h := by
    have hlt : r.fields.length < items.length := by simpa [hfields] using h
    simp only [read?, slots?, itemSlots?_eq_none_of_lt hlt, Option.bind_none]

end Redaction.Json
