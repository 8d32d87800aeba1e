import Mathlib.Data.List.Nodup
import Mathlib.Data.List.Perm.Subperm
import Redaction.AliasTable

/-!
# Alias tables stay consistent

A table has every alias twice, under its path and under its name. The two dictionaries agree after
any number of imports, since an import is bound only if neither its path nor its alias is in use.

* `contains_freeNumber`: the search for a number behind a taken name ends at a free one.
* `Binds t i name` is what the checks settle of an import `i` that gets the alias `name`, and
  `add_cases` says that an import does nothing or binds one alias.
* `Extends t u`: nothing of `t` is changed in `u`. Every import extends the table (`extends_add`).
* `Consistent selfPath runtimePath t` is the invariant. The first table has it (`consistent_start`)
  and every import keeps it (`Consistent.add`).
-/

namespace Redaction

namespace Dictionary

/-- The keys that are found are those of the entries. -/
theorem isSome_find?_iff {key : String} {l : List (String × String)} :
    (find? key l).isSome = true ↔ key ∈ l.map Prod.fst := by
  induction l with
  | nil => simp [find?]
  | cons e rest ih =>
    obtain ⟨k, v⟩ := e
    unfold find?
    by_cases hk : k = key
    · simp [hk]
    · rw [if_neg hk, ih]
      simp [Ne.symm hk]

theorem contains_iff_mem_keys (d : Dictionary) (key : String) :
    d.contains key = true ↔ key ∈ d.keys := isSome_find?_iff

theorem contains_eq_true_iff (d : Dictionary) (key : String) :
    d.contains key = true ↔ d.get? key ≠ none := Option.isSome_iff_ne_none

theorem contains_eq_false_iff (d : Dictionary) (key : String) :
    d.contains key = false ↔ d.get? key = none :=
  Option.isSome_eq_false_iff.trans Option.isNone_iff_eq_none

/-- A dictionary has no fewer entries than different keys are found in it. -/
theorem length_le_size {d : Dictionary} {keys : List String} (hnodup : keys.Nodup)
    (h : ∀ key ∈ keys, d.contains key = true) : keys.length ≤ d.size := by
  have hsubset : keys ⊆ d.keys := fun key hkey => (d.contains_iff_mem_keys key).1 (h key hkey)
  simpa [Dictionary.keys, size] using (List.Nodup.subperm hnodup hsubset).length_le

end Dictionary

theorem pathFault?_eq_none_iff (path : String) :
    pathFault? path = none ↔ path ≠ "" ∧ path.utf8ByteSize ≤ maxPathSize := by
  unfold pathFault?
  split
  · simp [*]
  · split
    · simp [*]
    · simp [*] at *; omega

namespace AliasTable

variable {t : AliasTable} {i : Import} {name path : String}

/-! ### Free numbers -/

theorem numbered_injective (name : String) : Function.Injective (numbered name) := by
  intro m n h
  have hdigits : Nat.toDigits 10 m = Nat.toDigits 10 n := by
    have hrepr : m.repr = n.repr := (String.append_right_inj name).1 h
    rw [Nat.repr_eq_ofList_toDigits, Nat.repr_eq_ofList_toDigits] at hrepr
    exact String.ofList_injective hrepr
  have hvalue := congrArg (fun ds => Nat.ofDigitChars 10 ds 0) hdigits
  simpa using hvalue

/-- The search passes over taken numbers only. -/
theorem contains_of_lt_freeNumber {fuel n k : Nat} (hn : n ≤ k)
    (hk : k < t.freeNumber name fuel n) : t.paths.contains (numbered name k) = true := by
  induction fuel generalizing n with
  | zero => exact absurd hk (Nat.not_lt.2 hn)
  | succ fuel ih =>
    unfold freeNumber at hk
    split at hk
    · next htaken =>
      rcases Nat.eq_or_lt_of_le hn with rfl | hlt
      · exact htaken
      · exact ih hlt hk
    · exact absurd hk (Nat.not_lt.2 hn)

/-- The search stops before its fuel is spent only at a free number. -/
theorem freeNumber_eq_of_contains {fuel n : Nat}
    (h : t.paths.contains (numbered name (t.freeNumber name fuel n)) = true) :
    t.freeNumber name fuel n = n + fuel := by
  induction fuel generalizing n with
  | zero => rfl
  | succ fuel ih =>
    unfold freeNumber at h ⊢
    split at h
    · next htaken =>
      rw [if_pos htaken, ih h]
      omega
    · next hfree => exact absurd h hfree

/-- No more numbers in a row are taken than the table has aliases. -/
theorem le_size_of_contains (name : String) (n : Nat) {m : Nat}
    (h : ∀ k, n ≤ k → k < n + m → t.paths.contains (numbered name k) = true) :
    m ≤ t.paths.size := by
  have hnodup : ((List.range' n m).map (numbered name)).Nodup :=
    List.Nodup.map (numbered_injective name) List.nodup_range'
  have hsize : ((List.range' n m).map (numbered name)).length ≤ t.paths.size := by
    refine Dictionary.length_le_size hnodup fun x hx => ?_
    obtain ⟨k, hk, rfl⟩ := List.mem_map.1 hx
    obtain ⟨hle, hlt⟩ := List.mem_range'_1.1 hk
    exact h k hle hlt
  simpa using hsize

/-- The search with as much fuel as there are aliases ends at a free number. -/
theorem contains_freeNumber (t : AliasTable) (name : String) :
    t.paths.contains (numbered name (t.freeNumber name t.paths.size 1)) = false := by
  cases h : t.paths.contains (numbered name (t.freeNumber name t.paths.size 1)) with
  | false => rfl
  | true =>
    -- otherwise one more number than there are aliases would be taken
    have hend := freeNumber_eq_of_contains h
    have hsize : t.paths.size + 1 ≤ t.paths.size := by
      refine le_size_of_contains name 1 fun k hk hlt => ?_
      rcases Nat.lt_or_ge k (1 + t.paths.size) with hbelow | hat
      · exact contains_of_lt_freeNumber hk (hend ▸ hbelow)
      · rw [show k = t.freeNumber name t.paths.size 1 by omega]
        exact h
    omega

/-! ### One import -/

/-- The checks let an import have an alias. -/
structure Binds (t : AliasTable) (i : Import) (name : String) : Prop where
  path_ne_empty : i.importPath ≠ ""
  size_le : i.importPath.utf8ByteSize ≤ maxPathSize
  path_ne_self : i.importPath ≠ t.selfPath
  aliasOf?_eq_none : t.aliasOf? i.importPath = none
  get?_eq_none : t.paths.get? name = none

theorem binds_of_assess {symbol : TypeName} {taken : Bool}
    (h : t.assess i = .bound name symbol taken) : t.Binds i name := by
  unfold assess at h
  split at h
  · cases h
  next hpath =>
  obtain ⟨hne, hsize⟩ := (pathFault?_eq_none_iff _).1 hpath
  split at h
  · cases h
  next hknown =>
  obtain ⟨hself, halias⟩ := not_or.1 hknown
  have hunbound : t.aliasOf? i.importPath = none :=
    (Dictionary.contains_eq_false_iff _ _).1 (Bool.eq_false_iff.2 halias)
  have key : ∀ a, t.paths.contains a = false → t.Binds i a := fun a ha =>
    ⟨hne, hsize, hself, hunbound, (Dictionary.contains_eq_false_iff _ _).1 ha⟩
  split at h
  · cases h
  split at h
  · cases h
  split at h
  · cases h
    exact key _ (t.contains_freeNumber i.packageName)
  · next hfree =>
    cases h
    exact key _ (Bool.eq_false_iff.2 hfree)

/-- An import does nothing, or it binds one alias and refers to it. -/
theorem add_cases (t : AliasTable) (i : Import) :
    t.add i = t ∨ ∃ (name : String) (symbol : TypeName), t.Binds i name ∧ t.add i =
      { t.bind name i.importPath with
        references := t.references ++ [name ++ "." ++ symbol.name] } := by
  unfold add
  cases h : t.assess i with
  | refused r => exact .inl rfl
  | bound name symbol taken => exact .inr ⟨name, symbol, binds_of_assess h, rfl⟩

theorem aliasOf?_bind (t : AliasTable) (name path p : String) :
    (t.bind name path).aliasOf? p = if path = p then some name else t.aliasOf? p :=
  t.aliases.get?_insert path name p

theorem get?_paths_bind (t : AliasTable) (name path a : String) :
    (t.bind name path).paths.get? a = if name = a then some path else t.paths.get? a :=
  t.paths.get?_insert name path a

/-! ### Extension -/

/-- One table has all that another one has. -/
structure Extends (t u : AliasTable) : Prop where
  selfPath_eq : u.selfPath = t.selfPath
  aliasOf?_eq : ∀ p a, t.aliasOf? p = some a → u.aliasOf? p = some a
  get?_paths_eq : ∀ a p, t.paths.get? a = some p → u.paths.get? a = some p
  references_extended : t.references <+: u.references

/-- Every import leaves what is there as it is. -/
theorem extends_add (t : AliasTable) (i : Import) : t.Extends (t.add i) := by
  rcases t.add_cases i with heq | ⟨name, symbol, hbinds, heq⟩
  · rw [heq]
    exact ⟨rfl, fun _ _ h => h, fun _ _ h => h, List.prefix_rfl⟩
  · rw [heq]
    refine ⟨rfl, fun p a h => ?_, fun a p h => ?_, List.prefix_append _ _⟩
    · have hne : i.importPath ≠ p := by
        rintro rfl
        cases hbinds.aliasOf?_eq_none.symm.trans h
      exact (aliasOf?_bind t name _ p).trans ((if_neg hne).trans h)
    · have hne : name ≠ a := by
        rintro rfl
        cases hbinds.get?_eq_none.symm.trans h
      exact (get?_paths_bind t name _ a).trans ((if_neg hne).trans h)

/-! ### Consistency -/

/-- The names of the aliases that every table has. -/
def ownNames : List String := runtimeName :: commonImports.map Prod.fst

/-- The two dictionaries of a table agree. If the runtime has the path of a common import, that path
has two aliases, of which the runtime's counts. -/
structure Consistent (selfPath runtimePath : String) (t : AliasTable) : Prop where
  selfPath_eq : t.selfPath = selfPath
  path_of_alias : ∀ p a, t.aliasOf? p = some a → t.paths.get? a = some p
  alias_of_path : ∀ a p, t.paths.get? a = some p →
    t.aliasOf? p = some a ∨ (a, p) ∈ commonImports ∧ p = runtimePath
  runtime : t.aliasOf? runtimePath = some runtimeName
  common : ∀ i ∈ commonImports, t.paths.get? i.1 = some i.2
  imported : ∀ a p, t.paths.get? a = some p → a ∉ ownNames →
    p ≠ selfPath ∧ p ≠ "" ∧ p.utf8ByteSize ≤ maxPathSize

theorem name_ne_runtimeName {a p : String} (h : (a, p) ∈ commonImports) : a ≠ runtimeName := by
  have hall : ∀ i ∈ commonImports, i.1 ≠ runtimeName := by decide
  exact hall _ h

/-- No two common imports have the same path. -/
theorem name_eq_of_common {a b p : String} (ha : (a, p) ∈ commonImports)
    (hb : (b, p) ∈ commonImports) : a = b := by
  have hall : ∀ i ∈ commonImports, ∀ j ∈ commonImports, i.2 = j.2 → i.1 = j.1 := by decide
  exact hall _ ha _ hb rfl

section Start

variable (selfPath runtimePath : String)

theorem aliasOf?_start_iff (p a : String) :
    (start selfPath runtimePath).aliasOf? p = some a ↔
      if runtimePath = p then a = runtimeName else (a, p) ∈ commonImports := by
  simp only [start, commonImports, List.foldl, aliasOf?_bind]
  split
  · simp [eq_comm]
  · have hbare : AliasTable.aliasOf? ⟨selfPath, .empty, .empty, commonReferences⟩ p = none := rfl
    rw [hbare]
    grind

theorem get?_paths_start_iff (a p : String) :
    (start selfPath runtimePath).paths.get? a = some p ↔
      if runtimeName = a then p = runtimePath else (a, p) ∈ commonImports := by
  simp only [start, commonImports, List.foldl, get?_paths_bind]
  split
  · simp [eq_comm]
  · rw [Dictionary.get?_empty]
    grind

theorem consistent_start : (start selfPath runtimePath).Consistent selfPath runtimePath where
  selfPath_eq := rfl
  path_of_alias p a h := by
    rw [aliasOf?_start_iff] at h
    rw [get?_paths_start_iff]
    split at h
    · next hp =>
      rw [if_pos h.symm]
      exact hp.symm
    · rwa [if_neg (name_ne_runtimeName h).symm]
  alias_of_path a p h := by
    rw [get?_paths_start_iff] at h
    rw [aliasOf?_start_iff]
    split at h
    · next ha =>
      rw [if_pos h.symm]
      exact .inl ha.symm
    · by_cases hp : runtimePath = p
      · exact .inr ⟨h, hp.symm⟩
      · rw [if_neg hp]
        exact .inl h
  runtime := by rw [aliasOf?_start_iff, if_pos rfl]
  common i hi := by
    rw [get?_paths_start_iff, if_neg (name_ne_runtimeName hi).symm]
    exact hi
  imported a p h hown := by
    rw [get?_paths_start_iff] at h
    split at h
    · next ha => exact absurd (ha ▸ List.mem_cons_self) hown
    · exact absurd (List.mem_cons_of_mem _ (List.mem_map_of_mem h)) hown

end Start

section Run

variable {selfPath runtimePath : String}

/-- An alias may be bound to a path if neither is in use. -/
theorem Consistent.bind (h : t.Consistent selfPath runtimePath) (hbinds : t.Binds i name) :
    (t.bind name i.importPath).Consistent selfPath runtimePath where
  selfPath_eq := h.selfPath_eq
  path_of_alias p a ha := by
    rw [aliasOf?_bind] at ha
    rw [get?_paths_bind]
    split at ha
    · next hp =>
      cases ha
      rw [if_pos rfl, hp]
    · have hold := h.path_of_alias p a ha
      have hne : name ≠ a := by
        rintro rfl
        cases hbinds.get?_eq_none.symm.trans hold
      rwa [if_neg hne]
  alias_of_path a p hp := by
    rw [get?_paths_bind] at hp
    rw [aliasOf?_bind]
    split at hp
    · next ha =>
      cases hp
      rw [if_pos rfl, ha]
      exact .inl rfl
    · rcases h.alias_of_path a p hp with hold | hcommon
      · have hne : i.importPath ≠ p := by
          rintro rfl
          cases hbinds.aliasOf?_eq_none.symm.trans hold
        rw [if_neg hne]
        exact .inl hold
      · exact .inr hcommon
  runtime := by
    have hne : i.importPath ≠ runtimePath := by
      rintro rfl
      cases hbinds.aliasOf?_eq_none.symm.trans h.runtime
    rw [aliasOf?_bind, if_neg hne]
    exact h.runtime
  common j hj := by
    have hne : name ≠ j.1 := by
      rintro rfl
      cases hbinds.get?_eq_none.symm.trans (h.common j hj)
    rw [get?_paths_bind, if_neg hne]
    exact h.common j hj
  imported a p hp hown := by
    rw [get?_paths_bind] at hp
    split at hp
    · cases hp
      exact ⟨h.selfPath_eq ▸ hbinds.path_ne_self, hbinds.path_ne_empty, hbinds.size_le⟩
    · exact h.imported a p hp hown

/-- Every import keeps a table consistent. -/
theorem Consistent.add (h : t.Consistent selfPath runtimePath) (i : Import) :
    (t.add i).Consistent selfPath runtimePath := by
  rcases t.add_cases i with heq | ⟨name, symbol, hbinds, heq⟩
  · rwa [heq]
  · rw [heq]
    -- consistency is about the two dictionaries and not about the references
    obtain ⟨hself, hpath, halias, hruntime, hcommon, himported⟩ := h.bind hbinds
    exact ⟨hself, hpath, halias, hruntime, hcommon, himported⟩

theorem Reachable.consistent (h : Reachable selfPath runtimePath t) :
    t.Consistent selfPath runtimePath := by
  induction h with
  | start => exact consistent_start selfPath runtimePath
  | add i _ ih => exact ih.add i

/-- The table under which a file is planned is one of those that it can reach. -/
theorem consistent_ofFile (runtimePath : String) (f : SourceFile) :
    (ofFile runtimePath f).Consistent f.importPath runtimePath :=
  (Reachable.ofFile runtimePath f).consistent

/-- **The two dictionaries of a table agree after any number of imports.** The alias of a path has
that path, and so no two paths share an alias. An alias with a path is the alias of that path, but
for the common import whose path the runtime has taken, if there is one. What every file imports
stays where it is, no other alias has the file's own path, an empty or an overlong one, and nothing
that is there changes with a further import. -/
theorem aliases_agree (h : Reachable selfPath runtimePath t) :
    (∀ p a, t.aliasOf? p = some a → t.paths.get? a = some p) ∧
      (∀ p q a, t.aliasOf? p = some a → t.aliasOf? q = some a → p = q) ∧
      (runtimePath ∉ commonImports.map Prod.snd →
        ∀ a p, t.paths.get? a = some p → t.aliasOf? p = some a) ∧
      (∀ common, (common, runtimePath) ∈ commonImports →
        ∀ a p, t.paths.get? a = some p → (t.aliasOf? p ≠ some a ↔ a = common)) ∧
      (∀ i ∈ (runtimeName, runtimePath) :: commonImports, t.paths.get? i.1 = some i.2) ∧
      (∀ a p, t.paths.get? a = some p → a ∉ runtimeName :: commonImports.map Prod.fst →
        p ≠ selfPath ∧ p ≠ "" ∧ p.utf8ByteSize ≤ 1000) ∧
      ∀ i, t.Extends (t.add i) := by
  have hc := h.consistent
  refine ⟨hc.path_of_alias, fun p q a hp hq => ?_, fun hruntime a p hp => ?_,
    fun common hcommon a p hp => ⟨fun hne => ?_, ?_⟩, fun i hi => ?_, hc.imported, t.extends_add⟩
  · exact Option.some.inj ((hc.path_of_alias p a hp).symm.trans (hc.path_of_alias q a hq))
  · rcases hc.alias_of_path a p hp with halias | ⟨hmem, rfl⟩
    · exact halias
    · exact absurd (List.mem_map_of_mem hmem) hruntime
  · obtain ⟨hmem, rfl⟩ := (hc.alias_of_path a p hp).resolve_left hne
    exact name_eq_of_common hmem hcommon
  · rintro rfl halias
    have hpath : p = runtimePath := Option.some.inj (hp.symm.trans (hc.common _ hcommon))
    rw [hpath, hc.runtime] at halias
    exact name_ne_runtimeName hcommon (Option.some.inj halias).symm
  · rcases List.mem_cons.1 hi with rfl | hi
    · exact hc.path_of_alias _ _ hc.runtime
    · exact hc.common i hi

end Run

/-- A table whose runtime has the path of a common import, behind an import with a taken name. -/
def withSharedPath : AliasTable :=
  (start "example.com/acme" "context").add
    ⟨"example.com/status", "status", some (.ofNames "Status" "status.Status")⟩

/-- The path that is shared has the alias of the runtime, and the taken name got a number. -/
theorem agree_withSharedPath :
    Reachable "example.com/acme" "context" withSharedPath ∧
      withSharedPath.paths.get? "status1" = some "example.com/status" ∧
      withSharedPath.aliasOf? "example.com/status" = some "status1" ∧
      withSharedPath.paths.get? "context" = some "context" ∧
      withSharedPath.aliasOf? "context" ≠ some "context" := by
  have hreach : Reachable "example.com/acme" "context" withSharedPath := .add _ .start
  obtain ⟨hpath, -, -, hshared, hown, -, -⟩ := aliases_agree hreach
  have halias : withSharedPath.aliasOf? "example.com/status" = some "status1" := by decide +kernel
  have hcontext : withSharedPath.paths.get? "context" = some "context" :=
    hown ("context", "context") (by decide)
  exact ⟨hreach, hpath _ _ halias, halias, hcontext,
    (hshared "context" (by decide) "context" "context" hcontext).2 rfl⟩

end AliasTable
end Redaction
