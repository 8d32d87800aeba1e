import Redaction.Proofs.AliasTable

/-!
# Which paths get an alias

A path has an alias in the table of a file exactly if every file imports it or one of the imports of
the file has the path and can be bound. In which order the imports come, and what other imports of
the same path there are, counts for nothing; only the names that the paths get depend on it.

* `Import.Eligible selfPath i`: the import can be bound in a file at `selfPath`, as far as it is up
  to the import. An import is refused exactly if it is not eligible or its path has an alias
  (`exists_refused_iff`).
* `isSome_aliasOf?_add` is the step and `isSome_aliasOf?_foldl` the run over several imports.
* `Grown t u paths`: the table `u` has an alias more than `t` for each of the paths, and no other.
* `aliased_iff_eligible` is the main statement.
-/

namespace Redaction

namespace Dictionary

variable {key value : String}

/-- The values in the order of their keys. -/
def values (d : Dictionary) : List String := d.entries.map Prod.snd

theorem nodup_keys (d : Dictionary) : d.keys.Nodup := by
  refine List.pairwise_map.2 (d.sorted.imp fun {a b} hlt heq => ?_)
  rw [heq] at hlt
  exact String.lt_irrefl _ hlt

theorem place_perm {l : List (String × String)} (h : find? key l = none) :
    (place key value l).Perm ((key, value) :: l) := by
  induction l with
  | nil => exact .refl _
  | cons e rest ih =>
    obtain ⟨k, v⟩ := e
    unfold find? at h
    unfold place
    split at h
    · cases h
    next hk =>
      split
      · exact .refl _
      · rw [if_neg (Ne.symm hk)]
        exact ((ih h).cons _).trans (.swap _ _ _)

/-- A value under a new key is one entry more. -/
theorem entries_insert_perm {d : Dictionary} (h : d.get? key = none) :
    (d.insert key value).entries.Perm ((key, value) :: d.entries) := place_perm h

end Dictionary

/-- An import that can be bound in a file at `selfPath`: it has a path of a permitted size that is
not the file's own, a symbol to refer to, and a package name that is not empty and starts with no
digit. -/
structure Import.Eligible (selfPath : String) (i : Import) : Prop where
  path_not_empty : 1 ≤ i.importPath.utf8ByteSize
  path_size_le : i.importPath.utf8ByteSize ≤ 1000
  path_ne_self : i.importPath ≠ selfPath
  has_symbol : ∃ symbol, i.firstSymbol = some symbol
  package_name : ∃ c rest, i.packageName.toList = c :: rest ∧ ¬('0' ≤ c ∧ c ≤ '9')

theorem pathFault?_eq_none_iff_size (path : String) :
    pathFault? path = none ↔ 1 ≤ path.utf8ByteSize ∧ path.utf8ByteSize ≤ 1000 := by
  rw [pathFault?_eq_none_iff, ← String.utf8ByteSize_eq_zero_iff.ne, ← Nat.one_le_iff_ne_zero]
  rfl

theorem packageFault?_eq_none_iff (name : String) :
    packageFault? name = none ↔
      ∃ c rest, name.toList = c :: rest ∧ ¬('0' ≤ c ∧ c ≤ '9') := by
  unfold packageFault?
  cases name.toList with
  | nil => simp
  | cons c rest => simp [Char.isDigit, Char.le_def]

namespace AliasTable

variable {t u : AliasTable} {i : Import} {path : String}

/-! ### One import -/

/-- An import is refused exactly if it is not eligible or its path has an alias already. -/
theorem exists_refused_iff (t : AliasTable) (i : Import) :
    (∃ r, t.assess i = .refused r) ↔ ¬(i.Eligible t.selfPath ∧ t.aliasOf? i.importPath = none) := by
  unfold assess
  split
  next hpath =>
    refine iff_of_true ⟨_, rfl⟩ fun ⟨h, _⟩ => ?_
    cases hpath.symm.trans ((pathFault?_eq_none_iff_size _).2 ⟨h.path_not_empty, h.path_size_le⟩)
  next hpath =>
  obtain ⟨hne, hsize⟩ := (pathFault?_eq_none_iff_size _).1 hpath
  split
  next hknown =>
    refine iff_of_true ⟨_, rfl⟩ fun ⟨h, hnone⟩ => ?_
    rcases hknown with hself | hknown
    · exact h.path_ne_self hself
    · rw [(Dictionary.contains_eq_false_iff _ _).2 hnone] at hknown
      cases hknown
  next hknown =>
  obtain ⟨hself, halias⟩ := not_or.1 hknown
  have hnone : t.aliasOf? i.importPath = none :=
    (Dictionary.contains_eq_false_iff _ _).1 (Bool.eq_false_iff.2 halias)
  split
  next hsymbol =>
    refine iff_of_true ⟨_, rfl⟩ fun ⟨h, _⟩ => ?_
    obtain ⟨symbol, hsome⟩ := h.has_symbol
    cases hsymbol.symm.trans hsome
  next symbol hsymbol =>
  split
  next hpackage =>
    refine iff_of_true ⟨_, rfl⟩ fun ⟨h, _⟩ => ?_
    cases hpackage.symm.trans ((packageFault?_eq_none_iff _).2 h.package_name)
  next hpackage =>
    have h : i.Eligible t.selfPath :=
      ⟨hne, hsize, hself, ⟨symbol, hsymbol⟩, (packageFault?_eq_none_iff _).1 hpackage⟩
    refine iff_of_false ?_ (not_not_intro ⟨h, hnone⟩)
    split <;> rintro ⟨r, ⟨⟩⟩

/-- An import gives its path an alias if it is eligible, and takes none away. -/
theorem isSome_aliasOf?_add (t : AliasTable) (i : Import) (p : String) :
    ((t.add i).aliasOf? p).isSome = true ↔
      (t.aliasOf? p).isSome = true ∨ i.importPath = p ∧ i.Eligible t.selfPath := by
  have hrefused := t.exists_refused_iff i
  cases h : t.assess i with
  | refused r =>
    rw [add_of_refused h]
    refine ⟨.inl, fun hp => hp.elim id ?_⟩
    -- an eligible import is refused only for a path that has an alias
    rintro ⟨rfl, heligible⟩
    rw [Option.isSome_iff_ne_none]
    exact fun hnone => hrefused.1 ⟨r, h⟩ ⟨heligible, hnone⟩
  | bound name symbol taken =>
    have heligible : i.Eligible t.selfPath := by
      by_contra hnot
      obtain ⟨r, hr⟩ := hrefused.2 fun hboth => hnot hboth.1
      cases h.symm.trans hr
    have hadd : (t.add i).aliasOf? p = if i.importPath = p then some name else t.aliasOf? p := by
      rw [← aliasOf?_bind t name i.importPath p, add, h]
      rfl
    rw [hadd]
    by_cases hp : i.importPath = p
    · simp [hp, heligible]
    · simp [hp]

/-! ### Several imports -/

/-- The paths with an alias are those from before and those of the eligible imports. -/
theorem isSome_aliasOf?_foldl (imports : List Import) (t : AliasTable) (p : String) :
    ((imports.foldl add t).aliasOf? p).isSome = true ↔
      (t.aliasOf? p).isSome = true ∨
        ∃ i ∈ imports, i.importPath = p ∧ i.Eligible t.selfPath := by
  induction imports generalizing t with
  | nil => simp
  | cons i rest ih =>
    rw [List.foldl_cons, ih, isSome_aliasOf?_add, selfPath_add, List.exists_mem_cons_iff, or_assoc]

/-- A table has one alias more than another one for each of some paths, and refers to it. -/
structure Grown (t u : AliasTable) (paths : List String) : Prop where
  keys_perm : u.aliases.keys.Perm (paths ++ t.aliases.keys)
  values_perm : u.paths.values.Perm (paths ++ t.paths.values)
  references_length : u.references.length = paths.length + t.references.length

theorem grown_refl (t : AliasTable) : t.Grown t [] := ⟨.refl _, .refl _, (Nat.zero_add _).symm⟩

theorem Grown.trans {v : AliasTable} {ps qs : List String} (h : t.Grown u ps) (h' : u.Grown v qs) :
    t.Grown v (qs ++ ps) where
  keys_perm := by
    rw [List.append_assoc]
    exact h'.keys_perm.trans (h.keys_perm.append_left qs)
  values_perm := by
    rw [List.append_assoc]
    exact h'.values_perm.trans (h.values_perm.append_left qs)
  references_length := by
    rw [h'.references_length, h.references_length, List.length_append, Nat.add_assoc]

/-- An import adds no alias or one. -/
theorem exists_grown_add (t : AliasTable) (i : Import) : ∃ paths, t.Grown (t.add i) paths := by
  rcases t.add_cases i with heq | ⟨name, symbol, hbinds, heq⟩
  · exact ⟨[], heq.symm ▸ t.grown_refl⟩
  · refine ⟨[i.importPath], ?_⟩
    rw [heq]
    refine ⟨?_, ?_, ?_⟩
    · exact (Dictionary.entries_insert_perm hbinds.aliasOf?_eq_none).map Prod.fst
    · exact (Dictionary.entries_insert_perm hbinds.get?_eq_none).map Prod.snd
    · rw [List.length_append, Nat.add_comm]
      rfl

theorem exists_grown_foldl (imports : List Import) (t : AliasTable) :
    ∃ paths, t.Grown (imports.foldl add t) paths := by
  induction imports generalizing t with
  | nil => exact ⟨[], t.grown_refl⟩
  | cons i rest ih =>
    obtain ⟨ps, hadd⟩ := t.exists_grown_add i
    obtain ⟨qs, hrest⟩ := ih (t.add i)
    exact ⟨qs ++ ps, hadd.trans hrest⟩

/-- Two tables that have grown out of one and have aliases for the same paths have as many. -/
theorem Grown.perm {s : AliasTable} {ps qs : List String} (ht : s.Grown t ps) (hu : s.Grown u qs)
    (h : ∀ p, (t.aliasOf? p).isSome = (u.aliasOf? p).isSome) : ps.Perm qs := by
  have hkeys : t.aliases.keys.Perm u.aliases.keys := by
    refine (List.perm_ext_iff_of_nodup t.aliases.nodup_keys u.aliases.nodup_keys).2 fun p => ?_
    rw [← Dictionary.contains_iff_mem_keys, ← Dictionary.contains_iff_mem_keys]
    exact Eq.congr_left (h p)
  exact (List.perm_append_right_iff _).1 (ht.keys_perm.symm.trans (hkeys.trans hu.keys_perm))

/-! ### Files -/

theorem isSome_aliasOf?_start_iff (selfPath runtimePath p : String) :
    ((start selfPath runtimePath).aliasOf? p).isSome = true ↔
      p ∈ runtimePath :: commonImports.map Prod.snd := by
  simp only [Option.isSome_iff_exists, aliasOf?_start_iff, List.mem_cons, List.mem_map]
  by_cases hp : runtimePath = p
  · simp [hp]
  · simp [hp, Ne.symm hp]

/-- **The paths with an alias do not depend on the order of the imports.** In the table of a file, a
path has an alias exactly if it is one of those that every file imports or some eligible import of
the file has it, whatever the other imports are. If the imports come in another order, the same
paths have an alias, the same packages are imported, and as many symbols are referred to; only the
names of the aliases may be others. -/
theorem aliased_iff_eligible (runtimePath : String) (f : SourceFile) :
    let t := ofFile runtimePath f
    (∀ p, (t.aliasOf? p).isSome = true ↔
        p ∈ runtimePath :: commonImports.map Prod.snd ∨
          ∃ i ∈ f.imports, i.importPath = p ∧ i.Eligible f.importPath) ∧
      ∀ imports : List Import, imports.Perm f.imports →
        let u := ofFile runtimePath { f with imports := imports }
        (∀ p, (u.aliasOf? p).isSome = (t.aliasOf? p).isSome) ∧
          u.paths.values.Perm t.paths.values ∧ u.paths.size = t.paths.size ∧
          u.references.length = t.references.length := by
  intro t
  have haliased : ∀ (imports : List Import) (p : String),
      ((imports.foldl add (start f.importPath runtimePath)).aliasOf? p).isSome = true ↔
        p ∈ runtimePath :: commonImports.map Prod.snd ∨
          ∃ i ∈ imports, i.importPath = p ∧ i.Eligible f.importPath := by
    intro imports p
    rw [isSome_aliasOf?_foldl, isSome_aliasOf?_start_iff]
    rfl
  refine ⟨haliased f.imports, ?_⟩
  intro imports hperm u
  have hsame : ∀ p, (u.aliasOf? p).isSome = (t.aliasOf? p).isSome := by
    intro p
    rw [Bool.eq_iff_iff]
    refine (haliased imports p).trans (Iff.trans ?_ (haliased f.imports p).symm)
    simp only [hperm.mem_iff]
  obtain ⟨ps, ht⟩ := exists_grown_foldl f.imports (start f.importPath runtimePath)
  obtain ⟨qs, hu⟩ := exists_grown_foldl imports (start f.importPath runtimePath)
  have hpaths : qs.Perm ps := hu.perm ht hsame
  have hvalues : u.paths.values.Perm t.paths.values :=
    hu.values_perm.trans ((hpaths.append_right _).trans ht.values_perm.symm)
  refine ⟨hsame, hvalues, ?_, ?_⟩
  · simpa [Dictionary.values, Dictionary.size] using hvalues.length_eq
  · exact hu.references_length.trans (hpaths.length_eq ▸ ht.references_length.symm)

/-- A file with two packages of one name, of which one is imported without its name before. -/
def withTwins : SourceFile where
  name := "acme/twins.proto"
  package := "acme"
  importPath := "example.com/acme"
  imports :=
    [⟨"example.com/a/pb", "", some (.ofNames "A" "a.A")⟩,
      ⟨"example.com/a/pb", "pb", some (.ofNames "A" "a.A")⟩,
      ⟨"example.com/b/pb", "pb", some (.ofNames "B" "b.B")⟩]
  messages := []
  services := []
  skip := false

/-- In the opposite order the two packages change their aliases, and the same paths have one. -/
theorem aliased_withTwins :
    let t := ofFile "example.com/redact" withTwins
    let u := ofFile "example.com/redact" { withTwins with imports := withTwins.imports.reverse }
    withTwins.imports.reverse.Perm withTwins.imports ∧
      t.aliasOf? "example.com/a/pb" = some "pb" ∧ u.aliasOf? "example.com/a/pb" = some "pb1" ∧
      (∀ p, (u.aliasOf? p).isSome = (t.aliasOf? p).isSome) ∧
      u.paths.values.Perm t.paths.values ∧ u.paths.size = 7 ∧ u.references.length = 7 := by
  intro t u
  have hperm : withTwins.imports.reverse.Perm withTwins.imports := List.reverse_perm _
  obtain ⟨hsame, hvalues, hsize, hreferences⟩ :=
    (aliased_iff_eligible "example.com/redact" withTwins).2 _ hperm
  exact ⟨hperm, by decide +kernel, by decide +kernel, hsame, hvalues,
    hsize.trans (by decide +kernel), hreferences.trans (by decide +kernel)⟩

end AliasTable
end Redaction
