import Mathlib.Data.List.Forall2
import Redaction.Plan.File
import Redaction.Proofs.AliasedPaths

/-!
# Every import is referred to once

The references of a table are those that every file has, and behind them one for each import that
got an alias, in the order in which the imports were added. So each alias of the table is used by
exactly one reference, and no reference names an alias that is not there.

* `exists_symbol_of_added?` says what an import that gets an alias does to the table.
* `AliasTable.accepted t imports`: the imports of a row that get an alias, each with its alias.
* `references_foldl` and `keys_perm_foldl` follow the references and the aliases over the row.
* `references_match_imports` is the main statement.
-/

namespace Redaction

theorem Dictionary.size_eq_length_keys (d : Dictionary) : d.size = d.keys.length :=
  (List.length_map _).symm

namespace AliasTable

variable {t : AliasTable} {i : Import} {name : String}

/-! ### One import -/

theorem firstSymbol_of_assess {symbol : TypeName} {taken : Bool}
    (h : t.assess i = .bound name symbol taken) : i.firstSymbol = some symbol := by
  unfold assess at h
  split at h
  · cases h
  split at h
  · cases h
  split at h
  · cases h
  next hsymbol =>
  split at h
  · cases h
  split at h <;> cases h <;> exact hsymbol

/-- An import that gets no alias changes nothing. -/
theorem add_of_added?_eq_none (h : t.added? i = none) : t.add i = t := by
  obtain ⟨r, hr⟩ := (added?_eq_none_iff t i).1 h
  exact add_of_refused hr

/-- An import that gets an alias has a symbol, is bound to the alias and referred to by it. -/
theorem exists_symbol_of_added? (h : t.added? i = some name) :
    ∃ symbol, i.firstSymbol = some symbol ∧ t.Binds i name ∧ t.add i =
      { t.bind name i.importPath with
        references := t.references ++ [name ++ "." ++ symbol.name] } := by
  unfold added? at h
  unfold add
  cases hv : t.assess i with
  | refused r =>
    rw [hv] at h
    cases h
  | bound n symbol taken =>
    rw [hv] at h
    cases h
    exact ⟨symbol, firstSymbol_of_assess hv, binds_of_assess hv, rfl⟩

/-! ### Imports in a row -/

/-- The imports of a row that get an alias, each with its alias. -/
def accepted (t : AliasTable) : List Import → List (Import × String)
  | [] => []
  | i :: rest =>
    match t.added? i with
    | some name => (i, name) :: accepted (t.add i) rest
    | none => accepted (t.add i) rest

theorem accepted_cons_of_some (h : t.added? i = some name) (rest : List Import) :
    t.accepted (i :: rest) = (i, name) :: (t.add i).accepted rest := by
  simp [accepted, h]

theorem accepted_cons_of_none (h : t.added? i = none) (rest : List Import) :
    t.accepted (i :: rest) = (t.add i).accepted rest := by
  simp [accepted, h]

/-- A reference to the symbol of an import by the alias that the import got. -/
def RefersTo (entry : Import × String) (reference : String) : Prop :=
  ∃ symbol, entry.1.firstSymbol = some symbol ∧ reference = entry.2 ++ "." ++ symbol.name

/-- The references grow by one for each import that gets an alias. -/
theorem references_foldl (imports : List Import) (t : AliasTable) :
    ∃ own, (imports.foldl add t).references = t.references ++ own ∧
      List.Forall₂ RefersTo (t.accepted imports) own := by
  induction imports generalizing t with
  | nil => exact ⟨[], (List.append_nil _).symm, .nil⟩
  | cons i rest ih =>
    obtain ⟨own, hown, hrefers⟩ := ih (t.add i)
    cases h : t.added? i with
    | none =>
      refine ⟨own, ?_, by rwa [accepted_cons_of_none h]⟩
      rw [List.foldl_cons, hown, add_of_added?_eq_none h]
    | some name =>
      obtain ⟨symbol, hsymbol, -, hadd⟩ := exists_symbol_of_added? h
      refine ⟨(name ++ "." ++ symbol.name) :: own, ?_, ?_⟩
      · rw [List.foldl_cons, hown, hadd, List.append_assoc]
        rfl
      · rw [accepted_cons_of_some h]
        exact .cons ⟨symbol, hsymbol, rfl⟩ hrefers

/-- The aliases of a table grow by those that the imports get. -/
theorem keys_perm_foldl (imports : List Import) (t : AliasTable) :
    (imports.foldl add t).paths.keys.Perm
      (t.paths.keys ++ (t.accepted imports).map Prod.snd) := by
  induction imports generalizing t with
  | nil => simp [accepted]
  | cons i rest ih =>
    refine (ih (t.add i)).trans ?_
    cases h : t.added? i with
    | none => rw [accepted_cons_of_none h, add_of_added?_eq_none h]
    | some name =>
      obtain ⟨symbol, -, hbinds, hadd⟩ := exists_symbol_of_added? h
      have hkeys : (t.add i).paths.keys.Perm (name :: t.paths.keys) := by
        rw [hadd]
        exact (Dictionary.entries_insert_perm hbinds.get?_eq_none).map Prod.fst
      rw [accepted_cons_of_some h, List.map_cons]
      exact (hkeys.append_right _).trans List.perm_middle.symm

/-! ### Tables of a file -/

/-- The aliases in the references that every file has, in their order. -/
def referredNames : List String := ["grpc", "context", "redact", "codes", "status"]

theorem keys_perm_start (selfPath runtimePath : String) :
    (start selfPath runtimePath).paths.keys.Perm referredNames := by
  refine (List.perm_ext_iff_of_nodup (Dictionary.nodup_keys _) (by decide)).2 fun a => ?_
  rw [← Dictionary.contains_iff_mem_keys, Dictionary.contains, Option.isSome_iff_exists]
  simp only [get?_paths_start_iff]
  split
  next ha =>
    rw [← ha]
    exact iff_of_true ⟨runtimePath, rfl⟩ (by decide)
  next ha =>
    simp only [commonImports, referredNames, runtimeName] at ha ⊢
    grind

/-- The imports and references of a plan are those of the table of the file. -/
theorem imports_of_plan {settings : Settings} {f : SourceFile} {p : FilePlan}
    (h : f.plan settings = .ok (some p)) :
    p.imports = (ofFile settings.runtimeImport f).paths ∧
      p.references = (ofFile settings.runtimeImport f).references := by
  unfold SourceFile.plan at h
  split at h
  · cases h
  split at h
  · cases h
  obtain ⟨-, hp⟩ := (Report.result_eq_ok_iff _ _ _).1 h
  cases hp
  exact ⟨rfl, rfl⟩

/-- **Every import is referred to exactly once.** Behind the references that every file has stands
one for each import that got an alias, in order, made up of the alias and the symbol of the import.
The aliases that are named so, those of every file first, are all different and are just the aliases
of the table; so there are as many references as imports. The plan of a file has the imports and the
references of its table. -/
theorem references_match_imports (selfPath runtimePath : String) (imports : List Import) :
    let t := imports.foldl add (start selfPath runtimePath)
    let accepted := (start selfPath runtimePath).accepted imports
    let names := ["grpc", "context", "redact", "codes", "status"] ++ accepted.map Prod.snd
    (∃ own, t.references = ["grpc.Server", "context.Context", "redact.Redactor", "codes.Code",
          "status.Status"] ++ own ∧ List.Forall₂ RefersTo accepted own) ∧
      names.Nodup ∧ (∀ a, a ∈ t.paths.keys ↔ a ∈ names) ∧
      t.references.length = t.paths.size ∧
      ∀ (settings : Settings) (f : SourceFile) (p : FilePlan), f.plan settings = .ok (some p) →
        p.imports = (ofFile settings.runtimeImport f).paths ∧
          p.references = (ofFile settings.runtimeImport f).references := by
  intro t accepted names
  obtain ⟨own, hown, hrefers⟩ := references_foldl imports (start selfPath runtimePath)
  have hkeys : t.paths.keys.Perm names :=
    (keys_perm_foldl imports _).trans ((keys_perm_start selfPath runtimePath).append_right _)
  refine ⟨⟨own, hown, hrefers⟩, hkeys.nodup_iff.1 t.paths.nodup_keys, fun a => hkeys.mem_iff, ?_,
    fun settings f p h => imports_of_plan h⟩
  calc t.references.length = 5 + own.length := by rw [hown, List.length_append]; rfl
    _ = 5 + accepted.length := by rw [hrefers.length_eq]
    _ = names.length := by rw [List.length_append, List.length_map]; rfl
    _ = t.paths.size := by rw [Dictionary.size_eq_length_keys, hkeys.length_eq]

/-- The twins are imported under two aliases, each with a reference, and the plan says so. -/
theorem references_withTwins : ∃ p, withTwins.plan .standard = .ok (some p) ∧
    p.references = ["grpc.Server", "context.Context", "redact.Redactor", "codes.Code",
      "status.Status", "pb.A", "pb1.B"] ∧ p.imports.size = 7 := by
  obtain ⟨p, hp⟩ : ∃ p, withTwins.plan .standard = .ok (some p) := ⟨_, rfl⟩
  obtain ⟨-, -, -, hlength, hplan⟩ := references_match_imports withTwins.importPath
    Settings.standard.runtimeImport withTwins.imports
  obtain ⟨himports, hreferences⟩ := hplan _ _ p hp
  refine ⟨p, hp, hreferences.trans (by decide +kernel), ?_⟩
  rw [himports]
  exact hlength.symm.trans (by decide +kernel)

end AliasTable
end Redaction
