import Mathlib.Order.Bounds.Basic
import Redaction.Proofs.References

/-!
# The alias of an import is the first that is free

An import whose package name is taken gets that name with a number behind it, and the search for the
number tries 1, 2, 3 and so on until the name is free. It ends, since the names it passes over are
aliases of the table, all different.

* `SearchEnds t name k n`: the search from `k` on, however far it goes, ends at `n`.
* `searchEnds_freeNumber` and `freeNumber_le_size`: the search ends, at a number that is no greater
  than the number of aliases.
* `name_of_added?` says which alias an import gets.
* `alias_first_free` is the main statement.
-/

namespace Redaction.AliasTable

variable {t : AliasTable} {i : Import} {name : String}

/-! ### The search for a number -/

/-- The search for a free number: it goes on behind a number that is taken and ends at one that is
not. -/
inductive SearchEnds (t : AliasTable) (name : String) : Nat → Nat → Prop
  | free {n : Nat} (h : t.paths.get? (numbered name n) = none) : SearchEnds t name n n
  | taken {k n : Nat} (h : t.paths.get? (numbered name k) ≠ none)
      (hnext : SearchEnds t name (k + 1) n) : SearchEnds t name k n

/-- The search passes over taken numbers. -/
theorem searchEnds_of_forall {k n : Nat} (hle : k ≤ n)
    (htaken : ∀ j, k ≤ j → j < n → t.paths.get? (numbered name j) ≠ none)
    (hfree : t.paths.get? (numbered name n) = none) : t.SearchEnds name k n := by
  obtain ⟨m, rfl⟩ := Nat.exists_eq_add_of_le hle
  clear hle
  induction m generalizing k with
  | zero => exact .free hfree
  | succ m ih =>
    have hstep : k + 1 + m = k + (m + 1) := by omega
    refine .taken (htaken k (Nat.le_refl k) (by omega)) (hstep ▸ ih (fun j hj hlt => ?_) ?_)
    · exact htaken j (by omega) (by omega)
    · exact hstep ▸ hfree

theorem le_freeNumber (t : AliasTable) (name : String) (fuel n : Nat) :
    n ≤ t.freeNumber name fuel n := by
  induction fuel generalizing n with
  | zero => exact Nat.le_refl n
  | succ fuel ih =>
    unfold freeNumber
    split
    · exact Nat.le_of_succ_le (ih (n + 1))
    · exact Nat.le_refl n

theorem get?_of_lt_freeNumber {k : Nat} (hk : 1 ≤ k)
    (hlt : k < t.freeNumber name t.paths.size 1) : t.paths.get? (numbered name k) ≠ none :=
  (Dictionary.contains_eq_true_iff _ _).1 (contains_of_lt_freeNumber hk hlt)

theorem get?_freeNumber (t : AliasTable) (name : String) :
    t.paths.get? (numbered name (t.freeNumber name t.paths.size 1)) = none :=
  (Dictionary.contains_eq_false_iff _ _).1 (t.contains_freeNumber name)

/-- The search ends. -/
theorem searchEnds_freeNumber (t : AliasTable) (name : String) :
    t.SearchEnds name 1 (t.freeNumber name t.paths.size 1) :=
  searchEnds_of_forall (t.le_freeNumber name _ 1) (fun _ => get?_of_lt_freeNumber)
    (t.get?_freeNumber name)

/-- The search ends at the least number that makes the name free. -/
theorem isLeast_freeNumber (t : AliasTable) (name : String) :
    IsLeast {n | 1 ≤ n ∧ t.paths.get? (numbered name n) = none}
      (t.freeNumber name t.paths.size 1) := by
  refine ⟨⟨t.le_freeNumber name _ 1, t.get?_freeNumber name⟩, ?_⟩
  rintro n ⟨hn, hfree⟩
  by_contra hlt
  exact get?_of_lt_freeNumber hn (Nat.lt_of_not_le hlt) hfree

theorem numbered_ne (name : String) (n : Nat) : numbered name n ≠ name := by
  intro h
  have hdigits : toString n = "" := (String.append_right_inj name).1 (h.trans (by simp))
  exact Nat.repr_ne_empty hdigits

/-- A taken name and the numbers that the search passes over are as many aliases of the table. -/
theorem freeNumber_le_size (h : t.paths.contains name = true) :
    t.freeNumber name t.paths.size 1 ≤ t.paths.size := by
  have hpos := t.le_freeNumber name t.paths.size 1
  generalize hn : t.freeNumber name t.paths.size 1 = n at hpos ⊢
  have hnodup : (name :: (List.range' 1 (n - 1)).map (numbered name)).Nodup := by
    refine List.nodup_cons.2 ⟨fun hmem => ?_, ?_⟩
    · obtain ⟨k, -, hk⟩ := List.mem_map.1 hmem
      exact numbered_ne name k hk
    · exact List.Nodup.map (numbered_injective name) List.nodup_range'
  have hsize := Dictionary.length_le_size (d := t.paths) hnodup fun key hkey => by
    rcases List.mem_cons.1 hkey with rfl | hkey
    · exact h
    · obtain ⟨k, hk, rfl⟩ := List.mem_map.1 hkey
      obtain ⟨hle, hlt⟩ := List.mem_range'_1.1 hk
      have hbelow : k < t.freeNumber name t.paths.size 1 := by omega
      exact contains_of_lt_freeNumber hle hbelow
  simp only [List.length_cons, List.length_map, List.length_range'] at hsize
  omega

/-! ### Imports -/

theorem name_of_assess {symbol : TypeName} {taken : Bool}
    (h : t.assess i = .bound name symbol taken) :
    name = if t.paths.contains i.packageName then
        numbered i.packageName (t.freeNumber i.packageName t.paths.size 1)
      else i.packageName := by
  unfold assess at h
  split at h
  · cases h
  split at h
  · cases h
  split at h
  · cases h
  split at h
  · cases h
  split at h
  next htaken =>
    cases h
    exact (if_pos htaken).symm
  next hfree =>
    cases h
    exact (if_neg hfree).symm

/-- The alias of an import is the package name if that is free, else the first that is. -/
theorem name_of_added? (h : t.added? i = some name) :
    name = if t.paths.contains i.packageName then
        numbered i.packageName (t.freeNumber i.packageName t.paths.size 1)
      else i.packageName := by
  unfold added? at h
  split at h
  · cases h
  next hassess =>
    cases h
    exact name_of_assess hassess

/-- An import of a path that has an alias gets none. -/
theorem added?_of_aliasOf? (h : t.aliasOf? i.importPath ≠ none) : t.added? i = none :=
  (added?_eq_none_iff t i).2 ((t.exists_refused_iff i).2 fun hboth => h hboth.2)

/-- An import gets no alias a second time, nor if it got none the first time. -/
theorem added?_add (t : AliasTable) (i : Import) : (t.add i).added? i = none := by
  cases h : t.added? i with
  | none => rw [add_of_added?_eq_none h, h]
  | some name =>
    obtain ⟨symbol, -, -, hadd⟩ := exists_symbol_of_added? h
    have halias : (t.add i).aliasOf? i.importPath = some name := by
      rw [hadd]
      exact (aliasOf?_bind t name _ _).trans (if_pos rfl)
    exact added?_of_aliasOf? (halias ▸ Option.some_ne_none name)

/-- **An import gets the first alias that is free, or nothing changes.** The alias was not in use
and is bound to the path. It is the package name if that was free; otherwise the search for a number
behind it ends, at the least that makes it free, which is no greater than the number of aliases. The
table stays as it is for an import that gets no alias, and an import of a path that has one, in
particular the same import again, gets none. -/
theorem alias_first_free (t : AliasTable) (i : Import) :
    (∀ name, t.added? i = some name →
      t.paths.get? name = none ∧ (t.add i).paths.get? name = some i.importPath ∧
      (t.paths.get? i.packageName = none → name = i.packageName) ∧
      (t.paths.get? i.packageName ≠ none → ∃ n : Nat,
        t.SearchEnds i.packageName 1 n ∧ name = i.packageName ++ toString n ∧
        IsLeast {n : Nat | 1 ≤ n ∧ t.paths.get? (i.packageName ++ toString n) = none} n ∧
        n ≤ t.paths.size)) ∧
      (t.added? i = none → t.add i = t) ∧
      (t.aliasOf? i.importPath ≠ none → t.added? i = none) ∧
      (t.add i).added? i = none := by
  refine ⟨fun name h => ?_, add_of_added?_eq_none, added?_of_aliasOf?, t.added?_add i⟩
  obtain ⟨symbol, -, hbinds, hadd⟩ := exists_symbol_of_added? h
  have hname := name_of_added? h
  refine ⟨hbinds.get?_eq_none, ?_, fun hfree => ?_, fun htaken => ?_⟩
  · rw [hadd]
    exact (get?_paths_bind t name _ _).trans (if_pos rfl)
  · rwa [(Dictionary.contains_eq_false_iff _ _).2 hfree] at hname
  · have hcontains := (Dictionary.contains_eq_true_iff _ _).2 htaken
    rw [if_pos hcontains] at hname
    exact ⟨_, t.searchEnds_freeNumber _, hname, t.isLeast_freeNumber _,
      freeNumber_le_size hcontains⟩

/-- A table in which a package with a taken name and two that are named like numbered ones have an
alias. -/
def withNumberedNames : AliasTable :=
  let package (path name : String) : Import := ⟨path, name, some (.ofNames "T" "pb.T")⟩
  [package "example.com/a" "pb", package "example.com/b" "pb2", package "example.com/c" "pb",
    package "example.com/d" "pb11"].foldl add (start "example.com/acme" "example.com/redact")

/-- The next package of the name passes over the number that is a package name of its own, and a
package at a path with an alias gets none. -/
theorem first_free_withNumberedNames :
    let e : Import := ⟨"example.com/e", "pb", some (.ofNames "E" "pb.E")⟩
    let a : Import := ⟨"example.com/a", "pba", some (.ofNames "A" "pb.A")⟩
    withNumberedNames.added? e = some "pb3" ∧
      withNumberedNames.paths.get? "pb" ≠ none ∧
      (∃ n, withNumberedNames.SearchEnds "pb" 1 n ∧ "pb3" = "pb" ++ toString n ∧
        IsLeast {n : Nat | 1 ≤ n ∧ withNumberedNames.paths.get? ("pb" ++ toString n) = none} n ∧
        n ≤ withNumberedNames.paths.size) ∧
      withNumberedNames.aliasOf? a.importPath ≠ none ∧ withNumberedNames.added? a = none ∧
      withNumberedNames.add a = withNumberedNames := by
  intro e a
  have hadded : withNumberedNames.added? e = some "pb3" := by decide +kernel
  have htaken : withNumberedNames.paths.get? "pb" ≠ none := by decide +kernel
  have hknown : withNumberedNames.aliasOf? a.importPath ≠ none := by decide +kernel
  obtain ⟨hfirst, -, -, -⟩ := alias_first_free withNumberedNames e
  obtain ⟨-, hnone, hrefused, -⟩ := alias_first_free withNumberedNames a
  exact ⟨hadded, htaken, (hfirst "pb3" hadded).2.2.2 htaken, hknown, hrefused hknown,
    hnone (hrefused hknown)⟩

end Redaction.AliasTable
