import Redaction.Plan.File
import Redaction.Proofs.AliasTable

/-!
# Qualified names are unambiguous

A type of another package is written behind the alias of its package, and every other type by its
bare name. Since no two paths share an alias, and the name of a Go type has no dot in it, the text
tells the type and the package apart again.

* `TypeName.LocalTo selfPath r`: the type is one of the generated package itself.
* `append_dot_inj` and `append_dot_ne`: a text is cut in one way only at its last dot.
* `naming_of_local`, `naming_of_no_alias` and `naming_of_alias` are the three cases of a naming, and
  `path_eq_of_naming_eq` goes back from equal texts to equal packages (`naming_eq_iff`).
* `naming_unambiguous` is the main statement, and `SourceFile.naming_eq_iff` is the part of it that
  a file is planned under.
-/

namespace Redaction

/-- A type of the package at a path, which a reference may also leave blank. -/
def TypeName.LocalTo (selfPath : String) (r : TypeName) : Prop :=
  r.importPath = "" ∨ r.importPath = selfPath

instance (selfPath : String) (r : TypeName) : Decidable (r.LocalTo selfPath) :=
  inferInstanceAs (Decidable (_ ∨ _))

/-! ### Texts with dots -/

/-- The last dot of a text is where a part without dots begins, whatever stands in front. -/
theorem append_dot_inj {a b m n : String} (hm : '.' ∉ m.toList) (hn : '.' ∉ n.toList)
    (h : a ++ "." ++ m = b ++ "." ++ n) : a = b ∧ m = n := by
  have hchars : a.toList ++ '.' :: m.toList = b.toList ++ '.' :: n.toList := by
    simpa using congrArg String.toList h
  exact (Text.append_cons_inj hm hn hchars).imp String.toList_inj.1 String.toList_inj.1

theorem append_dot_ne {n : String} (hn : '.' ∉ n.toList) (a m : String) : a ++ "." ++ m ≠ n := by
  rintro rfl
  exact hn (by simp)

namespace AliasTable

variable {selfPath runtimePath : String} {t : AliasTable} {r s : TypeName} {a : String}

/-! ### The three cases of a naming -/

theorem naming_of_local (h : r.LocalTo t.selfPath) : t.naming r = r.name := if_pos h

theorem naming_of_no_alias (h : t.aliasOf? r.importPath = none) : t.naming r = r.name := by
  unfold naming
  rw [h]
  exact ite_self _

theorem naming_of_alias (hlocal : ¬r.LocalTo t.selfPath) (h : t.aliasOf? r.importPath = some a) :
    t.naming r = a ++ "." ++ r.name := by
  unfold naming
  rw [h]
  exact if_neg hlocal

/-- The package of a type has a place in the table: it is the generated one or has an alias. -/
def Places (t : AliasTable) (selfPath : String) (r : TypeName) : Prop :=
  r.LocalTo selfPath ∨ (t.aliasOf? r.importPath).isSome = true

instance (t : AliasTable) (selfPath : String) (r : TypeName) : Decidable (t.Places selfPath r) :=
  inferInstanceAs (Decidable (_ ∨ _))

/-- A type with a place has its bare name, or that name behind the alias of its package. -/
theorem Places.cases (h : t.Places t.selfPath r) :
    r.LocalTo t.selfPath ∧ t.naming r = r.name ∨
      ∃ a, t.aliasOf? r.importPath = some a ∧ t.naming r = a ++ "." ++ r.name := by
  by_cases hlocal : r.LocalTo t.selfPath
  · exact .inl ⟨hlocal, naming_of_local hlocal⟩
  · obtain ⟨a, ha⟩ := Option.isSome_iff_exists.1 (h.resolve_left hlocal)
    exact .inr ⟨a, ha, naming_of_alias hlocal ha⟩

/-! ### Back from a text -/

/-- Types with places are written alike only if they have one name and one package. -/
theorem path_eq_of_naming_eq (hconsistent : t.Consistent selfPath runtimePath)
    (hr : '.' ∉ r.name.toList) (hs : '.' ∉ s.name.toList) (hrp : t.Places selfPath r)
    (hsp : t.Places selfPath s) (h : t.naming r = t.naming s) :
    r.name = s.name ∧
      (r.LocalTo selfPath ∧ s.LocalTo selfPath ∨ r.importPath = s.importPath) := by
  obtain rfl := hconsistent.selfPath_eq
  rcases hrp.cases with ⟨hrl, hrn⟩ | ⟨a, ha, hrn⟩ <;>
    rcases hsp.cases with ⟨hsl, hsn⟩ | ⟨b, hb, hsn⟩ <;>
    rw [hrn, hsn] at h
  · exact ⟨h, .inl ⟨hrl, hsl⟩⟩
  · exact absurd h.symm (append_dot_ne hr b s.name)
  · exact absurd h (append_dot_ne hs a r.name)
  · obtain ⟨rfl, hname⟩ := append_dot_inj hr hs h
    -- one alias has one path
    have hpath := (hconsistent.path_of_alias _ _ ha).symm.trans (hconsistent.path_of_alias _ _ hb)
    exact ⟨hname, .inr (Option.some.inj hpath)⟩

/-- A naming looks at the name and the path only, and at no path of the generated package. -/
theorem naming_eq_of_path_eq (hname : r.name = s.name)
    (h : r.LocalTo t.selfPath ∧ s.LocalTo t.selfPath ∨ r.importPath = s.importPath) :
    t.naming r = t.naming s := by
  rcases h with ⟨hr, hs⟩ | hpath
  · rw [naming_of_local hr, naming_of_local hs, hname]
  · unfold naming
    rw [hname, hpath]

/-- Types with places are written alike exactly if they have one name and one package. -/
theorem naming_eq_iff (hconsistent : t.Consistent selfPath runtimePath)
    (hr : '.' ∉ r.name.toList) (hs : '.' ∉ s.name.toList) (hrp : t.Places selfPath r)
    (hsp : t.Places selfPath s) :
    t.naming r = t.naming s ↔ r.name = s.name ∧
      (r.LocalTo selfPath ∧ s.LocalTo selfPath ∨ r.importPath = s.importPath) := by
  constructor
  · exact path_eq_of_naming_eq hconsistent hr hs hrp hsp
  · rintro ⟨hname, hpath⟩
    obtain rfl := hconsistent.selfPath_eq
    exact naming_eq_of_path_eq hname hpath

/-- **The name of a type in the generated file is sound and unambiguous.** After any number of
imports, a type of the generated package or of a package without an alias is written by its bare
name, and any other one behind an alias that is bound to its package. Two types whose names have no
dots, and whose packages are the generated one or have an alias, are written alike exactly if they
have one name and either both are of the generated package or their packages have one path. -/
theorem naming_unambiguous (h : Reachable selfPath runtimePath t) :
    (∀ r : TypeName, r.LocalTo selfPath ∨ t.aliasOf? r.importPath = none → t.naming r = r.name) ∧
      (∀ r : TypeName, ¬(r.LocalTo selfPath ∨ t.aliasOf? r.importPath = none) →
        ∃ a, t.naming r = a ++ "." ++ r.name ∧ t.paths.get? a = some r.importPath) ∧
      ∀ r s : TypeName, '.' ∉ r.name.toList → '.' ∉ s.name.toList →
        t.Places selfPath r → t.Places selfPath s →
        (t.naming r = t.naming s ↔ r.name = s.name ∧
          (r.LocalTo selfPath ∧ s.LocalTo selfPath ∨ r.importPath = s.importPath)) := by
  have hconsistent := h.consistent
  obtain rfl := hconsistent.selfPath_eq
  refine ⟨fun r hr => ?_, fun r hr => ?_, fun r s hr hs hrp hsp => ?_⟩
  · exact hr.elim naming_of_local naming_of_no_alias
  · obtain ⟨hlocal, halias⟩ := not_or.1 hr
    obtain ⟨a, ha⟩ := Option.ne_none_iff_exists'.1 halias
    exact ⟨a, naming_of_alias hlocal ha, hconsistent.path_of_alias _ _ ha⟩
  · exact naming_eq_iff hconsistent hr hs hrp hsp

/-- A table with an alias that has a dot in it and begins with another alias. -/
def withDottedAlias : AliasTable :=
  ((start "example.com/acme" "example.com/redact").add
      ⟨"example.com/pb", "pb", some (.ofNames "Money" "pb.Money")⟩).add
    ⟨"example.com/pb/v1", "pb.v1", some (.ofNames "Money" "pb.v1.Money")⟩

/-- Types of one name in the two packages are told apart. A name with a dot, as no Go type has,
would be taken for a type of the other package. -/
theorem naming_withDottedAlias :
    let money (name path : String) : TypeName := ⟨name, "", path⟩
    Reachable "example.com/acme" "example.com/redact" withDottedAlias ∧
      withDottedAlias.naming (money "Money" "example.com/acme") = "Money" ∧
      (∃ a, withDottedAlias.naming (money "Money" "example.com/pb/v1") = a ++ "." ++ "Money" ∧
        withDottedAlias.paths.get? a = some "example.com/pb/v1") ∧
      withDottedAlias.naming (money "Money" "example.com/pb") ≠
        withDottedAlias.naming (money "Money" "example.com/pb/v1") ∧
      withDottedAlias.naming (money "v1.Money" "example.com/pb") =
        withDottedAlias.naming (money "Money" "example.com/pb/v1") := by
  intro money
  have hreach : Reachable "example.com/acme" "example.com/redact" withDottedAlias :=
    .add _ (.add _ .start)
  obtain ⟨hbare, hqualified, hiff⟩ := naming_unambiguous hreach
  refine ⟨hreach, hbare _ (.inl (by decide)), hqualified _ (by decide +kernel), fun heq => ?_,
    by decide +kernel⟩
  obtain ⟨-, hsame⟩ := (hiff _ _ (by decide) (by decide) (by decide +kernel)
    (by decide +kernel)).1 heq
  exact absurd hsame (by decide)

end AliasTable

/-- In every generated file, types of the package itself or of imported ones are told apart by the
text that they are written with. -/
theorem SourceFile.naming_eq_iff (settings : Settings) (f : SourceFile) {r s : TypeName}
    (hr : '.' ∉ r.name.toList) (hs : '.' ∉ s.name.toList)
    (hrp : (f.aliasTable settings).Places f.importPath r)
    (hsp : (f.aliasTable settings).Places f.importPath s) :
    f.naming settings r = f.naming settings s ↔ r.name = s.name ∧
      (r.LocalTo f.importPath ∧ s.LocalTo f.importPath ∨ r.importPath = s.importPath) :=
  AliasTable.naming_eq_iff (AliasTable.consistent_ofFile settings.runtimeImport f) hr hs hrp hsp

end Redaction
