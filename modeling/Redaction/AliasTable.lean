import Redaction.Dictionary
import Redaction.Schema.Basic

/-!
# Import aliases

The aliases under which a generated file imports other Go packages. A table starts with the packages
that every generated file needs and grows by one alias per accepted import; what is in it stays.

* `assess` says whether an import gets an alias, and which: the package's own name if it is free,
  else that name with the least number behind it that makes it free.
* Every alias is referred to once, so that no import goes unused.
* A type of another package is written behind the alias of its package (`AliasTable.naming`).
-/

namespace Redaction

/-- The packages that every generated file imports, as aliases with paths. -/
def commonImports : List (String × String) :=
  [("context", "context"), ("grpc", "google.golang.org/grpc"),
    ("codes", "google.golang.org/grpc/codes"), ("status", "google.golang.org/grpc/status")]

/-- The alias of the redaction runtime. -/
def runtimeName : String := "redact"

/-- The symbols that every generated file refers to. -/
def commonReferences : List String :=
  ["grpc.Server", "context.Context", "redact.Redactor", "codes.Code", "status.Status"]

/-- The greatest number of bytes of an import path. -/
def maxPathSize : Nat := 1000

/-- The import aliases of a generated file. -/
structure AliasTable where
  /-- The path of the generated file's own package. -/
  selfPath : String
  /-- The alias of each imported path. -/
  aliases : Dictionary
  /-- The path of each alias. -/
  paths : Dictionary
  /-- The symbols that the generated file refers to. -/
  references : List String
deriving DecidableEq

/-- Why an import gets no alias. -/
inductive Refusal where
  | invalidPath (reason : String)
  /-- The path is the file's own or has an alias already. -/
  | known
  /-- The imported file declares no type and no service. -/
  | noSymbol
  | invalidPackage (reason : String)
deriving DecidableEq

/-- What becomes of an import. -/
inductive Verdict where
  | refused (refusal : Refusal)
  /-- It gets the alias `name`, which differs from the package's name if that was `taken`. -/
  | bound (name : String) (symbol : TypeName) (taken : Bool)
deriving DecidableEq

/-- What is wrong with an import path. -/
def pathFault? (path : String) : Option String :=
  if path = "" then some "import path is empty"
  else if maxPathSize < path.utf8ByteSize then
    some ("import path too long: " ++ toString path.utf8ByteSize ++ " characters")
  else none

/-- What is wrong with a package name. -/
def packageFault? (name : String) : Option String :=
  match name.toList with
  | [] => some "package name is empty"
  | c :: _ => if c.isDigit then some ("package name starts with a digit: " ++ name) else none

namespace AliasTable

/-- The table with an alias for a path, in place of what either stood for before. -/
def bind (t : AliasTable) (name path : String) : AliasTable :=
  { t with aliases := t.aliases.insert path name, paths := t.paths.insert name path }

/-- The table of a file at a path before its own imports. -/
def start (selfPath runtimePath : String) : AliasTable :=
  let bare : AliasTable := ⟨selfPath, .empty, .empty, commonReferences⟩
  (commonImports.foldl (fun (t : AliasTable) i => t.bind i.1 i.2) bare).bind
    runtimeName runtimePath

/-- The alias of a path. -/
def aliasOf? (t : AliasTable) (path : String) : Option String := t.aliases.get? path

/-- A name with a number behind it. -/
def numbered (name : String) (n : Nat) : String := name ++ toString n

/-- The least number from `n` on, or `fuel` further on at most, that makes a name free. -/
def freeNumber (t : AliasTable) (name : String) : Nat → Nat → Nat
  | 0, n => n
  | fuel + 1, n =>
    if t.paths.contains (numbered name n) then freeNumber t name fuel (n + 1) else n

/-- What becomes of an import. -/
def assess (t : AliasTable) (i : Import) : Verdict :=
  match pathFault? i.importPath with
  | some reason => .refused (.invalidPath reason)
  | none =>
    if i.importPath = t.selfPath ∨ t.aliases.contains i.importPath = true then .refused .known
    else match i.firstSymbol with
      | none => .refused .noSymbol
      | some symbol =>
        match packageFault? i.packageName with
        | some reason => .refused (.invalidPackage reason)
        | none =>
          if t.paths.contains i.packageName then
            .bound (numbered i.packageName (t.freeNumber i.packageName t.paths.size 1)) symbol true
          else .bound i.packageName symbol false

/-- The table after an import. -/
def add (t : AliasTable) (i : Import) : AliasTable :=
  match t.assess i with
  | .refused _ => t
  | .bound name symbol _ =>
    { t.bind name i.importPath with references := t.references ++ [name ++ "." ++ symbol.name] }

/-- The alias that an import gets. -/
def added? (t : AliasTable) (i : Import) : Option String :=
  match t.assess i with
  | .refused _ => none
  | .bound name _ _ => some name

/-- The table of a source file, under the path of the redaction runtime. -/
def ofFile (runtimePath : String) (f : SourceFile) : AliasTable :=
  f.imports.foldl add (start f.importPath runtimePath)

/-- Types of the file's own package and of packages without an alias by their bare names, all others
behind the alias of their package. -/
def naming (t : AliasTable) : Naming := fun r =>
  if r.importPath = "" ∨ r.importPath = t.selfPath then r.name
  else match t.aliasOf? r.importPath with
    | some name => name ++ "." ++ r.name
    | none => r.name

/-- The tables that a file can reach by adding imports. -/
inductive Reachable (selfPath runtimePath : String) : AliasTable → Prop where
  | start : Reachable selfPath runtimePath (start selfPath runtimePath)
  | add {t : AliasTable} (i : Import) :
      Reachable selfPath runtimePath t → Reachable selfPath runtimePath (t.add i)

/-! ### Small facts -/

theorem add_of_refused {t : AliasTable} {i : Import} {r : Refusal}
    (h : t.assess i = .refused r) : t.add i = t := by simp [add, h]

theorem added?_eq_none_iff (t : AliasTable) (i : Import) :
    t.added? i = none ↔ ∃ r, t.assess i = .refused r := by
  unfold added?
  cases t.assess i <;> simp

@[simp] theorem selfPath_add (t : AliasTable) (i : Import) :
    (t.add i).selfPath = t.selfPath := by
  unfold add
  split <;> rfl

theorem Reachable.ofFile (runtimePath : String) (f : SourceFile) :
    Reachable f.importPath runtimePath (ofFile runtimePath f) := by
  have key : ∀ (is : List Import) (t : AliasTable),
      Reachable f.importPath runtimePath t →
      Reachable f.importPath runtimePath (is.foldl AliasTable.add t) := by
    intro is
    induction is with
    | nil => intro t h; exact h
    | cons i is ih => intro t h; exact ih _ (.add i h)
  exact key _ _ .start

end AliasTable
end Redaction
