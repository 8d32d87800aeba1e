import Redaction.StatusCode
import Redaction.Text

/-!
# Settings of a run

The settings under which files are planned, their defaults, and how two environment variables
override them.

* The fail-fast flag is one of `1`, `true`, `yes`, `0`, `false`, `no` in any ASCII case.
* Blanks around a value count for nothing, and a blank value is refused.
-/

namespace Redaction

/-- The settings of a run. -/
structure Settings where
  /-- Whether a file is given up at its first fault. -/
  failFast : Bool
  /-- The status code of denied calls when neither the method nor its service sets one. -/
  statusCode : StatusCode
  /-- The template of the error message when neither the method nor its service sets one. -/
  errorTemplate : String
  /-- The import path of the redaction runtime. -/
  runtimeImport : String
deriving DecidableEq

/-- An environment variable that holds a setting. -/
inductive EnvVariable where
  | failFast
  | runtimeImport
deriving DecidableEq

/-- The name of a variable. -/
def EnvVariable.name : EnvVariable → String
  | failFast => "REDACT_PLAN_FAIL_FAST"
  | runtimeImport => "REDACT_PLAN_RUNTIME_IMPORT"

/-- What is wrong with the value of a variable. -/
inductive SettingsError where
  /-- The value is none of the words for a flag. -/
  | invalidFlag (source : EnvVariable) (value : String)
  /-- The value is blank. -/
  | empty (source : EnvVariable)
deriving DecidableEq

namespace SettingsError

/-- The variable with the bad value. -/
def source : SettingsError → EnvVariable
  | invalidFlag v _ => v
  | empty v => v

/-- The wording of the error. -/
def message : SettingsError → String
  | invalidFlag v value =>
    v.name ++ " must be one of 1, true, yes, 0, false, no (got \x60" ++ value ++ "\x60)"
  | empty v => v.name ++ " must not be empty"

end SettingsError

namespace Settings

/-- The settings of a run that sets nothing. -/
def standard : Settings where
  failFast := false
  statusCode := .permissionDenied
  errorTemplate := "Permission Denied. Method: \"%service%.%method%\" has been redacted"
  runtimeImport := "github.com/menta2k/protoc-gen-redact/v3/redact/v3"

/-- The flag that a word stands for. -/
def flagOfWord? (word : String) : Option Bool :=
  if word ∈ ["1", "true", "yes"] then some true
  else if word ∈ ["0", "false", "no"] then some false
  else none

/-- The flag that the value of a variable writes. -/
def readFlag (source : EnvVariable) (value : String) : Except SettingsError Bool :=
  let word := Text.lowerAscii (Text.trim value)
  if word = "" then .error (.empty source)
  else match flagOfWord? word with
    | some b => .ok b
    | none => .error (.invalidFlag source value)

/-- The path that the value of a variable writes. -/
def readPath (source : EnvVariable) (value : String) : Except SettingsError String :=
  let path := Text.trim value
  if path = "" then .error (.empty source) else .ok path

/-- The standard settings, overridden by the variables that have a value. -/
def ofLookup (lookup : EnvVariable → Option String) : Except SettingsError Settings := do
  let failFast ← match lookup .failFast with
    | some value => readFlag .failFast value
    | none => .ok standard.failFast
  let runtimeImport ← match lookup .runtimeImport with
    | some value => readPath .runtimeImport value
    | none => .ok standard.runtimeImport
  return { standard with failFast := failFast, runtimeImport := runtimeImport }

/-- A change to one setting. -/
inductive Change where
  | failFast (b : Bool)
  | statusCode (c : StatusCode)
  | errorTemplate (template : String)
  | runtimeImport (path : String)

/-- The settings after a change. -/
def apply (s : Settings) : Change → Settings
  | .failFast b => { s with failFast := b }
  | .statusCode c => { s with statusCode := c }
  | .errorTemplate t => { s with errorTemplate := t }
  | .runtimeImport p => { s with runtimeImport := p }

end Settings
end Redaction
