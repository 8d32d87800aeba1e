import Redaction.Plan.Run

/-!
# Plans of files

What generated code does with all of a source file, all or nothing: a file with a fault has no plan.
Every message is tried and then every service, unless the run fails fast; then nothing is tried
behind the first part with a fault.

* `SourceFile.plan` is the outcome, and `SourceFile.events` is what the run reports meanwhile.
-/

namespace Redaction

/-- All that is needed to generate the code of one file. -/
structure FilePlan where
  /-- The path of the source file. -/
  source : String
  package : String
  /-- The import path of each alias. -/
  imports : Dictionary
  references : List String
  messages : List MessagePlan
  services : List ServicePlan
deriving DecidableEq

namespace SourceFile

/-- Whether the name of the generated package is blank. -/
def hasBlankPackage (f : SourceFile) : Bool := (Text.trim f.package).isEmpty

/-- The fault of a file without a package name. -/
def blankPackage (f : SourceFile) : Fault :=
  Fault.structural f.name "file has no Go package name"

/-- The alias table of the file. -/
def aliasTable (settings : Settings) (f : SourceFile) : AliasTable :=
  AliasTable.ofFile settings.runtimeImport f

/-- The naming of the types in the generated file. -/
def naming (settings : Settings) (f : SourceFile) : Naming := (f.aliasTable settings).naming

/-- The run over the messages, behind the imports. -/
def messageRun (settings : Settings) (f : SourceFile) : Run :=
  Run.through settings (Message.resolve (f.naming settings)) Run.addMessage
    (Run.start (AliasTable.fileEvents settings.runtimeImport f)) f.messages

/-- The run over the messages and then the services. -/
def run (settings : Settings) (f : SourceFile) : Run :=
  Run.through settings (Service.resolve settings (f.naming settings)) Run.addService
    (f.messageRun settings) f.services

/-- The plan of a file after its run. -/
def planOf (settings : Settings) (f : SourceFile) (r : Run) : FilePlan where
  source := f.name
  package := f.package
  imports := (f.aliasTable settings).paths
  references := (f.aliasTable settings).references
  messages := r.messages
  services := r.services

/-- The plan of a file, or none for a file that is skipped. -/
def plan (settings : Settings) (f : SourceFile) : Except Report (Option FilePlan) :=
  if f.skip then .ok none
  else if f.hasBlankPackage then Report.fail f.blankPackage
  else (f.run settings).report.result (some (f.planOf settings (f.run settings)))

/-- The events of a run over the file, in order. -/
def events (settings : Settings) (f : SourceFile) : List Event :=
  if f.skip then [.fileSkipped]
  else if f.hasBlankPackage then [.fault f.blankPackage]
  else
    let r := f.run settings
    r.events ++ [.filePlanned r.messages.length r.services.length r.report.size]

end SourceFile
end Redaction
