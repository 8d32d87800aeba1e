import Redaction.AliasTable
import Redaction.Plan.Service

/-!
# Events of a run

What a run reports while it plans: one event per thing that a user may want to know about, with its
level, its text and its details. A detail is a text, or the plan of a method.
-/

namespace Redaction

/-- How much an event matters. -/
inductive Level where
  | warning
  | info
  | debug
  | trace
deriving DecidableEq

/-- The name of a level. -/
def Level.name : Level → String
  | warning => "WARNING"
  | info => "INFO"
  | debug => "DEBUG"
  | trace => "TRACE"

/-- A detail of an event. -/
inductive Detail where
  | text (s : String)
  | method (p : MethodPlan)

/-- An event of a run. -/
inductive Event where
  /-- An import has an invalid path. -/
  | invalidPath (path reason : String)
  /-- An import declares nothing to refer to. -/
  | noSymbol (path : String)
  /-- An import has an invalid package name. -/
  | invalidPackage (path package reason : String)
  /-- The package name of an import was taken. -/
  | aliasTaken (path name : String)
  /-- The imports of a file are settled. -/
  | importsSettled (references : Nat)
  /-- The file is left out on request. -/
  | fileSkipped
  /-- A fault was found. -/
  | fault (f : Fault)
  /-- A message takes no part in redaction. -/
  | messageIgnored (message : String)
  /-- A service is passed through. -/
  | serviceSkipped (service : String)
  /-- A method is passed through, and its service is not. -/
  | methodSkipped (method : String)
  /-- Calls of a method are denied. -/
  | methodDenied (method : String) (code : StatusCode)
  /-- A method has its plan. -/
  | methodResolved (plan : MethodPlan)
  /-- All of the file was tried. -/
  | filePlanned (messages services faults : Nat)
deriving DecidableEq

namespace Event

/-- How much the event matters. -/
def level : Event → Level
  | fault _ => .warning
  | fileSkipped | messageIgnored _ | serviceSkipped _ | methodSkipped _ => .info
  | methodResolved _ => .trace
  | _ => .debug

/-- The text of the event. -/
def text : Event → String
  | invalidPath _ _ => "skipping invalid import path"
  | noSymbol _ => "skipping import without usable types"
  | invalidPackage _ _ _ => "skipping import with invalid package name"
  | aliasTaken _ _ => "resolved import alias conflict"
  | importsSettled _ => "import references generated"
  | fileSkipped => "file skipped"
  | fault _ => "redaction error"
  | messageIgnored _ => "message ignored"
  | serviceSkipped _ => "service skipped"
  | methodSkipped _ => "method skipped"
  | methodDenied _ _ => "method denied"
  | methodResolved _ => "method resolved"
  | filePlanned _ _ _ => "file planned"

/-- A count as a detail. -/
def count (n : Nat) : Detail := .text (toString n)

/-- The details of the event under their names. -/
def details : Event → List (String × Detail)
  | invalidPath path reason => [("path", .text path), ("reason", .text reason)]
  | noSymbol path => [("path", .text path)]
  | invalidPackage path package reason =>
    [("path", .text path), ("package", .text package), ("reason", .text reason)]
  | aliasTaken path name => [("path", .text path), ("alias", .text name)]
  | importsSettled references => [("count", count references)]
  | fileSkipped => []
  | fault f => [("location", .text f.location), ("error", .text f.message)]
  | messageIgnored message => [("message", .text message)]
  | serviceSkipped service => [("service", .text service)]
  | methodSkipped method => [("method", .text method)]
  | methodDenied method code => [("method", .text method), ("status", .text code.name)]
  | methodResolved plan => [("method", .text plan.fullName), ("decision", .method plan)]
  | filePlanned messages services faults =>
    [("messages", count messages), ("services", count services), ("errors", count faults)]

end Event

/-! ### Events of the parts of a run -/

namespace AliasTable

/-- The events of an import. -/
def events (t : AliasTable) (i : Import) : List Event :=
  match t.assess i with
  | .refused (.invalidPath reason) => [.invalidPath i.importPath reason]
  | .refused .known => []
  | .refused .noSymbol => [.noSymbol i.importPath]
  | .refused (.invalidPackage reason) => [.invalidPackage i.importPath i.packageName reason]
  | .bound name _ true => [.aliasTaken i.importPath name]
  | .bound _ _ false => []

/-- The events of several imports in a row. -/
def eventsOf (t : AliasTable) : List Import → List Event
  | [] => []
  | i :: rest => t.events i ++ eventsOf (t.add i) rest

/-- The events of the imports of a source file. -/
def fileEvents (runtimePath : String) (f : SourceFile) : List Event :=
  (start f.importPath runtimePath).eventsOf f.imports
    ++ [.importsSettled (ofFile runtimePath f).references.length]

end AliasTable

/-- The events of a planned message. -/
def MessagePlan.events (p : MessagePlan) : List Event :=
  if p.ignored then [.messageIgnored p.fullName] else []

/-- The events of a planned method of a service that is skipped or not. -/
def MethodPlan.events (serviceSkipped : Bool) (p : MethodPlan) : List Event :=
  (if p.skip && !serviceSkipped then [.methodSkipped p.fullName]
    else if p.internal then [.methodDenied p.fullName p.statusCode]
    else []) ++ [.methodResolved p]

/-- The events of a planned service. -/
def ServicePlan.events (p : ServicePlan) : List Event :=
  (if p.skip then [.serviceSkipped p.fullName] else [])
    ++ p.methods.flatMap (MethodPlan.events p.skip)

end Redaction
