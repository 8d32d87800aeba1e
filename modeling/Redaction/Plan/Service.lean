import Redaction.Plan.Message
import Redaction.Settings
import Redaction.Template

/-!
# Plans of services and methods

How calls to a service are gated. The policy for a method is settled over three levels: what the
method leaves unset it takes from its service, and what the service leaves unset comes from the
settings of the run.

* A skipped method, or a method of a skipped service, is passed through: it is never internal, and
  its own code and message are not looked at.
* An internal method is denied with a status code and a message.
* The payload of a method that is neither, and that streams in no direction, is redacted.
-/

namespace Redaction

/-- How calls are gated: the settled call options of a service or a method. -/
structure CallPolicy where
  skip : Bool
  internal : Bool
  statusCode : StatusCode
  errorTemplate : String
deriving DecidableEq

/-- What generated code does with a method. -/
structure MethodPlan where
  name : String
  fullName : String
  skip : Bool
  /-- The input type as it is written in the generated file. -/
  input : String
  output : MessagePlan
  /-- Whether calls are denied. -/
  internal : Bool
  statusCode : StatusCode
  /-- The message of a denied call, with the names put in. -/
  errorMessage : String
  clientStreaming : Bool
  serverStreaming : Bool
deriving DecidableEq

namespace MethodPlan

/-- Whether the method streams in some direction. -/
def streams (p : MethodPlan) : Bool := p.clientStreaming || p.serverStreaming

/-- Whether the response is redacted. -/
def redactsResponse (p : MethodPlan) : Bool := !p.skip && !p.internal && !p.streams

/-- The message of a denied call as a Go literal. -/
def errorLiteral (p : MethodPlan) : String := Go.textLiteral p.errorMessage

end MethodPlan

/-- What generated code does with a service. -/
structure ServicePlan where
  name : String
  fullName : String
  skip : Bool
  methods : List MethodPlan
deriving DecidableEq

/-! ### Policies -/

/-- The status code of call options, with the one that holds if they set none. -/
def CallOptions.statusCode (location : String) (inherited : StatusCode) (o : CallOptions) :
    Except Fault StatusCode :=
  match o.code with
  | none => .ok inherited
  | some n =>
    match StatusCode.ofNat? n.toNat with
    | some c => .ok c
    | none => .error (Fault.invalidStatusCode location n)

/-- The one thing that can be wrong with call options is a number above those of the codes. -/
theorem CallOptions.statusCode_eq_error_iff (location : String) (inherited : StatusCode)
    (o : CallOptions) (x : Fault) :
    o.statusCode location inherited = .error x ↔
      ∃ n, o.code = some n ∧ 16 < n.toNat ∧ x = Fault.invalidStatusCode location n := by
  unfold statusCode
  cases o.code with
  | none => simp
  | some n =>
    simp only [← StatusCode.ofNat?_eq_none_iff, Option.some.injEq, exists_eq_left']
    cases StatusCode.ofNat? n.toNat with
    | none => simp [eq_comm]
    | some c => simp

namespace CallPolicy

/-- The policy of a service under the settings of a run. -/
def ofService (settings : Settings) (s : Service) : Except Fault CallPolicy := do
  let statusCode ← s.options.statusCode s.fullName settings.statusCode
  return {
    skip := s.options.skip
    internal := s.options.internal
    statusCode := statusCode
    errorTemplate := s.options.errorMessage.getD settings.errorTemplate }

/-- The policy of a method with some options of its own, under the policy of its service. -/
def refine (location : String) (inherited : CallPolicy) (o : CallOptions) :
    Except Fault CallPolicy :=
  if inherited.skip || o.skip then .ok { inherited with skip := true, internal := false }
  else do
    let statusCode ← o.statusCode location inherited.statusCode
    return {
      skip := false
      internal := inherited.internal || o.internal
      statusCode := statusCode
      errorTemplate := o.errorMessage.getD inherited.errorTemplate }

theorem ofService_eq_error_iff (settings : Settings) (s : Service) (x : Fault) :
    ofService settings s = .error x ↔
      ∃ n, s.options.code = some n ∧ 16 < n.toNat ∧
        x = Fault.invalidStatusCode s.fullName n := by
  rw [← CallOptions.statusCode_eq_error_iff s.fullName settings.statusCode, ofService]
  cases s.options.statusCode s.fullName settings.statusCode <;> simp

end CallPolicy

/-! ### Resolution -/

/-- A part of the schema that must be there. -/
def required {α : Type} (location reason : String) : Option α → Except Fault α
  | some a => .ok a
  | none => .error (Fault.structural location reason)

namespace Method

/-- Where the faults of a method are located: its qualified name, made up if it has none. -/
def location (s : Service) (m : Method) : String :=
  if m.fullName = "" then s.fullName ++ "." ++ m.name else m.fullName

/-- The plan of a method under the policy of its service. -/
def resolve (naming : Naming) (s : Service) (inherited : CallPolicy) (m : Method) :
    Except Report MethodPlan := do
  let location := m.location s
  let policy ← Report.ofExcept (inherited.refine location m.options)
  let input ← Report.ofExcept (required location "method has no input type" m.input)
  let output ← Report.ofExcept (required location "method has no output type" m.output)
  let output ← output.resolve naming
  return {
    name := m.name
    fullName := location
    skip := policy.skip
    input := naming input
    output := output
    internal := policy.internal
    statusCode := policy.statusCode
    errorMessage := Template.fill policy.errorTemplate s.name m.name
    clientStreaming := m.clientStreaming
    serverStreaming := m.serverStreaming }

/-- A method that has no plan has a fault. -/
theorem explained_resolve (naming : Naming) (s : Service) (inherited : CallPolicy) (m : Method) :
    Report.Explained (m.resolve naming s inherited) := by
  refine Report.explained_bind (Report.explained_ofExcept _) fun policy => ?_
  refine Report.explained_bind (Report.explained_ofExcept _) fun input => ?_
  refine Report.explained_bind (Report.explained_ofExcept _) fun output => ?_
  exact Report.explained_bind (output.explained_resolve naming) fun plan => Report.explained_ok _

end Method

namespace Service

/-- The plan of a service. A bad status code of its own fails the whole service; otherwise every
method is tried, or every method up to the first failure if the run fails fast. -/
def resolve (settings : Settings) (naming : Naming) (s : Service) : Except Report ServicePlan := do
  let policy ← Report.ofExcept (CallPolicy.ofService settings s)
  let methods ← Report.collect
    (Report.tried settings.failFast (s.methods.map (Method.resolve naming s policy)))
  return { name := s.name, fullName := s.fullName, skip := policy.skip, methods := methods }

/-- A service that has no plan has a fault. -/
theorem explained_resolve (settings : Settings) (naming : Naming) (s : Service) :
    Report.Explained (s.resolve settings naming) := by
  refine Report.explained_bind (Report.explained_ofExcept _) fun policy => ?_
  exact Report.explained_bind (Report.explained_result _ _) fun methods => Report.explained_ok _

end Service
end Redaction
