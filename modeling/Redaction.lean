import Redaction.Json.Reader
import Redaction.Plan.Json
import Redaction.Schema.Json
import Redaction.Proofs.Run
import Redaction.Proofs.File
import Redaction.Proofs.Payload
import Redaction.Proofs.FieldVerdict
import Redaction.Proofs.FieldCases
import Redaction.Proofs.FieldCoherence
import Redaction.Proofs.GoLexer
import Redaction.Proofs.GoLiteral
import Redaction.Proofs.AliasTable
import Redaction.Proofs.FailFast
import Redaction.Proofs.ItemRule
import Redaction.Proofs.FieldTyping
import Redaction.Proofs.AliasedPaths
import Redaction.Proofs.CallPolicy
import Redaction.Proofs.Events
import Redaction.Proofs.Outline
import Redaction.Proofs.FaultOrigin
import Redaction.Proofs.QualifiedNames
import Redaction.Proofs.References
import Redaction.Proofs.SchemaJson
import Redaction.Proofs.FreeAliases
import Redaction.Proofs.Placeholders
import Redaction.Proofs.JsonText
import Redaction.Proofs.PlanText
import Redaction.Proofs.ServiceFaults
import Redaction.Proofs.OptionalFields
import Redaction.Proofs.MismatchHints
import Redaction.Proofs.MessageOutcome
import Redaction.Proofs.SchemaSpelling
import Redaction.Proofs.Environment
