import TypedQuery.Coercion.Arguments
import TypedQuery.Coercion.Basic
import TypedQuery.Coercion.Consulted
import TypedQuery.Coercion.Context
import TypedQuery.Coercion.Equations
import TypedQuery.Execution.Log
import TypedQuery.Execution.Report
import TypedQuery.Execution.Run
import TypedQuery.Execution.Serialize
import TypedQuery.Members
import TypedQuery.Number.Basic
import TypedQuery.Number.Decimal
import TypedQuery.Number.Shortest
import TypedQuery.Outcome.Basic
import TypedQuery.Outcome.Code
import TypedQuery.Outcome.Failure
import TypedQuery.Proofs.Coercion.Gather
import TypedQuery.Proofs.Coercion.Induction
import TypedQuery.Proofs.Coercion.Reference
import TypedQuery.Proofs.Raw.Nodes
import TypedQuery.Query.Definitions
import TypedQuery.Query.Document
import TypedQuery.Query.Quoted
import TypedQuery.Query.Reader
import TypedQuery.Query.Scan
import TypedQuery.Query.Token
import TypedQuery.Raw.Basic
import TypedQuery.Raw.Plain
import TypedQuery.Raw.Text
import TypedQuery.Schema.Basic
import TypedQuery.Schema.Operation
import TypedQuery.Settings.Basic
import TypedQuery.Settings.Files
import TypedQuery.Settings.Load
import TypedQuery.Text.Blank
import TypedQuery.Text.Cased
import TypedQuery.Text.Json
import TypedQuery.Text.LowerCase
import TypedQuery.Text.Quoted
import TypedQuery.Text.Units
import TypedQuery.Types.Graph
import TypedQuery.Types.Reference
import TypedQuery.Types.Scalar
import TypedQuery.Value.Ancestry
import TypedQuery.Value.Basic
import TypedQuery.Value.Text
import TypedQuery.Proofs.Coercion.Done
import TypedQuery.Proofs.Members
import TypedQuery.Proofs.Coercion.Conformance
import TypedQuery.Proofs.Coercion.Arguments
import TypedQuery.Proofs.Types.Builtin
import TypedQuery.Proofs.Coercion.Agreement
import TypedQuery.Proofs.Coercion.Relabel
import TypedQuery.Proofs.Coercion.Substitution
import TypedQuery.Proofs.Coercion.Budget
import TypedQuery.Proofs.Coercion.Parts
import TypedQuery.Proofs.Coercion.Locality
import TypedQuery.Proofs.Number.Integral
import TypedQuery.Proofs.Raw.Plain
import TypedQuery.Proofs.Coercion.Literal
import TypedQuery.Proofs.Query.Numeral
import TypedQuery.Proofs.Coercion.Telling
import TypedQuery.Proofs.Types.Reach
import TypedQuery.Proofs.Raw.Texts
import TypedQuery.Proofs.Coercion.Termination
import TypedQuery.Proofs.Coercion.Required
import TypedQuery.Proofs.Value.Assignment
import TypedQuery.Proofs.Execution.Field
import TypedQuery.Proofs.Execution.Response
import TypedQuery.Proofs.Query.Names
import TypedQuery.Proofs.Execution.Isolation
import TypedQuery.Proofs.Coercion.Declared
import TypedQuery.Proofs.Execution.Written
import TypedQuery.Proofs.Execution.ReadBack
import TypedQuery.Proofs.Schema.Index
import TypedQuery.Proofs.Query.Spelling
import TypedQuery.Proofs.Query.Printed
import TypedQuery.Proofs.Coercion.Walk
import TypedQuery.Proofs.Coercion.Pointing
import TypedQuery.Proofs.Coercion.Failing
import TypedQuery.Proofs.Coercion.Absence
import TypedQuery.Proofs.Coercion.Enforcement
import TypedQuery.Proofs.Outcome.Template
import TypedQuery.Proofs.Coercion.Reasons
import TypedQuery.Proofs.Execution.Results
import TypedQuery.Proofs.Types.Numerals
import TypedQuery.Proofs.Coercion.ReadsAs
import TypedQuery.Proofs.Coercion.Idempotence
import TypedQuery.Proofs.Coercion.Resolved
import TypedQuery.Proofs.Coercion.ScalarInput
import TypedQuery.Proofs.Coercion.Relevance
import TypedQuery.Proofs.Schema.References
import TypedQuery.Proofs.Settings.Layers
import TypedQuery.Proofs.Coercion.Equivariance
import TypedQuery.Proofs.Outcome.Combined
import TypedQuery.Proofs.Outcome.PathText
import TypedQuery.Proofs.Execution.Logging
import TypedQuery.Proofs.Coercion.Consulted
