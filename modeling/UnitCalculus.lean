import UnitCalculus.Analysis
import UnitCalculus.Canonical
import UnitCalculus.Catalog
import UnitCalculus.CommandLine
import UnitCalculus.CommandLine.Arguments
import UnitCalculus.CommandLine.Command
import UnitCalculus.Decimal.Binary
import UnitCalculus.Decimal.Layout
import UnitCalculus.Decimal.Literal
import UnitCalculus.Decimal.Row
import UnitCalculus.Decimal.Shortest
import UnitCalculus.Definitions
import UnitCalculus.Definitions.Line
import UnitCalculus.Definitions.Load
import UnitCalculus.Diagnostic
import UnitCalculus.Dimension
import UnitCalculus.Duration
import UnitCalculus.ElementaryFunction
import UnitCalculus.Exponent
import UnitCalculus.Expression
import UnitCalculus.Expression.Fault
import UnitCalculus.Expression.Grammar
import UnitCalculus.Expression.Lexer
import UnitCalculus.Expression.Number
import UnitCalculus.Expression.Token
import UnitCalculus.Expression.Trace
import UnitCalculus.Fault
import UnitCalculus.Field.Fault
import UnitCalculus.Field.Render
import UnitCalculus.Field.Spec
import UnitCalculus.Files
import UnitCalculus.Json
import UnitCalculus.Kind
import UnitCalculus.Kinded
import UnitCalculus.LogRecord
import UnitCalculus.Magnitude.Arithmetic
import UnitCalculus.Magnitude.Basic
import UnitCalculus.Magnitude.Complex
import UnitCalculus.Magnitude.Elementary
import UnitCalculus.Magnitude.Order
import UnitCalculus.Magnitude.Power
import UnitCalculus.Magnitude.Text
import UnitCalculus.Main
import UnitCalculus.Operand
import UnitCalculus.Operand.Conversion
import UnitCalculus.Quantity
import UnitCalculus.RunScope
import UnitCalculus.SI
import UnitCalculus.Service
import UnitCalculus.Service.Endpoint
import UnitCalculus.Service.Request
import UnitCalculus.Settings
import UnitCalculus.TableFile
import UnitCalculus.Temperature
import UnitCalculus.Template
import UnitCalculus.Template.Fault
import UnitCalculus.Text.Blank
import UnitCalculus.Text.Digit
import UnitCalculus.Text.Printable
import UnitCalculus.Text.Quoted
import UnitCalculus.Text.Upper
import UnitCalculus.UnitTable
import UnitCalculus.Proofs.Dimension.Canonical
import UnitCalculus.Proofs.Dimension.Powers
import UnitCalculus.Proofs.Dimension.Laws
import UnitCalculus.Proofs.Expression.Derivation
import UnitCalculus.Proofs.Expression.Reading
import UnitCalculus.Proofs.Expression.Acceptance
import UnitCalculus.Proofs.Dimension.Scale
import UnitCalculus.Proofs.Formula
import UnitCalculus.Proofs.Formula.Rescaling
import UnitCalculus.Proofs.Magnitude.Scalar
import UnitCalculus.Proofs.Formula.DimensionalAnalysis
import UnitCalculus.Proofs.Kind
import UnitCalculus.Proofs.Magnitude.Comparison
import UnitCalculus.Proofs.Formula.Forgetting
import UnitCalculus.Proofs.Decimal.Nearest
import UnitCalculus.Proofs.Magnitude.Unity
import UnitCalculus.Proofs.Decimal.Digits
import UnitCalculus.Proofs.Expression.Lexing
import UnitCalculus.Proofs.Canonical.BaseUnits
import UnitCalculus.Proofs.Canonical.RoundTrip
import UnitCalculus.Proofs.Canonical.UnitText
import UnitCalculus.Proofs.Decimal.Exact
import UnitCalculus.Proofs.Decimal.Reading
import UnitCalculus.Proofs.UnitTable
import UnitCalculus.Proofs.SI
import UnitCalculus.Proofs.UnitTable.Lookup
import UnitCalculus.Proofs.Definitions.Lines
import UnitCalculus.Proofs.Definitions.Readings
import UnitCalculus.Proofs.Definitions.Sequence
import UnitCalculus.Proofs.Definitions.Completion
import UnitCalculus.Proofs.Expression.Symbols
import UnitCalculus.Proofs.Catalog
import UnitCalculus.Proofs.Definitions.Naming
import UnitCalculus.Proofs.Dimension.Meaning
import UnitCalculus.Proofs.Expression.Occurrences
import UnitCalculus.Proofs.Expression.Flattening
import UnitCalculus.Proofs.Kind.Session
import UnitCalculus.Proofs.UnitTable.Store
import UnitCalculus.Proofs.Operand.Keys
import UnitCalculus.Proofs.Service.Independence
import UnitCalculus.Proofs.Decimal.Sign
import UnitCalculus.Proofs.Magnitude.Sign
import UnitCalculus.Proofs.Expression.Positions
import UnitCalculus.Proofs.Field
import UnitCalculus.Proofs.Template
import UnitCalculus.Proofs.Template.Conversion
import UnitCalculus.Proofs.Service.Conversion
import UnitCalculus.Proofs.Service.Refusal
import UnitCalculus.Proofs.CommandLine.Conversion
import UnitCalculus.Proofs.Expression.Spans
import UnitCalculus.Proofs.Expression.Concatenation
import UnitCalculus.Proofs.Expression.Neighbours
import UnitCalculus.Proofs.Expression.Respelt
import UnitCalculus.Proofs.Expression.Spelling
import UnitCalculus.Proofs.Expression.Viable
import UnitCalculus.Proofs.Expression.Detection
import UnitCalculus.Proofs.Expression.FaultPosition
import UnitCalculus.Proofs.Expression.MalformedRuns
import UnitCalculus.Proofs.Expression.SideBySide
import UnitCalculus.Proofs.UnitTable.NewSymbols
import UnitCalculus.Proofs.Definitions.Effect
import UnitCalculus.Proofs.Decimal.LongestPrefix
import UnitCalculus.Proofs.Decimal.NumberForms
import UnitCalculus.Proofs.Decimal.LeadingNumbers
import UnitCalculus.Proofs.Analysis
import UnitCalculus.Proofs.Service.Shown
import UnitCalculus.Proofs.Definitions.Comments
import UnitCalculus.Proofs.Definitions.LineNumbers
import UnitCalculus.Proofs.Definitions.NormalForm
import UnitCalculus.Proofs.Definitions.Joined
import UnitCalculus.Proofs.Dimension.Roots
import UnitCalculus.Proofs.ElementaryFunction
import UnitCalculus.Proofs.Decimal.Products
import UnitCalculus.Proofs.Settings
import UnitCalculus.Proofs.Expression.Progress
import UnitCalculus.Proofs.Exponent
import UnitCalculus.Proofs.Dimension.Text
import UnitCalculus.Proofs.Service.DimensionText
