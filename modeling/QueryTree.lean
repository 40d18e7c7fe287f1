import QueryTree.Text.Printable
import QueryTree.Text.Upper
import QueryTree.Number.Reader
import QueryTree.Moment.Reader
import QueryTree.Room
import QueryTree.Geometry.WellKnownText
import QueryTree.Geometry.Decode
import QueryTree.Value.Nesting
import QueryTree.Value.Embedding
import QueryTree.Node.Decode
import QueryTree.Node.Text
import QueryTree.Registry
import QueryTree.Construct
import QueryTree.Json.Reader
import QueryTree.Json.Dump
import QueryTree.Value.Equality
import QueryTree.Journal
import QueryTree.Settings.Basic
import QueryTree.Main
import QueryTree.Proofs.Decoding
import QueryTree.Proofs.Room
import QueryTree.Proofs.Grammar.Geometry
import QueryTree.Proofs.Grammar.Node
import QueryTree.Proofs.Grammar.Dates
import QueryTree.Proofs.Encoding
import QueryTree.Proofs.Objects
import QueryTree.Proofs.Grammar.Crowding
import QueryTree.Proofs.Grammar.Decision
import QueryTree.Proofs.Nesting
import QueryTree.Proofs.Positions
import QueryTree.Proofs.MomentText
import QueryTree.Proofs.Rendering
import QueryTree.Proofs.RoundTrip
import QueryTree.Proofs.NumberText
import QueryTree.Proofs.Readability.Token
import QueryTree.Proofs.Readability.Leaf
import QueryTree.Proofs.Readability.Outline
import QueryTree.Proofs.Readability.SameQuery
import QueryTree.Proofs.Delimiters
import QueryTree.Proofs.Builders
import QueryTree.Proofs.Filters
import QueryTree.Proofs.Faults
import QueryTree.Proofs.Writable
import QueryTree.Proofs.Outcomes
import QueryTree.Proofs.Agreement.Combinators
import QueryTree.Proofs.Agreement.Data
import QueryTree.Proofs.Agreement.Slots
import QueryTree.Proofs.Agreement.Verdicts
import QueryTree.Proofs.Limits
import QueryTree.Proofs.Agreement.Sides
import QueryTree.Proofs.Agreement.Keys
import QueryTree.Proofs.HandBuilt
import QueryTree.Proofs.Equality.Numbers
import QueryTree.Proofs.Equality.Pieces
import QueryTree.Proofs.Equality.Trees
import QueryTree.Proofs.WellKnownText
import QueryTree.Proofs.Places
import QueryTree.Proofs.Construction
import QueryTree.Proofs.BuilderCalls
import QueryTree.Proofs.Geometries
import QueryTree.Proofs.MomentOrder
import QueryTree.Proofs.MomentReading
import QueryTree.Proofs.Numbers.Rounding
import QueryTree.Proofs.Numbers.Shortest
import QueryTree.Proofs.Numbers.Numerals
import QueryTree.Proofs.Numbers.Reading
import QueryTree.Proofs.FilterTexts
import QueryTree.Proofs.Numbers.Fewest
import QueryTree.Proofs.Numbers.Scanner
import QueryTree.Proofs.Numbers.Order
import QueryTree.Proofs.Numbers.Nearest
import QueryTree.Proofs.Numbers.Acceptance
import QueryTree.Proofs.Numbers.Canonical
import QueryTree.Proofs.Numbers.Respelling
import QueryTree.Proofs.Numbers.Exactness
import QueryTree.Proofs.Readability.Signs
import QueryTree.Proofs.Patterns
import QueryTree.Proofs.FilterFaults
import QueryTree.Proofs.BuilderChecks
import QueryTree.Proofs.Messages
import QueryTree.Proofs.Escapes
import QueryTree.Proofs.Printable
import QueryTree.Proofs.Documents
import QueryTree.Proofs.ErrorLines
