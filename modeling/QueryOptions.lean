import QueryOptions.Memory.Collection
import QueryOptions.Number.Reading
import QueryOptions.Proofs.Request.Admission
import QueryOptions.Proofs.Text.Splitting
import QueryOptions.Request
import QueryOptions.Sql.Execution
import QueryOptions.Sql.Sample
import QueryOptions.Sql.Statement
import QueryOptions.Proofs.Request.Shape
import QueryOptions.Proofs.Sql.LiteralIndependence
import QueryOptions.Proofs.Order.StableSort
import QueryOptions.Proofs.Sql.CellOrder
import QueryOptions.Proofs.Sql.Distinct
import QueryOptions.Proofs.Sql.Roots
import QueryOptions.Proofs.Sql.Paging
import QueryOptions.Proofs.Memory.Sorting
import QueryOptions.Proofs.Agreement.Users
import QueryOptions.Proofs.Agreement.Conditions
import QueryOptions.Proofs.Agreement.Clauses
import QueryOptions.Proofs.Agreement.Reference
import QueryOptions.Proofs.Agreement.Tables
import QueryOptions.Proofs.Memory.Received
import QueryOptions.Proofs.Agreement.Collections
import QueryOptions.Proofs.Agreement.Backends
import QueryOptions.Proofs.Memory.Permutation
import QueryOptions.Proofs.Memory.Responses
import QueryOptions.Proofs.Request.Dropping
import QueryOptions.Proofs.Request.HeldTexts
import QueryOptions.Proofs.Request.WrittenBounds
import QueryOptions.Proofs.Session.Steps
import QueryOptions.Proofs.Session.History
import QueryOptions.Proofs.Session.Attempts
import QueryOptions.Proofs.Links.FormDecoding
import QueryOptions.Proofs.Links.Decoded
import QueryOptions.Proofs.Links.Writable
import QueryOptions.Proofs.Links.Pages
import QueryOptions.Proofs.Links.Walk
import QueryOptions.Proofs.Text.Blanks
import QueryOptions.Proofs.Grammar.Derivation
import QueryOptions.Proofs.Grammar.Forms
import QueryOptions.Proofs.Grammar.Reading
import QueryOptions.Proofs.Request.Numerals
import QueryOptions.Proofs.Grammar.Rendering
import QueryOptions.Proofs.Session.Overlong
import QueryOptions.Proofs.Sql.Placeholders
import QueryOptions.Proofs.Sql.Counting
import QueryOptions.Proofs.Sql.Expanding
import QueryOptions.Proofs.Sql.Collections
import QueryOptions.Proofs.Session.Ceiling
import QueryOptions.Proofs.Grammar.NullChecks
import QueryOptions.Proofs.Links.SameRequest
import QueryOptions.Proofs.Memory.Kept
import QueryOptions.Proofs.Memory.Neighbours
import QueryOptions.Proofs.Memory.Columns
import QueryOptions.Proofs.Memory.Lexicographic
import QueryOptions.Proofs.Memory.Described
import QueryOptions.Proofs.Links.Targets
import QueryOptions.Proofs.Links.Continuation
import QueryOptions.Proofs.Grammar.Quotations
import QueryOptions.Proofs.Grammar.RuleOrder
import QueryOptions.Proofs.Grammar.Recognition
import QueryOptions.Proofs.Memory.Filtered
import QueryOptions.Proofs.Memory.Conjunction
import QueryOptions.Proofs.Text.Wildcards
import QueryOptions.Proofs.Memory.Patterns
import QueryOptions.Proofs.Grammar.RawValues
import QueryOptions.Proofs.Memory.Trichotomy
import QueryOptions.Proofs.Number.Rounding
import QueryOptions.Proofs.Number.Decimals
import QueryOptions.Proofs.Number.Spelling
import QueryOptions.Proofs.Memory.Expressions
import QueryOptions.Proofs.Request.NormalForms
import QueryOptions.Proofs.Memory.Inside
import QueryOptions.Proofs.Request.Aliases
import QueryOptions.Proofs.Session.Aliases
