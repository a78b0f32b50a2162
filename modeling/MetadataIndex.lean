import MetadataIndex.Authority.Cache
import MetadataIndex.Authority.Fields
import MetadataIndex.Authority.Identifier
import MetadataIndex.Authority.Lookup
import MetadataIndex.Authority.Payload
import MetadataIndex.Authority.Record
import MetadataIndex.Authority.Resolver
import MetadataIndex.Citation.Address
import MetadataIndex.Citation.Fetcher
import MetadataIndex.Date.Basic
import MetadataIndex.Date.Century
import MetadataIndex.Date.Gaps
import MetadataIndex.Date.Instant
import MetadataIndex.Date.Reading
import MetadataIndex.Decimal.Integral
import MetadataIndex.Decimal.Numeral
import MetadataIndex.Decimal.Places
import MetadataIndex.Decimal.Shortest
import MetadataIndex.Effect
import MetadataIndex.Fault
import MetadataIndex.Field.Basic
import MetadataIndex.Field.Collector
import MetadataIndex.Field.FreeText
import MetadataIndex.Field.SortKey
import MetadataIndex.Geo.Basic
import MetadataIndex.Group.Arena
import MetadataIndex.Group.Builder
import MetadataIndex.Group.Draft
import MetadataIndex.Group.Finish
import MetadataIndex.Group.Record
import MetadataIndex.Json.Basic
import MetadataIndex.Json.Display
import MetadataIndex.Json.Parser
import MetadataIndex.Json.Printer
import MetadataIndex.Json.Setting
import MetadataIndex.Pattern.Matcher
import MetadataIndex.Pattern.Parser
import MetadataIndex.Pattern.Syntax
import MetadataIndex.Pattern.Template
import MetadataIndex.Proofs.Authority.Answered
import MetadataIndex.Proofs.Authority.Blank
import MetadataIndex.Proofs.Authority.Entries
import MetadataIndex.Proofs.Authority.Facet
import MetadataIndex.Proofs.Authority.Kept
import MetadataIndex.Proofs.Authority.Language
import MetadataIndex.Proofs.Authority.Searched
import MetadataIndex.Proofs.Authority.Shapes
import MetadataIndex.Proofs.Authority.Staleness
import MetadataIndex.Proofs.Citation.Template
import MetadataIndex.Proofs.Date.Absolute
import MetadataIndex.Proofs.Date.Calendar
import MetadataIndex.Proofs.Date.CenturiesOnce
import MetadataIndex.Proofs.Date.Century
import MetadataIndex.Proofs.Date.Closing
import MetadataIndex.Proofs.Date.Formats
import MetadataIndex.Proofs.Date.Gaps
import MetadataIndex.Proofs.Date.Instant
import MetadataIndex.Proofs.Date.Midnight
import MetadataIndex.Proofs.Date.Reading
import MetadataIndex.Proofs.Date.Utc
import MetadataIndex.Proofs.Date.Written
import MetadataIndex.Proofs.Date.Years
import MetadataIndex.Proofs.Decimal.Shortest
import MetadataIndex.Proofs.Decimal.Written
import MetadataIndex.Proofs.Effect.Comparison
import MetadataIndex.Proofs.Effect.Faults
import MetadataIndex.Proofs.Effect.Invariant
import MetadataIndex.Proofs.Field.Facet
import MetadataIndex.Proofs.Field.Index
import MetadataIndex.Proofs.Field.Names
import MetadataIndex.Proofs.Field.Sorted
import MetadataIndex.Proofs.Field.Written
import MetadataIndex.Proofs.Geo.Axes
import MetadataIndex.Proofs.Geo.Described
import MetadataIndex.Proofs.Geo.Grouping
import MetadataIndex.Proofs.Geo.Guessed
import MetadataIndex.Proofs.Geo.Refusals
import MetadataIndex.Proofs.Geo.Unreadable
import MetadataIndex.Proofs.Group.Address
import MetadataIndex.Proofs.Group.Alike
import MetadataIndex.Proofs.Group.Apart
import MetadataIndex.Proofs.Group.Built
import MetadataIndex.Proofs.Group.Collected
import MetadataIndex.Proofs.Group.Drafted
import MetadataIndex.Proofs.Group.Finished
import MetadataIndex.Proofs.Group.Gifts
import MetadataIndex.Proofs.Group.Key
import MetadataIndex.Proofs.Group.MainValue
import MetadataIndex.Proofs.Group.Marked
import MetadataIndex.Proofs.Group.Named
import MetadataIndex.Proofs.Group.Nesting
import MetadataIndex.Proofs.Group.Queue
import MetadataIndex.Proofs.Group.Readings
import MetadataIndex.Proofs.Group.Record
import MetadataIndex.Proofs.Group.Recursion
import MetadataIndex.Proofs.Group.Shown
import MetadataIndex.Proofs.Group.Single
import MetadataIndex.Proofs.Group.Sorted
import MetadataIndex.Proofs.Json.Written
import MetadataIndex.Proofs.Pattern.Literal
import MetadataIndex.Proofs.Pattern.Problems
import MetadataIndex.Proofs.Pattern.Threads
import MetadataIndex.Proofs.Rule.Accepted
import MetadataIndex.Proofs.Rule.Faults
import MetadataIndex.Proofs.Rule.Isolation
import MetadataIndex.Proofs.Rule.Override
import MetadataIndex.Proofs.Rule.Shelf
import MetadataIndex.Proofs.Service.WarmStart
import MetadataIndex.Proofs.Structure.Divisions
import MetadataIndex.Proofs.Structure.Hierarchy
import MetadataIndex.Proofs.Structure.Scope
import MetadataIndex.Proofs.Text.Joined
import MetadataIndex.Proofs.Text.Percent
import MetadataIndex.Proofs.Text.Pieces
import MetadataIndex.Proofs.Text.References
import MetadataIndex.Proofs.Text.Trimmed
import MetadataIndex.Proofs.Transform.Alike
import MetadataIndex.Proofs.Transform.Caching
import MetadataIndex.Proofs.Transform.Chronicle
import MetadataIndex.Proofs.Transform.Coordinates
import MetadataIndex.Proofs.Transform.Duplicates
import MetadataIndex.Proofs.Transform.Extension
import MetadataIndex.Proofs.Transform.Failures
import MetadataIndex.Proofs.Transform.FirstMatch
import MetadataIndex.Proofs.Transform.MainValue
import MetadataIndex.Proofs.Transform.Mark
import MetadataIndex.Proofs.Transform.Matches
import MetadataIndex.Proofs.Transform.Repetition
import MetadataIndex.Proofs.Transform.Restriction
import MetadataIndex.Proofs.Transform.Separators
import MetadataIndex.Proofs.Transform.Steps
import MetadataIndex.Proofs.Transform.Stored
import MetadataIndex.Proofs.Transform.Suppression
import MetadataIndex.Proofs.Transform.Terms
import MetadataIndex.Proofs.Transform.Withheld
import MetadataIndex.Proofs.Transform.Writes
import MetadataIndex.Proofs.Value.Groups
import MetadataIndex.Proofs.Value.Length
import MetadataIndex.Proofs.Value.Name
import MetadataIndex.Proofs.Value.NonSort
import MetadataIndex.Proofs.Value.Roman
import MetadataIndex.Proofs.Value.Steps
import MetadataIndex.Proofs.Value.Token
import MetadataIndex.Proofs.Web.Schedule
import MetadataIndex.Proofs.Web.Static
import MetadataIndex.Proofs.XPath.Order
import MetadataIndex.Proofs.XPath.Step
import MetadataIndex.Proofs.Xml.Subtree
import MetadataIndex.Proofs.Xml.Written
import MetadataIndex.Rule.Basic
import MetadataIndex.Rule.Entity
import MetadataIndex.Rule.File
import MetadataIndex.Rule.Merge
import MetadataIndex.Rule.Reader
import MetadataIndex.Service.Handler
import MetadataIndex.Service.Script
import MetadataIndex.Service.Settings
import MetadataIndex.Structure.Basic
import MetadataIndex.Structure.Location
import MetadataIndex.Structure.Scope
import MetadataIndex.Text.Blank
import MetadataIndex.Text.Case
import MetadataIndex.Text.Category
import MetadataIndex.Text.CodeRanges
import MetadataIndex.Text.Composed
import MetadataIndex.Text.Entity
import MetadataIndex.Text.Entity.Names
import MetadataIndex.Text.Percent
import MetadataIndex.Text.Quoted
import MetadataIndex.Text.Search
import MetadataIndex.Transform.Basic
import MetadataIndex.Transform.Document
import MetadataIndex.Transform.Match
import MetadataIndex.Transform.Writing
import MetadataIndex.Value.Length
import MetadataIndex.Value.NonSort
import MetadataIndex.Value.Pipeline
import MetadataIndex.Value.Replacement
import MetadataIndex.Value.Roman
import MetadataIndex.Value.Token
import MetadataIndex.Web.Basic
import MetadataIndex.Web.Retry
import MetadataIndex.XPath.Evaluation
import MetadataIndex.XPath.Function
import MetadataIndex.XPath.Number
import MetadataIndex.XPath.Parser
import MetadataIndex.XPath.Query
import MetadataIndex.XPath.Syntax
import MetadataIndex.XPath.Value
import MetadataIndex.Xml.Character
import MetadataIndex.Xml.Cursor
import MetadataIndex.Xml.Declarations
import MetadataIndex.Xml.DocumentMarkup
import MetadataIndex.Xml.Encoding
import MetadataIndex.Xml.ListedName
import MetadataIndex.Xml.Markup
import MetadataIndex.Xml.Node
import MetadataIndex.Xml.Reference
