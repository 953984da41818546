import TypeDictionary.Dictionary
import TypeDictionary.Identifier
import TypeDictionary.Journal
import TypeDictionary.Loader.AddressSpace
import TypeDictionary.Loader.Basic
import TypeDictionary.Loader.Plan
import TypeDictionary.Loader.Report
import TypeDictionary.Loader.Session
import TypeDictionary.Loader.Stage
import TypeDictionary.Manifest.Basic
import TypeDictionary.Manifest.Document
import TypeDictionary.Markup.CharClass
import TypeDictionary.Markup.Document
import TypeDictionary.Markup.Element
import TypeDictionary.Markup.Error
import TypeDictionary.Markup.Lexeme
import TypeDictionary.Markup.Reference
import TypeDictionary.Markup.Tag
import TypeDictionary.Model.Basic
import TypeDictionary.Model.Build
import TypeDictionary.Model.Events
import TypeDictionary.NodeId
import TypeDictionary.Primitive
import TypeDictionary.Recipe
import TypeDictionary.Record
import TypeDictionary.Registry
import TypeDictionary.Resolved.Basic
import TypeDictionary.Resolved.Resolution
import TypeDictionary.Resolved.TypeSet
import TypeDictionary.Settings.Basic
import TypeDictionary.Settings.Document
import TypeDictionary.Table
import TypeDictionary.Text.Alphabetic
import TypeDictionary.Text.Blank
import TypeDictionary.Text.CodePoints
import TypeDictionary.Text.DecimalDigit
import TypeDictionary.Text.File
import TypeDictionary.Text.Numeral
import TypeDictionary.Text.Reader
import TypeDictionary.Text.Utf8
import TypeDictionary.TypeRef
import TypeDictionary.Value.Basic
import TypeDictionary.Value.Generated
import TypeDictionary.Value.Instance
import TypeDictionary.Value.Number
import TypeDictionary.Value.RecordValue
import TypeDictionary.WireTag
import TypeDictionary.Yaml.Cell
import TypeDictionary.Yaml.Datum
import TypeDictionary.Yaml.Kind
import TypeDictionary.Yaml.Lexer
import TypeDictionary.Yaml.Lookup
import TypeDictionary.Yaml.Node
import TypeDictionary.Yaml.Reference
import TypeDictionary.Yaml.Render
import TypeDictionary.Yaml.ScalarText
import TypeDictionary.Yaml.Tag
import TypeDictionary.Yaml.Token
import TypeDictionary.Proofs.Lists
import TypeDictionary.Proofs.Fallible
import TypeDictionary.Proofs.Identifier
import TypeDictionary.Proofs.WellFormed
import TypeDictionary.Proofs.Build
import TypeDictionary.Proofs.FirstFault
import TypeDictionary.Proofs.Numeral
import TypeDictionary.Proofs.Preorder
import TypeDictionary.Proofs.Descendants
import TypeDictionary.Proofs.Rule
import TypeDictionary.Proofs.Acceptance
import TypeDictionary.Proofs.Latest
import TypeDictionary.Proofs.Insertion
import TypeDictionary.Proofs.Resolution
import TypeDictionary.Proofs.Plan
import TypeDictionary.Proofs.Registry
import TypeDictionary.Proofs.History
import TypeDictionary.Proofs.Soundness
import TypeDictionary.Proofs.Registration
import TypeDictionary.Proofs.Report
import TypeDictionary.Proofs.Overwrites
import TypeDictionary.Proofs.Reachable
import TypeDictionary.Proofs.Layout
import TypeDictionary.Proofs.RecordValue
import TypeDictionary.Proofs.RecordEquality
import TypeDictionary.Proofs.Conformance
import TypeDictionary.Proofs.Succession
import TypeDictionary.Proofs.Stateless
import TypeDictionary.Proofs.Attempts
import TypeDictionary.Proofs.Persistence
import TypeDictionary.Proofs.Accounts
import TypeDictionary.Proofs.Alike
import TypeDictionary.Proofs.Batch
import TypeDictionary.Proofs.Reload
import TypeDictionary.Proofs.Binding
import TypeDictionary.Proofs.Labelling
import TypeDictionary.Proofs.Consistency
import TypeDictionary.Proofs.TypeRef
import TypeDictionary.Proofs.Dependence
import TypeDictionary.Proofs.Normalization
import TypeDictionary.Proofs.Description
import TypeDictionary.Proofs.DocumentOrder
import TypeDictionary.Proofs.Enumeration
import TypeDictionary.Proofs.MemberValue
import TypeDictionary.Proofs.ForeignMarkup
import TypeDictionary.Proofs.Stages
import TypeDictionary.Proofs.Inquiries
import TypeDictionary.Proofs.Events
import TypeDictionary.Proofs.Discovery
import TypeDictionary.Proofs.Contributions
import TypeDictionary.Proofs.WireTag
import TypeDictionary.Proofs.Datum
import TypeDictionary.Proofs.Manifest
import TypeDictionary.Proofs.Reader
import TypeDictionary.Proofs.Cell
import TypeDictionary.Proofs.Segment
import TypeDictionary.Proofs.Cleaning
import TypeDictionary.Proofs.Gap
import TypeDictionary.Proofs.PlainScalar
import TypeDictionary.Proofs.QuotedScalar
import TypeDictionary.Proofs.LiteralScalar
import TypeDictionary.Proofs.Lexer
import TypeDictionary.Proofs.BlockTokens
import TypeDictionary.Proofs.Restorable
import TypeDictionary.Proofs.WrittenNode
import TypeDictionary.Proofs.Printable
import TypeDictionary.Proofs.Compose
import TypeDictionary.Proofs.RoundTrip
