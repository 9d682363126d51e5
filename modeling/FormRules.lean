import FormRules.Accessor
import FormRules.Calendar.Date
import FormRules.Calendar.Iso
import FormRules.Catalog
import FormRules.Check
import FormRules.Config
import FormRules.Engine.Draft
import FormRules.Engine.Run
import FormRules.Fault
import FormRules.Journal
import FormRules.Message.Composer
import FormRules.Message.Standard
import FormRules.Message.Template
import FormRules.Number.Double
import FormRules.Number.Reader
import FormRules.Number.Shortest
import FormRules.Pattern
import FormRules.Predicate.Builtin
import FormRules.Predicate.Characters
import FormRules.Predicate.Dates
import FormRules.Predicate.Formats
import FormRules.Predicate.Membership
import FormRules.Predicate.Numbers
import FormRules.Predicate.Presence
import FormRules.Predicate.Probe
import FormRules.Report
import FormRules.Rule.Declaration
import FormRules.Rule.Parse
import FormRules.RuleFile.Document
import FormRules.RuleFile.Load
import FormRules.RuleFile.Schema
import FormRules.RuleFile.Standard
import FormRules.Session.Perform
import FormRules.Session.Step
import FormRules.Table
import FormRules.Text.Blank
import FormRules.Text.CharSet
import FormRules.Text.Digit
import FormRules.Text.Lower
import FormRules.Text.Printable
import FormRules.Text.Split
import FormRules.Text.Utf8
import FormRules.Value.Basic
import FormRules.Value.Text
import FormRules.World
import FormRules.Yaml.Cursor
import FormRules.Yaml.Document
import FormRules.Yaml.Implicit
import FormRules.Yaml.Node
import FormRules.Yaml.Scalar.Base64
import FormRules.Yaml.Scalar.Block
import FormRules.Yaml.Scalar.Plain
import FormRules.Yaml.Scalar.Quoted
import FormRules.Yaml.Scalar.Value
import FormRules.Yaml.Tag
import FormRules.Yaml.Timestamp
import FormRules.Yaml.Token
import FormRules.Yaml.Value
import FormRules.Proofs.Accessor
import FormRules.Proofs.Cursor
import FormRules.Proofs.Declarations
import FormRules.Proofs.Engine.Draft
import FormRules.Proofs.Isolation
import FormRules.Proofs.Nesting
import FormRules.Proofs.Parts
import FormRules.Proofs.Predicate.Asks
import FormRules.Proofs.Predicate.Outcome
import FormRules.Proofs.Publication
import FormRules.Proofs.Report
import FormRules.Proofs.Reuse
import FormRules.Proofs.Run.Invariant
import FormRules.Proofs.Run.Laws
import FormRules.Proofs.Run.Mirror
import FormRules.Proofs.Run.Progress
import FormRules.Proofs.Run.Together
import FormRules.Proofs.Run.Trace
import FormRules.Proofs.Run.View
import FormRules.Proofs.Session.Trace
import FormRules.Proofs.Value.Equality
import FormRules.Proofs.Walk
import FormRules.Proofs.World
import FormRules.Proofs.Writes
import FormRules.Proofs.Predicate.Needs
import FormRules.Proofs.Predicate.Optional
import FormRules.Proofs.Message.Legible
import FormRules.Proofs.Predicate.Aborts
import FormRules.Proofs.Yaml.Scan
import FormRules.Proofs.Yaml.Reader
import FormRules.Proofs.Yaml.Trouble
import FormRules.Proofs.RuleFile.Checker
import FormRules.Proofs.RuleFile.Outcomes
import FormRules.Proofs.Attempt
import FormRules.Proofs.Text.Split
import FormRules.Proofs.Text.Trim
import FormRules.Proofs.Rule.Notation
import FormRules.Proofs.Catalog
import FormRules.Proofs.Session.Catalogs
import FormRules.Proofs.Table
import FormRules.Proofs.RuleFile.Shape
import FormRules.Proofs.Message.Overrides
import FormRules.Proofs.RuleSet.Normal
import FormRules.Proofs.RuleSet.Joined
import FormRules.Proofs.RuleFile.Engine
import FormRules.Proofs.Message.Reading
import FormRules.Proofs.Message.Rendering
import FormRules.Proofs.Message.Fallback
import FormRules.Proofs.Message.LastGiven
import FormRules.Proofs.Predicate.Tokens
import FormRules.Proofs.Rule.Listed
import FormRules.Proofs.Rule.Siblings
import FormRules.Proofs.Rule.OwnText
import FormRules.Proofs.Pattern
import FormRules.Proofs.Predicate.Characters
import FormRules.Proofs.Predicate.Email
import FormRules.Proofs.Rule.Coercion
import FormRules.Proofs.Rule.Spacing
import FormRules.Proofs.Predicate.Url
import FormRules.Proofs.Predicate.Ranges
import FormRules.Proofs.Predicate.Conditions
import FormRules.Proofs.Number.Nearest
import FormRules.Proofs.Number.Decimal
import FormRules.Proofs.Predicate.Limits
import FormRules.Proofs.Rule.Comparison
import FormRules.Proofs.Calendar.Iso
import FormRules.Proofs.Predicate.Days
import FormRules.Proofs.Number.Digits
import FormRules.Proofs.Predicate.Digits
import FormRules.Proofs.Predicate.ExactLength
import FormRules.Proofs.Predicate.Comparable
import FormRules.Proofs.Engine.Failure
import FormRules.Proofs.Predicate.Candid
import FormRules.Proofs.Run.Records
import FormRules.Proofs.Number.Interval
import FormRules.Proofs.Number.Shortest
import FormRules.Proofs.Number.Spelling
import FormRules.Proofs.Calendar.Spelling
import FormRules.Proofs.Value.KeyText
import FormRules.Proofs.Yaml.Keys
import FormRules.Proofs.RuleFile.Keys
import FormRules.Proofs.RuleFile.TextKeys
