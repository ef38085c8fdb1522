import Vitae.Ast.Basic
import Vitae.Ast.Encoding
import Vitae.Calendar.Date
import Vitae.Calendar.IsoText
import Vitae.Calendar.Moment
import Vitae.CommandLine.Arguments
import Vitae.CommandLine.Command
import Vitae.CommandLine.Job
import Vitae.CommandLine.Run
import Vitae.Compile
import Vitae.Design.Resolution
import Vitae.Design.Table
import Vitae.Design.Values
import Vitae.Disk.Basic
import Vitae.Disk.Content
import Vitae.Disk.Fault
import Vitae.Disk.Path
import Vitae.Document.Basic
import Vitae.Document.Fault
import Vitae.Document.Reading
import Vitae.Document.Validation
import Vitae.Document.Writing
import Vitae.Failure
import Vitae.Json.Reader
import Vitae.Json.Writer
import Vitae.Keyed
import Vitae.Log.Colors
import Vitae.Log.Markup
import Vitae.Log.Record
import Vitae.Log.Session
import Vitae.Main
import Vitae.Migration.Registry
import Vitae.Migration.Steps
import Vitae.Misuse
import Vitae.Number.Basic
import Vitae.Number.Binary64
import Vitae.Number.Decimal
import Vitae.Page
import Vitae.Proofs.Agreement
import Vitae.Proofs.Compilation
import Vitae.Proofs.Failing
import Vitae.Proofs.Overriding
import Vitae.Proofs.Page
import Vitae.Proofs.Parallel
import Vitae.Proofs.Placement
import Vitae.Proofs.Reading
import Vitae.Proofs.Renewal
import Vitae.Proofs.RoundTrip
import Vitae.Proofs.Slots
import Vitae.Proofs.Typed
import Vitae.Proofs.Upgrade
import Vitae.Proofs.Validation
import Vitae.Resume.Provider
import Vitae.Resume.Render
import Vitae.Section.Compiler
import Vitae.Section.Item
import Vitae.Section.Override
import Vitae.Section.Placement
import Vitae.Section.Style
import Vitae.Sorting.Merge
import Vitae.Sorting.Permutation
import Vitae.Sorting.Runs
import Vitae.Sorting.Search
import Vitae.Text.Digit
import Vitae.Text.Printable
import Vitae.Text.Quoted
import Vitae.Theme.Bundled
import Vitae.Theme.Merge
import Vitae.Theme.Store
import Vitae.Value.Basic
import Vitae.Value.Equality
import Vitae.Value.Key
import Vitae.Value.Literal
import Vitae.Value.Wire
import Vitae.Version
import Vitae.Yaml.Cursor
import Vitae.Yaml.Document
import Vitae.Yaml.Fault
import Vitae.Yaml.Node
import Vitae.Yaml.Number
import Vitae.Yaml.Property
import Vitae.Yaml.Scalar
import Vitae.Yaml.Tag
import Vitae.Yaml.Token
import Vitae.Yaml.Token.Lexer
import Vitae.Proofs.Freshness
import Vitae.Proofs.Grammar
import Vitae.Proofs.Lossless
import Vitae.Proofs.Untrusted
import Vitae.Proofs.Locality
import Vitae.Proofs.Preview
import Vitae.Proofs.Exposure
import Vitae.Proofs.Hidden
import Vitae.Proofs.Search
import Vitae.Proofs.Targets
import Vitae.Proofs.Declared
import Vitae.Proofs.FrontEnds
import Vitae.Proofs.Invocation
import Vitae.Proofs.Stopover
import Vitae.Proofs.History
import Vitae.Proofs.LastWord
import Vitae.Proofs.Merging
import Vitae.Proofs.Unset
import Vitae.Proofs.Leaves
import Vitae.Proofs.Undisturbed
import Vitae.Proofs.Registration
import Vitae.Proofs.Premerging
import Vitae.Proofs.Frame
import Vitae.Proofs.Recall
import Vitae.Proofs.Repeats
import Vitae.Proofs.Codes
import Vitae.Proofs.Fallback
import Vitae.Proofs.DateTexts
import Vitae.Proofs.OneForm
import Vitae.Proofs.Listing
