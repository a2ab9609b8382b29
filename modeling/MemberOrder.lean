import MemberOrder.Catalogue
import MemberOrder.CommandLine.Commands
import MemberOrder.CommandLine.Grammar
import MemberOrder.CommandLine.Help
import MemberOrder.CommandLine.Reading
import MemberOrder.CommandLine.Run
import MemberOrder.CommandLine.Word
import MemberOrder.Json.Reader
import MemberOrder.Json.Writer
import MemberOrder.Main
import MemberOrder.Notice
import MemberOrder.Number.Binary64
import MemberOrder.Number.Fraction
import MemberOrder.Number.Shortest
import MemberOrder.Number.Whole
import MemberOrder.Order.Category
import MemberOrder.Order.Sort
import MemberOrder.Order.Sorting
import MemberOrder.Order.Tally
import MemberOrder.Order.Visibility
import MemberOrder.Proofs.CommandLine.Answering
import MemberOrder.Proofs.CommandLine.Choices
import MemberOrder.Proofs.CommandLine.Concluding
import MemberOrder.Proofs.CommandLine.Keeping
import MemberOrder.Proofs.CommandLine.Reloading
import MemberOrder.Proofs.CommandLine.Reporting
import MemberOrder.Proofs.CommandLine.SortInPlace
import MemberOrder.Proofs.Json.Decimals
import MemberOrder.Proofs.Json.LongRows
import MemberOrder.Proofs.Json.Numerals
import MemberOrder.Proofs.Json.Readable
import MemberOrder.Proofs.Json.Reading
import MemberOrder.Proofs.Json.RoundTrip
import MemberOrder.Proofs.Json.Strings
import MemberOrder.Proofs.Json.Writable
import MemberOrder.Proofs.Number.LooseText
import MemberOrder.Proofs.Number.Magnitude
import MemberOrder.Proofs.Number.Rounding
import MemberOrder.Proofs.Number.Shortest
import MemberOrder.Proofs.Order.Agreement
import MemberOrder.Proofs.Order.AliasChains
import MemberOrder.Proofs.Order.AliasGraph
import MemberOrder.Proofs.Order.AliasTarget
import MemberOrder.Proofs.Order.CanonicalForm
import MemberOrder.Proofs.Order.ContainerCounts
import MemberOrder.Proofs.Order.HiddenAliases
import MemberOrder.Proofs.Order.Idempotence
import MemberOrder.Proofs.Order.Insertion
import MemberOrder.Proofs.Order.OrderIndependence
import MemberOrder.Proofs.Order.RankSort
import MemberOrder.Proofs.Order.SecondScan
import MemberOrder.Proofs.Order.SortMembers
import MemberOrder.Proofs.Order.SortedCounts
import MemberOrder.Proofs.Order.Stamping
import MemberOrder.Proofs.Order.Statistics
import MemberOrder.Proofs.Order.TreeConservation
import MemberOrder.Proofs.Order.TreeSort
import MemberOrder.Proofs.Outcome
import MemberOrder.Proofs.Settings.DeepMerge
import MemberOrder.Proofs.Settings.Layers
import MemberOrder.Proofs.Settings.MergedRuns
import MemberOrder.Proofs.Settings.Merging
import MemberOrder.Proofs.Settings.Recording
import MemberOrder.Proofs.Settings.SharedMaps
import MemberOrder.Proofs.Settings.WrittenSettings
import MemberOrder.Proofs.Store.Backup
import MemberOrder.Proofs.Store.Frame
import MemberOrder.Proofs.Store.NullCharacter
import MemberOrder.Proofs.Store.PathNames
import MemberOrder.Proofs.Store.Writing
import MemberOrder.Proofs.Stub.Blocks
import MemberOrder.Proofs.Stub.DueSections
import MemberOrder.Proofs.Stub.Lines
import MemberOrder.Proofs.Stub.Sections
import MemberOrder.Proofs.Terminal.Filling
import MemberOrder.Proofs.Terminal.MessageContent
import MemberOrder.Proofs.Terminal.Messages
import MemberOrder.Proofs.Terminal.Wrapping
import MemberOrder.Proofs.Text.Blanks
import MemberOrder.Proofs.Text.Graphemes
import MemberOrder.Proofs.Text.Lowercase
import MemberOrder.Proofs.Text.Utf8
import MemberOrder.Proofs.Tree.Branches
import MemberOrder.Proofs.Tree.Conversion
import MemberOrder.Proofs.Tree.DecodeFaults
import MemberOrder.Proofs.Tree.Dropping
import MemberOrder.Proofs.Tree.Endings
import MemberOrder.Proofs.Tree.FaultPlace
import MemberOrder.Proofs.Tree.FieldRules
import MemberOrder.Proofs.Tree.Handlers
import MemberOrder.Proofs.Tree.KeptEntries
import MemberOrder.Proofs.Tree.LoadFaults
import MemberOrder.Proofs.Tree.OwnFlaw
import MemberOrder.Proofs.Tree.Positions
import MemberOrder.Proofs.Tree.Reload
import MemberOrder.Proofs.Tree.RoundTrip
import MemberOrder.Proofs.Tree.Sameness
import MemberOrder.Proofs.Tree.TextRoundTrip
import MemberOrder.Proofs.Tree.Traces
import MemberOrder.Proofs.Tree.WrittenFields
import MemberOrder.Proofs.Value.Entries
import MemberOrder.Proofs.Value.Keys
import MemberOrder.Proofs.Value.Unshared
import MemberOrder.Proofs.Workspace.Failing
import MemberOrder.Proofs.Workspace.LoadedSettings
import MemberOrder.Proofs.Workspace.Running
import MemberOrder.Proofs.Workspace.SavedSettings
import MemberOrder.Proofs.Workspace.SettingSources
import MemberOrder.Proofs.Workspace.Sparing
import MemberOrder.Proofs.Workspace.WrittenFiles
import MemberOrder.Proofs.Yaml.BlockScan
import MemberOrder.Proofs.Yaml.FlowScan
import MemberOrder.Proofs.Yaml.GraphFaults
import MemberOrder.Proofs.Yaml.MakingFaults
import MemberOrder.Proofs.Yaml.MappingGraph
import MemberOrder.Proofs.Yaml.PlainMappings
import MemberOrder.Proofs.Yaml.PlainScalars
import MemberOrder.Proofs.Yaml.ScanFaults
import MemberOrder.Proofs.Yaml.ScanSteps
import MemberOrder.Proofs.Yaml.WordDocuments
import MemberOrder.Proofs.Yaml.WordScan
import MemberOrder.Proofs.Yaml.WrittenWords
import MemberOrder.Settings.Basic
import MemberOrder.Settings.Check
import MemberOrder.Settings.Environment
import MemberOrder.Settings.Merge
import MemberOrder.Settings.Record
import MemberOrder.Store.Basic
import MemberOrder.Store.Fault
import MemberOrder.Store.Path
import MemberOrder.Stub.Page
import MemberOrder.Stub.Phrase
import MemberOrder.Stub.Writer
import MemberOrder.Terminal.Action.Argument
import MemberOrder.Terminal.Action.Numeral
import MemberOrder.Terminal.Action.Token
import MemberOrder.Terminal.Fill
import MemberOrder.Terminal.Markup
import MemberOrder.Terminal.Screen
import MemberOrder.Terminal.Style
import MemberOrder.Terminal.Table
import MemberOrder.Text.Base64
import MemberOrder.Text.Blank
import MemberOrder.Text.Digit
import MemberOrder.Text.Lowercase
import MemberOrder.Text.Newline
import MemberOrder.Text.Printable
import MemberOrder.Text.Ranges
import MemberOrder.Text.Utf8
import MemberOrder.Text.Width
import MemberOrder.Text.WordCharacter
import MemberOrder.Tree.Decode
import MemberOrder.Tree.Document
import MemberOrder.Tree.Encode
import MemberOrder.Tree.Fault
import MemberOrder.Tree.Node
import MemberOrder.Tree.Registry
import MemberOrder.Tree.Transform
import MemberOrder.Tree.Walk
import MemberOrder.Value.Basic
import MemberOrder.Value.Calendar
import MemberOrder.Value.Literal
import MemberOrder.Value.SetOrder
import MemberOrder.Value.Writable
import MemberOrder.Workspace.Basic
import MemberOrder.Workspace.Failure
import MemberOrder.Workspace.Settings
import MemberOrder.Workspace.Trees
import MemberOrder.Yaml.Cursor
import MemberOrder.Yaml.Graph
import MemberOrder.Yaml.KeyOrder
import MemberOrder.Yaml.Presentation
import MemberOrder.Yaml.Reader
import MemberOrder.Yaml.Resolve
import MemberOrder.Yaml.Scalar
import MemberOrder.Yaml.ScalarStyle
import MemberOrder.Yaml.ScalarText
import MemberOrder.Yaml.Token
import MemberOrder.Yaml.Writer
