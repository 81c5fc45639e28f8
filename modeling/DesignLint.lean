import DesignLint.Analysis.Cohesion
import DesignLint.Analysis.Inversion
import DesignLint.Analysis.Openness
import DesignLint.Analysis.Segregation
import DesignLint.Braced.Body
import DesignLint.Braced.Interfaces
import DesignLint.Braced.Patterns
import DesignLint.Braced.Walk
import DesignLint.CommandLine.Arguments
import DesignLint.CommandLine.Command
import DesignLint.CommandLine.Service
import DesignLint.Data.Assoc
import DesignLint.Data.Display
import DesignLint.Data.Json.Reader
import DesignLint.Data.Json.Writer
import DesignLint.Data.Number
import DesignLint.Data.RawText
import DesignLint.Data.Value
import DesignLint.Data.Yaml.Block
import DesignLint.Data.Yaml.Cursor
import DesignLint.Data.Yaml.Document
import DesignLint.Data.Yaml.Moment
import DesignLint.Data.Yaml.Node
import DesignLint.Data.Yaml.Plain
import DesignLint.Data.Yaml.Property
import DesignLint.Data.Yaml.Quoted
import DesignLint.Data.Yaml.Scalar
import DesignLint.Data.Yaml.Token
import DesignLint.Decimal.Amount
import DesignLint.Decimal.Binary
import DesignLint.Decimal.Fixed
import DesignLint.Decimal.Nearest
import DesignLint.Decimal.Shortest
import DesignLint.Digest
import DesignLint.File.Discovery
import DesignLint.File.Glob
import DesignLint.File.Ignore
import DesignLint.File.Path
import DesignLint.File.Tree
import DesignLint.Indented.Body
import DesignLint.Indented.Interfaces
import DesignLint.Indented.Patterns
import DesignLint.Indented.Walk
import DesignLint.Language
import DesignLint.Main
import DesignLint.Pattern
import DesignLint.Proofs.AbstractMethods
import DesignLint.Proofs.BalancedGroups
import DesignLint.Proofs.BlankLines
import DesignLint.Proofs.BodilessLines
import DesignLint.Proofs.BracedExtents
import DesignLint.Proofs.BracedPrograms
import DesignLint.Proofs.BracedWalk
import DesignLint.Proofs.BrokenTexts
import DesignLint.Proofs.Bursts
import DesignLint.Proofs.CheckedDocuments
import DesignLint.Proofs.ConstructorParameters
import DesignLint.Proofs.Debounce
import DesignLint.Proofs.DocumentKeys
import DesignLint.Proofs.Evidence
import DesignLint.Proofs.FinishedScans
import DesignLint.Proofs.GlobTexts
import DesignLint.Proofs.GraphSearch
import DesignLint.Proofs.GroupedFindings
import DesignLint.Proofs.Headers
import DesignLint.Proofs.IgnoredBelow
import DesignLint.Proofs.Indentation
import DesignLint.Proofs.IndentedDeclarations
import DesignLint.Proofs.IndentedPrograms
import DesignLint.Proofs.IndentedWalk
import DesignLint.Proofs.InlineBodies
import DesignLint.Proofs.LeadingBlanks
import DesignLint.Proofs.LongerLines
import DesignLint.Proofs.MentionPlaces
import DesignLint.Proofs.MethodGroups
import DesignLint.Proofs.MovedDeclarations
import DesignLint.Proofs.NamedEntries
import DesignLint.Proofs.NewestText
import DesignLint.Proofs.ParameterPieces
import DesignLint.Proofs.PathNames
import DesignLint.Proofs.PatternDepth
import DesignLint.Proofs.PatternRuns
import DesignLint.Proofs.ProgramTexts
import DesignLint.Proofs.PublishedEntries
import DesignLint.Proofs.QueueOrder
import DesignLint.Proofs.QuotedParameters
import DesignLint.Proofs.Quotes
import DesignLint.Proofs.RejectedCalls
import DesignLint.Proofs.ReportForms
import DesignLint.Proofs.Results
import DesignLint.Proofs.ScanLifetime
import DesignLint.Proofs.ScanStatus
import DesignLint.Proofs.SessionRuns
import DesignLint.Proofs.SessionSteps
import DesignLint.Proofs.SignatureComments
import DesignLint.Proofs.SignatureWalk
import DesignLint.Proofs.Signatures
import DesignLint.Proofs.SkippedScans
import DesignLint.Proofs.SourceSpans
import DesignLint.Proofs.Spans
import DesignLint.Proofs.Timeline
import DesignLint.Proofs.TopLevelBlocks
import DesignLint.Proofs.TrimmedTexts
import DesignLint.Proofs.WatchedSessions
import DesignLint.Proofs.WrittenParameters
import DesignLint.Report.Check
import DesignLint.Report.Diagnostic
import DesignLint.Report.Fields
import DesignLint.Report.Markdown
import DesignLint.Report.Store
import DesignLint.Report.Target
import DesignLint.Scan.Finding
import DesignLint.Scan.Run
import DesignLint.Scan.Scanner
import DesignLint.Scan.Scheduler
import DesignLint.Settings.Basic
import DesignLint.Settings.Decode
import DesignLint.Settings.Load
import DesignLint.Source.Declaration
import DesignLint.Source.Dialect
import DesignLint.Source.Group
import DesignLint.Source.Literal
import DesignLint.Source.Model
import DesignLint.Source.Parameter
import DesignLint.Source.Reference
import DesignLint.Source.Span
import DesignLint.Source.TypeTest
import DesignLint.Text.Blank
import DesignLint.Text.Case
import DesignLint.Text.Cased
import DesignLint.Text.Digit
import DesignLint.Text.Line
import DesignLint.Text.Order
import DesignLint.Text.Visible
import DesignLint.Text.Word
import DesignLint.Workspace.Scanning
import DesignLint.Workspace.Serving
import DesignLint.Workspace.Session
import DesignLint.Workspace.State
import DesignLint.Workspace.Steps
import DesignLint.Workspace.Tool
import DesignLint.Workspace.Watcher
import DesignLint.Workspace.Watching
