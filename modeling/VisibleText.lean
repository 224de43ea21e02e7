import VisibleText.Blade.Region
import VisibleText.Candidate
import VisibleText.Code.Definition
import VisibleText.Code.Delimiter
import VisibleText.Code.Extract
import VisibleText.Code.Lexeme
import VisibleText.Code.Signature
import VisibleText.Command.Arguments
import VisibleText.Command.Run
import VisibleText.Config
import VisibleText.Discovery.Pattern
import VisibleText.Discovery.Scan
import VisibleText.Engines
import VisibleText.Engines.Own
import VisibleText.Exclusion.Dictionary
import VisibleText.Exclusion.Files
import VisibleText.Exclusion.Glob
import VisibleText.Exclusion.Rule
import VisibleText.Extraction
import VisibleText.FileSystem.Basic
import VisibleText.FileSystem.Write
import VisibleText.Hit
import VisibleText.JavaScript.Expression
import VisibleText.JavaScript.Parser
import VisibleText.JavaScript.Program
import VisibleText.JavaScript.Statement
import VisibleText.JavaScript.Token
import VisibleText.JavaScript.Tree
import VisibleText.Json.Float
import VisibleText.Json.Reader
import VisibleText.Json.Value
import VisibleText.LineIndex
import VisibleText.Main
import VisibleText.Markup.Node
import VisibleText.Markup.Parser
import VisibleText.Markup.Tag
import VisibleText.Path
import VisibleText.Pattern.Basic
import VisibleText.Pattern.Parser
import VisibleText.Pattern.Property
import VisibleText.Proofs.Blanking
import VisibleText.Proofs.BlockPlaces
import VisibleText.Proofs.Blocks
import VisibleText.Proofs.CodeLocality
import VisibleText.Proofs.Comments
import VisibleText.Proofs.Delimiters
import VisibleText.Proofs.Dictionaries
import VisibleText.Proofs.DiscoveredFiles
import VisibleText.Proofs.Encoding
import VisibleText.Proofs.FileTree
import VisibleText.Proofs.Grouping
import VisibleText.Proofs.Heads
import VisibleText.Proofs.HitOrder
import VisibleText.Proofs.Hits
import VisibleText.Proofs.JsonDocument
import VisibleText.Proofs.JsonGrammar
import VisibleText.Proofs.JsonReading
import VisibleText.Proofs.LexemeAutomaton
import VisibleText.Proofs.LexemeLocality
import VisibleText.Proofs.Lexemes
import VisibleText.Proofs.Lines
import VisibleText.Proofs.LiteralBodies
import VisibleText.Proofs.Lookbehind
import VisibleText.Proofs.MarkupTree
import VisibleText.Proofs.Masks
import VisibleText.Proofs.Occurrences
import VisibleText.Proofs.Offsets
import VisibleText.Proofs.Ordered
import VisibleText.Proofs.PathWalks
import VisibleText.Proofs.Paths
import VisibleText.Proofs.Places
import VisibleText.Proofs.RecordDocument
import VisibleText.Proofs.RegionShapes
import VisibleText.Proofs.Regions
import VisibleText.Proofs.ReportLines
import VisibleText.Proofs.RunEffects
import VisibleText.Proofs.Runs
import VisibleText.Proofs.SpanForms
import VisibleText.Proofs.SpanSets
import VisibleText.Proofs.SplitOutput
import VisibleText.Proofs.TemplateCode
import VisibleText.Proofs.TemplateHits
import VisibleText.Proofs.Windows
import VisibleText.Proofs.WordCharacters
import VisibleText.Record.Basic
import VisibleText.Record.Json
import VisibleText.Record.Output
import VisibleText.Record.Report
import VisibleText.Search
import VisibleText.Source
import VisibleText.Span
import VisibleText.Template
import VisibleText.Text.Blank
import VisibleText.Text.Quoted
import VisibleText.Text.Style
import VisibleText.Text.Utf8
import VisibleText.Text.Width
import VisibleText.Unicode.CaseFold
import VisibleText.Unicode.Category
import VisibleText.Unicode.CharSet
import VisibleText.Unicode.Property
import VisibleText.Unicode.Script
import VisibleText.Unicode.Word
import VisibleText.Proofs.LineColumns
import VisibleText.Proofs.PatternMatching
import VisibleText.Proofs.PatternReading
import VisibleText.Proofs.Globs
import VisibleText.Proofs.GlobClasses
import VisibleText.Proofs.Negations
import VisibleText.Proofs.CandidateSpans
import VisibleText.Proofs.TextRuns
import VisibleText.Proofs.ConfigSearch
import VisibleText.Proofs.LiteralIgnores
import VisibleText.Proofs.JsonSpelling
import VisibleText.Proofs.JsonPassing
import VisibleText.Proofs.ConfigDocument
import VisibleText.Proofs.Slices
import VisibleText.Proofs.ScriptTokens
import VisibleText.Proofs.ScriptReading
import VisibleText.Proofs.ScriptExpressions
import VisibleText.Proofs.ScriptStatements
import VisibleText.Proofs.ScriptLiterals
import VisibleText.Proofs.Progress
