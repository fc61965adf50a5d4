import TableSchema.Catalog.Definition
import TableSchema.Catalog.Pool
import TableSchema.Catalog.Table
import TableSchema.Catalog.TypeTable
import TableSchema.Ddl.Cursor
import TableSchema.Ddl.Grammar
import TableSchema.Ddl.Lexeme
import TableSchema.Ddl.Lexer
import TableSchema.Ddl.LexicalGrammar
import TableSchema.Ddl.Rendering
import TableSchema.Ddl.Scanner
import TableSchema.Ddl.Slice
import TableSchema.Ddl.Statement
import TableSchema.Ddl.StatementParser
import TableSchema.Ddl.Token
import TableSchema.Document.Json.Reading
import TableSchema.Document.Json.Text
import TableSchema.Document.Json.Value
import TableSchema.Document.Node
import TableSchema.Document.Yaml.BlockScalar
import TableSchema.Document.Yaml.Character
import TableSchema.Document.Yaml.Composition
import TableSchema.Document.Yaml.FlowScalar
import TableSchema.Document.Yaml.Mark
import TableSchema.Document.Yaml.Plain
import TableSchema.Document.Yaml.Reading
import TableSchema.Document.Yaml.Style
import TableSchema.Document.Yaml.Tag
import TableSchema.Document.Yaml.Text
import TableSchema.Document.Yaml.Tree
import TableSchema.Host.Basic
import TableSchema.Host.FileTree
import TableSchema.Host.Threshold
import TableSchema.Host.World
import TableSchema.Main
import TableSchema.OrderedMap
import TableSchema.Proofs.Catalog.Meaning
import TableSchema.Proofs.Catalog.Pool
import TableSchema.Proofs.Catalog.Spelling
import TableSchema.Proofs.Ddl.Acceptance
import TableSchema.Proofs.Ddl.Answers
import TableSchema.Proofs.Ddl.Coverage
import TableSchema.Proofs.Ddl.CursorOperations
import TableSchema.Proofs.Ddl.Determinacy
import TableSchema.Proofs.Ddl.Erasure
import TableSchema.Proofs.Ddl.ExpectedTokens
import TableSchema.Proofs.Ddl.Faults
import TableSchema.Proofs.Ddl.Joining
import TableSchema.Proofs.Ddl.LexemeLengths
import TableSchema.Proofs.Ddl.LexerSteps
import TableSchema.Proofs.Ddl.LongestMatch
import TableSchema.Proofs.Ddl.Places
import TableSchema.Proofs.Ddl.Predictive
import TableSchema.Proofs.Ddl.Progress
import TableSchema.Proofs.Ddl.Reads
import TableSchema.Proofs.Ddl.Respelling
import TableSchema.Proofs.Ddl.RoundTrip
import TableSchema.Proofs.Ddl.Rules
import TableSchema.Proofs.Ddl.Scanning
import TableSchema.Proofs.Ddl.Spacing
import TableSchema.Proofs.Ddl.Suggestions
import TableSchema.Proofs.Ddl.Termination
import TableSchema.Proofs.Ddl.ViablePrefix
import TableSchema.Proofs.Document.Json
import TableSchema.Proofs.Host.FileTree
import TableSchema.Proofs.Host.Path
import TableSchema.Proofs.OrderedMap
import TableSchema.Proofs.Run.Choices
import TableSchema.Proofs.Run.Conversation
import TableSchema.Proofs.Run.Database
import TableSchema.Proofs.Run.FilePaths
import TableSchema.Proofs.Run.Filtering
import TableSchema.Proofs.Run.Output
import TableSchema.Proofs.Run.OutputModes
import TableSchema.Proofs.Run.Program
import TableSchema.Proofs.Run.Publishing
import TableSchema.Proofs.Run.Reading
import TableSchema.Proofs.Run.Request
import TableSchema.Proofs.Run.Watched
import TableSchema.Proofs.Schema.Generator
import TableSchema.Proofs.Schema.IdTemplate
import TableSchema.Proofs.Schema.LastOccurrence
import TableSchema.Proofs.Schema.ReadBack
import TableSchema.Proofs.Source.Description
import TableSchema.Proofs.Source.Overrides
import TableSchema.Run.Choices
import TableSchema.Run.CommandLine
import TableSchema.Run.Program
import TableSchema.Run.Publishing
import TableSchema.Run.Reading
import TableSchema.Run.Request
import TableSchema.Run.SettingsFile
import TableSchema.Schema.Decoding
import TableSchema.Schema.Encoding
import TableSchema.Schema.FileName
import TableSchema.Schema.Format
import TableSchema.Schema.Generator
import TableSchema.Schema.IdTemplate
import TableSchema.Schema.Property
import TableSchema.Source.Catalog
import TableSchema.Source.Connection
import TableSchema.Source.DataSource
import TableSchema.Source.DatabaseFile
import TableSchema.Source.Description
import TableSchema.Source.Error
import TableSchema.Source.Server
import TableSchema.Text.Blank
import TableSchema.Text.Escaped
import TableSchema.Text.Hexadecimal
import TableSchema.Text.Invisible
import TableSchema.Text.Pattern
import TableSchema.Text.Split
import TableSchema.Text.Utf8
