import RouteCompiler.Binary64.Basic
import RouteCompiler.Binary64.Text
import RouteCompiler.CommandLine.Arguments
import RouteCompiler.CommandLine.Run
import RouteCompiler.Console.Markup
import RouteCompiler.Console.Table
import RouteCompiler.Console.Width
import RouteCompiler.Console.Wrap
import RouteCompiler.Coordinate
import RouteCompiler.Failure
import RouteCompiler.Files.Path
import RouteCompiler.Files.Tree
import RouteCompiler.Json.Basic
import RouteCompiler.Json.Reader
import RouteCompiler.Log
import RouteCompiler.OrderedMap
import RouteCompiler.Project.Basic
import RouteCompiler.Project.Generate
import RouteCompiler.Project.Output
import RouteCompiler.Registry
import RouteCompiler.Registries
import RouteCompiler.Request.Basic
import RouteCompiler.Request.Definition
import RouteCompiler.Request.Load
import RouteCompiler.Request.Schema
import RouteCompiler.Route.Basic
import RouteCompiler.Route.Document
import RouteCompiler.Schema.Problem
import RouteCompiler.Schema.Reader
import RouteCompiler.Settings.Basic
import RouteCompiler.Settings.Environment
import RouteCompiler.Settings.Load
import RouteCompiler.StepCursor
import RouteCompiler.Template.Basic
import RouteCompiler.Template.Lexeme
import RouteCompiler.Template.Library
import RouteCompiler.Template.Reader
import RouteCompiler.Template.Render
import RouteCompiler.Template.RequestScope
import RouteCompiler.Template.Session
import RouteCompiler.Template.Shipped
import RouteCompiler.Template.Value
import RouteCompiler.Text.Base64
import RouteCompiler.Text.Blank
import RouteCompiler.Text.Lines
import RouteCompiler.Text.Points
import RouteCompiler.Text.Printable
import RouteCompiler.Text.Quoted
import RouteCompiler.Text.Upper
import RouteCompiler.Traversal
import RouteCompiler.Visitor.Basic
import RouteCompiler.Visitor.Builtin
import RouteCompiler.Visitor.Endpoint
import RouteCompiler.Visitor.Filter
import RouteCompiler.Visitor.Log
import RouteCompiler.Visitor.Mapper
import RouteCompiler.Visitor.Rule
import RouteCompiler.Yaml.Cursor
import RouteCompiler.Yaml.Error
import RouteCompiler.Yaml.Letter
import RouteCompiler.Yaml.Lexeme.Block
import RouteCompiler.Yaml.Lexeme.Mark
import RouteCompiler.Yaml.Lexeme.Plain
import RouteCompiler.Yaml.Lexeme.Quoted
import RouteCompiler.Yaml.Moment
import RouteCompiler.Yaml.Node.Basic
import RouteCompiler.Yaml.Node.OfTokens
import RouteCompiler.Yaml.Scalar
import RouteCompiler.Yaml.Style
import RouteCompiler.Yaml.Tag
import RouteCompiler.Yaml.Token.Basic
import RouteCompiler.Yaml.Token.Scan
import RouteCompiler.Yaml.Value.Basic
import RouteCompiler.Yaml.Value.OfJson
import RouteCompiler.Yaml.Value.OfNode
import RouteCompiler.Yaml.Written
import RouteCompiler.Main
import RouteCompiler.Proofs.Compile
import RouteCompiler.Proofs.OrderedMap
import RouteCompiler.Proofs.Traversal
import RouteCompiler.Proofs.StepCompilation
import RouteCompiler.Proofs.Template.Documents
import RouteCompiler.Proofs.Template.Markup
import RouteCompiler.Proofs.Template.Serving
import RouteCompiler.Proofs.Project.Build
import RouteCompiler.Proofs.Project.Outcome
import RouteCompiler.Proofs.Agreement
import RouteCompiler.Proofs.Project.Writing
import RouteCompiler.Proofs.Project.Precedence
import RouteCompiler.Proofs.Project.Descriptor
import RouteCompiler.Proofs.Project.Mappings
import RouteCompiler.Proofs.Project.Secrecy
import RouteCompiler.Proofs.Files.Walk
import RouteCompiler.Proofs.Files.Growth
import RouteCompiler.Proofs.Project.Placement
import RouteCompiler.Proofs.Files.Outline
import RouteCompiler.Proofs.Project.Paths
import RouteCompiler.Proofs.Project.Confinement
import RouteCompiler.Proofs.Project.Delivery
import RouteCompiler.Proofs.Console.Escape
import RouteCompiler.Proofs.CommandLine.Generate
import RouteCompiler.Proofs.Yaml.Cursor
import RouteCompiler.Proofs.Yaml.Quoted
import RouteCompiler.Proofs.Yaml.SingleQuoted
import RouteCompiler.Proofs.Yaml.DoubleQuoted
import RouteCompiler.Proofs.Yaml.PlainText
import RouteCompiler.Proofs.Yaml.Scan
import RouteCompiler.Proofs.Yaml.Collections
import RouteCompiler.Proofs.Yaml.Grammar
import RouteCompiler.Proofs.Yaml.Ascii
import RouteCompiler.Proofs.Yaml.Meaning
import RouteCompiler.Proofs.Route.Document
import RouteCompiler.Proofs.Json.Room
import RouteCompiler.Proofs.Json.Spelling
import RouteCompiler.Proofs.Yaml.Number
import RouteCompiler.Proofs.Yaml.JsonString
import RouteCompiler.Proofs.Yaml.Layout
import RouteCompiler.Proofs.Yaml.Flow
import RouteCompiler.Proofs.Yaml.FlowGrammar
import RouteCompiler.Proofs.Yaml.JsonText
import RouteCompiler.Proofs.Request.JsonText
import RouteCompiler.Proofs.Yaml.Entries
import RouteCompiler.Proofs.Yaml.Distinct
import RouteCompiler.Proofs.Settings.Environment
import RouteCompiler.Proofs.Settings.Reading
import RouteCompiler.Proofs.Settings.Precedence
import RouteCompiler.Proofs.Registries
import RouteCompiler.Proofs.Template.Lookup
import RouteCompiler.Proofs.Template.Shipped
import RouteCompiler.Proofs.Schema.Respelling
import RouteCompiler.Proofs.Request.Respelling
import RouteCompiler.Proofs.Yaml.ScanFailure
import RouteCompiler.Proofs.Yaml.ReadingFailure
import RouteCompiler.Proofs.Yaml.NodeFailure
import RouteCompiler.Proofs.Yaml.Style
import RouteCompiler.Proofs.Loading
import RouteCompiler.Proofs.Endpoint.Uri
import RouteCompiler.Proofs.Endpoint.Options
import RouteCompiler.Proofs.Endpoint.Scheme
import RouteCompiler.Project.Session
import RouteCompiler.Proofs.Project.Session
import RouteCompiler.Proofs.Endpoint.Query
import RouteCompiler.Proofs.Files.Closed
import RouteCompiler.Proofs.Project.Obstruction
import RouteCompiler.Proofs.Project.Effect
import RouteCompiler.Proofs.Project.Dependencies
import RouteCompiler.Proofs.Text.Literal
import RouteCompiler.Proofs.Json.Shown
import RouteCompiler.Proofs.Rule.Literal
import RouteCompiler.Proofs.Project.Readme
import RouteCompiler.Proofs.Rule.Outcome
import RouteCompiler.Proofs.Request.SecretDefaults
import RouteCompiler.Proofs.Endpoint.FilledDefaults
import RouteCompiler.Proofs.Project.SecretDefaults
import RouteCompiler.Proofs.Text.UnicodeEscape
import RouteCompiler.Proofs.Text.PropertyLines
import RouteCompiler.Proofs.Text.SourceComment
import RouteCompiler.Proofs.Project.PastedText
import RouteCompiler.Proofs.OrderedMap.Overlay
import RouteCompiler.Proofs.Request.Flattening
import RouteCompiler.Proofs.Endpoint.PropertyMap
import RouteCompiler.Proofs.Text.Pieces
import RouteCompiler.Proofs.Coordinate
import RouteCompiler.Proofs.StepCursor
