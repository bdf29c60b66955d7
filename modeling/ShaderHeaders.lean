import ShaderHeaders.Text.Utf8
import ShaderHeaders.Text.Decimal
import ShaderHeaders.Text.Printable
import ShaderHeaders.Text.Quoted
import ShaderHeaders.Glsl.TypeName
import ShaderHeaders.Glsl.Token
import ShaderHeaders.Glsl.Lexer
import ShaderHeaders.Glsl.Signature
import ShaderHeaders.Glsl.Header
import ShaderHeaders.Glsl.HeaderParser
import ShaderHeaders.Text.Lines
import ShaderHeaders.Glsl.Malformed
import ShaderHeaders.Glsl.Definition
import ShaderHeaders.Glsl.Prototype
import ShaderHeaders.Json.Value
import ShaderHeaders.Json.Reader
import ShaderHeaders.Json.Decode
import ShaderHeaders.Store.Bolt
import ShaderHeaders.Store.Table
import ShaderHeaders.Glsl.Json
import ShaderHeaders.Text.Timestamp
import ShaderHeaders.Chunk.Basic
import ShaderHeaders.Chunk.Json
import ShaderHeaders.Chunk.Link
import ShaderHeaders.Catalog.Basic
import ShaderHeaders.Path
import ShaderHeaders.Config.Basic
import ShaderHeaders.Glob
import ShaderHeaders.Files.Tree
import ShaderHeaders.Log
import ShaderHeaders.Chunk.Scan
import ShaderHeaders.Yaml.Token
import ShaderHeaders.Yaml.Scanner
import ShaderHeaders.Yaml.Resolve
import ShaderHeaders.Yaml.Compose
import ShaderHeaders.Yaml.Emit
import ShaderHeaders.Config.Load
import ShaderHeaders.Cli.Flags
import ShaderHeaders.Cli.Command
import ShaderHeaders.Cli.Report
import ShaderHeaders.Cli.Run
import ShaderHeaders.Main
import ShaderHeaders.Proofs.Words
import ShaderHeaders.Proofs.TokenStream
import ShaderHeaders.Proofs.HeaderText
import ShaderHeaders.Proofs.HeaderReading
import ShaderHeaders.Proofs.FirstDefinition
import ShaderHeaders.Proofs.PrototypeLines
import ShaderHeaders.Proofs.RoundTrip
import ShaderHeaders.Proofs.Appending
import ShaderHeaders.Proofs.LinkResolution
import ShaderHeaders.Proofs.PathText
import ShaderHeaders.Proofs.FileTree
import ShaderHeaders.Proofs.Lexemes
import ShaderHeaders.Proofs.TokenPositions
import ShaderHeaders.Proofs.ErrorContext
import ShaderHeaders.Proofs.ScannedChunks
import ShaderHeaders.Proofs.HeaderPositions
import ShaderHeaders.Proofs.JsonText
import ShaderHeaders.Proofs.SignatureJson
import ShaderHeaders.Proofs.TimestampText
import ShaderHeaders.Proofs.ChunkJson
import ShaderHeaders.Proofs.TableLaws
import ShaderHeaders.Proofs.LawfulStore
import ShaderHeaders.Proofs.CatalogIndex
import ShaderHeaders.Proofs.CatalogReplay
import ShaderHeaders.Proofs.CommandSteps
import ShaderHeaders.Proofs.IndexedProject
