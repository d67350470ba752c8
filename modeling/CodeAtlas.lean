import CodeAtlas.Analysis
import CodeAtlas.Audit
import CodeAtlas.Audit.Markdown
import CodeAtlas.Audit.Percent
import CodeAtlas.CallSite
import CodeAtlas.Command.Arguments
import CodeAtlas.Command.Run
import CodeAtlas.Config
import CodeAtlas.Config.Decode
import CodeAtlas.Corpus
import CodeAtlas.Decimal.Binary
import CodeAtlas.Decimal.Shortest
import CodeAtlas.Extent
import CodeAtlas.FileStore
import CodeAtlas.FileTree
import CodeAtlas.Graph
import CodeAtlas.Graph.Builder
import CodeAtlas.Graph.Compact
import CodeAtlas.Graph.Dot
import CodeAtlas.Health
import CodeAtlas.Inventory
import CodeAtlas.Inventory.Document
import CodeAtlas.Json
import CodeAtlas.Main
import CodeAtlas.NameMap
import CodeAtlas.Path
import CodeAtlas.PathMap
import CodeAtlas.Pattern
import CodeAtlas.ReferenceSet
import CodeAtlas.Resolution
import CodeAtlas.Scan
import CodeAtlas.Shape
import CodeAtlas.SourceUnit
import CodeAtlas.SymbolTable
import CodeAtlas.Text.Case
import CodeAtlas.Text.CaseMap
import CodeAtlas.Text.CharSet
import CodeAtlas.Text.Line
import CodeAtlas.Text.Quoted
import CodeAtlas.Text.Search
import CodeAtlas.Text.Space
import CodeAtlas.Text.Utf8
import CodeAtlas.Text.Word
import CodeAtlas.Toml.Document
import CodeAtlas.Toml.Scalar
import CodeAtlas.Toml.Value
import CodeAtlas.Proofs.GraphRun
import CodeAtlas.Proofs.EdgeListing
import CodeAtlas.Proofs.GraphBuilding
import CodeAtlas.Proofs.GraphPart
import CodeAtlas.Proofs.NameMapLookup
import CodeAtlas.Proofs.Ownership
import CodeAtlas.Proofs.DependencyGraph
import CodeAtlas.Proofs.Loading
import CodeAtlas.Proofs.ResolutionCount
import CodeAtlas.Proofs.UnitOrder
import CodeAtlas.Proofs.AppendedUnit
import CodeAtlas.Proofs.FileClasses
import CodeAtlas.Proofs.UnloadedFiles
import CodeAtlas.Proofs.CanonicalRendering
import CodeAtlas.Proofs.Reading
import CodeAtlas.Proofs.DotReading
import CodeAtlas.Proofs.JsonReading
import CodeAtlas.Proofs.CompactReading
import CodeAtlas.Proofs.CallSiteCount
import CodeAtlas.Proofs.AuditLoading
import CodeAtlas.Proofs.AuditTraversal
import CodeAtlas.Proofs.ShapeReading
import CodeAtlas.Proofs.DeclaredCall
import CodeAtlas.Proofs.LossyDecoding
import CodeAtlas.Proofs.PathComponents
import CodeAtlas.Proofs.ShownPaths
import CodeAtlas.Proofs.AuditAccount
import CodeAtlas.Proofs.SkippedFolders
import CodeAtlas.Proofs.IndentedReading
import CodeAtlas.Proofs.InventoryReading
import CodeAtlas.Proofs.FileWriting
import CodeAtlas.Proofs.CommandEffects
import CodeAtlas.Proofs.ByteOrder
import CodeAtlas.Proofs.SymbolTableContent
import CodeAtlas.Proofs.PieceMeaning
import CodeAtlas.Proofs.PieceReadings
import CodeAtlas.Proofs.Places
import CodeAtlas.Proofs.Occurrences
import CodeAtlas.Proofs.StatementLocality
import CodeAtlas.Proofs.BraceCount
import CodeAtlas.Proofs.HealthLocality
import CodeAtlas.Proofs.LineSearch
import CodeAtlas.Proofs.HealthFlags
import CodeAtlas.Proofs.CallSiteHistory
import CodeAtlas.Proofs.RecordRules
import CodeAtlas.Proofs.ExtractedRecords
import CodeAtlas.Proofs.ExtractAppend
import CodeAtlas.Proofs.FirstPaths
import CodeAtlas.Proofs.FileKeys
import CodeAtlas.Proofs.ScannedFiles
import CodeAtlas.Proofs.MarkdownLines
import CodeAtlas.Proofs.MarkdownFigures
import CodeAtlas.Proofs.StrictDecoding
import CodeAtlas.Proofs.ExtentWords
import CodeAtlas.Proofs.TomlKeys
import CodeAtlas.Proofs.RecordDecoding
import CodeAtlas.Proofs.ConfigDecoding
