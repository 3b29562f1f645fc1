import SourceChunks.Main
import SourceChunks.Proofs.Chunk.LineSpans
import SourceChunks.Proofs.Files.Traversal
import SourceChunks.Proofs.Pipeline.JsonLines
import SourceChunks.Proofs.Pipeline.Offering
import SourceChunks.Proofs.Scan.Pulling
import SourceChunks.Proofs.Files.Resolving
import SourceChunks.Proofs.Files.Writing
import SourceChunks.Proofs.Scan.Undisturbed
import SourceChunks.Proofs.CommandLine.Effects
import SourceChunks.Proofs.Scan.TrackedPaths
import SourceChunks.Proofs.Scan.Sources
import SourceChunks.Proofs.Parsing.NameNodes
import SourceChunks.Proofs.Parsing.Places
import SourceChunks.Proofs.Language.Names
import SourceChunks.Proofs.Extraction
import SourceChunks.Proofs.Chunk.FileNames
import SourceChunks.Proofs.Chunk.Ids
import SourceChunks.Proofs.Chunk.Keys
import SourceChunks.Proofs.Chunk.Shapes
import SourceChunks.Proofs.Files.Spelling
import SourceChunks.Proofs.Scan.Reports
import SourceChunks.Proofs.Chunk.Languages
import SourceChunks.Proofs.Scan.Conservation
import SourceChunks.Proofs.Scan.Placement
import SourceChunks.Proofs.Scan.Tightening
import SourceChunks.Proofs.Scan.IndexListing
import SourceChunks.Proofs.Files.Outlines
import SourceChunks.Proofs.Scan.Independence
import SourceChunks.Proofs.Text.Parts
import SourceChunks.Proofs.Scan.RecordedSizes
import SourceChunks.Proofs.Chunk.Clamping
import SourceChunks.Proofs.Chunk.Tilings
import SourceChunks.Proofs.Chunk.UnitNames
import SourceChunks.Proofs.Glob.Literals
import SourceChunks.Proofs.Ignore
import SourceChunks.Proofs.Chunk.QueryBlocks
import SourceChunks.Proofs.Tree.Ranges
import SourceChunks.Proofs.Chunk.NodeSpans
import SourceChunks.Proofs.Chunk.Imports
import SourceChunks.Proofs.Chunk.Digits
import SourceChunks.Proofs.Language.Extensions
