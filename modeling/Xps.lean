import Xps.Archive.Basic
import Xps.Archive.FileTree
import Xps.Bytes
import Xps.Canvas.Basic
import Xps.Canvas.Clip
import Xps.Canvas.Edge
import Xps.Canvas.Pixel
import Xps.Canvas.PngFile
import Xps.Cli.Argument
import Xps.Cli.Console
import Xps.Cli.Invocation
import Xps.Cli.Run
import Xps.Cli.Transcript
import Xps.Document.Lexical
import Xps.Document.Reader
import Xps.Element.Kind
import Xps.Element.Node
import Xps.Error
import Xps.Font.Cache
import Xps.Font.CharacterMap
import Xps.Font.CompactFont
import Xps.Font.Database
import Xps.Font.Face
import Xps.Font.GlyphOutline
import Xps.Font.GlyphPoints
import Xps.Font.GlyphProgram
import Xps.Font.GlyphProgram.Instruction
import Xps.Font.GlyphProgram.Shape
import Xps.Font.Names
import Xps.Font.Obfuscation
import Xps.Font.Provider
import Xps.Font.Records
import Xps.Geometry.Matrix
import Xps.Geometry.Rect
import Xps.Geometry.Size
import Xps.Geometry.Transform
import Xps.Image.Checksum
import Xps.Image.Deflate
import Xps.Image.Huffman
import Xps.Image.Inflate
import Xps.Image.Jpeg
import Xps.Image.Jpeg.BitStream
import Xps.Image.Jpeg.Block
import Xps.Image.Jpeg.Color
import Xps.Image.Jpeg.Cosine
import Xps.Image.Jpeg.Header
import Xps.Image.Jpeg.Plane
import Xps.Image.Jpeg.Scan
import Xps.Image.Jpeg.StandardCode
import Xps.Image.Png
import Xps.Image.Png.Info
import Xps.Image.Png.TextChunk
import Xps.Image.Raster
import Xps.Journal
import Xps.Main
import Xps.Markup.Attributes
import Xps.Markup.Error
import Xps.Markup.Reader
import Xps.Markup.Reference
import Xps.Markup.Tag
import Xps.Notice
import Xps.Number.Decimal
import Xps.Number.Shortest
import Xps.Number.Single
import Xps.Outline
import Xps.Package.Basic
import Xps.Page.Basic
import Xps.Page.Context
import Xps.Page.Glyphs
import Xps.Page.Painter
import Xps.Page.Rendering
import Xps.Page.TextCollector
import Xps.Paint.Basic
import Xps.Paint.Brush
import Xps.Paint.Color
import Xps.PartName
import Xps.PathData.Reader
import Xps.PathData.Segment
import Xps.PathData.Token
import Xps.Text.Blank
import Xps.Text.Digit
import Xps.Text.Quoted
import Xps.Text.Split
import Xps.Text.Visible
import Xps.TextLayout.Basic
import Xps.Proofs.Element.Closed
import Xps.Proofs.Element.Forest
import Xps.Proofs.Page.TreePainter
import Xps.Proofs.Page.Streaming
import Xps.Proofs.Journal.View
import Xps.Proofs.Markup.Online
import Xps.Proofs.Page.Truncation
import Xps.Proofs.Journal.Reports
import Xps.Proofs.Package.Confinement
import Xps.Proofs.Font.Embedded
import Xps.Proofs.Page.FontAgreement
import Xps.Proofs.Package.Transparency
import Xps.Proofs.PathData.Grammar
import Xps.Proofs.PathData.Lookahead
import Xps.Proofs.PathData.Reading
import Xps.Proofs.Journal.Nesting
import Xps.Proofs.Element.Opened
import Xps.Proofs.Page.Follower
import Xps.Proofs.Page.SavedStates
import Xps.Proofs.Font.Requests
import Xps.Proofs.Page.FontUse
import Xps.Proofs.Markup.Nested
import Xps.Proofs.Page.TextPlacement
import Xps.Proofs.Page.FollowedFrames
import Xps.Proofs.Page.SharedFrames
import Xps.Proofs.Markup.WellNested
import Xps.Proofs.Page.CleanEnd
import Xps.Proofs.Font.History
import Xps.Proofs.Page.Surfaces
import Xps.Proofs.PathData.Continuation
import Xps.Proofs.Package.Contents
import Xps.Proofs.Archive.FileTree
import Xps.Proofs.Archive.Stored
import Xps.Proofs.Package.Interchange
import Xps.Proofs.Font.Recalled
import Xps.Proofs.Page.SideBySide
import Xps.Proofs.Page.Deletion
import Xps.Proofs.Page.Wrapping
import Xps.Proofs.PathData.Course
import Xps.Proofs.PathData.SmoothCurves
import Xps.Proofs.Markup.RootTag
import Xps.Proofs.Page.Header
import Xps.Proofs.Font.GuidText
import Xps.Proofs.Font.Loading
import Xps.Proofs.Font.KeyText
import Xps.Proofs.PathData.PenPlace
import Xps.Proofs.Page.GlyphBoxes
import Xps.Proofs.PathData.Respelling
import Xps.Proofs.PathData.Subpaths
import Xps.Proofs.PartName.Composition
import Xps.Proofs.Font.FaceStore
import Xps.Proofs.Font.IssuedIds
import Xps.Proofs.Element.Taking
import Xps.Proofs.Page.HandedUp
import Xps.Proofs.Text.Utf8
import Xps.Proofs.PathData.Bytes
import Xps.Proofs.PathData.Demand
