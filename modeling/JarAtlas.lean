import JarAtlas.Main
import JarAtlas.Script.Tools
import JarAtlas.World
import JarAtlas.Proofs.Manifest.WellFormed
import JarAtlas.Proofs.Text.EndedLine
import JarAtlas.Proofs.Manifest.Rendering
import JarAtlas.Proofs.Manifest.Description
import JarAtlas.Proofs.Dot.Escaping
import JarAtlas.Proofs.Dot.Label
import JarAtlas.Proofs.Dot.PackageList
import JarAtlas.Proofs.Dot.ManifestShape
import JarAtlas.Proofs.Dot.ManifestPicture
import JarAtlas.Proofs.Dot.Picture
import JarAtlas.Proofs.Dot.ModuleDiagram
import JarAtlas.Proofs.Modules.Classification
import JarAtlas.Proofs.Modules.Synthesis
import JarAtlas.Proofs.Archive.Opening
import JarAtlas.Proofs.Path
import JarAtlas.Proofs.FileTree.Access
import JarAtlas.Proofs.Command.Files
import JarAtlas.Proofs.Command.Inspect
import JarAtlas.Proofs.Repository.Fetch
import JarAtlas.Proofs.FileTree.Directories
import JarAtlas.Proofs.Repository.LocalFetch
import JarAtlas.Proofs.Path.Joined
import JarAtlas.Proofs.Url.Segments
import JarAtlas.Proofs.Repository.Stored
import JarAtlas.Proofs.Repository.WebFetch
import JarAtlas.Proofs.Url.Folder
import JarAtlas.Proofs.Url.Join
import JarAtlas.Proofs.Repository.Coordinate
import JarAtlas.Proofs.Repository.Location
import JarAtlas.Proofs.Command.Output
import JarAtlas.Proofs.Dot.LayeredGroups
import JarAtlas.Proofs.Modules.Layers
import JarAtlas.Proofs.Modules.Operations
import JarAtlas.Proofs.Bytes
import JarAtlas.Proofs.Command.Drawing
import JarAtlas.Proofs.Text.Utf8
import JarAtlas.Proofs.Zip.Image
import JarAtlas.Proofs.Archive.PlainImage
import JarAtlas.Proofs.Manifest.Continuation
import JarAtlas.Proofs.Text.Utf8Pieces
import JarAtlas.Proofs.Archive.FoldedValue
import JarAtlas.Proofs.Dot.Clauses
import JarAtlas.Proofs.Dot.QuotedText
import JarAtlas.Proofs.Modules.ClassName
import JarAtlas.Proofs.Modules.Agreement
import JarAtlas.Proofs.Manifest.MainSection
import JarAtlas.Proofs.Manifest.Pairs
import JarAtlas.Proofs.Path.LastName
import JarAtlas.Proofs.Render.ImagePath
import JarAtlas.Proofs.Command.Images
import JarAtlas.Proofs.Manifest.Rows
import JarAtlas.Proofs.Json.Reading
import JarAtlas.Proofs.Json.Lossless
import JarAtlas.Proofs.Settings
