import SpriteScript.Binary64
import SpriteScript.Decimal
import SpriteScript.Literal
import SpriteScript.Keyed
import SpriteScript.Entity
import SpriteScript.Project
import SpriteScript.Identifier
import SpriteScript.Scope
import SpriteScript.Notice
import SpriteScript.LoadError
import SpriteScript.Json.Value
import SpriteScript.Json.Printer
import SpriteScript.Json.Fault
import SpriteScript.Json.Number
import SpriteScript.Json.Reader
import SpriteScript.Loading
import SpriteScript.Source.Piece
import SpriteScript.Source.Literal
import SpriteScript.Source.Call
import SpriteScript.Source.Entity
import SpriteScript.Text.CodePage
import SpriteScript.Text.Utf8
import SpriteScript.Text.CaseTable
import SpriteScript.Text.Lowercase
import SpriteScript.FileName
import SpriteScript.Path
import SpriteScript.FileTree
import SpriteScript.Archive.Crc32
import SpriteScript.Archive.Field
import SpriteScript.Archive.EndRecord
import SpriteScript.Archive.Entry
import SpriteScript.Archive.ExtraField
import SpriteScript.Archive.Huffman
import SpriteScript.Archive.Inflate
import SpriteScript.Archive.Directory
import SpriteScript.Archive.Extract
import SpriteScript.Archive.Stored
import SpriteScript.Conversion
import SpriteScript.Command.Arguments
import SpriteScript.Command.Progress
import SpriteScript.Command.Run
import SpriteScript.Main
import SpriteScript.Proofs.Blocks
import SpriteScript.Proofs.NumberText
import SpriteScript.Proofs.SelectedPlaces
import SpriteScript.Proofs.ShortestDecimal
import SpriteScript.Proofs.Tokens
import SpriteScript.Proofs.Layout
import SpriteScript.Proofs.Unambiguity
import SpriteScript.Proofs.LoadingSteps
import SpriteScript.Proofs.TargetOrder
import SpriteScript.Proofs.Acceptance
import SpriteScript.Proofs.KeyedLaws
import SpriteScript.Proofs.ParsedValues
import SpriteScript.Proofs.LoadedEntities
import SpriteScript.Proofs.Agreement
import SpriteScript.Proofs.Restating
import SpriteScript.Proofs.NumberExactness
import SpriteScript.Proofs.WholeNumbers
import SpriteScript.Proofs.FileTreeLaws
import SpriteScript.Proofs.FileNames
import SpriteScript.Proofs.SplitOutput
import SpriteScript.Proofs.OutputModes
import SpriteScript.Proofs.LiteralScan
import SpriteScript.Proofs.SourceStructure
import SpriteScript.Proofs.CostumeIndex
import SpriteScript.Proofs.Resolution
import SpriteScript.Proofs.MergedEntries
import SpriteScript.Proofs.SourceLines
import SpriteScript.Proofs.Indentation
import SpriteScript.Proofs.LoadingNotices
import SpriteScript.Proofs.LiteralEnd
import SpriteScript.Proofs.TargetByName
import SpriteScript.Proofs.RunEffects
import SpriteScript.Proofs.InputKept
import SpriteScript.Proofs.NameSearch
import SpriteScript.Proofs.NameCollisions
import SpriteScript.Proofs.WrittenValues
import SpriteScript.Proofs.LoadedProjects
import SpriteScript.Proofs.StoredArchives
import SpriteScript.Proofs.ArchivedProjects
